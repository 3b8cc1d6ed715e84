import LnNode.Lib.BlockTree

/-!
# The on-chain wallet

Transactions, blocks, and what `WalletManager` does with the BDK wallet behind its mutex: applying
blocks, listing unspent outputs, the confirmed balance, and building a funding transaction.

BDK itself is code outside the repository. Its local chain is modelled by the tip, which names all
of its ancestors; its transaction graph by the transactions of every block ever applied, where a
parameter decides which of those that are off the chain still count; and what only BDK decides about
a build (coin selection, fees, signing) by a `TxBuilder`, whose coin selection carries the promise to
pick unspent outputs that cover the amount and the fee.
-/

namespace LnNode.OnchainWallet

open LnNode.Lib.BlockTree

/-! ### Transactions and blocks -/

/-- Transaction ids and scripts, as numbers. -/
abbrev Txid := ℕ

abbrev Script := ℕ

structure OutPoint where
  txid : Txid
  vout : ℕ
  deriving DecidableEq, Repr

/-- An output; its value is in sats, of which there are fewer than `2 ^ 51`. -/
structure TxOut where
  value : ℕ
  scriptPubkey : Script
  deriving DecidableEq, Repr

structure Transaction where
  txid : Txid
  input : List OutPoint
  output : List TxOut
  isCoinbase : Bool := false
  deriving DecidableEq, Repr

/-- The header of a block beyond its parent, as a number, and its transactions. -/
structure Block where
  header : ℕ
  txdata : List Transaction
  deriving DecidableEq, Repr

/-- The transactions of a chain, each with the height of its block. -/
def chainTxs : Chain Block → List (ℕ × Transaction)
  | [] => []
  | b :: c => b.txdata.map (c.length + 1, ·) ++ chainTxs c

/-! ### The BDK wallet -/

/-- What the wallet knows: its own scripts, the tip of its local chain, every transaction it has seen
in a block, and which of the latter still count when their block has left the chain. -/
structure BdkWallet where
  isMine : Script → Bool
  latestCheckpoint : Chain Block
  graph : List Transaction
  unconfirmedCanonical : Chain Block → List Transaction → List Transaction

def tipTxs (block : Chain Block) : List Transaction := (block.head?.map Block.txdata).getD []

/-- The wallet after a block was applied. A block of the local chain leaves the tip where it is, and any
other becomes the tip. -/
def BdkWallet.advance (w : BdkWallet) (block : Chain Block) : BdkWallet :=
  { w with
    latestCheckpoint := if block <:+ w.latestCheckpoint then w.latestCheckpoint else block
    graph := (tipTxs block).filter (fun tx => !w.graph.contains tx) ++ w.graph }

/-- A block is connected to the block it names as its parent, if the local chain has that one; what
stood above the parent is replaced, unless it is the block itself and what was built on it. -/
def BdkWallet.applyBlockConnectedTo (w : BdkWallet) (block connectedTo : Chain Block) :
    Option BdkWallet :=
  if connectedTo <:+ w.latestCheckpoint then some (w.advance block) else none

def BdkWallet.applyBlock (w : BdkWallet) (block : Chain Block) : Option BdkWallet :=
  w.applyBlockConnectedTo block block.tail

def BdkWallet.confirmedTxs (w : BdkWallet) : List (ℕ × Transaction) := chainTxs w.latestCheckpoint

/-- The canonical history: what is confirmed, and what still counts of the rest. -/
def BdkWallet.canonicalTxs (w : BdkWallet) : List (Option ℕ × Transaction) :=
  w.confirmedTxs.map (fun tx => (some tx.1, tx.2)) ++
    (w.unconfirmedCanonical w.latestCheckpoint w.graph).map (none, ·)

structure Utxo where
  outpoint : OutPoint
  txout : TxOut
  confirmedAt : Option ℕ
  isCoinbase : Bool
  deriving DecidableEq, Repr

def BdkWallet.ownOutputs (w : BdkWallet) (tx : Option ℕ × Transaction) : List Utxo :=
  (tx.2.output.zipIdx.filter fun out => w.isMine out.1.scriptPubkey).map fun out =>
    { outpoint := ⟨tx.2.txid, out.2⟩, txout := out.1, confirmedAt := tx.1
      isCoinbase := tx.2.isCoinbase }

/-- Every output of the canonical history that no canonical transaction spends. -/
def BdkWallet.listUnspent (w : BdkWallet) : List Utxo :=
  let canonical := w.canonicalTxs
  (canonical.flatMap w.ownOutputs).filter fun utxo =>
    !canonical.any (·.2.input.contains utxo.outpoint)

def coinbaseMaturity : ℕ := 100

/-- A confirmed output that may be spent at the tip; a coinbase waits until it is mature. -/
def BdkWallet.isMature (w : BdkWallet) (utxo : Utxo) : Bool :=
  match utxo.confirmedAt with
  | none => false
  | some height =>
    !utxo.isCoinbase || decide (coinbaseMaturity ≤ w.latestCheckpoint.length - height + 1)

/-- `balance().confirmed`: the sum of the confirmed and mature unspent outputs. -/
def BdkWallet.confirmedBalance (w : BdkWallet) : ℕ :=
  ((w.listUnspent.filter w.isMature).map fun utxo => utxo.txout.value).sum

/-! ### `WalletManager` -/

/-- A call that fails returns an error, or panics. -/
inductive Failure where
  | error (message : String)
  | panic
  deriving DecidableEq, Repr

/-- The wallet behind its mutex, which a panic of the thread that holds it poisons. -/
structure WalletManager where
  bdkWallet : BdkWallet
  poisoned : Bool := false

/-- `lock().unwrap()`. -/
def WalletManager.lock (m : WalletManager) : Option BdkWallet :=
  if m.poisoned then none else some m.bdkWallet

lemma WalletManager.lock_of_unpoisoned {m : WalletManager} (hp : m.poisoned = false) :
    m.lock = some m.bdkWallet := by
  simp [WalletManager.lock, hp]

lemma WalletManager.lock_of_poisoned {m : WalletManager} (hp : m.poisoned = true) :
    m.lock = none := by
  simp [WalletManager.lock, hp]

/-- A choice of unspent outputs for an amount at a fee rate, and the fee it pays. -/
structure CoinSelection where
  select : List Utxo → ℕ → ℕ → Option (List Utxo × ℕ)
  /-- Only outputs it was offered are chosen. -/
  sub : ∀ utxos amount feeRate chosen fee, select utxos amount feeRate = some (chosen, fee) →
    ∀ utxo ∈ chosen, utxo ∈ utxos
  /-- What is chosen covers the amount and the fee. -/
  covers : ∀ utxos amount feeRate chosen fee, select utxos amount feeRate = some (chosen, fee) →
    amount + fee ≤ (chosen.map fun utxo => utxo.txout.value).sum

/-- What BDK decides during one build: the coins, or the error without them, the id and the change
script of the transaction, whether signing succeeds and finalizes, and whether the signed transaction
can be extracted. -/
structure TxBuilder where
  coinSelection : CoinSelection
  finishError : String
  txid : List OutPoint → List TxOut → Txid
  changeScript : Script
  sign : Except String Bool
  extractTx : Except String Unit

/-- The transaction of a build: the recipient first, and the change if there is any. -/
def TxBuilder.transaction (b : TxBuilder) (chosen : List Utxo) (fee amount : ℕ) (dest : Script) :
    Transaction :=
  let input := chosen.map Utxo.outpoint
  let change := (chosen.map fun utxo => utxo.txout.value).sum - amount - fee
  let output := { value := amount, scriptPubkey := dest } ::
    (if change = 0 then [] else [{ value := change, scriptPubkey := b.changeScript }])
  { txid := b.txid input output, input, output }

def notEnoughFunds (amount : ℕ) : String :=
  s!"Not enough funds to create transaction for {amount} sats"

def buildTransaction (m : WalletManager) (b : TxBuilder) (amount : ℕ) (dest : Script)
    (feeRate : ℕ) : Except Failure Transaction :=
  match m.lock with
  | none => .error .panic
  | some w =>
    if w.confirmedBalance < amount then .error (.error (notEnoughFunds amount))
    else
      match b.coinSelection.select w.listUnspent amount feeRate with
      | none => .error (.error b.finishError)
      | some (chosen, fee) =>
        match b.sign with
        | .error e => .error (.error e)
        | .ok false => .error (.error "Could not sign transaction")
        | .ok true =>
          match b.extractTx with
          | .error e => .error (.error e)
          | .ok () => .ok (b.transaction chosen fee amount dest)

/-! ### What a build uses -/

/-- The outpoints the wallet still counts as unspent. -/
def BdkWallet.unspentOutpoints (w : BdkWallet) : List OutPoint :=
  w.listUnspent.map Utxo.outpoint

/-- **The builds that go through**: the balance covers the amount, BDK selects coins and signs, and the
transaction spends the coins that were selected. -/
theorem buildTransaction_eq_ok {m : WalletManager} {b : TxBuilder} {amount feeRate : ℕ} {dest : Script}
    {tx : Transaction} : buildTransaction m b amount dest feeRate = .ok tx ↔
      m.poisoned = false ∧ amount ≤ m.bdkWallet.confirmedBalance ∧ b.sign = .ok true ∧
        b.extractTx = .ok () ∧ ∃ chosen fee,
          b.coinSelection.select m.bdkWallet.listUnspent amount feeRate = some (chosen, fee) ∧
          tx = b.transaction chosen fee amount dest := by
  unfold buildTransaction WalletManager.lock
  cases hp : m.poisoned with
  | true => simp
  | false =>
    by_cases hbal : m.bdkWallet.confirmedBalance < amount
    · simp [hbal]
    · simp only [Bool.false_eq_true, if_false, hbal, true_and, Nat.not_lt.mp hbal]
      cases hsel : b.coinSelection.select m.bdkWallet.listUnspent amount feeRate with
      | none => simp
      | some selected =>
        obtain ⟨chosen, fee⟩ := selected
        rcases hsign : b.sign with e | _ | _
        · simp
        · simp
        · rcases hextract : b.extractTx with e | _ <;> simp [eq_comm]

/-- **A transaction that was built spends outputs of the wallet** that are unspent at that moment,
worth at least the amount asked for. -/
theorem buildTransaction_ok {m : WalletManager} {b : TxBuilder} {amount feeRate : ℕ} {dest : Script}
    {tx : Transaction} (h : buildTransaction m b amount dest feeRate = .ok tx) :
    m.poisoned = false ∧ amount ≤ m.bdkWallet.confirmedBalance ∧
      ∀ o ∈ tx.input, o ∈ m.bdkWallet.unspentOutpoints := by
  obtain ⟨hp, hbal, -, -, chosen, fee, hsel, rfl⟩ := buildTransaction_eq_ok.mp h
  refine ⟨hp, hbal, fun o ho => ?_⟩
  obtain ⟨utxo, hutxo, rfl⟩ := List.mem_map.mp ho
  exact List.mem_map.mpr ⟨utxo, b.coinSelection.sub _ _ _ _ _ hsel utxo hutxo, rfl⟩

section ApplyBlock

variable {w w' : BdkWallet} {b c : Chain Block}

theorem applyBlock_eq_some :
    w.applyBlock b = some w' ↔ b.tail <:+ w.latestCheckpoint ∧ w' = w.advance b := by
  unfold BdkWallet.applyBlock BdkWallet.applyBlockConnectedTo
  split_ifs with h
  · simp only [Option.some.injEq, h, true_and, eq_comm]
  · simp [h]

lemma applyBlock_eq_none : w.applyBlock b = none ↔ ¬ b.tail <:+ w.latestCheckpoint := by
  unfold BdkWallet.applyBlock BdkWallet.applyBlockConnectedTo
  split_ifs with h <;> simp [h]

lemma advance_of_not_suffix (h : ¬ b <:+ w.latestCheckpoint) : (w.advance b).latestCheckpoint = b :=
  if_neg h

lemma advance_child (x : Block) (c : Chain Block) (hc : c = w.latestCheckpoint) :
    (w.advance (x :: c)).latestCheckpoint = x :: c := by
  refine advance_of_not_suffix fun h => ?_
  have hlen := h.length_le
  rw [← hc, List.length_cons] at hlen
  omega

lemma suffix_advance (w : BdkWallet) (b : Chain Block) : b <:+ (w.advance b).latestCheckpoint := by
  rw [BdkWallet.advance]
  split_ifs with h
  · exact h
  · exact List.suffix_refl b

lemma applyBlock_child (x : Block) (h : c <:+ w.latestCheckpoint) :
    w.applyBlock (x :: c) = some (w.advance (x :: c)) :=
  applyBlock_eq_some.mpr ⟨h, rfl⟩

end ApplyBlock

/-! ### The smallest blocks, wallets and builders -/

def emptyBlock (header : ℕ) : Block := { header, txdata := [] }

/-- A wallet at the root of the chain, with no script of its own. -/
def loadedWallet : BdkWallet where
  isMine _ := false
  latestCheckpoint := []
  graph := []
  unconfirmedCanonical _ _ := []

def payingBlock : Block where
  header := 1
  txdata := [{ txid := 7, input := [⟨1, 0⟩], output := [{ value := 50000, scriptPubkey := 3 }] }]

def paidWallet : BdkWallet where
  isMine script := script == 3
  latestCheckpoint := [payingBlock]
  graph := payingBlock.txdata
  unconfirmedCanonical _ _ := []

/-- Coins in the order they are listed, up to the amount, without a fee. -/
def takeCoins : List Utxo → ℕ → Option (List Utxo)
  | _, 0 => some []
  | [], _ + 1 => none
  | utxo :: utxos, amount + 1 => (takeCoins utxos (amount + 1 - utxo.txout.value)).map (utxo :: ·)

lemma takeCoins_mem {utxos chosen : List Utxo} {amount : ℕ} (h : takeCoins utxos amount = some chosen) :
    (∀ utxo ∈ chosen, utxo ∈ utxos) ∧ amount ≤ (chosen.map fun utxo => utxo.txout.value).sum := by
  induction utxos generalizing amount chosen with
  | nil =>
    cases amount with
    | zero =>
      cases h
      simp
    | succ amount => cases h
  | cons utxo utxos ih =>
    cases amount with
    | zero =>
      cases h
      simp
    | succ amount =>
      obtain ⟨rest, hrest, rfl⟩ := Option.map_eq_some_iff.mp h
      obtain ⟨hsub, hsum⟩ := ih hrest
      refine ⟨fun u hu => ?_, ?_⟩
      · rcases List.mem_cons.mp hu with rfl | hu
        · exact List.mem_cons_self
        · exact List.mem_cons_of_mem _ (hsub u hu)
      · simp only [List.map_cons, List.sum_cons]
        omega

/-- The simplest builder: the first coins, no fee, and a signature that is always there. -/
def firstCoins : TxBuilder where
  coinSelection := {
    select := fun utxos amount _ => (takeCoins utxos amount).map (·, 0)
    sub := by
      intro utxos amount _ chosen fee h
      obtain ⟨c, hc, he⟩ := Option.map_eq_some_iff.mp h
      cases he
      exact (takeCoins_mem hc).1
    covers := by
      intro utxos amount _ chosen fee h
      obtain ⟨c, hc, he⟩ := Option.map_eq_some_iff.mp h
      cases he
      simpa using (takeCoins_mem hc).2 }
  finishError := "Insufficient funds"
  txid input output := input.length + output.length
  changeScript := 0
  sign := .ok true
  extractTx := .ok ()

end LnNode.OnchainWallet
