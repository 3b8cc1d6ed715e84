import LnNode.ChainConsumers
import LnNode.Node.Funding

/-!
# The coins that pay for a force-close

LDK bumps the fees of its transactions with coins from `list_confirmed_utxos`. The wallet hands on all
that BDK lists as unspent, among it what an immature coinbase or a transaction whose block has left the
chain pays. The confirmed balance counts neither.

* `sum_listConfirmedUtxos`: what is listed is worth the confirmed balance and what cannot be spent;
* `always_listsSpendable_iff`: the runs in which the list is right throughout;
* `always_listsSpendable_growing`: a chain that only grows, and pays the wallet no coinbase, shows no
  difference.
-/

namespace LnNode.Node.ConfirmedUtxos

open LnNode.Lib.BlockTree LnNode.Lib.Run LnNode.OnchainWallet LnNode.BitcoindClient
  LnNode.ChainConsumers LnNode.Node.Funding

/-! ### `list_confirmed_utxos` -/

structure LdkUtxo where
  outpoint : OutPoint
  output : TxOut
  satisfactionWeight : ℕ
  deriving DecidableEq, Repr

def ldkUtxo (utxo : Utxo) : LdkUtxo where
  outpoint := utxo.outpoint
  output := utxo.txout
  satisfactionWeight := 4 + 108

def listConfirmedUtxos (m : WalletManager) : Except Failure (List LdkUtxo) :=
  match m.lock with
  | none => .error .panic
  | some wallet => .ok (wallet.listUnspent.map ldkUtxo)

/-- The wallet's part of a call to the `ChainListener`: a disconnection does not reach it. -/
def walletCall (m : WalletManager) : ListenCall → Option WalletManager
  | .filteredBlockConnected block => some (walletBlockConnected m block)
  | .blocksDisconnected _ => some m

/-- A call that all three consumers take is for the wallet its own part. -/
theorem walletCall_of_call {l l' : ChainListener} {c : ListenCall} (h : call l c = some l') :
    walletCall l.onchainWallet c = some l'.onchainWallet := by
  cases c with
  | blocksDisconnected forkPoint =>
    rw [call, ChainListener.blocksDisconnected] at h
    cases hm : managerBlocksDisconnected l.channelManager forkPoint with
    | error e => simp [hm, Except.toOption] at h
    | ok manager =>
      simp only [hm, Except.toOption, Option.some.injEq] at h
      subst h
      rfl
  | filteredBlockConnected block =>
    rw [call, ChainListener.filteredBlockConnected] at h
    rw [walletCall, walletBlockConnected]
    cases hm : managerBlockConnected l.channelManager block with
    | error e => simp [hm, Except.toOption] at h
    | ok manager =>
      cases hl : l.onchainWallet.lock with
      | none => simp [hm, hl, Except.toOption] at h
      | some wallet =>
        cases ha : wallet.applyBlock block with
        | none => simp [hm, hl, ha, Except.toOption] at h
        | some wallet' =>
          simp only [hm, hl, ha, Except.toOption, Option.some.injEq] at h
          subst h
          simp only [ha]

/-! ### What is to be listed -/

/-- The unspent outputs that are confirmed and mature. -/
def spendable (w : BdkWallet) : List Utxo := w.listUnspent.filter w.isMature

/-- The canonical history names each transaction once. -/
def NamesOnce (w : BdkWallet) : Prop := (w.canonicalTxs.map fun tx => tx.2.txid).Nodup

/-- The confirmed and mature unspent outputs are listed and nothing else, each as often as the wallet
has it, which is once; they are worth the confirmed balance. -/
def ListsSpendable (m : WalletManager) : Prop :=
  ∃ utxos, listConfirmedUtxos m = .ok utxos ∧
    utxos.Perm ((spendable m.bdkWallet).map ldkUtxo) ∧
    (NamesOnce m.bdkWallet → (utxos.map LdkUtxo.outpoint).Nodup) ∧
    (utxos.map fun utxo => utxo.output.value).sum = m.bdkWallet.confirmedBalance

def IsSpent (w : BdkWallet) (o : OutPoint) : Prop := ∃ tx ∈ w.canonicalTxs, o ∈ tx.2.input

/-- What cannot be spent yet, or not any more, is spent already. -/
structure NoneUnspendable (w : BdkWallet) : Prop where
  /-- Of the transactions that still count though their block has left the chain. -/
  reorganised : ∀ tx ∈ w.unconfirmedCanonical w.latestCheckpoint w.graph,
    ∀ utxo ∈ w.ownOutputs (none, tx), IsSpent w utxo.outpoint
  /-- Of the coinbase transactions that are not mature. -/
  coinbase : ∀ tx ∈ w.confirmedTxs, tx.2.isCoinbase = true →
    w.latestCheckpoint.length - tx.1 + 1 < coinbaseMaturity →
    ∀ utxo ∈ w.ownOutputs (some tx.1, tx.2), IsSpent w utxo.outpoint

/-- A block is connected to a block of the wallet's chain, and no coin is unspendable with it. -/
def LosesNoCoin (m : WalletManager) : ListenCall → Prop
  | .filteredBlockConnected block =>
    block.tail <:+ m.bdkWallet.latestCheckpoint ∧ NoneUnspendable (m.bdkWallet.advance block)
  | .blocksDisconnected _ => True

/-! ### One wallet -/

section Wallet

variable {w : BdkWallet} {m : WalletManager}

lemma mem_listUnspent {utxo : Utxo} : utxo ∈ w.listUnspent ↔
    (∃ tx ∈ w.canonicalTxs, utxo ∈ w.ownOutputs tx) ∧ ¬ IsSpent w utxo.outpoint := by
  simp [BdkWallet.listUnspent, IsSpent]

lemma mem_ownOutputs {tx : Option ℕ × Transaction} {utxo : Utxo} (h : utxo ∈ w.ownOutputs tx) :
    utxo.confirmedAt = tx.1 ∧ utxo.isCoinbase = tx.2.isCoinbase ∧ utxo.outpoint.txid = tx.2.txid := by
  obtain ⟨out, -, rfl⟩ := List.mem_map.mp h
  exact ⟨rfl, rfl, rfl⟩

lemma mem_canonicalTxs {tx : Option ℕ × Transaction} : tx ∈ w.canonicalTxs ↔
    (∃ t ∈ w.confirmedTxs, tx = (some t.1, t.2)) ∨
      ∃ t ∈ w.unconfirmedCanonical w.latestCheckpoint w.graph, tx = (none, t) := by
  simp only [BdkWallet.canonicalTxs, List.mem_append, List.mem_map, eq_comm]

/-- **What keeps an unspent output from being spent**: it is unconfirmed or an immature coinbase. -/
theorem noneUnspendable_iff :
    NoneUnspendable w ↔ ∀ utxo ∈ w.listUnspent, w.isMature utxo = true := by
  constructor
  · rintro ⟨hreorg, hcoinbase⟩ utxo hutxo
    obtain ⟨⟨tx, htx, hown⟩, hunspent⟩ := mem_listUnspent.mp hutxo
    obtain ⟨hat, hcb, -⟩ := mem_ownOutputs hown
    rcases mem_canonicalTxs.mp htx with ⟨t, ht, rfl⟩ | ⟨t, ht, rfl⟩
    · by_contra himmature
      simp only [BdkWallet.isMature, hat, hcb, Bool.or_eq_true, Bool.not_eq_true',
        decide_eq_true_eq, not_or, Bool.not_eq_false, not_le] at himmature
      exact hunspent (hcoinbase t ht himmature.1 himmature.2 utxo hown)
    · exact absurd (hreorg t ht utxo hown) hunspent
  · intro hall
    refine ⟨fun t ht utxo hown => ?_, fun t ht hcb hyoung utxo hown => ?_⟩
    · by_contra hunspent
      have hlisted := mem_listUnspent.mpr
        ⟨⟨(none, t), mem_canonicalTxs.mpr (Or.inr ⟨t, ht, rfl⟩), hown⟩, hunspent⟩
      have hmature := hall utxo hlisted
      rw [BdkWallet.isMature, (mem_ownOutputs hown).1] at hmature
      cases hmature
    · by_contra hunspent
      have hlisted := mem_listUnspent.mpr
        ⟨⟨(some t.1, t.2), mem_canonicalTxs.mpr (Or.inl ⟨t, ht, rfl⟩), hown⟩, hunspent⟩
      have hmature := hall utxo hlisted
      obtain ⟨hat, hiscb, -⟩ := mem_ownOutputs hown
      simp only [BdkWallet.isMature, hat, hiscb, hcb, Bool.not_true, Bool.false_or,
        decide_eq_true_eq] at hmature
      omega

lemma ownOutputs_nodup (tx : Option ℕ × Transaction) :
    ((w.ownOutputs tx).map Utxo.outpoint).Nodup := by
  have hidx : (tx.2.output.zipIdx.map Prod.snd).Nodup := by
    rw [List.zipIdx_map_snd]
    exact List.nodup_range'
  have hsub : ((tx.2.output.zipIdx.filter fun out => w.isMine out.1.scriptPubkey).map
      Prod.snd).Nodup := hidx.sublist (List.filter_sublist.map _)
  rw [BdkWallet.ownOutputs, List.map_map]
  refine List.Nodup.of_map OutPoint.vout ?_
  rwa [List.map_map]

theorem listUnspent_nodup (h : NamesOnce w) : (w.listUnspent.map Utxo.outpoint).Nodup := by
  have hall : ((w.canonicalTxs.flatMap w.ownOutputs).map Utxo.outpoint).Nodup := by
    rw [List.map_flatMap, List.nodup_flatMap]
    refine ⟨fun tx _ => ownOutputs_nodup tx, (List.pairwise_map.mp h).imp fun {t u} hne => ?_⟩
    intro o ho ho'
    obtain ⟨a, ha, rfl⟩ := List.mem_map.mp ho
    obtain ⟨b, hb, hab⟩ := List.mem_map.mp ho'
    refine hne ?_
    rw [← (mem_ownOutputs ha).2.2, ← (mem_ownOutputs hb).2.2, hab]
  exact hall.sublist (List.filter_sublist.map _)

lemma listConfirmedUtxos_eq_ok {utxos : List LdkUtxo} : listConfirmedUtxos m = .ok utxos ↔
    m.poisoned = false ∧ utxos = m.bdkWallet.listUnspent.map ldkUtxo := by
  unfold listConfirmedUtxos WalletManager.lock
  cases hp : m.poisoned with
  | true => simp
  | false => simp [eq_comm]

/-- **What is listed is worth the confirmed balance and what cannot be spent.** -/
theorem sum_listConfirmedUtxos {utxos : List LdkUtxo} (h : listConfirmedUtxos m = .ok utxos) :
    (utxos.map fun utxo => utxo.output.value).sum = m.bdkWallet.confirmedBalance +
      ((m.bdkWallet.listUnspent.filter fun utxo => !m.bdkWallet.isMature utxo).map
        fun utxo => utxo.txout.value).sum := by
  obtain ⟨-, rfl⟩ := listConfirmedUtxos_eq_ok.mp h
  have hsplit := (List.filter_append_perm m.bdkWallet.isMature m.bdkWallet.listUnspent).map
    fun utxo => utxo.txout.value
  rw [List.map_map, BdkWallet.confirmedBalance, ← List.sum_append, ← List.map_append]
  exact hsplit.sum_eq.symm

theorem listsSpendable_iff :
    ListsSpendable m ↔ m.poisoned = false ∧ NoneUnspendable m.bdkWallet := by
  rw [noneUnspendable_iff]
  constructor
  · rintro ⟨utxos, hlist, hperm, -, -⟩
    obtain ⟨hp, rfl⟩ := listConfirmedUtxos_eq_ok.mp hlist
    have hlen := hperm.length_eq
    rw [List.length_map, List.length_map, spendable] at hlen
    exact ⟨hp, List.length_filter_eq_length_iff.mp hlen.symm⟩
  · rintro ⟨hp, hall⟩
    have hlist := listConfirmedUtxos_eq_ok.mpr ⟨hp, rfl⟩
    have hspendable : spendable m.bdkWallet = m.bdkWallet.listUnspent :=
      List.filter_eq_self.mpr hall
    refine ⟨_, hlist, ?_, fun honce => ?_, ?_⟩
    · rw [hspendable]
    · rw [List.map_map]
      exact listUnspent_nodup honce
    · rw [BdkWallet.confirmedBalance, ← spendable, hspendable, List.map_map]
      rfl

end Wallet

/-! ### Runs -/

section Runs

variable {m m' : WalletManager}

/-- One call keeps the list right exactly when it loses no coin. -/
lemma listsSpendable_walletCall {c : ListenCall} (hI : ListsSpendable m)
    (hs : walletCall m c = some m') : ListsSpendable m' ↔ LosesNoCoin m c := by
  cases c with
  | blocksDisconnected forkPoint =>
    cases hs
    exact ⟨fun _ => trivial, fun _ => hI⟩
  | filteredBlockConnected block =>
    obtain ⟨hp, -⟩ := listsSpendable_iff.mp hI
    rw [walletCall, walletBlockConnected_eq hp, Option.some.injEq] at hs
    subst hs
    rw [listsSpendable_iff, LosesNoCoin]
    split_ifs with hparent
    · exact ⟨fun h => ⟨hparent, h.2⟩, fun h => ⟨hp, h.2⟩⟩
    · exact ⟨fun h => absurd h.1 (by simp), fun h => absurd h.1 hparent⟩

/-- **When the list is right throughout.** For every wallet and every run of connected and disconnected
blocks: in every state reached `list_confirmed_utxos` returns the confirmed and mature unspent outputs,
each once and worth the confirmed balance, exactly when it does so at the start and each block is
connected to one of the wallet's chain and leaves no output unspent that is unconfirmed or an immature
coinbase. -/
theorem always_listsSpendable_iff (m : WalletManager) (calls : List ListenCall) :
    Always walletCall ListsSpendable m calls ↔
      (m.poisoned = false ∧ NoneUnspendable m.bdkWallet) ∧
        StepsMeet walletCall LosesNoCoin m calls := by
  have hrule : ListsSpendable m →
      (Always walletCall ListsSpendable m calls ↔ StepsMeet walletCall LosesNoCoin m calls) := by
    intro hm
    refine always_iff_stepsMeet hm (fun _ h => h) ?_ ?_
    · exact fun s c s' hI hok hs => (listsSpendable_walletCall hI hs).mpr hok
    · exact fun s c s' hI hs hP => (listsSpendable_walletCall hI hs).mp hP
  rw [← listsSpendable_iff]
  exact ⟨fun h => ⟨h.head, (hrule h.head).mp h⟩, fun h => (hrule h.1).mpr h.2⟩

/-! ### A chain that only grows -/

/-- BDK's promise: what counts though it is unconfirmed is a transaction it has seen that is not in the
chain. -/
def OffChain (w : BdkWallet) : Prop := ∀ chain graph, ∀ tx ∈ w.unconfirmedCanonical chain graph,
  tx ∈ graph ∧ ∀ height, (height, tx) ∉ chainTxs chain

/-- Every transaction that was seen is in the chain, and no coinbase pays the wallet. -/
structure Grown (m : WalletManager) : Prop where
  unpoisoned : m.poisoned = false
  offChain : OffChain m.bdkWallet
  seen : ∀ tx ∈ m.bdkWallet.graph, ∃ height, (height, tx) ∈ m.bdkWallet.confirmedTxs
  coinbase : ∀ tx ∈ m.bdkWallet.confirmedTxs, tx.2.isCoinbase = true →
    ∀ out ∈ tx.2.output, m.bdkWallet.isMine out.scriptPubkey = false

/-- A block on top of the tip, whose coinbase does not pay the wallet. -/
def Grows (m : WalletManager) : ListenCall → Prop
  | .filteredBlockConnected block => ∃ x, block = x :: m.bdkWallet.latestCheckpoint ∧
      ∀ tx ∈ x.txdata, tx.isCoinbase = true →
        ∀ out ∈ tx.output, m.bdkWallet.isMine out.scriptPubkey = false
  | .blocksDisconnected _ => True

lemma Grown.listsSpendable (h : Grown m) : ListsSpendable m := by
  refine listsSpendable_iff.mpr ⟨h.unpoisoned, fun tx htx => ?_, fun tx htx hcb _ utxo hutxo => ?_⟩
  · obtain ⟨hgraph, hoff⟩ := h.offChain _ _ tx htx
    obtain ⟨height, hat⟩ := h.seen tx hgraph
    exact absurd hat (hoff height)
  · obtain ⟨out, hout, rfl⟩ := List.mem_map.mp hutxo
    obtain ⟨hmem, hmine⟩ := List.mem_filter.mp hout
    have hnot := h.coinbase tx htx hcb out.1 (List.fst_mem_of_mem_zipIdx hmem)
    rw [hnot] at hmine
    cases hmine

lemma mem_chainTxs_cons {x : Block} {c : Chain Block} {tx : ℕ × Transaction} :
    tx ∈ chainTxs (x :: c) ↔ (tx.1 = c.length + 1 ∧ tx.2 ∈ x.txdata) ∨ tx ∈ chainTxs c := by
  rw [chainTxs, List.mem_append, List.mem_map]
  constructor
  · rintro (⟨t, ht, rfl⟩ | h)
    · exact Or.inl ⟨rfl, ht⟩
    · exact Or.inr h
  · rintro (⟨h1, h2⟩ | h)
    · exact Or.inl ⟨tx.2, h2, by rw [← h1]⟩
    · exact Or.inr h

lemma Grown.walletCall {c : ListenCall} (h : Grown m) (hok : Grows m c)
    (hs : walletCall m c = some m') : Grown m' := by
  cases c with
  | blocksDisconnected forkPoint =>
    cases hs
    exact h
  | filteredBlockConnected block =>
    obtain ⟨x, rfl, hx⟩ := hok
    rw [ConfirmedUtxos.walletCall, walletBlockConnected_eq h.unpoisoned, List.tail_cons,
      if_pos (List.suffix_refl _), Option.some.injEq] at hs
    subst hs
    have hconfirmed : (m.bdkWallet.advance (x :: m.bdkWallet.latestCheckpoint)).confirmedTxs =
        chainTxs (x :: m.bdkWallet.latestCheckpoint) := congrArg chainTxs (advance_child x _ rfl)
    refine ⟨h.unpoisoned, h.offChain, fun tx htx => ?_, fun tx htx hcb => ?_⟩
    · rw [hconfirmed]
      rcases List.mem_append.mp htx with htip | hold
      · exact ⟨_, mem_chainTxs_cons.mpr (Or.inl ⟨rfl, (List.mem_filter.mp htip).1⟩)⟩
      · obtain ⟨height, hat⟩ := h.seen tx hold
        exact ⟨height, mem_chainTxs_cons.mpr (Or.inr hat)⟩
    · rw [hconfirmed] at htx
      rcases mem_chainTxs_cons.mp htx with ⟨-, htip⟩ | hold
      · exact hx tx.2 htip hcb
      · exact h.coinbase tx hold hcb

/-- **A chain that only grows**, and whose coinbases pay others, shows no difference. -/
theorem always_listsSpendable_growing {calls : List ListenCall} (h : Grown m)
    (hok : StepsMeet walletCall Grows m calls) : Always walletCall ListsSpendable m calls :=
  (hok.always h fun _ _ _ hI hk hs => hI.walletCall hk hs).imp fun _ hI => hI.listsSpendable

end Runs

/-! ### A miner, and a reorganisation -/

/-- The wallet of script 3 before the first block. What has left the chain still counts for it. -/
def freshWallet : WalletManager where
  bdkWallet :=
    { isMine := fun script => script == 3
      latestCheckpoint := []
      graph := []
      unconfirmedCanonical := fun chain graph =>
        graph.filter fun tx => !(chainTxs chain).any fun t => t.2 == tx }

theorem always_listsSpendable_growing_paid :
    Always walletCall ListsSpendable freshWallet
      [.filteredBlockConnected [payingBlock], .filteredBlockConnected [emptyBlock 2, payingBlock]] := by
  have hgrown : Grown freshWallet := {
    unpoisoned := rfl
    offChain := fun chain graph tx htx => by
      obtain ⟨hgraph, hoff⟩ := List.mem_filter.mp htx
      refine ⟨hgraph, fun height hat => ?_⟩
      simp only [Bool.not_eq_true', List.any_eq_false, beq_iff_eq] at hoff
      exact hoff _ hat rfl
    seen := by simp [freshWallet]
    coinbase := by simp [freshWallet, BdkWallet.confirmedTxs, chainTxs] }
  refine always_listsSpendable_growing hgrown (.cons rfl ⟨_, rfl, ?_⟩ (.cons rfl ⟨_, rfl, ?_⟩ trivial))
  · simp [payingBlock]
  · simp [emptyBlock]

def minedBlock : Block where
  header := 1
  txdata := [{ txid := 8, input := [], output := [{ value := 50000, scriptPubkey := 3 }]
               isCoinbase := true }]

lemma not_listsSpendable {m : WalletManager} {utxos : List LdkUtxo}
    (hlist : listConfirmedUtxos m = .ok utxos)
    (hsum : (utxos.map fun utxo => utxo.output.value).sum ≠ m.bdkWallet.confirmedBalance) :
    ¬ ListsSpendable m := by
  rintro ⟨utxos', hlist', -, -, hsum'⟩
  obtain rfl : utxos = utxos' := Except.ok.inj (hlist.symm.trans hlist')
  exact hsum hsum'

/-- **An immature coinbase is listed, and so is the output of a block that left the chain.** Both times
50,000 sats are offered and the confirmed balance is zero. -/
theorem not_always_listsSpendable_mined :
    ¬ Always walletCall ListsSpendable freshWallet [.filteredBlockConnected [minedBlock]] ∧
    ¬ Always walletCall ListsSpendable freshWallet
      [.filteredBlockConnected [payingBlock], .blocksDisconnected [],
        .filteredBlockConnected [emptyBlock 2]] := by
  constructor
  · intro h
    refine @not_listsSpendable _ [⟨⟨8, 0⟩, ⟨50000, 3⟩, 112⟩] ?_ ?_ (h.last rfl)
    · rfl
    · decide
  · intro h
    refine @not_listsSpendable _ [⟨⟨7, 0⟩, ⟨50000, 3⟩, 112⟩] ?_ ?_ (h.last rfl)
    · rfl
    · decide

end LnNode.Node.ConfirmedUtxos
