import LnNode.OnchainWallet

/-!
# Broadcasting the transactions of LDK

`broadcast_transactions` sends what LDK hands over with one `sendrawtransaction` call for each
transaction, in the order of the slice, and logs the calls that fail. LDK hands over a child with its
parents, which is to be broadcast as a package, and promises no order.

* `sound_broadcast`: what gets into the mempool has all its inputs from before or from what got in;
* `broadcast_all_iff`: when all transactions of a package get in;
* `not_mem_of_parent`: with a parent that does not get in, none of its children does.
-/

namespace LnNode.BitcoindClient.Broadcast

open LnNode.OnchainWallet

/-! ### The mempool -/

def creates (tx : Transaction) (o : OutPoint) : Prop := o.txid = tx.txid ∧ o.vout < tx.output.length

instance (tx : Transaction) (o : OutPoint) : Decidable (creates tx o) := by
  unfold creates
  infer_instance

/-- The unspent outputs of the chain, and the transactions that wait for a block. -/
structure Mempool where
  utxos : List OutPoint
  txs : List Transaction
  deriving DecidableEq

namespace Mempool

variable (m : Mempool)

def add (tx : Transaction) : Mempool := { m with txs := tx :: m.txs }

/-- A transaction of the mempool spends the output. -/
def IsSpent (o : OutPoint) : Prop := ∃ tx ∈ m.txs, o ∈ tx.input

/-- An output that is unspent on the chain, or created by a transaction of the mempool. -/
def Exists (o : OutPoint) : Prop := o ∈ m.utxos ∨ ∃ tx ∈ m.txs, creates tx o

def HasTxid (txid : Txid) : Prop := ∃ tx ∈ m.txs, tx.txid = txid

instance (o : OutPoint) : Decidable (m.IsSpent o) := by
  unfold IsSpent
  infer_instance

instance (o : OutPoint) : Decidable (m.Exists o) := by
  unfold Exists
  infer_instance

instance (txid : Txid) : Decidable (m.HasTxid txid) := by
  unfold HasTxid
  infer_instance

end Mempool

/-- Bitcoin Core: which transactions it relays on their own, by their fee rate and their form, and
`sendrawtransaction`. Where it conflicts with no transaction of the mempool, a transaction is taken if it
is such a one, is new, and its inputs exist. -/
structure Bitcoind where
  relays : Transaction → Bool
  sendrawtransaction : Mempool → Transaction → Except String Mempool
  sendrawtransaction_ok : ∀ m tx m', (∀ o ∈ tx.input, ¬ m.IsSpent o) →
    (sendrawtransaction m tx = .ok m' ↔
      (¬ m.HasTxid tx.txid ∧ (∀ o ∈ tx.input, m.Exists o) ∧ relays tx = true) ∧ m' = m.add tx)

/-- A call for a transaction, and whether it reaches bitcoind. -/
abbrev Call := Transaction × Bool

variable (b : Bitcoind)

/-- One turn of the loop: a call that fails is logged. -/
def broadcastTransaction (m : Mempool) (call : Call) : Mempool :=
  if call.2 then
    match b.sendrawtransaction m call.1 with
    | .ok m' => m'
    | .error _ => m
  else m

def broadcastTransactions (m : Mempool) (calls : List Call) : Mempool :=
  calls.foldl (broadcastTransaction b) m

/-! ### Packages -/

/-- New transactions, no two of which have one id or spend one output, and none of which spends what
the mempool does. -/
structure IsPackage (m : Mempool) (txs : List Transaction) : Prop where
  ids : (txs.map Transaction.txid).Nodup
  new : ∀ tx ∈ txs, ¬ m.HasTxid tx.txid
  unspent : ∀ tx ∈ txs, ∀ o ∈ tx.input, ¬ m.IsSpent o
  disjoint : txs.Pairwise fun tx tx' => ∀ o ∈ tx.input, o ∉ tx'.input

/-- Every input exists before, or is created by a transaction that comes earlier. -/
def ParentsFirst (m : Mempool) (txs : List Transaction) : Prop :=
  ∀ pre tx post, txs = pre ++ tx :: post → ∀ o ∈ tx.input,
    m.Exists o ∨ ∃ parent ∈ pre, creates parent o

section Packages

variable {m : Mempool} {tx tx' : Transaction} {txs : List Transaction} {o : OutPoint}

@[simp] lemma mem_add : tx' ∈ (m.add tx).txs ↔ tx' = tx ∨ tx' ∈ m.txs := List.mem_cons

@[simp] lemma utxos_add : (m.add tx).utxos = m.utxos := rfl

lemma exists_add : (m.add tx).Exists o ↔ m.Exists o ∨ creates tx o := by
  simp only [Mempool.Exists, mem_add, utxos_add, or_and_right, exists_or, exists_eq_left]
  rw [or_assoc]
  exact or_congr_right or_comm

lemma isSpent_add : (m.add tx).IsSpent o ↔ o ∈ tx.input ∨ m.IsSpent o := by
  simp only [Mempool.IsSpent, mem_add, or_and_right, exists_or, exists_eq_left]

lemma hasTxid_add {txid : Txid} : (m.add tx).HasTxid txid ↔ tx.txid = txid ∨ m.HasTxid txid := by
  simp only [Mempool.HasTxid, mem_add, or_and_right, exists_or, exists_eq_left]

lemma IsPackage.tail (h : IsPackage m (tx :: txs)) : IsPackage m txs := by
  refine ⟨?_, fun t ht => h.new t (List.mem_cons_of_mem _ ht),
    fun t ht => h.unspent t (List.mem_cons_of_mem _ ht), ?_⟩
  · have hids := h.ids
    rw [List.map_cons, List.nodup_cons] at hids
    exact hids.2
  · exact (List.pairwise_cons.mp h.disjoint).2

lemma IsPackage.tail_add (h : IsPackage m (tx :: txs)) : IsPackage (m.add tx) txs := by
  have htail := h.tail
  have hids := h.ids
  rw [List.map_cons, List.nodup_cons] at hids
  have hdisjoint := (List.pairwise_cons.mp h.disjoint).1
  refine ⟨htail.ids, fun t ht => ?_, fun t ht o ho => ?_, htail.disjoint⟩
  · rw [hasTxid_add]
    rintro (heq | hold)
    · exact hids.1 (heq ▸ List.mem_map_of_mem ht)
    · exact htail.new t ht hold
  · rw [isSpent_add]
    rintro (hfirst | hold)
    · exact hdisjoint t ht o hfirst ho
    · exact htail.unspent t ht o ho hold

lemma parentsFirst_cons : ParentsFirst m (tx :: txs) ↔
    (∀ o ∈ tx.input, m.Exists o) ∧ ParentsFirst (m.add tx) txs := by
  constructor
  · intro h
    refine ⟨fun o ho => ?_, fun pre t post heq o ho => ?_⟩
    · simpa using h [] tx txs rfl o ho
    · rw [exists_add]
      rcases h (tx :: pre) t post (by rw [heq]; rfl) o ho with hexists | ⟨parent, hparent, hcreates⟩
      · exact Or.inl (Or.inl hexists)
      · rcases List.mem_cons.mp hparent with rfl | hparent
        · exact Or.inl (Or.inr hcreates)
        · exact Or.inr ⟨parent, hparent, hcreates⟩
  · rintro ⟨hfirst, hrest⟩ pre t post heq o ho
    cases pre with
    | nil =>
      obtain ⟨rfl, rfl⟩ := List.cons.inj heq
      exact Or.inl (hfirst o ho)
    | cons first pre =>
      obtain ⟨rfl, rfl⟩ := List.cons.inj heq
      rcases hrest pre t post rfl o ho with hexists | ⟨parent, hparent, hcreates⟩
      · rcases exists_add.mp hexists with hexists | hcreates
        · exact Or.inl hexists
        · exact Or.inr ⟨tx, List.mem_cons_self, hcreates⟩
      · exact Or.inr ⟨parent, List.mem_cons_of_mem _ hparent, hcreates⟩

end Packages

section Calls

variable {b} {m : Mempool} {tx : Transaction} {call : Call} {calls : List Call} {o : OutPoint}

/-- **One call** for a transaction of a package adds it, or changes nothing. -/
lemma broadcastTransaction_cases (b : Bitcoind) (h : IsPackage m (call.1 :: calls.map Prod.fst)) :
    (call.2 = true ∧ b.relays call.1 = true ∧ (∀ o ∈ call.1.input, m.Exists o)) ∧
        broadcastTransaction b m call = m.add call.1 ∨
      ¬ (call.2 = true ∧ b.relays call.1 = true ∧ ∀ o ∈ call.1.input, m.Exists o) ∧
        broadcastTransaction b m call = m := by
  have hnew := h.new call.1 List.mem_cons_self
  have hok := fun m' => b.sendrawtransaction_ok m call.1 m' (h.unspent call.1 List.mem_cons_self)
  rw [broadcastTransaction]
  cases hreached : call.2 with
  | false => exact Or.inr ⟨by simp, rfl⟩
  | true =>
    simp only [if_true, true_and]
    cases hsend : b.sendrawtransaction m call.1 with
    | ok m' =>
      obtain ⟨⟨-, hexist, hrelays⟩, rfl⟩ := (hok m').mp hsend
      exact Or.inl ⟨⟨hrelays, hexist⟩, rfl⟩
    | error e =>
      refine Or.inr ⟨fun ⟨hrelays, hexist⟩ => ?_, rfl⟩
      have haccepted := (hok _).mpr ⟨⟨hnew, hexist, hrelays⟩, rfl⟩
      rw [hsend] at haccepted
      cases haccepted

lemma broadcastTransactions_cons (b : Bitcoind) (m : Mempool) (call : Call) (calls : List Call) :
    broadcastTransactions b m (call :: calls) =
      broadcastTransactions b (broadcastTransaction b m call) calls := rfl

/-- **The mempool afterwards** is the one before, with transactions of the package that are relayed, whose
calls reached bitcoind and whose inputs exist in it. -/
structure Sound (b : Bitcoind) (m m' : Mempool) (calls : List Call) : Prop where
  utxos : m'.utxos = m.utxos
  kept : ∀ tx ∈ m.txs, tx ∈ m'.txs
  added : ∀ tx ∈ m'.txs, tx ∈ m.txs ∨ (tx, true) ∈ calls ∧ b.relays tx = true ∧ ∀ o ∈ tx.input, m'.Exists o

lemma Mempool.Exists.mono {m' : Mempool} (h : m.Exists o) (hutxos : m'.utxos = m.utxos)
    (hkept : ∀ tx ∈ m.txs, tx ∈ m'.txs) : m'.Exists o := by
  rcases h with hutxo | ⟨tx, htx, hcreates⟩
  · exact Or.inl (hutxos ▸ hutxo)
  · exact Or.inr ⟨tx, hkept tx htx, hcreates⟩

theorem sound_broadcast (b : Bitcoind) (h : IsPackage m (calls.map Prod.fst)) :
    Sound b m (broadcastTransactions b m calls) calls := by
  induction calls generalizing m with
  | nil => exact ⟨rfl, fun _ h => h, fun _ h => Or.inl h⟩
  | cons call calls ih =>
    rw [broadcastTransactions_cons]
    rcases broadcastTransaction_cases b h with ⟨⟨hreached, hrelays, hexist⟩, hadd⟩ | ⟨-, hsame⟩
    · rw [hadd]
      obtain ⟨hutxos, hkept, hadded⟩ := ih h.tail_add
      refine ⟨hutxos, fun tx htx => hkept tx (mem_add.mpr (Or.inr htx)), fun tx htx => ?_⟩
      rcases hadded tx htx with hmem | ⟨hcall, hother⟩
      · rcases mem_add.mp hmem with rfl | hmem
        · refine Or.inr ⟨?_, hrelays, fun o ho => ?_⟩
          · rw [← hreached]
            exact List.mem_cons_self
          · exact (exists_add.mpr (Or.inl (hexist o ho))).mono hutxos hkept
        · exact Or.inl hmem
      · exact Or.inr ⟨List.mem_cons_of_mem _ hcall, hother⟩
    · rw [hsame]
      obtain ⟨hutxos, hkept, hadded⟩ := ih h.tail
      refine ⟨hutxos, hkept, fun tx htx => (hadded tx htx).imp_right fun ⟨hcall, hother⟩ => ?_⟩
      exact ⟨List.mem_cons_of_mem _ hcall, hother⟩

lemma not_mem_broadcast (b : Bitcoind) (h : IsPackage m (tx :: calls.map Prod.fst)) :
    tx ∉ (broadcastTransactions b m calls).txs := by
  intro hmem
  rcases (sound_broadcast b h.tail).added tx hmem with hold | ⟨hcall, -⟩
  · exact h.new tx List.mem_cons_self ⟨tx, hold, rfl⟩
  · have hids := h.ids
    rw [List.map_cons, List.nodup_cons] at hids
    exact hids.1 (List.mem_map_of_mem (List.mem_map_of_mem hcall))

end Calls

/-- **When a package gets in.** For every mempool, every package and every order of its transactions: all
of them are in the mempool after the calls, exactly if every call reached bitcoind, every transaction is
relayed on its own, and each of its inputs exists before or is created by one that comes earlier. -/
theorem broadcast_all_iff (b : Bitcoind) {m : Mempool} {calls : List Call}
    (h : IsPackage m (calls.map Prod.fst)) :
    (∀ call ∈ calls, call.1 ∈ (broadcastTransactions b m calls).txs) ↔
      (∀ call ∈ calls, call.2 = true ∧ b.relays call.1 = true) ∧
        ParentsFirst m (calls.map Prod.fst) := by
  induction calls generalizing m with
  | nil => simp [ParentsFirst]
  | cons call calls ih =>
    rw [List.map_cons, parentsFirst_cons, broadcastTransactions_cons]
    simp only [List.forall_mem_cons]
    rcases broadcastTransaction_cases b h with ⟨⟨hreached, hrelays, hexist⟩, hadd⟩ | ⟨hrefused, hsame⟩
    · have hfirst : call.1 ∈ (broadcastTransactions b (m.add call.1) calls).txs :=
        (sound_broadcast b h.tail_add).kept _ (mem_add.mpr (Or.inl rfl))
      rw [hadd, ih h.tail_add]
      tauto
    · rw [hsame]
      constructor
      · rintro ⟨hfirst, -⟩
        exact absurd hfirst (not_mem_broadcast b h)
      · rintro ⟨⟨⟨hreached, hrelays⟩, -⟩, hexist, -⟩
        exact absurd ⟨hreached, hrelays, hexist⟩ hrefused

/-- **No child gets in without its parent.** A transaction of a package that spends an unconfirmed output
of another one: if that one is not in the mempool after the calls, the child is not there either,
whatever fee it pays. -/
theorem not_mem_of_parent (b : Bitcoind) {m : Mempool} {calls : List Call} {parent child : Transaction}
    {o : OutPoint} (h : IsPackage m (calls.map Prod.fst)) (hparent : parent ∈ calls.map Prod.fst)
    (hchild : child ∈ calls.map Prod.fst) (hcreates : creates parent o) (ho : o ∈ child.input)
    (hunconfirmed : o ∉ m.utxos) (hrefused : parent ∉ (broadcastTransactions b m calls).txs) :
    child ∉ (broadcastTransactions b m calls).txs := by
  have hsound := sound_broadcast b h
  intro hmem
  rcases hsound.added child hmem with hold | ⟨-, -, hexist⟩
  · exact h.new child hchild ⟨child, hold, rfl⟩
  · rcases hexist o ho with hutxo | ⟨tx, htx, htxCreates⟩
    · exact hunconfirmed (hsound.utxos ▸ hutxo)
    · have hid : tx.txid = parent.txid := htxCreates.1.symm.trans hcreates.1
      rcases hsound.added tx htx with hold | ⟨hcall, -, -⟩
      · exact h.new parent hparent ⟨tx, hold, hid⟩
      · obtain rfl := List.inj_on_of_nodup_map h.ids (List.mem_map_of_mem hcall) hparent hid
        exact hrefused htx

/-! ### A package of two -/

/-- It takes what it relays, and replaces nothing. -/
def plainBitcoind (relays : Transaction → Bool) : Bitcoind where
  relays := relays
  sendrawtransaction m tx :=
    if ¬ m.HasTxid tx.txid ∧ (∀ o ∈ tx.input, m.Exists o) ∧ relays tx = true then .ok (m.add tx)
    else .error "refused"
  sendrawtransaction_ok m tx m' _ := by
    split_ifs with h
    · exact ⟨fun heq => ⟨h, (Except.ok.inj heq).symm⟩, fun ⟨_, heq⟩ => congrArg Except.ok heq.symm⟩
    · exact ⟨fun heq => absurd heq (by simp), fun ⟨htaken, _⟩ => absurd htaken h⟩

/-- A commitment transaction, and a child that spends its anchor. -/
def commitmentTx : Transaction where
  txid := 10
  input := [⟨1, 0⟩]
  output := [{ value := 330, scriptPubkey := 5 }]

def anchorTx : Transaction where
  txid := 11
  input := [⟨10, 0⟩]
  output := [{ value := 300, scriptPubkey := 6 }]

/-- The funding output is on the chain. -/
def fundedMempool : Mempool where
  utxos := [⟨1, 0⟩]
  txs := []

lemma isPackage_commitment (reached reached' : Bool) :
    IsPackage fundedMempool ([(commitmentTx, reached), (anchorTx, reached')].map Prod.fst) := by
  refine ⟨by simp [commitmentTx, anchorTx], ?_, ?_, ?_⟩
  · simp [fundedMempool, Mempool.HasTxid]
  · simp [fundedMempool, Mempool.IsSpent]
  · simp [commitmentTx, anchorTx]

theorem broadcast_all_iff_commitment :
    commitmentTx ∈ (broadcastTransactions (plainBitcoind fun _ => true) fundedMempool
      [(commitmentTx, true), (anchorTx, true)]).txs ∧
    anchorTx ∈ (broadcastTransactions (plainBitcoind fun _ => true) fundedMempool
      [(commitmentTx, true), (anchorTx, true)]).txs := by
  have hall := (broadcast_all_iff (plainBitcoind fun _ => true) (isPackage_commitment true true)).mpr (by
    refine ⟨by simp [plainBitcoind], ?_⟩
    rw [List.map_cons, parentsFirst_cons, List.map_cons, parentsFirst_cons]
    refine ⟨by decide, by decide, ?_⟩
    rintro (_ | ⟨first, pre⟩) tx post heq <;> cases heq)
  exact ⟨hall (commitmentTx, true) (by decide), hall (anchorTx, true) (by decide)⟩

/-- The commitment transaction alone pays too little. -/
theorem not_mem_of_parent_commitment :
    anchorTx ∉ (broadcastTransactions (plainBitcoind fun tx => tx.txid != 10) fundedMempool
      [(commitmentTx, true), (anchorTx, true)]).txs :=
  not_mem_of_parent (plainBitcoind fun tx => tx.txid != 10) (isPackage_commitment true true)
    (by decide) (by decide) (by decide : creates commitmentTx ⟨10, 0⟩) (by decide) (by decide) (by decide)

end LnNode.BitcoindClient.Broadcast
