import LnNode.Storage.Peers

/-!
# `NodeStore` is a pair of maps

What the store is for: a map from ids to payments, and a map from public keys to peers. `NodeMaps` is
that, without keys, bytes or files. The operations of `NodeStore`, over files that never fail, do to
what is read and listed what they do to the maps.

* `Represents.run`: one operation keeps the store and the maps together;
* `nodeStore_refines`: so does every sequence of operations, and keys are valid and never shared.
-/

namespace LnNode.Storage.Refinement

open LnNode.Lib.Wire LnNode.Storage.Peers

/-! ### Operations -/

inductive Operation where
  | addPayment (payment : Payment)
  | updatePayment (payment : Payment)
  | removePayment (paymentId : PaymentId)
  | addPeer (peer : PeerInfo)
  | removePeer (pubkey : PublicKey)

def Operation.run (store : KvStore) : Operation → Except IoError KvStore
  | .addPayment payment => Storage.addPayment none store payment
  | .updatePayment payment => Storage.updatePayment none store payment
  | .removePayment paymentId => Storage.removePayment none store paymentId
  | .addPeer peer => Peers.addPeer none store peer
  | .removePeer pubkey => Peers.removePeer none store pubkey

def runOperations (store : KvStore) : List Operation → Except IoError KvStore
  | [] => .ok store
  | op :: ops =>
    match op.run store with
    | .error e => .error e
    | .ok store' => runOperations store' ops

def Operation.isOnPayments : Operation → Bool
  | .addPayment _ | .updatePayment _ | .removePayment _ => true
  | .addPeer _ | .removePeer _ => false

/-! ### The maps -/

structure NodeMaps where
  payments : PaymentId → Option Payment
  peers : PublicKey → Option PeerInfo

def NodeMaps.empty : NodeMaps where
  payments _ := none
  peers _ := none

/-- The last record that is added counts, until it is removed. -/
def NodeMaps.apply (maps : NodeMaps) : Operation → NodeMaps
  | .addPayment payment | .updatePayment payment =>
    { maps with payments := Function.update maps.payments payment.paymentId (some payment) }
  | .removePayment paymentId =>
    { maps with payments := Function.update maps.payments paymentId none }
  | .addPeer peer => { maps with peers := Function.update maps.peers peer.nodeId (some peer) }
  | .removePeer pubkey => { maps with peers := Function.update maps.peers pubkey none }

/-! ### What is read of the store -/

/-- The listings by status, whatever the order of the directory, share out the listing of all. -/
def StatusPartition (store : KvStore) : Prop :=
  ∀ dir, ∃ payments pending succeeded failed,
    listPayments none (fun _ => none) dir store = .ok payments ∧
    listPaymentsByStatus none (fun _ => none) dir store .pending = .ok pending ∧
    listPaymentsByStatus none (fun _ => none) dir store .succeeded = .ok succeeded ∧
    listPaymentsByStatus none (fun _ => none) dir store .failed = .ok failed ∧
    (pending ++ (succeeded ++ failed)).Perm payments ∧
    (∀ p ∈ pending, p.status = .pending) ∧ (∀ p ∈ succeeded, p.status = .succeeded) ∧
      ∀ p ∈ failed, p.status = .failed

/-- What the store returns is what the maps say. -/
structure Refines (store : KvStore) (maps : NodeMaps) : Prop where
  getPayment : ∀ id, getPayment none store id = match maps.payments id with
    | some payment => .ok payment
    | none => .error .notFound
  listPayments : ∀ dir, ∃ payments, listPayments none (fun _ => none) dir store = .ok payments ∧
    ListsExactly Payment.paymentId payments maps.payments
  byStatus : StatusPartition store
  listPeers : ∀ dir, ∃ peers, listPeers none (fun _ => none) dir store = .ok peers ∧
    ListsExactly PeerInfo.nodeId peers maps.peers

/-- Both listings of payments, each in its own order, have the same records. -/
def SamePayments (store store' : KvStore) : Prop :=
  ∀ dir dir', ∃ payments payments', listPayments none (fun _ => none) dir store = .ok payments ∧
    listPayments none (fun _ => none) dir' store' = .ok payments' ∧ payments.Perm payments'

def SamePeers (store store' : KvStore) : Prop :=
  ∀ dir dir', ∃ peers peers', listPeers none (fun _ => none) dir store = .ok peers ∧
    listPeers none (fun _ => none) dir' store' = .ok peers' ∧ peers.Perm peers'

/-- An operation on one kind of record does not change what is listed of the other. -/
def KeepsOther (store : KvStore) : Prop :=
  ∀ (op : Operation) (store' : KvStore), op.run store = .ok store' →
    if op.isOnPayments then SamePeers store store' else SamePayments store store'

/-- The keys of the store pass its rules, and two records share one only if they have the same id. -/
structure KeysSound : Prop where
  paymentKey_valid : ∀ id, (paymentKey id).isValid = true
  peerKey_valid : ∀ pubkey, (peerKey pubkey).isValid = true
  paymentKey_inj : ∀ id id', paymentKey id = paymentKey id' → id = id'
  peerKey_inj : ∀ pubkey pubkey', peerKey pubkey = peerKey pubkey' → pubkey = pubkey'
  disjoint : ∀ id pubkey, paymentKey id ≠ peerKey pubkey

/-! ### Keys -/

lemma hexDigit_valid : ∀ n < 16, isNamespaceKeyChar (hexDigit n) = true := by
  decide

lemma isValidNamespaceKey_hexEncode {bs : Bytes} (h : bs.length ≤ 60) :
    isValidNamespaceKey (hexEncode bs) = true := by
  have hlen : (bs.flatMap fun b => [hexDigit (b.toNat / 16), hexDigit (b.toNat % 16)]).length =
      2 * bs.length := by
    simp [List.length_flatMap]
    omega
  have hall : (bs.flatMap fun b => [hexDigit (b.toNat / 16), hexDigit (b.toNat % 16)]).all
      isNamespaceKeyChar = true := by
    rw [List.all_eq_true]
    intro c hc
    obtain ⟨b, -, hb⟩ := List.mem_flatMap.mp hc
    have hlt := b.toNat_lt
    rcases List.mem_pair.mp hb with rfl | rfl
    · exact hexDigit_valid _ (by omega)
    · exact hexDigit_valid _ (by omega)
  rw [isValidNamespaceKey, hexEncode, String.toList_ofList, hlen, hall, Bool.and_true]
  refine decide_eq_true ?_
  rw [namespaceKeyMaxLen]
  omega

lemma hexEncode_ne_empty {bs : Bytes} (h : bs ≠ []) : (hexEncode bs).isEmpty = false := by
  obtain ⟨b, bs, rfl⟩ := List.exists_cons_of_ne_nil h
  rw [Bool.eq_false_iff]
  intro hempty
  rw [String.isEmpty_iff] at hempty
  have := congrArg String.toList hempty
  simp [hexEncode] at this

lemma isValid_of_bytes {ns : String} {bs : Bytes} (hns : ns = "payments" ∨ ns = "peers")
    (h0 : bs ≠ []) (h60 : bs.length ≤ 60) :
    StoreKey.isValid { primaryNamespace := ns, secondaryNamespace := "", key := hexEncode bs } =
      true := by
  have hvalid : isValidNamespaceKey ns = true := by
    rcases hns with rfl | rfl <;> decide
  simp only [StoreKey.isValid, hexEncode_ne_empty h0, isValidNamespaceKey_hexEncode h60, hvalid]
  rcases hns with rfl | rfl <;> decide

theorem keysSound : KeysSound where
  paymentKey_valid id :=
    isValid_of_bytes (Or.inl rfl) (List.length_pos_iff.mp (by rw [id.val.2]; norm_num))
      (by rw [id.val.2]; norm_num)
  peerKey_valid pubkey :=
    isValid_of_bytes (Or.inr rfl) (List.length_pos_iff.mp (by rw [pubkey.length]; norm_num))
      (by rw [pubkey.length]; norm_num)
  paymentKey_inj _ _ h := paymentKey_injective h
  peerKey_inj _ _ h := Subtype.ext (hexEncode_injective (congrArg StoreKey.key h))
  disjoint id pubkey h := by
    have := congrArg StoreKey.primaryNamespace h
    simp [paymentKey, peerKey, paymentsPrimaryNamespace, peersPrimaryNamespace] at this

/-! ### The store represents the maps -/

structure Represents (store : KvStore) (maps : NodeMaps) : Prop where
  payments : Holds paymentKind store maps.payments
  peers : Holds peerKind store maps.peers

section Represents

variable {store store' : KvStore} {maps : NodeMaps} {op : Operation}

lemma represents_empty : Represents ∅ .empty := ⟨holds_empty, holds_empty⟩

lemma peerKind_ne_paymentKey (name : String) (id : PaymentId) :
    peerKind.keyOf name ≠ paymentKey id := by
  intro h
  have := congrArg StoreKey.primaryNamespace h
  simp [RecordKind.keyOf, peerKind, paymentKey, paymentsPrimaryNamespace,
    peersPrimaryNamespace] at this

lemma paymentKind_ne_peerKey (name : String) (pubkey : PublicKey) :
    paymentKind.keyOf name ≠ peerKey pubkey := by
  intro h
  have := congrArg StoreKey.primaryNamespace h
  simp [RecordKind.keyOf, paymentKind, peerKey, paymentsPrimaryNamespace,
    peersPrimaryNamespace] at this

theorem Represents.run (h : Represents store maps) (op : Operation) :
    ∃ store', op.run store = .ok store' ∧ Represents store' (maps.apply op) := by
  cases op with
  | addPayment payment =>
    exact ⟨_, rfl, h.payments.insert payment, h.peers.insert_other _ fun _ =>
      peerKind_ne_paymentKey _ _⟩
  | updatePayment payment =>
    exact ⟨_, rfl, h.payments.insert payment, h.peers.insert_other _ fun _ =>
      peerKind_ne_paymentKey _ _⟩
  | removePayment paymentId =>
    exact ⟨_, rfl, h.payments.erase paymentId, h.peers.erase_other fun _ =>
      peerKind_ne_paymentKey _ _⟩
  | addPeer peer =>
    exact ⟨_, rfl, h.payments.insert_other _ fun _ => paymentKind_ne_peerKey _ _,
      h.peers.insert peer⟩
  | removePeer pubkey =>
    exact ⟨_, rfl, h.payments.erase_other fun _ => paymentKind_ne_peerKey _ _,
      h.peers.erase pubkey⟩

theorem Represents.runOperations (h : Represents store maps) (ops : List Operation) :
    ∃ store', runOperations store ops = .ok store' ∧
      Represents store' (ops.foldl NodeMaps.apply maps) := by
  induction ops generalizing store maps with
  | nil => exact ⟨store, rfl, h⟩
  | cons op ops ih =>
    obtain ⟨store', hrun, h'⟩ := h.run op
    obtain ⟨store'', hruns, h''⟩ := ih h'
    refine ⟨store'', ?_, h''⟩
    rw [Refinement.runOperations, hrun]
    exact hruns

lemma Represents.getPayment (h : Represents store maps) (id : PaymentId) :
    getPayment none store id = match maps.payments id with
      | some payment => .ok payment
      | none => .error .notFound := by
  have hlook : store.lookup (paymentKey id) = (maps.payments id).map Payment.encode :=
    h.payments.lookup id
  unfold Storage.getPayment KvStore.read
  cases hm : maps.payments id with
  | none => simp [hlook, hm]
  | some payment => simp [hlook, hm, Payment.read_encode]

lemma filter_status_perm (payments : List Payment) :
    (payments.filter (fun p => p.status = .pending) ++
      (payments.filter (fun p => p.status = .succeeded) ++
        payments.filter fun p => p.status = .failed)).Perm payments := by
  induction payments with
  | nil => exact .refl _
  | cons p payments ih =>
    cases hp : p.status with
    | pending => simpa [hp] using ih
    | succeeded =>
      simp only [List.filter_cons, hp, reduceCtorEq, decide_false, decide_true, if_true,
        Bool.false_eq_true, if_false, List.cons_append]
      exact List.perm_middle.trans (ih.cons p)
    | failed =>
      simp only [List.filter_cons, hp, reduceCtorEq, decide_false, decide_true, if_true,
        Bool.false_eq_true, if_false]
      rw [← List.append_assoc]
      refine List.perm_middle.trans (List.Perm.cons p ?_)
      rw [List.append_assoc]
      exact ih

lemma Represents.statusPartition (h : Represents store maps) : StatusPartition store := by
  intro dir
  obtain ⟨payments, hlist, -⟩ := h.payments.list dir
  have hby : ∀ status, listPaymentsByStatus none (fun _ => none) dir store status =
      .ok (payments.filter fun p => p.status = status) := by
    intro status
    rw [listPaymentsByStatus, listPayments, hlist]
  have hmem : ∀ status, ∀ p ∈ payments.filter (fun p => p.status = status), p.status = status := by
    intro status p hp
    exact of_decide_eq_true (List.mem_filter.mp hp).2
  exact ⟨payments, _, _, _, hlist, hby _, hby _, hby _, filter_status_perm payments, hmem _, hmem _,
    hmem _⟩

theorem Represents.refines (h : Represents store maps) : Refines store maps where
  getPayment := h.getPayment
  listPayments := h.payments.list
  byStatus := h.statusPartition
  listPeers := h.peers.list

theorem Represents.keepsOther (h : Represents store maps) : KeepsOther store := by
  intro op store' hrun
  obtain ⟨store'', hrun', h'⟩ := h.run op
  obtain rfl : store' = store'' := Except.ok.inj (hrun.symm.trans hrun')
  split_ifs with hop
  · intro dir dir'
    obtain ⟨peers, hlist, hexact⟩ := h.peers.list dir
    obtain ⟨peers', hlist', hexact'⟩ := h'.peers.list dir'
    have hsame : (maps.apply op).peers = maps.peers := by cases op <;> first | rfl | cases hop
    rw [hsame] at hexact'
    exact ⟨peers, peers', hlist, hlist', hexact.perm hexact'⟩
  · intro dir dir'
    obtain ⟨payments, hlist, hexact⟩ := h.payments.list dir
    obtain ⟨payments', hlist', hexact'⟩ := h'.payments.list dir'
    have hsame : (maps.apply op).payments = maps.payments := by
      cases op <;> first | rfl | exact absurd rfl hop
    rw [hsame] at hexact'
    exact ⟨payments, payments', hlist, hlist', hexact.perm hexact'⟩

end Represents

/-- **`NodeStore` is a pair of maps.** For every sequence of operations with any payments and peers:
all go through; what is then read and listed, in whatever order directories are read, is what the maps
say after the same operations; an operation on one kind of record changes no listing of the other; and
the keys are valid and never shared. -/
theorem nodeStore_refines (ops : List Operation) :
    ∃ store, runOperations ∅ ops = .ok store ∧ Refines store (ops.foldl NodeMaps.apply .empty) ∧
      KeepsOther store ∧ KeysSound := by
  obtain ⟨store, hrun, h⟩ := represents_empty.runOperations ops
  exact ⟨store, hrun, h.refines, h.keepsOther, keysSound⟩

end LnNode.Storage.Refinement
