import LnNode.EventHandler
import LnNode.Lib.ReadModifyWrite

/-!
# Whether an update of the handler is one step

The arms of `PaymentSent` and `PaymentFailed` read a record under the read lock of the store and write
it under the write lock. In between the store is free, and other threads may add, update and remove
payments.

* `view_handler`: the two halves of an arm are a value that is read, changed and written back;
* `updateSerializable_iff`: when the outcome is that of some order in which the handler's two halves
  come together.
-/

namespace LnNode.EventHandler.UpdateSerial

open LnNode.Lib.Wire LnNode.Lib.ReadModifyWrite LnNode.Storage

/-! ### The handler among other threads -/

/-- A call of another thread, with its fault. -/
inductive StoreCall where
  | addPayment (fault : Fault) (payment : Payment)
  | updatePayment (fault : Fault) (payment : Payment)
  | removePayment (fault : Fault) (paymentId : PaymentId)

/-- A call that fails leaves the store as it was. -/
def StoreCall.run (store : KvStore) : StoreCall → KvStore
  | .addPayment fault payment => (Storage.addPayment fault store payment).toOption.getD store
  | .updatePayment fault payment => (Storage.updatePayment fault store payment).toOption.getD store
  | .removePayment fault paymentId => (Storage.removePayment fault store paymentId).toOption.getD store

def runCalls (store : KvStore) (calls : List StoreCall) : KvStore := calls.foldl StoreCall.run store

/-- The handler reads after the calls `pre` and writes after the calls `mid`. -/
def interleaved (h : LdkEventHandler) (store : KvStore) (e : PaymentEvent)
    (pre mid post : List StoreCall) : KvStore :=
  let step := e.read h.infoLogged h.readFault (runCalls store pre)
  runCalls (writePayment h.writeFault (runCalls store (pre ++ mid)) step).2 post

def atomic (h : LdkEventHandler) (store : KvStore) (e : PaymentEvent)
    (before after : List StoreCall) : KvStore :=
  runCalls (handleEvent h (runCalls store before) e.event).store after

/-- Two stores have the same payments namespace. -/
def SamePayments (store store' : KvStore) : Prop :=
  ∀ key : StoreKey, key.primaryNamespace = paymentsPrimaryNamespace →
    key.secondaryNamespace = paymentsSecondaryNamespace → store.lookup key = store'.lookup key

/-- The outcome is that of the same calls with the handler as one step somewhere among them. -/
def UpdateSerializable (h : LdkEventHandler) (store : KvStore) (e : PaymentEvent)
    (pre mid post : List StoreCall) : Prop :=
  ∃ before after, before ++ after = pre ++ mid ++ post ∧
    SamePayments (interleaved h store e pre mid post) (atomic h store e before after)

/-! ### The condition -/

/-- The arm reads the record, passes its log line, and its write does not fail. -/
def goesThrough (h : LdkEventHandler) (e : PaymentEvent) (payment : Payment) : Bool :=
  h.readFault.isNone && h.writeFault.isNone && e.readsStore &&
    (!h.infoLogged || e.fieldsPresent payment)

def StoreCall.writes : StoreCall → Option PaymentId
  | .addPayment none payment => some payment.paymentId
  | .updatePayment none payment => some payment.paymentId
  | .removePayment none paymentId => some paymentId
  | _ => none

/-- What the handler overwrites is not stale: a later call replaces it anyway, or the record that is
there just before the write would be changed to the same one. -/
def WritesFresh (h : LdkEventHandler) (store : KvStore) (e : PaymentEvent)
    (pre mid post : List StoreCall) : Prop :=
  ∀ id payment, e.paymentId? = some id → getPayment none (runCalls store pre) id = .ok payment →
    goesThrough h e payment = true →
      (∃ call ∈ post, call.writes = some id) ∨
      ∃ later, getPayment none (runCalls store (pre ++ mid)) id = .ok later ∧
        e.record later = e.record payment

/-! ### The store as a map -/

def view (store : KvStore) : StoreKey → Option Bytes := fun key => store.lookup key

def StoreCall.op : StoreCall → Op StoreKey Bytes
  | .addPayment none payment => .put (paymentKey payment.paymentId) payment.encode
  | .updatePayment none payment => .put (paymentKey payment.paymentId) payment.encode
  | .removePayment none paymentId => .del (paymentKey paymentId)
  | _ => .skip

def change (h : LdkEventHandler) (e : PaymentEvent) (data : Bytes) : Option Bytes :=
  match Payment.read data with
  | .error _ => none
  | .ok payment => if goesThrough h e payment then some (e.record payment).encode else none

section View

variable {h : LdkEventHandler} {e : PaymentEvent} {store store' : KvStore} {id : PaymentId}
  {payment : Payment} {calls : List StoreCall}

lemma view_insert (key : StoreKey) (data : Bytes) :
    view (store.insert key data) = Function.update (view store) key (some data) := by
  funext k
  by_cases hk : k = key
  · subst hk
    simp [view]
  · simp [view, hk]

lemma view_erase (key : StoreKey) :
    view (store.erase key) = Function.update (view store) key none := by
  funext k
  by_cases hk : k = key
  · subst hk
    simp [view]
  · simp [view, hk]

lemma view_run (call : StoreCall) : view (call.run store) = call.op.apply (view store) := by
  rcases call with ⟨_ | err, payment⟩ | ⟨_ | err, payment⟩ | ⟨_ | err, paymentId⟩
  · exact view_insert _ _
  · rfl
  · exact view_insert _ _
  · rfl
  · exact view_erase _
  · rfl

lemma view_runCalls : view (runCalls store calls) = applyAll (view store) (calls.map StoreCall.op) := by
  induction calls generalizing store with
  | nil => rfl
  | cons call calls ih =>
    show view (runCalls (call.run store) calls) = applyAll (call.op.apply (view store)) _
    rw [ih, view_run]

lemma ownKeyed_run (hown : OwnKeyed store) (call : StoreCall) : OwnKeyed (call.run store) := by
  rcases call with ⟨_ | err, payment⟩ | ⟨_ | err, payment⟩ | ⟨_ | err, paymentId⟩
  · exact hown.written payment
  · exact hown
  · exact hown.written payment
  · exact hown
  · exact hown.erase _
  · exact hown

lemma ownKeyed_runCalls (hown : OwnKeyed store) : OwnKeyed (runCalls store calls) := by
  induction calls generalizing store with
  | nil => exact hown
  | cons call calls ih => exact ih (ownKeyed_run hown call)

lemma touches_iff : Touches (paymentKey id) (calls.map StoreCall.op) ↔
    ∃ call ∈ calls, call.writes = some id := by
  have hkey : ∀ call : StoreCall, call.op.key? = some (paymentKey id) ↔ call.writes = some id := by
    rintro (⟨_ | err, payment⟩ | ⟨_ | err, payment⟩ | ⟨_ | err, paymentId⟩) <;>
      simp [StoreCall.op, StoreCall.writes, Op.key?, paymentKey_injective.eq_iff]
  simp [Touches, hkey]

lemma bind_change_eq_some {data : Bytes} :
    (view store (paymentKey id)).bind (change h e) = some data ↔
      ∃ payment, getPayment none store id = .ok payment ∧ goesThrough h e payment = true ∧
        (e.record payment).encode = data := by
  unfold getPayment KvStore.read view
  cases hlook : store.lookup (paymentKey id) with
  | none => simp
  | some bytes =>
    cases hread : Payment.read bytes with
    | error err => simp [change, hread]
    | ok payment => simp [change, hread]

lemma goesThrough_record : goesThrough h e (e.record payment) = goesThrough h e payment := by
  cases e <;> rfl

lemma change_change (data data' : Bytes) (hc : change h e data = some data') :
    change h e data' = some data' := by
  unfold change at hc
  cases hread : Payment.read data with
  | error err => simp [hread] at hc
  | ok payment =>
    simp only [hread] at hc
    split_ifs at hc with hgo
    cases hc
    have hagain : e.record (e.record payment) = e.record payment := by cases e <;> rfl
    rw [change, Payment.read_encode]
    simp only [goesThrough_record, hgo, if_true, hagain]

/-- **The two halves of an arm** are a value that is read, changed and written back. -/
theorem view_handler (hid : e.paymentId? = some id) (hown : OwnKeyed store) (store' : KvStore) :
    view (writePayment h.writeFault store' (e.read h.infoLogged h.readFault store)).2 =
      writeBack ((view store (paymentKey id)).bind (change h e)) (paymentKey id) (view store') := by
  cases hb : (view store (paymentKey id)).bind (change h e) with
  | some data =>
    obtain ⟨payment, hg, hgo, rfl⟩ := bind_change_eq_some.mp hb
    obtain ⟨⟨⟨hread, hwrite⟩, hreads⟩, hlog⟩ : ((h.readFault = none ∧ h.writeFault = none) ∧
        e.readsStore = true) ∧ (h.infoLogged = false ∨ e.fieldsPresent payment = true) := by
      simpa [goesThrough] using hgo
    have hpass : (h.infoLogged && !e.fieldsPresent payment) = false := by
      rcases hlog with hlog | hlog <;> simp [hlog]
    have hkey : (e.record payment).paymentId = id := by
      rw [PaymentEvent.record_paymentId]
      exact hown id payment hg
    rw [hread, hwrite, PaymentEvent.read_ok hid hreads hg, hpass]
    show view (written store' (e.record payment)) = _
    rw [written, view_insert, hkey]
    rfl
  | none =>
    show _ = view store'
    cases hreads : e.readsStore with
    | false =>
      rw [PaymentEvent.read_of_not_readsStore hreads]
      rfl
    | true =>
      cases hg : getPayment h.readFault store id with
      | error err =>
        rw [PaymentEvent.read_error hid hreads hg]
        rfl
      | ok payment =>
        have hfine : h.readFault = none := by
          cases hf : h.readFault with
          | none => rfl
          | some err =>
            rw [hf] at hg
            cases hg
        rw [PaymentEvent.read_ok hid hreads hg]
        split_ifs with hlog
        · rfl
        · -- the record is there, so it is the write that fails
          cases hw : h.writeFault with
          | some err => rfl
          | none =>
            have hgo : goesThrough h e payment = true := by
              cases hinfo : h.infoLogged <;> cases hfields : e.fieldsPresent payment <;>
                simp_all [goesThrough]
            have hsome := bind_change_eq_some.mpr ⟨payment, getPayment_none_of_ok hg, hgo, rfl⟩
            rw [hb] at hsome
            cases hsome

end View

/-! ### Serializability -/

section

variable {h : LdkEventHandler} {e : PaymentEvent} {store : KvStore} {id : PaymentId}
  {pre mid post : List StoreCall}

/-- With an id, the handler among the calls is an update of its record among operations. -/
lemma view_interleaved (hid : e.paymentId? = some id) (hown : OwnKeyed store) :
    view (interleaved h store e pre mid post) =
      splitUpdate (change h e) (paymentKey id) (view store) (pre.map StoreCall.op)
        (mid.map StoreCall.op) (post.map StoreCall.op) := by
  rw [interleaved, view_runCalls, view_handler hid (ownKeyed_runCalls hown), view_runCalls,
    view_runCalls, List.map_append]
  rfl

lemma view_atomic (hid : e.paymentId? = some id) (hown : OwnKeyed store)
    (before after : List StoreCall) :
    view (atomic h store e before after) =
      applyAll (update (change h e) (paymentKey id)
        (applyAll (view store) (before.map StoreCall.op))) (after.map StoreCall.op) := by
  rw [atomic, view_runCalls, (handleEvent_payment h _ e).2,
    view_handler hid (ownKeyed_runCalls hown), view_runCalls]
  rfl

lemma updateSerializable_of_no_id (hid : e.paymentId? = none) :
    UpdateSerializable h store e pre mid post := by
  refine ⟨pre ++ mid, post, rfl, fun key _ _ => ?_⟩
  rw [interleaved, atomic, (handleEvent_payment h _ e).2]
  simp only [PaymentEvent.read_of_no_id hid]

/-- **When an update is one step.** For every handler, every store whose records are under their own
ids, and every placement of other threads' calls before the read of the handler, between its read and
its write, and after: the payments are those of an order in which the handler is one step exactly when
what it overwrites is not stale. -/
theorem updateSerializable_iff (h : LdkEventHandler) (e : PaymentEvent) (store : KvStore)
    (hown : OwnKeyed store) (pre mid post : List StoreCall) :
    UpdateSerializable h store e pre mid post ↔ WritesFresh h store e pre mid post := by
  cases hid : e.paymentId? with
  | none =>
    refine ⟨fun _ id payment hid' => ?_, fun _ => updateSerializable_of_no_id hid⟩
    rw [hid] at hid'
    cases hid'
  | some id =>
    constructor
    · rintro ⟨before, after, hcalls, hsame⟩ id' payment hid' hg hgo
      obtain rfl : id' = id := Option.some.inj (hid'.symm.trans hid)
      by_cases hpost : ∃ call ∈ post, call.writes = some id'
      · exact Or.inl hpost
      have hread := bind_change_eq_some.mpr ⟨payment, hg, hgo, rfl⟩
      have hops := congrArg (List.map StoreCall.op) hcalls
      have hkey : view (interleaved h store e pre mid post) (paymentKey id') =
          view (atomic h store e before after) (paymentKey id') := hsame _ rfl rfl
      simp only [List.map_append] at hops
      rw [view_interleaved hid hown, view_atomic hid hown] at hkey
      rw [view_runCalls] at hread
      have hlater := change_eq_of_agree change_change hops hkey hread (mt touches_iff.mp hpost)
      rw [← List.map_append, ← view_runCalls, bind_change_eq_some] at hlater
      obtain ⟨later, hlater, -, hrec⟩ := hlater
      exact Or.inr ⟨later, hlater, Payment.encode_injective hrec⟩
    · intro hfresh
      have hlib : Serializable (change h e) (paymentKey id) (view store) (pre.map StoreCall.op)
          (mid.map StoreCall.op) (post.map StoreCall.op) := by
        rw [serializable_iff change_change]
        intro data hread
        rw [← view_runCalls, bind_change_eq_some] at hread
        obtain ⟨payment, hg, hgo, rfl⟩ := hread
        refine (hfresh id payment hid hg hgo).imp touches_iff.mpr ?_
        rintro ⟨later, hlater, hrec⟩
        rw [← List.map_append, ← view_runCalls, bind_change_eq_some]
        refine ⟨later, hlater, ?_, congrArg _ hrec⟩
        rw [← goesThrough_record, hrec, goesThrough_record, hgo]
      obtain ⟨opsBefore, opsAfter, hops, heq⟩ := hlib
      rw [← List.map_append, ← List.map_append] at hops
      obtain ⟨before, after, hcalls, rfl, rfl⟩ := List.map_eq_append_iff.mp hops.symm
      refine ⟨before, after, hcalls.symm, fun key _ _ => ?_⟩
      rw [← view_interleaved hid hown, ← view_atomic hid hown] at heq
      exact congrFun heq key

end

/-! ### A record that is removed while the handler holds it -/

def zeroFailed : PaymentEvent := .failed ⟨zeroBytes⟩ (some ⟨zeroBytes⟩) (some 0)

def otherPayment : Payment := { pendingPayment with
  paymentId := ⟨oneBytes⟩
  paymentHash := ⟨oneBytes⟩ }

/-- Another payment is added and the status of the record changed while the handler holds it. -/
def inTheGap : List StoreCall :=
  [.addPayment none otherPayment, .updatePayment none { pendingPayment with status := .succeeded }]

theorem updateSerializable_iff_at :
    UpdateSerializable quietHandler (written ∅ pendingPayment) zeroFailed [] inTheGap
      [.removePayment none otherPayment.paymentId] := by
  refine (updateSerializable_iff _ _ _ (ownKeyed_empty.written _) _ _ _).mpr fun id payment hid hg _ =>
    Or.inr ?_
  obtain rfl : pendingPayment.paymentId = id := Option.some.inj hid
  obtain rfl : pendingPayment = payment :=
    Except.ok.inj ((getPayment_written_self ∅ pendingPayment).symm.trans hg)
  exact ⟨{ pendingPayment with status := .succeeded },
    getPayment_written_self _ { pendingPayment with status := .succeeded }, rfl⟩

/-- **A record that is removed while the handler holds it reappears**, and in no order with the
handler as one step is it there. -/
theorem not_updateSerializable_removed :
    let final := interleaved quietHandler ∅ zeroFailed [.addPayment none pendingPayment]
      [.removePayment none pendingPayment.paymentId] []
    getPayment none final pendingPayment.paymentId = .ok (failedRecord pendingPayment) ∧
    ¬ UpdateSerializable quietHandler ∅ zeroFailed [.addPayment none pendingPayment]
      [.removePayment none pendingPayment.paymentId] [] := by
  refine ⟨getPayment_written_self _ _, ?_⟩
  rintro ⟨before, after, hcalls, hsame⟩
  have hkey := hsame (paymentKey pendingPayment.paymentId) rfl rfl
  have hthere : (interleaved quietHandler ∅ zeroFailed [.addPayment none pendingPayment]
      [.removePayment none pendingPayment.paymentId] []).lookup
        (paymentKey pendingPayment.paymentId) = some (failedRecord pendingPayment).encode :=
    AList.lookup_insert _
  have hgone : (atomic quietHandler ∅ zeroFailed before after).lookup
      (paymentKey pendingPayment.paymentId) = none := by
    rcases before with _ | ⟨add, _ | ⟨remove, _ | ⟨call, before⟩⟩⟩
    · obtain rfl : after = _ := hcalls
      exact AList.lookup_erase _ _
    · obtain ⟨rfl, rfl⟩ := List.cons.inj hcalls
      exact AList.lookup_erase _ _
    · obtain ⟨rfl, hrest⟩ := List.cons.inj hcalls
      obtain ⟨rfl, rfl⟩ := List.cons.inj hrest
      exact AList.lookup_erase _ _
    · simp at hcalls
  rw [hthere, hgone] at hkey
  cases hkey

end LnNode.EventHandler.UpdateSerial
