import LnNode.EventHandler

/-!
# Whether an acknowledged payment event is durable

`DurableAck` says what an answer of the handler promises LDK: after `Ok` the store shows the event,
after a replay it is as it was. `durableAck_iff` says exactly when the handler keeps that promise,
for every store, every event that ends a payment and every fault of the read and of the write.
-/

namespace LnNode.EventHandler.PaymentAck

open LnNode.OnchainWallet LnNode.Storage

/-- The store holds a record for the event's payment id that shows the event. -/
def StoreShows (store : KvStore) (e : PaymentEvent) : Prop :=
  ∃ id payment, e.paymentId? = some id ∧ getPayment none store id = .ok payment ∧ e.Shown payment

/-- What the answer to an event promises. -/
def DurableAck (store : KvStore) (e : PaymentEvent) (handled : Handled) : Prop :=
  match handled.outcome with
  | .ok => StoreShows handled.store e
  | .replayEvent => handled.store = store
  | .panic => False

def recordRead (h : LdkEventHandler) (store : KvStore) (e : PaymentEvent) (id : PaymentId) :
    Option Payment :=
  if e.readsStore then (getPayment h.readFault store id).toOption else none

/-- The event has its id. If a record is read and info lines are logged, what the line unwraps is
there. Either a record is read, is of that id, and the write goes through; or the store shows the
event already. -/
def CanAcknowledge (h : LdkEventHandler) (store : KvStore) (e : PaymentEvent) : Prop :=
  ∃ id, e.paymentId? = some id ∧
    (∀ payment, recordRead h store e id = some payment → h.infoLogged = true →
      e.fieldsPresent payment = true) ∧
    ((h.writeFault = none ∧ ∃ payment, recordRead h store e id = some payment ∧
        payment.paymentId = id) ∨
      StoreShows store e)

section Arms

variable {h : LdkEventHandler} {store : KvStore} {e : PaymentEvent} {id : PaymentId}
  {payment : Payment}

lemma storeShows_iff (hid : e.paymentId? = some id) :
    StoreShows store e ↔ ∃ payment, getPayment none store id = .ok payment ∧ e.Shown payment := by
  constructor
  · rintro ⟨id', payment, hid', hg, hs⟩
    obtain rfl : id = id' := Option.some.inj (hid.symm.trans hid')
    exact ⟨payment, hg, hs⟩
  · rintro ⟨payment, hg, hs⟩
    exact ⟨id, payment, hid, hg, hs⟩

lemma handle_of_no_record (hid : e.paymentId? = some id) (hr : recordRead h store e id = none) :
    (handleEvent h store e.event).outcome = .ok ∧ (handleEvent h store e.event).store = store := by
  obtain ⟨hout, hstore⟩ := handleEvent_payment h store e
  have hread : e.read h.infoLogged h.readFault store = .done := by
    unfold recordRead at hr
    cases hreads : e.readsStore with
    | false => exact PaymentEvent.read_of_not_readsStore hreads
    | true =>
      rw [hreads, if_pos rfl] at hr
      cases hg : getPayment h.readFault store id with
      | error err => exact PaymentEvent.read_error hid hreads hg
      | ok payment => simp [hg, Except.toOption] at hr
  rw [hout, hstore, hread]
  exact ⟨rfl, rfl⟩

lemma read_of_record (hid : e.paymentId? = some id)
    (hr : recordRead h store e id = some payment) :
    getPayment none store id = .ok payment ∧ e.read h.infoLogged h.readFault store =
      if h.infoLogged && !e.fieldsPresent payment then .panic else .update (e.record payment) := by
  unfold recordRead at hr
  split_ifs at hr with hreads
  have hg : getPayment h.readFault store id = .ok payment := by
    cases hg : getPayment h.readFault store id with
    | error err => simp [hg, Except.toOption] at hr
    | ok p => simpa [hg, Except.toOption] using hr
  exact ⟨getPayment_none_of_ok hg, PaymentEvent.read_ok hid hreads hg⟩

/-- After an update the store shows the event if the record was that of the id and the write went
through, or if the store showed it before. -/
lemma storeShows_write_iff (hid : e.paymentId? = some id)
    (hg : getPayment none store id = .ok payment) :
    StoreShows (writePayment h.writeFault store (.update (e.record payment))).2 e ↔
      h.writeFault = none ∧ payment.paymentId = id ∨ e.Shown payment := by
  rw [storeShows_iff hid]
  cases hw : h.writeFault with
  | some err => simp [writePayment, updatePayment, hg]
  | none =>
    simp only [writePayment, updatePayment, addPayment_ok, true_and]
    by_cases hp : payment.paymentId = id
    · have hrec : (e.record payment).paymentId = id := by
        rw [PaymentEvent.record_paymentId, hp]
      have hget := getPayment_written_self store (e.record payment)
      rw [hrec] at hget
      rw [hget]
      exact ⟨fun _ => Or.inl hp, fun _ => ⟨_, rfl, PaymentEvent.shown_record e payment⟩⟩
    · have hne : id ≠ (e.record payment).paymentId := by
        rw [PaymentEvent.record_paymentId]
        exact fun h => hp h.symm
      rw [getPayment_written_of_ne hne, hg]
      simp [hp]

end Arms

/-- **When acknowledging a payment event is durable**: for every store, every event that ends a
payment and every fault of the read and of the write. -/
theorem durableAck_iff (h : LdkEventHandler) (store : KvStore) (e : PaymentEvent) :
    DurableAck store e (handleEvent h store e.event) ↔ CanAcknowledge h store e := by
  obtain ⟨hout, hstore⟩ := handleEvent_payment h store e
  cases hid : e.paymentId? with
  | none =>
    -- the id is unwrapped first of all
    have hread := PaymentEvent.read_of_no_id hid h.infoLogged h.readFault store
    have hpanic : (handleEvent h store e.event).outcome = .panic := by
      rw [hout, hread]
      rfl
    unfold DurableAck CanAcknowledge
    rw [hpanic]
    exact ⟨False.elim, fun ⟨id, hid', _⟩ => by simp [hid] at hid'⟩
  | some id =>
    cases hr : recordRead h store e id with
    | none =>
      obtain ⟨hok, hsame⟩ := handle_of_no_record hid hr
      unfold DurableAck CanAcknowledge
      rw [hok, hsame]
      constructor
      · exact fun hs => ⟨id, hid, by simp [hr], Or.inr hs⟩
      · rintro ⟨id', hid', -, ⟨-, payment, hr', -⟩ | hs⟩
        · obtain rfl : id = id' := Option.some.inj (hid.symm.trans hid')
          simp [hr] at hr'
        · exact hs
    | some payment =>
      obtain ⟨hg, hread⟩ := read_of_record hid hr
      have hcan : CanAcknowledge h store e ↔ (h.infoLogged = true → e.fieldsPresent payment = true) ∧
          (h.writeFault = none ∧ payment.paymentId = id ∨ e.Shown payment) := by
        unfold CanAcknowledge
        simp only [hid, Option.some.injEq, exists_eq_left', hr, forall_eq', storeShows_iff hid, hg,
          Except.ok.injEq]
      rw [hcan, ← storeShows_write_iff (h := h) hid hg]
      rw [hread] at hout hstore
      unfold DurableAck
      rw [hout, hstore]
      split_ifs with hfields
      · have hmissing : h.infoLogged = true ∧ e.fieldsPresent payment = false := by
          simpa using hfields
        refine ⟨False.elim, fun ⟨hpresent, _⟩ => ?_⟩
        rw [hpresent hmissing.1] at hmissing
        exact absurd hmissing.2 (by simp)
      · have hpresent : h.infoLogged = true → e.fieldsPresent payment = true := by
          simpa using hfields
        rw [writePayment_update_outcome]
        exact ⟨fun hshows => ⟨hpresent, hshows⟩, fun ⟨_, hshows⟩ => hshows⟩

/-! ### A record that is missing, and a write that fails -/

def paymentSucceeded : PaymentEvent := .sent (some ⟨zeroBytes⟩) ⟨zeroBytes⟩ ⟨zeroBytes⟩ (some 1)

def noSpaceHandler : LdkEventHandler :=
  { quietHandler with writeFault := some (.other "no space left") }

/-- **The success is acknowledged and lost**: when the store has no record yet, and when the write of
the changed record fails. -/
theorem not_durableAck_lost :
    (handleEvent quietHandler ∅ paymentSucceeded.event).outcome = .ok ∧
    ¬ DurableAck ∅ paymentSucceeded (handleEvent quietHandler ∅ paymentSucceeded.event) ∧
    ¬ DurableAck (written ∅ pendingPayment) paymentSucceeded
      (handleEvent noSpaceHandler (written ∅ pendingPayment) paymentSucceeded.event) := by
  have hid : paymentSucceeded.paymentId? = some ⟨zeroBytes⟩ := rfl
  refine ⟨rfl, fun h => ?_, fun h => ?_⟩
  · obtain ⟨payment, hg, -⟩ := (storeShows_iff hid).mp h
    cases hg
  · have hget : getPayment none (written ∅ pendingPayment) ⟨zeroBytes⟩ = .ok pendingPayment :=
      getPayment_written_self ∅ pendingPayment
    have hread : paymentSucceeded.read noSpaceHandler.infoLogged noSpaceHandler.readFault
        (written ∅ pendingPayment) = .update (paymentSucceeded.record pendingPayment) :=
      PaymentEvent.read_ok hid rfl hget
    obtain ⟨hout, hstore⟩ :=
      handleEvent_payment noSpaceHandler (written ∅ pendingPayment) paymentSucceeded
    unfold DurableAck at h
    rw [hout, hstore, hread, writePayment_update_outcome] at h
    rcases (storeShows_write_iff hid hget).mp h with ⟨hw, -⟩ | hshown
    · cases hw
    · cases hshown.1

end LnNode.EventHandler.PaymentAck
