import LnNode.EventHandler.UpdateSerial
import LnNode.Lib.KeyedEvents

/-!
# What a list of events leaves in the store

Events of payments, handled one after another, with a store that does not fail and that nobody else
writes. `lastEventWins` is the record that is to be left of a payment: the status of the last event
that has one, and the preimage and the fee of the last `PaymentSent`.

* `view_handleEvents`: handling events is applying them to what their files hold;
* `exists_handleEvents_iff`: a list of events is handled if each of them finds the amount that its log
  line unwraps;
* `computesLast_iff`: nothing else is needed.
-/

namespace LnNode.EventHandler.LastEventWins

open LnNode.Lib.Wire LnNode.Lib.KeyedEvents LnNode.Storage LnNode.EventHandler.UpdateSerial

/-! ### Events of payments -/

/-- Events handled one after another; a panic ends the task that handles them. -/
def handleEvents (h : LdkEventHandler) : KvStore → List Event → Option KvStore
  | store, [] => some store
  | store, e :: es =>
    if (handleEvent h store e).outcome = .ok then handleEvents h (handleEvent h store e).store es
    else none

/-- The events in question, with the fields that LDK guarantees. -/
def Guaranteed : Event → Prop
  | .paymentSent paymentId _ _ feePaidMsat => paymentId.isSome ∧ feePaidMsat.isSome
  | .paymentFailed _ _ reason => reason.isSome
  | .paymentClaimed _ _ => True
  | .paymentPathFailed => True
  | .paymentPathSuccessful paymentHash => paymentHash.isSome
  | _ => False

def eventId : Event → Option PaymentId
  | .paymentSent paymentId _ _ _ => paymentId
  | .paymentFailed paymentId _ _ => some paymentId
  | _ => none

/-- The status of a payment that the event ends. A `PaymentFailed` without a hash ends none. -/
def endStatus : Event → Option PaymentStatus
  | .paymentSent _ _ _ _ => some .succeeded
  | .paymentFailed _ paymentHash _ => paymentHash.map fun _ => .failed
  | _ => none

def sentWith : Event → Option (PaymentPreimage × Option UInt64)
  | .paymentSent _ paymentPreimage _ feePaidMsat => some (paymentPreimage, feePaidMsat)
  | _ => none

/-- The record that is to be left by the events of a payment. -/
def lastEventWins (es : List Event) (payment : Payment) : Payment :=
  { payment with
    status := (lastOf endStatus es).getD payment.status
    paymentPreimage := ((lastOf sentWith es).map fun sent => some sent.1).getD payment.paymentPreimage
    feePaidMsat := ((lastOf sentWith es).map Prod.snd).getD payment.feePaidMsat }

/-! ### What is to be computed -/

/-- Every file of the payments is the record of the id it is named by; outbound ones have an amount. -/
structure RecordsDecode (store : KvStore) : Prop where
  decode : ∀ key data, key.primaryNamespace = paymentsPrimaryNamespace →
    key.secondaryNamespace = paymentsSecondaryNamespace → store.lookup key = some data →
    ∃ payment, Payment.read data = .ok payment ∧ key = paymentKey payment.paymentId
  outbound : ∀ id payment, getPayment none store id = .ok payment → payment.direction = .outbound →
    payment.amountMsat.isSome

def SameFiles (store store' : KvStore) : Prop := ∀ key, store'.lookup key = store.lookup key

/-- All events are handled. Then every record is that of the last events of its id, no other file is
touched, the same events leave the store as it is when they are handled again, and so do they in any
order that is the same for each id. -/
structure ComputesLast (h : LdkEventHandler) (store : KvStore) (events : List Event)
    (final : KvStore) : Prop where
  handled : handleEvents h store events = some final
  record : ∀ id payment, getPayment none store id = .ok payment →
    getPayment none final id = .ok (lastEventWins (eventsOf eventId id events) payment)
  absent : ∀ id, store.lookup (paymentKey id) = none → final.lookup (paymentKey id) = none
  others : ∀ key, key.primaryNamespace ≠ paymentsPrimaryNamespace →
    final.lookup key = store.lookup key
  replayed : ∃ again, handleEvents h final events = some again ∧ SameFiles final again
  reordered : ∀ events', (∀ e ∈ events', Guaranteed e) →
    (∀ id, eventsOf eventId id events' = eventsOf eventId id events) →
    ∃ final', handleEvents h store events' = some final' ∧ SameFiles final final'

/-- Where info lines are logged, no payment is sent under the id of a payment to be received that has
no amount. -/
def SentHaveAmounts (h : LdkEventHandler) (store : KvStore) (events : List Event) : Prop :=
  h.infoLogged = true → ∀ id paymentPreimage paymentHash feePaidMsat,
    .paymentSent (some id) paymentPreimage paymentHash feePaidMsat ∈ events →
    ∀ payment, getPayment none store id = .ok payment → payment.direction = .inbound →
      payment.amountMsat.isSome

/-! ### Records -/

section Records

variable {e : Event} {es : List Event} {payment : Payment}

lemma lastEventWins_cons :
    lastEventWins (e :: es) payment = lastEventWins es (lastEventWins [e] payment) := by
  simp only [lastEventWins, lastOf_cons, lastOf_nil, Option.none_or]
  cases lastOf endStatus es <;> cases lastOf sentWith es <;> rfl

lemma lastEventWins_twice :
    lastEventWins es (lastEventWins es payment) = lastEventWins es payment := by
  simp only [lastEventWins]
  cases lastOf endStatus es <;> cases lastOf sentWith es <;> rfl

lemma lastEventWins_of_none (h : lastOf endStatus es = none) :
    lastEventWins es payment = payment := by
  have hsent : lastOf sentWith es = none := by
    rw [lastOf_eq_none_iff] at h ⊢
    intro e he
    have hnone := h e he
    cases e with
    | paymentSent paymentId preimage paymentHash fee => cases hnone
    | _ => rfl
  rw [lastEventWins, h, hsent]
  rfl

end Records

/-! ### Files -/

def fileOf (e : Event) : Option StoreKey := (eventId e).map paymentKey

def rewrite (e : Event) (data : Bytes) : Bytes :=
  match endStatus e, Payment.read data with
  | some _, .ok payment => (lastEventWins [e] payment).encode
  | _, _ => data

section Files

variable {e : Event} {es : List Event} {payment : Payment} {data : Bytes} {id : PaymentId}

lemma rewrite_of_none (hend : endStatus e = none) : rewrite e data = data := by
  rw [rewrite, hend]

lemma rewrite_of_some {status : PaymentStatus} (hend : endStatus e = some status)
    (hread : Payment.read data = .ok payment) :
    rewrite e data = (lastEventWins [e] payment).encode := by
  rw [rewrite, hend, hread]

/-- **What events make of a file**: the record of the last ones, if they end the payment at all. -/
lemma actAll_rewrite (hread : Payment.read data = .ok payment) :
    actAll rewrite es data =
      if (lastOf endStatus es).isSome then (lastEventWins es payment).encode else data := by
  induction es generalizing data payment with
  | nil => rfl
  | cons e es ih =>
    show actAll rewrite es (rewrite e data) = _
    rw [lastEventWins_cons, lastOf_cons]
    cases hend : endStatus e with
    | none =>
      have hself : lastEventWins [e] payment = payment :=
        lastEventWins_of_none (by rw [lastOf_cons, hend]; rfl)
      rw [rewrite_of_none hend, ih hread, hself, Option.or_none]
    | some status =>
      rw [rewrite_of_some hend hread, ih (Payment.read_encode _)]
      cases hlast : lastOf endStatus es with
      | none => rw [lastEventWins_of_none hlast]; rfl
      | some last => rfl

lemma read_actAll_rewrite (hread : Payment.read data = .ok payment) :
    Payment.read (actAll rewrite es data) = .ok (lastEventWins es payment) := by
  rw [actAll_rewrite hread]
  cases hlast : lastOf endStatus es with
  | none => rwa [lastEventWins_of_none hlast]
  | some last => exact Payment.read_encode _

lemma actAll_rewrite_twice (hread : Payment.read data = .ok payment) :
    actAll rewrite es (actAll rewrite es data) = actAll rewrite es data := by
  rw [actAll_rewrite (read_actAll_rewrite hread), actAll_rewrite hread, lastEventWins_twice]
  cases lastOf endStatus es <;> rfl

lemma fileOf_eq_some : fileOf e = some (paymentKey id) ↔ eventId e = some id := by
  rw [fileOf, Option.map_eq_some_iff]
  constructor
  · rintro ⟨other, hid, hkey⟩
    rw [hid, paymentKey_injective hkey]
  · exact fun hid => ⟨id, hid, rfl⟩

lemma eventsOf_fileOf : eventsOf fileOf (paymentKey id) es = eventsOf eventId id es := by
  simp only [eventsOf, fileOf_eq_some]

lemma eventsOf_fileOf_of_ne {key : StoreKey} (hkey : ∀ id, key ≠ paymentKey id) :
    eventsOf fileOf key es = [] := by
  rw [eventsOf, List.filter_eq_nil_iff]
  intro e _ hfile
  rw [decide_eq_true_eq, fileOf, Option.map_eq_some_iff] at hfile
  obtain ⟨id, -, rfl⟩ := hfile
  exact hkey id rfl

end Files

/-! ### Handling one event -/

def LacksAmount (store : KvStore) (id : PaymentId) : Prop :=
  ∃ payment, getPayment none store id = .ok payment ∧ payment.amountMsat = none

/-- What is left to go wrong in the handling of one event. -/
def AmountThere (h : LdkEventHandler) (store : KvStore) (e : Event) : Prop :=
  h.infoLogged = true → ∀ id paymentPreimage paymentHash feePaidMsat,
    e = .paymentSent (some id) paymentPreimage paymentHash feePaidMsat → ¬ LacksAmount store id

section Handling

variable {h : LdkEventHandler} {store : KvStore} {e : Event} {p : PaymentEvent} {id : PaymentId}
  {payment : Payment}

lemma payment_ok_iff (hread : h.readFault = none) (hid : p.paymentId? = some id) :
    (handleEvent h store p.event).outcome = .ok ↔
      (h.infoLogged = true → p.readsStore = true → ∀ payment, getPayment none store id = .ok payment →
        p.fieldsPresent payment = true) := by
  rw [(handleEvent_payment h store p).1, hread]
  cases hreads : p.readsStore with
  | false =>
    rw [PaymentEvent.read_of_not_readsStore hreads]
    simp [writePayment]
  | true =>
    cases hg : getPayment none store id with
    | error err =>
      rw [PaymentEvent.read_error hid hreads hg]
      simp [writePayment]
    | ok payment =>
      rw [PaymentEvent.read_ok hid hreads hg]
      split_ifs with hpanic
      · rw [Bool.and_eq_true, Bool.not_eq_true'] at hpanic
        simp [writePayment, hpanic]
      · rw [writePayment_update_outcome]
        simpa using hpanic

/-- **When an event is handled**: its record has an amount, if the arm logs one. -/
lemma handleEvent_ok_iff (hread : h.readFault = none) (hg : Guaranteed e) :
    (handleEvent h store e).outcome = .ok ↔ AmountThere h store e := by
  cases e with
  | paymentSent paymentId preimage paymentHash fee =>
    obtain ⟨id, rfl⟩ := Option.isSome_iff_exists.mp hg.1
    have hfee : fee.isSome = true := hg.2
    refine (payment_ok_iff (p := .sent (some id) preimage paymentHash fee) hread rfl).trans ?_
    constructor
    · rintro hamount hinfo _ _ _ _ ⟨⟩ ⟨payment, hget, hnone⟩
      have hthere := hamount hinfo rfl payment hget
      simp [PaymentEvent.fieldsPresent, hnone] at hthere
    · intro hamount hinfo _ payment hget
      cases hsome : payment.amountMsat with
      | some amount => simp [PaymentEvent.fieldsPresent, hfee, hsome]
      | none => exact absurd ⟨payment, hget, hsome⟩ (hamount hinfo id preimage paymentHash fee rfl)
  | paymentFailed paymentId paymentHash reason =>
    have hreason : reason.isSome = true := hg
    refine (payment_ok_iff (p := .failed paymentId paymentHash reason) hread rfl).trans ?_
    simp [AmountThere, PaymentEvent.fieldsPresent, hreason]
  | paymentPathSuccessful paymentHash =>
    have hhash : paymentHash.isSome = true := hg
    simp [handleEvent, Handled.of, hhash, AmountThere]
  | paymentClaimed paymentHash amountMsat => simp [handleEvent, Handled.of, AmountThere]
  | paymentPathFailed => simp [handleEvent, Handled.of, AmountThere]
  | _ => exact absurd hg not_false

lemma getPayment_of_read {data : Bytes} (hdata : store.lookup (paymentKey id) = some data)
    (hpay : Payment.read data = .ok payment) : getPayment none store id = .ok payment := by
  simp [getPayment, KvStore.read, hdata, hpay]

lemma exists_read_of_getPayment (hget : getPayment none store id = .ok payment) :
    ∃ data, store.lookup (paymentKey id) = some data ∧ Payment.read data = .ok payment := by
  unfold getPayment KvStore.read at hget
  cases hdata : store.lookup (paymentKey id) with
  | none => simp [hdata] at hget
  | some data =>
    cases hpay : Payment.read data with
    | error err => simp [hdata, hpay] at hget
    | ok other => exact ⟨data, rfl, by simpa [hdata, hpay] using hget⟩

lemma getD_change (hread : h.readFault = none) (hwrite : h.writeFault = none)
    (hid : p.paymentId? = some id) (hok : (handleEvent h store p.event).outcome = .ok) {data : Bytes}
    (hdata : store.lookup (paymentKey id) = some data) :
    (change h p data).getD data = rewrite p.event data := by
  have hfields := (payment_ok_iff hread hid).mp hok
  cases hpay : Payment.read data with
  | error err =>
    rw [change, hpay, rewrite, hpay]
    cases endStatus p.event <;> rfl
  | ok payment =>
    have hget := getPayment_of_read hdata hpay
    rw [change, hpay]
    cases hreads : p.readsStore with
    | false =>
      have hgo : goesThrough h p payment = false := by simp [goesThrough, hreads]
      have hend : endStatus p.event = none := by
        cases p with
        | sent paymentId preimage paymentHash fee => cases hreads
        | failed paymentId paymentHash reason =>
          rw [PaymentEvent.readsStore, Option.isSome_eq_false_iff, Option.isNone_iff_eq_none] at hreads
          rw [hreads]
          rfl
      rw [rewrite_of_none hend]
      simp [hgo]
    | true =>
      have hgo : goesThrough h p payment = true := by
        have hpresent : h.infoLogged = true → p.fieldsPresent payment = true :=
          fun hinfo => hfields hinfo hreads payment hget
        cases hinfo : h.infoLogged <;> simp_all [goesThrough]
      have hrec : p.record payment = lastEventWins [p.event] payment ∧
          (endStatus p.event).isSome = true := by
        cases p with
        | sent paymentId preimage paymentHash fee => exact ⟨rfl, rfl⟩
        | failed paymentId paymentHash reason =>
          obtain ⟨hash, rfl⟩ := Option.isSome_iff_exists.mp hreads
          exact ⟨rfl, rfl⟩
      obtain ⟨status, hend⟩ := Option.isSome_iff_exists.mp hrec.2
      rw [rewrite_of_some hend hpay, ← hrec.1]
      simp [hgo]

lemma view_handleEvent (hread : h.readFault = none) (hwrite : h.writeFault = none)
    (hown : OwnKeyed store) (hg : Guaranteed e) (hok : (handleEvent h store e).outcome = .ok) :
    view (handleEvent h store e).store = applyEvent fileOf rewrite (view store) e := by
  have harm : ∀ (p : PaymentEvent) (id : PaymentId), p.paymentId? = some id →
      eventId p.event = some id → (handleEvent h store p.event).outcome = .ok →
      view (handleEvent h store p.event).store =
        applyEvent fileOf rewrite (view store) p.event := by
    intro p id hid heid hok
    rw [(handleEvent_payment h store p).2, view_handler hid hown, applyEvent,
      fileOf_eq_some.mpr heid]
    show Lib.ReadModifyWrite.writeBack _ _ _ = Function.update _ _ _
    cases hdata : view store (paymentKey id) with
    | none => exact (Function.update_eq_self_iff.mpr hdata.symm).symm
    | some data =>
      rw [Option.map_some, ← getD_change hread hwrite hid hok hdata, Option.bind_some]
      cases change h p data with
      | none => exact (Function.update_eq_self_iff.mpr hdata.symm).symm
      | some data' => rfl
  cases e with
  | paymentSent paymentId preimage paymentHash fee =>
    obtain ⟨id, rfl⟩ := Option.isSome_iff_exists.mp hg.1
    exact harm (.sent (some id) preimage paymentHash fee) id rfl rfl hok
  | paymentFailed paymentId paymentHash reason =>
    exact harm (.failed paymentId paymentHash reason) paymentId rfl rfl hok
  | paymentClaimed paymentHash amountMsat => rfl
  | paymentPathSuccessful paymentHash => rfl
  | paymentPathFailed => rfl
  | _ => exact absurd hg not_false

lemma handleEvent_keeps (hg : Guaranteed e) (hown : OwnKeyed store) :
    OwnKeyed (handleEvent h store e).store ∧
      ∀ id, LacksAmount (handleEvent h store e).store id ↔ LacksAmount store id := by
  have harm : ∀ (p : PaymentEvent) (id : PaymentId), p.paymentId? = some id →
      OwnKeyed (handleEvent h store p.event).store ∧
        ∀ id, LacksAmount (handleEvent h store p.event).store id ↔ LacksAmount store id := by
    intro p id hid
    rcases handleEvent_payment_store h store hid with hsame | ⟨-, payment, hget, hwritten⟩
    · rw [hsame]
      exact ⟨hown, fun _ => Iff.rfl⟩
    · rw [hwritten]
      refine ⟨hown.written _, fun other => ?_⟩
      have hkey : (p.record payment).paymentId = id := by
        rw [PaymentEvent.record_paymentId, hown id payment hget]
      by_cases hother : other = id
      · subst hother
        have hself := getPayment_written_self store (p.record payment)
        rw [hkey] at hself
        simp [LacksAmount, hself, hget]
      · rw [← hkey] at hother
        simp only [LacksAmount, getPayment_written_of_ne hother]
  cases e with
  | paymentSent paymentId preimage paymentHash fee =>
    obtain ⟨id, rfl⟩ := Option.isSome_iff_exists.mp hg.1
    exact harm (.sent (some id) preimage paymentHash fee) id rfl
  | paymentFailed paymentId paymentHash reason =>
    exact harm (.failed paymentId paymentHash reason) paymentId rfl
  | paymentClaimed paymentHash amountMsat => exact ⟨hown, fun _ => Iff.rfl⟩
  | paymentPathSuccessful paymentHash => exact ⟨hown, fun _ => Iff.rfl⟩
  | paymentPathFailed => exact ⟨hown, fun _ => Iff.rfl⟩
  | _ => exact absurd hg not_false

end Handling

/-! ### Handling a list of events -/

section Run

variable {h : LdkEventHandler} {store final : KvStore} {es : List Event}

/-- **A list of events is handled** if each of them finds the amount it needs. -/
lemma exists_handleEvents_iff (hread : h.readFault = none) (hown : OwnKeyed store)
    (hes : ∀ e ∈ es, Guaranteed e) :
    (∃ final, handleEvents h store es = some final) ↔ ∀ e ∈ es, AmountThere h store e := by
  induction es generalizing store with
  | nil => simp [handleEvents]
  | cons e es ih =>
    have hg := hes e List.mem_cons_self
    obtain ⟨hown', hlacks⟩ := handleEvent_keeps (h := h) hg hown
    have hrest := ih hown' fun e' he' => hes e' (List.mem_cons_of_mem _ he')
    have hthere : ∀ e', AmountThere h (handleEvent h store e).store e' ↔ AmountThere h store e' := by
      intro e'
      simp only [AmountThere, hlacks]
    simp only [hthere] at hrest
    rw [List.forall_mem_cons, ← hrest, ← handleEvent_ok_iff hread hg, handleEvents]
    split_ifs with hok
    · simp [hok]
    · simp [hok]

lemma handleEvents_keeps (hown : OwnKeyed store) (hes : ∀ e ∈ es, Guaranteed e)
    (hfinal : handleEvents h store es = some final) :
    OwnKeyed final ∧ ∀ id, LacksAmount final id ↔ LacksAmount store id := by
  induction es generalizing store with
  | nil =>
    cases hfinal
    exact ⟨hown, fun _ => Iff.rfl⟩
  | cons e es ih =>
    obtain ⟨hown', hlacks⟩ := handleEvent_keeps (h := h) (hes e List.mem_cons_self) hown
    rw [handleEvents] at hfinal
    split_ifs at hfinal
    obtain ⟨hown'', hlacks'⟩ := ih hown' (fun e' he' => hes e' (List.mem_cons_of_mem _ he')) hfinal
    exact ⟨hown'', fun id => (hlacks' id).trans (hlacks id)⟩

/-- **Handling events is applying them to the files.** -/
lemma view_handleEvents (hread : h.readFault = none) (hwrite : h.writeFault = none)
    (hown : OwnKeyed store) (hes : ∀ e ∈ es, Guaranteed e)
    (hfinal : handleEvents h store es = some final) :
    view final = applyEvents fileOf rewrite (view store) es := by
  induction es generalizing store with
  | nil =>
    cases hfinal
    rfl
  | cons e es ih =>
    have hg := hes e List.mem_cons_self
    obtain ⟨hown', -⟩ := handleEvent_keeps (h := h) hg hown
    rw [handleEvents] at hfinal
    split_ifs at hfinal with hok
    rw [ih hown' (fun e' he' => hes e' (List.mem_cons_of_mem _ he')) hfinal,
      view_handleEvent hread hwrite hown hg hok]
    rfl

lemma lookup_handleEvents (hread : h.readFault = none) (hwrite : h.writeFault = none)
    (hown : OwnKeyed store) (hes : ∀ e ∈ es, Guaranteed e)
    (hfinal : handleEvents h store es = some final) (id : PaymentId) :
    final.lookup (paymentKey id) =
      (store.lookup (paymentKey id)).map (actAll rewrite (eventsOf eventId id es)) := by
  have happly := congrFun (view_handleEvents hread hwrite hown hes hfinal) (paymentKey id)
  rw [applyEvents_apply, eventsOf_fileOf] at happly
  exact happly

end Run

/-! ### The last event wins -/

section Main

variable {h : LdkEventHandler} {store final : KvStore} {es es' : List Event} {id : PaymentId}

lemma RecordsDecode.ownKeyed (hrec : RecordsDecode store) : OwnKeyed store := by
  intro id payment hget
  obtain ⟨data, hdata, hread⟩ := exists_read_of_getPayment hget
  obtain ⟨own, hown, hkey⟩ := hrec.decode (paymentKey id) data rfl rfl hdata
  obtain rfl : own = payment := Except.ok.inj (hown.symm.trans hread)
  exact (paymentKey_injective hkey).symm

lemma RecordsDecode.amountsThere_iff (hrec : RecordsDecode store) :
    (∀ e ∈ es, AmountThere h store e) ↔ SentHaveAmounts h store es := by
  constructor
  · intro hthere hinfo id preimage paymentHash fee hmem payment hget _
    cases hsome : payment.amountMsat with
    | some amount => rfl
    | none => exact absurd ⟨payment, hget, hsome⟩ (hthere _ hmem hinfo id _ _ _ rfl)
  · rintro hsent _ hmem hinfo id preimage paymentHash fee rfl ⟨payment, hget, hnone⟩
    have hsome : payment.amountMsat.isSome = true := by
      cases hdir : payment.direction with
      | inbound => exact hsent hinfo id _ _ _ hmem payment hget hdir
      | outbound => exact hrec.outbound id payment hget hdir
    rw [hnone] at hsome
    cases hsome

lemma eventsOf_fileOf_congr (hsame : ∀ id, eventsOf eventId id es' = eventsOf eventId id es)
    (key : StoreKey) : eventsOf fileOf key es' = eventsOf fileOf key es := by
  by_cases hkey : ∃ id, key = paymentKey id
  · obtain ⟨id, rfl⟩ := hkey
    rw [eventsOf_fileOf, eventsOf_fileOf, hsame]
  · have hne : ∀ id, key ≠ paymentKey id := fun id heq => hkey ⟨id, heq⟩
    rw [eventsOf_fileOf_of_ne hne, eventsOf_fileOf_of_ne hne]

lemma amountsThere_congr (hsame : ∀ id, eventsOf eventId id es' = eventsOf eventId id es)
    (hthere : ∀ e ∈ es, AmountThere h store e) : ∀ e ∈ es', AmountThere h store e := by
  rintro _ hmem hinfo id preimage paymentHash fee rfl
  have hof : .paymentSent (some id) preimage paymentHash fee ∈ eventsOf eventId id es' :=
    List.mem_filter.mpr ⟨hmem, by simp [eventId]⟩
  rw [hsame] at hof
  exact hthere _ (List.mem_filter.mp hof).1 hinfo id _ _ _ rfl

/-- **Handling the same events again**, and the same events of each payment in another order. -/
lemma computesLast_of_handled (hread : h.readFault = none) (hwrite : h.writeFault = none)
    (hrec : RecordsDecode store) (hes : ∀ e ∈ es, Guaranteed e)
    (hfinal : handleEvents h store es = some final) : ComputesLast h store es final := by
  have hown := hrec.ownKeyed
  have hview := view_handleEvents hread hwrite hown hes hfinal
  have hlook := lookup_handleEvents hread hwrite hown hes hfinal
  have hthere := (exists_handleEvents_iff hread hown hes).mp ⟨final, hfinal⟩
  obtain ⟨hown', hlacks⟩ := handleEvents_keeps hown hes hfinal
  constructor
  case handled => exact hfinal
  case record =>
    intro id payment hget
    obtain ⟨data, hdata, hpay⟩ := exists_read_of_getPayment hget
    refine getPayment_of_read ?_ (read_actAll_rewrite hpay)
    rw [hlook, hdata]
    rfl
  case absent =>
    intro id hnone
    rw [hlook, hnone]
    rfl
  case others =>
    intro key hkey
    have hne : ∀ id, key ≠ paymentKey id := fun id heq => hkey (by rw [heq]; rfl)
    have happly := congrFun hview key
    rw [applyEvents_apply, eventsOf_fileOf_of_ne hne] at happly
    exact happly.trans (congrFun Option.map_id _)
  case replayed =>
    obtain ⟨again, hagain⟩ : ∃ again, handleEvents h final es = some again := by
      refine (exists_handleEvents_iff hread hown' hes).mpr fun e he hinfo id _ _ _ heq => ?_
      rw [hlacks]
      exact hthere e he hinfo id _ _ _ heq
    refine ⟨again, hagain, congrFun ?_⟩
    show view again = view final
    rw [view_handleEvents hread hwrite hown' hes hagain, hview]
    refine applyEvents_replay fun key data hdata => ?_
    by_cases hkey : ∃ id, key = paymentKey id
    · obtain ⟨id, rfl⟩ := hkey
      obtain ⟨payment, hpay, -⟩ := hrec.decode _ _ rfl rfl hdata
      exact actAll_rewrite_twice hpay
    · rw [eventsOf_fileOf_of_ne fun id heq => hkey ⟨id, heq⟩]
      rfl
  case reordered =>
    intro es' hes' hsame
    obtain ⟨final', hfinal'⟩ := (exists_handleEvents_iff hread hown hes').mpr
      (amountsThere_congr hsame hthere)
    refine ⟨final', hfinal', congrFun ?_⟩
    show view final' = view final
    rw [view_handleEvents hread hwrite hown hes' hfinal', hview]
    exact applyEvents_congr (eventsOf_fileOf_congr hsame)

/-- **When the last event wins.** For every store whose records decode and every list of events of
payments, with a store that does not fail and no other writer. -/
theorem computesLast_iff (h : LdkEventHandler) (hread : h.readFault = none)
    (hwrite : h.writeFault = none) (store : KvStore) (hrec : RecordsDecode store)
    (events : List Event) (hevents : ∀ e ∈ events, Guaranteed e) :
    (∃ final, ComputesLast h store events final) ↔ SentHaveAmounts h store events := by
  rw [← hrec.amountsThere_iff, ← exists_handleEvents_iff hread hrec.ownKeyed hevents]
  constructor
  · rintro ⟨final, hcomputes⟩
    exact ⟨final, hcomputes.handled⟩
  · rintro ⟨final, hfinal⟩
    exact ⟨final, computesLast_of_handled hread hwrite hrec hevents hfinal⟩

end Main

/-! ### A payment to be received, without an amount -/

lemma recordsDecode_empty : RecordsDecode ∅ where
  decode key data _ _ hdata := by cases hdata
  outbound id payment hget := by cases hget

lemma RecordsDecode.written {store : KvStore} {payment : Payment} (h : RecordsDecode store)
    (hamount : payment.direction = .outbound → payment.amountMsat.isSome) :
    RecordsDecode (written store payment) := by
  constructor
  case decode =>
    intro key data hprimary hsecondary hdata
    by_cases hkey : key = paymentKey payment.paymentId
    · subst hkey
      rw [Storage.written, AList.lookup_insert] at hdata
      cases hdata
      exact ⟨payment, Payment.read_encode payment, rfl⟩
    · rw [Storage.written, AList.lookup_insert_ne hkey] at hdata
      exact h.decode key data hprimary hsecondary hdata
  case outbound =>
    intro id other hget hdir
    rw [getPayment_written] at hget
    split_ifs at hget
    · cases hget
      exact hamount hdir
    · exact h.outbound id other hget hdir

def zeroPaymentSent : Event := .paymentSent (some ⟨zeroBytes⟩) ⟨zeroBytes⟩ ⟨zeroBytes⟩ (some 1)

lemma guaranteed_zeroPaymentSent : ∀ e ∈ [zeroPaymentSent], Guaranteed e := by
  simp [zeroPaymentSent, Guaranteed]

/-- The pending payment fails and is sent after all, and another one fails. -/
def threeEvents : List Event :=
  [zeroFailed.event, zeroPaymentSent, .paymentFailed ⟨oneBytes⟩ (some ⟨oneBytes⟩) (some 0)]

theorem computesLast_iff_at :
    ∃ final, ComputesLast quietHandler (written (written ∅ pendingPayment) otherPayment) threeEvents
        final ∧
      getPayment none final ⟨zeroBytes⟩ = .ok (sentRecord pendingPayment ⟨zeroBytes⟩ (some 1)) ∧
      getPayment none final ⟨oneBytes⟩ = .ok (failedRecord otherPayment) := by
  have hzero : getPayment none (written (written ∅ pendingPayment) otherPayment) ⟨zeroBytes⟩ =
      .ok pendingPayment := by
    rw [getPayment_written_of_ne (by decide)]
    exact getPayment_written_self ∅ pendingPayment
  have hone : getPayment none (written (written ∅ pendingPayment) otherPayment) ⟨oneBytes⟩ =
      .ok otherPayment := getPayment_written_self _ otherPayment
  have hrec : RecordsDecode (written (written ∅ pendingPayment) otherPayment) :=
    (recordsDecode_empty.written fun _ => rfl).written fun _ => rfl
  have hsent : SentHaveAmounts quietHandler (written (written ∅ pendingPayment) otherPayment)
      threeEvents := by
    intro _ id preimage paymentHash fee hmem payment hget hdir
    obtain rfl : id = ⟨zeroBytes⟩ := by
      simp only [threeEvents, zeroFailed, zeroPaymentSent, PaymentEvent.event, List.mem_cons,
        reduceCtorEq, Event.paymentSent.injEq, Option.some.injEq, List.not_mem_nil, or_false,
        false_or] at hmem
      exact hmem.1
    cases hzero.symm.trans hget
    cases hdir
  obtain ⟨final, hfinal⟩ := (computesLast_iff quietHandler rfl rfl _ hrec threeEvents (by
    simp [threeEvents, zeroFailed, zeroPaymentSent, PaymentEvent.event, Guaranteed])).mpr hsent
  exact ⟨final, hfinal, hfinal.record _ _ hzero, hfinal.record _ _ hone⟩

def anyAmountPayment : Payment :=
  { pendingPayment with direction := .inbound, amountMsat := none }

/-- **A payment is sent under the id of one to be received without an amount**, and the handler
panics. -/
theorem not_computesLast_anyAmount :
    RecordsDecode (written ∅ anyAmountPayment) ∧ (∀ e ∈ [zeroPaymentSent], Guaranteed e) ∧
    handleEvents quietHandler (written ∅ anyAmountPayment) [zeroPaymentSent] = none ∧
    ¬ ∃ final, ComputesLast quietHandler (written ∅ anyAmountPayment) [zeroPaymentSent] final := by
  have hget : getPayment none (written ∅ anyAmountPayment) ⟨zeroBytes⟩ = .ok anyAmountPayment :=
    getPayment_written_self _ _
  have hpanic : (handleEvent quietHandler (written ∅ anyAmountPayment) zeroPaymentSent).outcome ≠ .ok := by
    intro hok
    have hthere := (handleEvent_ok_iff rfl (guaranteed_zeroPaymentSent _ List.mem_cons_self)).mp hok
    exact hthere rfl _ _ _ _ rfl ⟨_, hget, rfl⟩
  have hnone : handleEvents quietHandler (written ∅ anyAmountPayment) [zeroPaymentSent] = none := by
    rw [handleEvents, if_neg hpanic]
  refine ⟨recordsDecode_empty.written (fun hdir => nomatch hdir), guaranteed_zeroPaymentSent, hnone, ?_⟩
  rintro ⟨final, hcomputes⟩
  rw [hcomputes.handled] at hnone
  cases hnone

end LnNode.EventHandler.LastEventWins
