import LnNode.Node.SentAmount

/-!
# What the payment records say

The machine is that of all calls to pay and to create an invoice, cut at their writes, of LDK's events,
of the faults of the store and of crashes. Nothing is asked of its steps here.

* `always_truthful`: what a record says of the end of a payment is what an event of LDK said of a
  payment with its id;
* `stable_hasRecord`: a record that is there stays.
-/

namespace LnNode.Node.Records

open LnNode.Storage LnNode.EventHandler LnNode.Lib.Attempts LnNode.Lib.Run LnNode.Node.Payments
  LnNode.Node.PayAllOrNothing LnNode.Node.SentAmount

/-! ### A truthful record -/

def Reported (ldk : OutboundPayments) (id : PaymentId) (result : PaymentResult) : Prop :=
  ∃ e ∈ ldk.log, e.id = id ∧ e.result = result

/-- A record under an id. Its hash is the id, an outbound one has its amount, and what it shows of the
end of a payment was reported: preimage and fee by one event, and a failure by another. -/
structure Truthful (ldk : OutboundPayments) (id : PaymentId) (payment : Payment) : Prop where
  paymentId : payment.paymentId = id
  paymentHash : payment.paymentHash = ⟨id.val⟩
  amountMsat : payment.direction = .outbound → payment.amountMsat.isSome
  preimage : ∀ preimage, payment.paymentPreimage = some preimage →
    ∃ fee, payment.feePaidMsat = some fee ∧ Reported ldk id (.sent preimage fee)
  noPreimage : payment.paymentPreimage = none → payment.feePaidMsat = none
  pending : payment.status = .pending → payment.paymentPreimage = none
  succeeded : payment.status = .succeeded → payment.paymentPreimage.isSome
  failed : payment.status = .failed → ∃ reason, Reported ldk id (.failed reason)

/-- Whatever can be read is truthful. -/
def AllTruthful (s : PaymentsNode) : Prop :=
  ∀ id payment, getPayment none s.store id = .ok payment → Truthful s.ldk id payment

section Truthful

variable {ldk ldk' : OutboundPayments} {id : PaymentId} {payment : Payment} {e : QueuedEvent}
  {result : PaymentResult}

lemma Reported.mono (h : Reported ldk id result) (hlog : ∀ e ∈ ldk.log, e ∈ ldk'.log) :
    Reported ldk' id result := by
  obtain ⟨e, he, hid, hresult⟩ := h
  exact ⟨e, hlog e he, hid, hresult⟩

lemma Truthful.mono (h : Truthful ldk id payment) (hlog : ∀ e ∈ ldk.log, e ∈ ldk'.log) :
    Truthful ldk' id payment where
  paymentId := h.paymentId
  paymentHash := h.paymentHash
  amountMsat := h.amountMsat
  preimage preimage hp := by
    obtain ⟨fee, hfee, hreported⟩ := h.preimage preimage hp
    exact ⟨fee, hfee, hreported.mono hlog⟩
  noPreimage := h.noPreimage
  pending := h.pending
  succeeded := h.succeeded
  failed hfailed := by
    obtain ⟨reason, hreported⟩ := h.failed hfailed
    exact ⟨reason, hreported.mono hlog⟩

lemma truthful_outboundPayment (ldk : OutboundPayments) (invoice : Bolt11Invoice) (amount : UInt64) :
    Truthful ldk invoice.paymentId (outboundPayment invoice amount) :=
  ⟨rfl, rfl, fun _ => rfl, nofun, fun _ => rfl, fun _ => rfl, nofun, nofun⟩

lemma truthful_inboundPayment (ldk : OutboundPayments) (paymentHash : PaymentHash)
    (amountMsat : Option UInt64) :
    Truthful ldk ⟨paymentHash.val⟩ (inboundPayment paymentHash amountMsat) :=
  ⟨rfl, rfl, nofun, nofun, fun _ => rfl, fun _ => rfl, nofun, nofun⟩

/-- **The record that an event leaves** says what the event said. After a failure the preimage of an
earlier payment may still be there. -/
lemma Truthful.record (h : Truthful ldk e.id payment) (he : e ∈ ldk.log) :
    Truthful ldk e.id ((paymentEvent e).record payment) := by
  cases hresult : e.result with
  | sent preimage fee =>
    have hrecord : (paymentEvent e).record payment = sentRecord payment preimage (some fee) := by
      rw [paymentEvent, hresult]
      rfl
    rw [hrecord]
    refine ⟨h.paymentId, h.paymentHash, h.amountMsat, fun preimage' hp => ?_, nofun, nofun,
      fun _ => rfl, nofun⟩
    obtain rfl : preimage = preimage' := Option.some.inj hp
    exact ⟨fee, rfl, e, he, rfl, hresult⟩
  | failed reason =>
    have hrecord : (paymentEvent e).record payment = failedRecord payment := by
      rw [paymentEvent, hresult]
      rfl
    rw [hrecord]
    exact ⟨h.paymentId, h.paymentHash, h.amountMsat, h.preimage, h.noPreimage, nofun, nofun,
      fun _ => ⟨reason, e, he, rfl, hresult⟩⟩

end Truthful

/-! ### What every step keeps -/

/-- The records are truthful, and so are those that are still to be written. -/
structure Invariant (s : PaymentsNode) : Prop where
  stored : AllTruthful s
  calls : ∀ call ∈ s.calls, Truthful s.ldk call.payment.paymentId call.payment
  holding : ∀ e step, s.background = .holding e step →
    ∀ payment, step = .update payment → Truthful s.ldk e.id payment

section Steps

variable {s s' : PaymentsNode} {ldk' : OutboundPayments} {payment : Payment} {id : PaymentId}

lemma Invariant.written (h : Invariant s) (hp : Truthful s.ldk id payment) :
    Invariant { s with store := written s.store payment } := by
  refine ⟨fun id' payment' hget => ?_, h.calls, h.holding⟩
  rw [getPayment_written] at hget
  split_ifs at hget with hid
  · cases hget
    rw [hid, hp.paymentId]
    exact hp
  · exact h.stored id' payment' hget

lemma Invariant.ldk (h : Invariant s) (hlog : ∀ e ∈ s.ldk.log, e ∈ ldk'.log) :
    Invariant { s with ldk := ldk' } where
  stored id payment hget := (h.stored id payment hget).mono hlog
  calls call hcall := (h.calls call hcall).mono hlog
  holding e step hback payment hstep := (h.holding e step hback payment hstep).mono hlog

lemma Invariant.accept (h : Invariant s) (haccept : s.ldk.accept id = some ldk') :
    Invariant { s with ldk := ldk' } := by
  obtain ⟨-, rfl⟩ := Ledger.accept_eq_some haccept
  exact h.ldk fun e he => he

/-- What the background task does not hold need not be truthful. -/
lemma Invariant.release (h : Invariant s) {background : Background} {lost : List QueuedEvent}
    (hback : ∀ e step, background ≠ .holding e step) : Invariant { s with background, lost } :=
  ⟨h.stored, h.calls, fun e step hb => absurd hb (hback e step)⟩

lemma Invariant.ack (h : Invariant s) : Invariant { s with ldk := s.ldk.ack } :=
  h.ldk fun e he => by simpa using he

lemma Invariant.eraseIdx (h : Invariant s) (position : ℕ) :
    Invariant { s with calls := s.calls.eraseIdx position } :=
  ⟨h.stored, fun call hcall => h.calls call (List.mem_of_mem_eraseIdx hcall), h.holding⟩

lemma Invariant.take {e : QueuedEvent} {rest : List QueuedEvent} {fault : Fault} (h : Invariant s)
    (hqueue : s.ldk.queue = e :: rest) :
    Invariant { s with background := .holding e ((paymentEvent e).read true fault s.store) } := by
  refine ⟨h.stored, h.calls, fun e' step hback payment hstep => ?_⟩
  cases hback
  have hmem : e ∈ s.ldk.log := List.mem_append_right _ (by simp [hqueue])
  cases hg : getPayment fault s.store e.id with
  | error err =>
    rw [PaymentEvent.read_error (paymentEvent_paymentId e) (paymentEvent_readsStore e) hg] at hstep
    cases hstep
  | ok found =>
    have hfound := h.stored e.id found (getPayment_none_of_ok hg)
    rw [PaymentEvent.read_ok (paymentEvent_paymentId e) (paymentEvent_readsStore e) hg] at hstep
    split_ifs at hstep
    cases hstep
    exact hfound.record hmem

/-- **One step of the calls and of LDK's events.** -/
lemma Invariant.payments {a : Payments.Action} (h : Invariant s) (hs : paymentsStep s a = some s') :
    Invariant s' := by
  cases a with
  | pay refusal invoice amountMsat =>
    rcases pay_cases hs with rfl | ⟨ldk', amount, haccept, rfl⟩
    · exact h
    · have hldk := h.accept haccept
      refine ⟨hldk.stored, fun call hcall => ?_, hldk.holding⟩
      rcases List.mem_append.mp hcall with hcall | hcall
      · exact hldk.calls call hcall
      · rw [List.mem_singleton.mp hcall]
        exact truthful_outboundPayment _ invoice amount
  | record position =>
    obtain ⟨call, hcall, rfl⟩ := record_cases hs
    exact (h.written (h.calls call (List.mem_of_getElem? hcall))).eraseIdx position
  | resolve paymentId result untrack =>
    obtain ⟨ldk', hres, rfl⟩ := resolve_cases hs
    obtain ⟨-, rfl⟩ := Ledger.resolve_eq_some hres
    refine h.ldk fun e he => ?_
    rw [Ledger.log, ← List.append_assoc]
    exact List.mem_append_left _ he
  | forget paymentId =>
    obtain ⟨ldk', hforget, rfl⟩ := forget_cases hs
    obtain ⟨-, -, rfl⟩ := Ledger.forget_eq_some hforget
    exact h.ldk fun e he => he
  | take =>
    obtain ⟨e, rest, -, hqueue, rfl⟩ := take_cases hs
    exact h.take hqueue
  | write =>
    obtain ⟨e, step, hback, ⟨payment, rfl, rfl⟩ | ⟨rfl, rfl⟩ | ⟨rfl, rfl⟩⟩ := write_cases hs
    · exact (h.written (h.holding e _ hback payment rfl)).ack.release (by simp)
    · exact h.ack.release (by simp)
    · exact h.release (by simp)
  | crash acknowledged =>
    obtain rfl := crash_cases hs
    have hldk : Invariant { s with ldk := s.ldk.rewind acknowledged } :=
      h.ldk fun e he => by simpa using he
    exact ⟨hldk.stored, by simp, by simp⟩

theorem Invariant.step {a : SentAmount.Action} (h : Invariant s) (hs : nodeStep s a = some s') :
    Invariant s' := by
  cases a with
  | payments a => exact h.payments hs
  | createBolt11Invoice fault created amountMsat =>
    obtain rfl := Option.some.inj hs
    rcases created with (_ | ce) | paymentHash
    · exact h
    · exact h
    · cases fault with
      | some err => exact h
      | none => exact h.written (truthful_inboundPayment _ paymentHash amountMsat)
  | recordFails position =>
    rw [nodeStep] at hs
    split at hs
    · cases hs
    · obtain rfl := Option.some.inj hs
      exact h.eraseIdx position
  | takeFails err =>
    rw [nodeStep] at hs
    split at hs
    · rename_i e rest hidle hqueue
      obtain rfl := Option.some.inj hs
      exact h.take hqueue
    · cases hs
  | writeFails err =>
    rw [nodeStep] at hs
    split at hs
    · rename_i e step hback
      cases step with
      | panic =>
        obtain rfl := Option.some.inj hs
        exact h.release (by simp)
      | done | update payment =>
        obtain rfl := Option.some.inj hs
        exact h.ack.release (by simp)
    · cases hs

end Steps

lemma invariant_noPayments : Invariant noPayments where
  stored id payment hget := by simp [noPayments] at hget
  calls := by simp [noPayments]
  holding := by simp [noPayments]

/-- **The records are truthful at all times.** -/
theorem always_truthful (as : List SentAmount.Action) : Always nodeStep AllTruthful noPayments as :=
  (always_of_keeps invariant_noPayments fun _ _ _ h hs => h.step hs).imp fun _ h => h.stored

/-! ### Records stay -/

def HasRecord (id : PaymentId) (s : PaymentsNode) : Prop :=
  ∃ payment, getPayment none s.store id = .ok payment

section Stays

variable {s s' : PaymentsNode} {id : PaymentId}

/-- **What a step does to the store**: nothing, or it writes one record. -/
theorem nodeStep_store {a : SentAmount.Action} (hs : nodeStep s a = some s') :
    s'.store = s.store ∨ ∃ payment, s'.store = written s.store payment := by
  cases a with
  | payments a =>
    cases a with
    | pay refusal invoice amountMsat =>
      rcases pay_cases hs with rfl | ⟨ldk', amount, -, rfl⟩
      · exact Or.inl rfl
      · exact Or.inl rfl
    | record position =>
      obtain ⟨call, -, rfl⟩ := record_cases hs
      exact Or.inr ⟨call.payment, rfl⟩
    | resolve paymentId result untrack =>
      obtain ⟨ldk', -, rfl⟩ := resolve_cases hs
      exact Or.inl rfl
    | forget paymentId =>
      obtain ⟨ldk', -, rfl⟩ := forget_cases hs
      exact Or.inl rfl
    | take =>
      obtain ⟨e, rest, -, -, rfl⟩ := take_cases hs
      exact Or.inl rfl
    | write =>
      obtain ⟨e, step, -, ⟨payment, -, rfl⟩ | ⟨-, rfl⟩ | ⟨-, rfl⟩⟩ := write_cases hs
      · exact Or.inr ⟨payment, rfl⟩
      · exact Or.inl rfl
      · exact Or.inl rfl
    | crash acknowledged =>
      obtain rfl := crash_cases hs
      exact Or.inl rfl
  | createBolt11Invoice fault created amountMsat =>
    obtain rfl := Option.some.inj hs
    rcases created with (_ | ce) | paymentHash
    · exact Or.inl rfl
    · exact Or.inl rfl
    · cases fault with
      | some err => exact Or.inl rfl
      | none => exact Or.inr ⟨_, rfl⟩
  | recordFails position =>
    rw [nodeStep] at hs
    split at hs
    · cases hs
    · obtain rfl := Option.some.inj hs
      exact Or.inl rfl
  | takeFails err =>
    rw [nodeStep] at hs
    split at hs
    · obtain rfl := Option.some.inj hs
      exact Or.inl rfl
    · cases hs
  | writeFails err =>
    rw [nodeStep] at hs
    split at hs
    · rename_i e step hback
      cases step with
      | panic | done | update payment =>
        obtain rfl := Option.some.inj hs
        exact Or.inl rfl
    · cases hs

lemma HasRecord.written (h : HasRecord id s) (payment : Payment) :
    ∃ found, getPayment none (written s.store payment) id = .ok found := by
  rw [getPayment_written]
  split_ifs
  · exact ⟨payment, rfl⟩
  · exact h

lemma HasRecord.step {a : SentAmount.Action} (h : HasRecord id s) (hs : nodeStep s a = some s') :
    HasRecord id s' := by
  rcases nodeStep_store hs with hstore | ⟨payment, hstore⟩
  · rw [HasRecord, hstore]
    exact h
  · rw [HasRecord, hstore]
    exact h.written payment

/-- **A record that is there stays there**, though another may take its place. -/
theorem stable_hasRecord (id : PaymentId) (s : PaymentsNode) (as : List SentAmount.Action) :
    Stable nodeStep (HasRecord id) s as := by
  rintro pre post t rfl - hrecord
  exact always_of_keeps hrecord fun _ _ _ h hs => h.step hs

end Stays

end LnNode.Node.Records
