import LnNode.EventHandler
import LnNode.Lib.Attempts
import LnNode.Lib.Run

/-!
# Payments: the calls of the node and the events of LDK

`pay_bolt11_invoice` hands the payment to LDK and then writes its record; `create_bolt11_invoice`
writes the record of a payment to be received. LDK is a ledger of attempts, keyed by payment id.

The second part is the machine of all interleavings: a call between its two halves, the handler
between the two halves of an event's arm, LDK ending attempts, and a crash. `WellFormed` is what every
step keeps: records are under their own ids, and the handler works on the head of the queue and never
panics.
-/

namespace LnNode.Node.Payments

open LnNode.Storage LnNode.EventHandler LnNode.Lib.Attempts

/-! ### LDK's side -/

structure Bolt11Invoice where
  paymentHash : PaymentHash
  amountMilliSatoshis : Option UInt64

def Bolt11Invoice.paymentId (invoice : Bolt11Invoice) : PaymentId := ⟨invoice.paymentHash.val⟩

inductive PaymentResult where
  | sent (preimage : PaymentPreimage) (feePaidMsat : UInt64)
  | failed (reason : PaymentFailureReason)

/-- LDK's outbound payments. -/
abbrev OutboundPayments := Ledger PaymentId PaymentResult

abbrev QueuedEvent := EndEvent PaymentId PaymentResult

inductive RetryableSendFailure where
  | paymentExpired
  | routeNotFound
  | duplicatePayment
  | onionPacketSizeExceeded
  deriving DecidableEq

inductive Bolt11PaymentError where
  | invalidAmount
  | sendingFailed (e : RetryableSendFailure)
  deriving DecidableEq

/-- What `{:?}` prints. -/
def Bolt11PaymentError.debug : Bolt11PaymentError → String
  | invalidAmount => "InvalidAmount"
  | sendingFailed .paymentExpired => "SendingFailed(PaymentExpired)"
  | sendingFailed .routeNotFound => "SendingFailed(RouteNotFound)"
  | sendingFailed .duplicatePayment => "SendingFailed(DuplicatePayment)"
  | sendingFailed .onionPacketSizeExceeded => "SendingFailed(OnionPacketSizeExceeded)"

/-- The event as the handler gets it. -/
def paymentEvent (e : QueuedEvent) : PaymentEvent :=
  match e.result with
  | .sent preimage feePaidMsat => .sent (some e.id) preimage ⟨e.id.val⟩ (some feePaidMsat)
  | .failed reason => .failed e.id (some ⟨e.id.val⟩) (some reason)

/-! ### The calls -/

/-- A call returns a message, or the error of the store. -/
inductive ApiError where
  | message (text : String)
  | io (e : IoError)
  deriving DecidableEq

def amountToPay (invoice : Bolt11Invoice) (amountMsat : Option UInt64) : Except ApiError UInt64 :=
  match invoice.amountMilliSatoshis.or amountMsat with
  | some amount => .ok amount
  | none => .error (.message "Amount not specified")

/-- The amount LDK sends: the caller's where it is given, and then not less than the invoice's. -/
def amountSent (invoice : Bolt11Invoice) (amountMsats : Option UInt64) : Option UInt64 :=
  match invoice.amountMilliSatoshis, amountMsats with
  | none, amount => amount
  | some invoiceAmount, none => some invoiceAmount
  | some invoiceAmount, some amount => if amount < invoiceAmount then none else some amount

/-- LDK takes a payment of a valid amount under an id that it does not track, unless it has a reason
of its own to refuse it. -/
def payForBolt11Invoice (refusal : Option RetryableSendFailure) (ldk : OutboundPayments)
    (invoice : Bolt11Invoice) (paymentId : PaymentId) (amountMsats : Option UInt64) :
    Except Bolt11PaymentError OutboundPayments :=
  match amountSent invoice amountMsats with
  | none => .error .invalidAmount
  | some _ =>
    match refusal with
    | some e => .error (.sendingFailed e)
    | none =>
      match ldk.accept paymentId with
      | none => .error (.sendingFailed .duplicatePayment)
      | some ldk' => .ok ldk'

def outboundPayment (invoice : Bolt11Invoice) (amount : UInt64) : Payment where
  paymentId := invoice.paymentId
  paymentHash := invoice.paymentHash
  paymentPreimage := none
  direction := .outbound
  amountMsat := some amount
  feePaidMsat := none
  status := .pending

/-- `pay_bolt11_invoice` up to its write: the payment is LDK's, and its record is to be written. -/
def sendBolt11Payment (refusal : Option RetryableSendFailure) (ldk : OutboundPayments)
    (invoice : Bolt11Invoice) (amountMsat : Option UInt64) :
    Except ApiError (OutboundPayments × Payment) :=
  match amountToPay invoice amountMsat with
  | .error e => .error e
  | .ok amount =>
    -- LDK gets the caller's amount, the record the invoice's
    match payForBolt11Invoice refusal ldk invoice invoice.paymentId amountMsat with
    | .error e => .error (.message ("Could not make payment " ++ e.debug))
    | .ok ldk' => .ok (ldk', outboundPayment invoice amount)

/-- The whole call, with what it leaves of LDK and of the store. -/
def payBolt11Invoice (refusal : Option RetryableSendFailure) (fault : Fault)
    (ldk : OutboundPayments) (store : KvStore) (invoice : Bolt11Invoice)
    (amountMsat : Option UInt64) : OutboundPayments × KvStore × Except ApiError PaymentId :=
  match sendBolt11Payment refusal ldk invoice amountMsat with
  | .error e => (ldk, store, .error e)
  | .ok (ldk', payment) =>
    match addPayment fault store payment with
    | .error e => (ldk', store, .error (.io e))
    | .ok store' => (ldk', store', .ok invoice.paymentId)

inductive SignOrCreationError where
  | signError
  | creationError (ce : String)

def inboundPayment (paymentHash : PaymentHash) (amountMsat : Option UInt64) : Payment where
  paymentId := ⟨paymentHash.val⟩
  paymentHash := paymentHash
  paymentPreimage := none
  direction := .inbound
  amountMsat := amountMsat
  feePaidMsat := none
  status := .pending

/-- `create_bolt11_invoice`: LDK makes the invoice, and its record is written. -/
def createBolt11Invoice (fault : Fault) (created : Except SignOrCreationError PaymentHash)
    (store : KvStore) (amountMsat : Option UInt64) : KvStore × Except ApiError Bolt11Invoice :=
  match created with
  | .error .signError => (store, .error (.message "could not create invoice"))
  | .error (.creationError ce) => (store, .error (.message ("could not create invoice " ++ ce)))
  | .ok paymentHash =>
    match addPayment fault store (inboundPayment paymentHash amountMsat) with
    | .error e => (store, .error (.io e))
    | .ok store' => (store', .ok { paymentHash, amountMilliSatoshis := amountMsat })

def nodeGetPayment (fault : Fault) (store : KvStore) (paymentId : PaymentId) : Option Payment :=
  (getPayment fault store paymentId).toOption

/-! ### The machine -/

/-- A call that LDK has accepted and that has not written its record yet. -/
structure PayCall where
  payment : Payment
  attempt : ℕ

/-- The background task: between events, between the two halves of an arm, or dead of a panic. -/
inductive Background where
  | idle
  | holding (e : QueuedEvent) (step : PaymentStep)
  | dead

/-- LDK, the store, the calls between their halves, the background task, and the events that were
acknowledged without a write. -/
structure PaymentsNode where
  ldk : OutboundPayments
  store : KvStore
  calls : List PayCall
  background : Background
  lost : List QueuedEvent

def noPayments : PaymentsNode where
  ldk := .empty
  store := ∅
  calls := []
  background := .idle
  lost := []

inductive Action where
  | pay (refusal : Option RetryableSendFailure) (invoice : Bolt11Invoice)
      (amountMsat : Option UInt64)
  /-- The call at this position writes its record. -/
  | record (position : ℕ)
  | resolve (paymentId : PaymentId) (result : PaymentResult) (untrack : Bool)
  | forget (paymentId : PaymentId)
  /-- The event at the head of the queue is delivered, and its arm reads the store. Info lines are
  logged. -/
  | take
  /-- The arm writes, and the event is acknowledged. -/
  | write
  /-- The process restarts. LDK and the store are as they were; all but the first acknowledgements
  may be forgotten. -/
  | crash (acknowledged : ℕ)

def paymentsStep (s : PaymentsNode) : Action → Option PaymentsNode
  | .pay refusal invoice amountMsat =>
    match sendBolt11Payment refusal s.ldk invoice amountMsat with
    | .error _ => some s
    | .ok (ldk', payment) =>
      some { s with
        ldk := ldk'
        calls := s.calls ++ [{ payment, attempt := ldk'.attempts payment.paymentId }] }
  | .record position =>
    match s.calls[position]? with
    | none => none
    | some call =>
      match addPayment none s.store call.payment with
      | .error _ => some { s with calls := s.calls.eraseIdx position }
      | .ok store' => some { s with store := store', calls := s.calls.eraseIdx position }
  | .resolve paymentId result untrack =>
    match s.ldk.resolve paymentId result untrack with
    | none => none
    | some ldk' => some { s with ldk := ldk' }
  | .forget paymentId =>
    match s.ldk.forget paymentId with
    | none => none
    | some ldk' => some { s with ldk := ldk' }
  | .take =>
    match s.background, s.ldk.queue with
    | .idle, e :: _ =>
      some { s with background := .holding e ((paymentEvent e).read true none s.store) }
    | _, _ => none
  | .write =>
    match s.background with
    | .holding e step =>
      match writePayment none s.store step with
      | (.ok, store') =>
        some { s with
          ldk := s.ldk.ack
          store := store'
          background := .idle
          lost := if step = .done then s.lost ++ [e] else s.lost }
      | (_, store') => some { s with store := store', background := .dead }
    | _ => none
  | .crash acknowledged =>
    some { s with ldk := s.ldk.rewind acknowledged, calls := [], background := .idle }

/-! ### What each step does -/

section Steps

variable {s s' : PaymentsNode}

lemma payForBolt11Invoice_ok {ldk ldk' : OutboundPayments}
    {refusal : Option RetryableSendFailure} {invoice : Bolt11Invoice} {paymentId : PaymentId}
    {amountMsats : Option UInt64}
    (h : payForBolt11Invoice refusal ldk invoice paymentId amountMsats = .ok ldk') :
    ldk.accept paymentId = some ldk' := by
  unfold payForBolt11Invoice at h
  split at h
  · cases h
  · split at h
    · cases h
    · split at h
      · cases h
      · rename_i ldk'' haccept
        cases h
        exact haccept

lemma sendBolt11Payment_ok {ldk ldk' : OutboundPayments}
    {refusal : Option RetryableSendFailure} {invoice : Bolt11Invoice} {amountMsat : Option UInt64}
    {payment : Payment} (h : sendBolt11Payment refusal ldk invoice amountMsat = .ok (ldk', payment)) :
    ldk.accept invoice.paymentId = some ldk' ∧
      ∃ amount, payment = outboundPayment invoice amount := by
  unfold sendBolt11Payment at h
  split at h
  · cases h
  · rename_i amount hamount
    split at h
    · cases h
    · rename_i ldk'' htaken
      cases h
      exact ⟨payForBolt11Invoice_ok htaken, amount, rfl⟩

/-- A call to pay fails and changes nothing, or LDK accepts it. -/
lemma pay_cases {refusal : Option RetryableSendFailure} {invoice : Bolt11Invoice}
    {amountMsat : Option UInt64} (hs : paymentsStep s (.pay refusal invoice amountMsat) = some s') :
    s' = s ∨ ∃ ldk' amount, s.ldk.accept invoice.paymentId = some ldk' ∧
      s' = { s with
        ldk := ldk'
        calls := s.calls ++ [{ payment := outboundPayment invoice amount
                               attempt := ldk'.attempts invoice.paymentId }] } := by
  rw [paymentsStep] at hs
  split at hs
  · exact Or.inl (Option.some.inj hs).symm
  · rename_i ldk' payment hsend
    obtain ⟨haccept, amount, rfl⟩ := sendBolt11Payment_ok hsend
    exact Or.inr ⟨ldk', amount, haccept, (Option.some.inj hs).symm⟩

lemma record_cases {position : ℕ} (hs : paymentsStep s (.record position) = some s') :
    ∃ call, s.calls[position]? = some call ∧
      s' = { s with store := written s.store call.payment, calls := s.calls.eraseIdx position } := by
  rw [paymentsStep] at hs
  cases hcall : s.calls[position]? with
  | none => simp [hcall] at hs
  | some call =>
    simp only [hcall, addPayment_ok, Option.some.injEq] at hs
    exact ⟨call, rfl, hs.symm⟩

lemma mem_eraseIdx_of_ne {calls : List PayCall} {position : ℕ} {call call' : PayCall}
    (hpos : calls[position]? = some call) (hmem : call' ∈ calls)
    (hne : call'.payment.paymentId ≠ call.payment.paymentId) : call' ∈ calls.eraseIdx position := by
  rw [List.mem_eraseIdx_iff_getElem?]
  obtain ⟨i, hi⟩ := List.mem_iff_getElem?.mp hmem
  refine ⟨i, fun he => hne ?_, hi⟩
  rw [he, hpos, Option.some.injEq] at hi
  rw [hi]

lemma resolve_cases {paymentId : PaymentId} {result : PaymentResult} {untrack : Bool}
    (hs : paymentsStep s (.resolve paymentId result untrack) = some s') :
    ∃ ldk', s.ldk.resolve paymentId result untrack = some ldk' ∧ s' = { s with ldk := ldk' } := by
  rw [paymentsStep] at hs
  cases hres : s.ldk.resolve paymentId result untrack with
  | none => simp [hres] at hs
  | some ldk' =>
    simp only [hres, Option.some.injEq] at hs
    exact ⟨ldk', rfl, hs.symm⟩

lemma forget_cases {paymentId : PaymentId} (hs : paymentsStep s (.forget paymentId) = some s') :
    ∃ ldk', s.ldk.forget paymentId = some ldk' ∧ s' = { s with ldk := ldk' } := by
  rw [paymentsStep] at hs
  cases hforget : s.ldk.forget paymentId with
  | none => simp [hforget] at hs
  | some ldk' =>
    simp only [hforget, Option.some.injEq] at hs
    exact ⟨ldk', rfl, hs.symm⟩

lemma take_cases (hs : paymentsStep s .take = some s') :
    ∃ e rest, s.background = .idle ∧ s.ldk.queue = e :: rest ∧
      s' = { s with background := .holding e ((paymentEvent e).read true none s.store) } := by
  rw [paymentsStep] at hs
  split at hs
  · rename_i e rest hidle hqueue
    exact ⟨e, rest, hidle, hqueue, (Option.some.inj hs).symm⟩
  · cases hs

/-- A write acknowledges its event, unless the arm panics. -/
lemma write_cases (hs : paymentsStep s .write = some s') :
    ∃ e step, s.background = .holding e step ∧
      ((∃ payment, step = .update payment ∧
          s' = { s with ldk := s.ldk.ack, store := written s.store payment, background := .idle }) ∨
        (step = .done ∧
          s' = { s with ldk := s.ldk.ack, background := .idle, lost := s.lost ++ [e] }) ∨
        (step = .panic ∧ s' = { s with background := .dead })) := by
  rw [paymentsStep] at hs
  split at hs
  · rename_i e step hback
    refine ⟨e, step, hback, ?_⟩
    cases step with
    | update payment =>
      left
      exact ⟨payment, rfl, (Option.some.inj hs).symm⟩
    | done =>
      right; left
      exact ⟨rfl, (Option.some.inj hs).symm⟩
    | panic =>
      right; right
      exact ⟨rfl, (Option.some.inj hs).symm⟩
  · cases hs

lemma crash_cases {acknowledged : ℕ} (hs : paymentsStep s (.crash acknowledged) = some s') :
    s' = { s with ldk := s.ldk.rewind acknowledged, calls := [], background := .idle } :=
  (Option.some.inj hs).symm

end Steps

/-! ### The handler's read of a queued event -/

section Read

variable (e : QueuedEvent) (payment : Payment)

@[simp] lemma paymentEvent_paymentId : (paymentEvent e).paymentId? = some e.id := by
  unfold paymentEvent
  split <;> rfl

@[simp] lemma paymentEvent_readsStore : (paymentEvent e).readsStore = true := by
  unfold paymentEvent
  split <;> rfl

/-- A queued event carries its fee and its reason, so the arm needs the amount at most. -/
lemma paymentEvent_fieldsPresent (h : payment.amountMsat.isSome = true) :
    (paymentEvent e).fieldsPresent payment = true := by
  unfold paymentEvent
  split
  · simp [PaymentEvent.fieldsPresent, h]
  · rfl

lemma not_pending_of_shown (h : (paymentEvent e).Shown payment) : payment.status ≠ .pending := by
  unfold paymentEvent at h
  split at h
  · rw [h.1]
    decide
  · rw [show payment.status = .failed from h]
    decide

end Read

/-! ### What every step keeps -/

/-- The record of an outbound payment under its own id. -/
structure OwnRecord (id : PaymentId) (payment : Payment) : Prop where
  paymentId : payment.paymentId = id
  direction : payment.direction = .outbound
  amountMsat : payment.amountMsat.isSome = true

/-- What the second half of an arm may be given: nothing to do, or a record that shows the event. -/
def GoodStep (e : QueuedEvent) (step : PaymentStep) : Prop :=
  step = .done ∨
    ∃ payment, step = .update payment ∧ OwnRecord e.id payment ∧ (paymentEvent e).Shown payment

structure WellFormed (s : PaymentsNode) : Prop where
  ldk : s.ldk.Valid
  stored : ∀ id payment, getPayment none s.store id = .ok payment → OwnRecord id payment
  calls : ∀ call ∈ s.calls, OwnRecord call.payment.paymentId call.payment ∧
    call.payment.status = .pending ∧
    0 < call.attempt ∧ call.attempt ≤ s.ldk.attempts call.payment.paymentId
  holding : ∀ e step, s.background = .holding e step →
    (∃ rest, s.ldk.queue = e :: rest) ∧ GoodStep e step
  alive : s.background ≠ .dead

section WellFormed

variable {s s' : PaymentsNode} {e : QueuedEvent}

lemma ownRecord_outboundPayment (invoice : Bolt11Invoice) (amount : UInt64) :
    OwnRecord invoice.paymentId (outboundPayment invoice amount) := ⟨rfl, rfl, rfl⟩

lemma OwnRecord.record {id : PaymentId} {payment : Payment} (h : OwnRecord id payment)
    (e : PaymentEvent) : OwnRecord id (e.record payment) :=
  ⟨by simpa using h.paymentId, by simpa using h.direction, by simpa using h.amountMsat⟩

/-- The read of a queued event finds a record and prepares its update, or finds none. -/
lemma WellFormed.read_cases (h : WellFormed s) (e : QueuedEvent) :
    (∃ payment, getPayment none s.store e.id = .ok payment ∧
      (paymentEvent e).read true none s.store = .update ((paymentEvent e).record payment)) ∨
    ((∀ payment, getPayment none s.store e.id ≠ .ok payment) ∧
      (paymentEvent e).read true none s.store = .done) := by
  cases hg : getPayment none s.store e.id with
  | error err =>
    right
    exact ⟨by simp, PaymentEvent.read_error (paymentEvent_paymentId e)
      (paymentEvent_readsStore e) hg⟩
  | ok payment =>
    left
    refine ⟨payment, rfl, ?_⟩
    rw [PaymentEvent.read_ok (paymentEvent_paymentId e) (paymentEvent_readsStore e) hg,
      paymentEvent_fieldsPresent e payment (h.stored e.id payment hg).amountMsat]
    rfl

lemma WellFormed.goodStep_read (h : WellFormed s) (e : QueuedEvent) :
    GoodStep e ((paymentEvent e).read true none s.store) := by
  rcases h.read_cases e with ⟨payment, hg, hread⟩ | ⟨-, hread⟩
  · right
    exact ⟨_, hread, (h.stored e.id payment hg).record _, PaymentEvent.shown_record _ _⟩
  · left
    exact hread

lemma stored_written {store : KvStore} {payment : Payment} {id : PaymentId}
    (h : ∀ id payment, getPayment none store id = .ok payment → OwnRecord id payment)
    (hp : OwnRecord id payment) :
    ∀ id' payment', getPayment none (written store payment) id' = .ok payment' →
      OwnRecord id' payment' := by
  intro id' payment' hg
  rw [getPayment_written] at hg
  split_ifs at hg with hid
  · cases hg
    rw [hid, hp.paymentId]
    exact hp
  · exact h id' payment' hg

theorem WellFormed.step {a : Action} (h : WellFormed s) (hs : paymentsStep s a = some s') :
    WellFormed s' := by
  cases a with
  | pay refusal invoice amountMsat =>
    rcases pay_cases hs with rfl | ⟨ldk', amount, haccept, rfl⟩
    · exact h
    · refine ⟨h.ldk.accept haccept, h.stored, fun call hcall => ?_, fun e step hback => ?_, h.alive⟩
      · rcases List.mem_append.mp hcall with hcall | hcall
        · obtain ⟨hown, hpending, hpos, hle⟩ := h.calls call hcall
          exact ⟨hown, hpending, hpos, hle.trans (Ledger.accept_attempts_le haccept _)⟩
        · rw [List.mem_singleton.mp hcall]
          refine ⟨ownRecord_outboundPayment invoice amount, rfl, ?_, le_refl _⟩
          simp only [Ledger.accept_attempts_self haccept]
          omega
      · obtain ⟨-, rfl⟩ := Ledger.accept_eq_some haccept
        exact h.holding e step hback
  | record position =>
    obtain ⟨call, hcall, rfl⟩ := record_cases hs
    have hown := (h.calls call (List.mem_of_getElem? hcall)).1
    exact ⟨h.ldk, stored_written h.stored hown,
      fun c hc => h.calls c (List.mem_of_mem_eraseIdx hc), h.holding, h.alive⟩
  | resolve paymentId result untrack =>
    obtain ⟨ldk', hres, rfl⟩ := resolve_cases hs
    refine ⟨h.ldk.resolve hres, h.stored, ?_, fun e step hback => ?_, h.alive⟩
    · obtain ⟨-, rfl⟩ := Ledger.resolve_eq_some hres
      exact h.calls
    · obtain ⟨-, rfl⟩ := Ledger.resolve_eq_some hres
      obtain ⟨⟨rest, hqueue⟩, hgood⟩ := h.holding e step hback
      exact ⟨⟨_, by simp only [hqueue, List.cons_append]; rfl⟩, hgood⟩
  | forget paymentId =>
    obtain ⟨ldk', hforget, rfl⟩ := forget_cases hs
    refine ⟨h.ldk.forget hforget, h.stored, ?_, ?_, h.alive⟩
    · obtain ⟨-, -, rfl⟩ := Ledger.forget_eq_some hforget
      exact h.calls
    · obtain ⟨-, -, rfl⟩ := Ledger.forget_eq_some hforget
      exact h.holding
  | take =>
    obtain ⟨e, rest, -, hqueue, rfl⟩ := take_cases hs
    refine ⟨h.ldk, h.stored, h.calls, fun e' step hback => ?_, by simp⟩
    cases hback
    exact ⟨⟨rest, hqueue⟩, h.goodStep_read e⟩
  | write =>
    obtain ⟨e, step, hback, hcases⟩ := write_cases hs
    obtain ⟨-, hgood⟩ := h.holding e step hback
    rcases hcases with ⟨payment, rfl, rfl⟩ | ⟨rfl, rfl⟩ | ⟨rfl, rfl⟩
    · obtain ⟨payment', hupdate, hown, -⟩ := hgood.resolve_left (by simp)
      cases hupdate
      exact ⟨h.ldk.ack, stored_written h.stored hown, by simpa using h.calls, by simp, by simp⟩
    · exact ⟨h.ldk.ack, h.stored, by simpa using h.calls, by simp, by simp⟩
    · rcases hgood with hdone | ⟨payment, hupdate, -⟩
      · cases hdone
      · cases hupdate
  | crash acknowledged =>
    obtain rfl := crash_cases hs
    exact ⟨h.ldk.rewind acknowledged, h.stored, by simp, by simp, by simp⟩

lemma wellFormed_noPayments : WellFormed noPayments where
  ldk := Ledger.valid_empty
  stored id payment hg := by simp [noPayments] at hg
  calls := by simp [noPayments]
  holding := by simp [noPayments]
  alive := by simp [noPayments]

end WellFormed

/-! ### An invoice -/

def zeroInvoice : Bolt11Invoice where
  paymentHash := ⟨zeroBytes⟩
  amountMilliSatoshis := some 1000

def zeroSent : PaymentResult := .sent ⟨zeroBytes⟩ 1

end LnNode.Node.Payments
