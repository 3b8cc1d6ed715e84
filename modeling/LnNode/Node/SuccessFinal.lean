import LnNode.Node.Payments

/-!
# Whether success is final

Calls to pay and to create an invoice, and handled events, one after another. LDK tracks an id until
its failure is queued, or until it forgets a success, which it does when no event of the id waits.

`SettledSuccess` is the invariant: an id whose record shows a success is not in flight, and has no
event waiting that could change the record. Only a call can, and `PaysOnce` says which must not be
made; `successLasts_iff` that nothing else is needed.
-/

namespace LnNode.Node.SuccessFinal

open LnNode.Storage LnNode.EventHandler LnNode.Lib.Attempts LnNode.Lib.Run LnNode.Node.Payments

/-! ### The machine -/

structure SerialNode where
  ldk : OutboundPayments
  store : KvStore

def nothingPaid : SerialNode := { ldk := .empty, store := ∅ }

inductive Action where
  | payBolt11Invoice (refusal : Option RetryableSendFailure) (fault : Fault)
      (invoice : Bolt11Invoice) (amountMsat : Option UInt64)
  | createBolt11Invoice (fault : Fault) (created : Except SignOrCreationError PaymentHash)
      (amountMsat : Option UInt64)
  | resolve (paymentId : PaymentId) (result : PaymentResult)
  | forget (paymentId : PaymentId)
  /-- The event at the head of the queue is handled. -/
  | handlePayment (h : LdkEventHandler)
  /-- An event of another kind is handled. -/
  | handleOther (h : LdkEventHandler) (e : Event)

def isFailed : PaymentResult → Bool
  | .sent _ _ => false
  | .failed _ => true

def isPaymentEvent : Event → Bool
  | .paymentSent .. | .paymentFailed .. => true
  | _ => false

def serialStep (s : SerialNode) : Action → Option SerialNode
  | .payBolt11Invoice refusal fault invoice amountMsat =>
    let (ldk', store', _) := payBolt11Invoice refusal fault s.ldk s.store invoice amountMsat
    some { ldk := ldk', store := store' }
  | .createBolt11Invoice fault created amountMsat =>
    let (store', _) := createBolt11Invoice fault created s.store amountMsat
    some { s with store := store' }
  | .resolve paymentId result =>
    match s.ldk.resolve paymentId result (isFailed result) with
    | none => none
    | some ldk' => some { s with ldk := ldk' }
  | .forget paymentId =>
    match s.ldk.forget paymentId with
    | none => none
    | some ldk' => some { s with ldk := ldk' }
  | .handlePayment h =>
    match s.ldk.queue with
    | [] => none
    | e :: _ =>
      let handled := handleEvent h s.store (paymentEvent e).event
      some { ldk := if handled.outcome = .ok then s.ldk.ack else s.ldk, store := handled.store }
  | .handleOther h e =>
    if isPaymentEvent e then none else some { s with store := (handleEvent h s.store e).store }

/-! ### What is to last -/

/-- The record of an outbound payment shows its success and its preimage. -/
def SucceededWith (store : KvStore) (id : PaymentId) (preimage : PaymentPreimage) : Prop :=
  ∃ payment, getPayment none store id = .ok payment ∧ payment.direction = .outbound ∧
    payment.status = .succeeded ∧ payment.paymentPreimage = some preimage

/-- Once a success is shown, it is in every later state of the run. -/
def SuccessLasts (as : List Action) : Prop :=
  ∀ k : PaymentId × PaymentPreimage,
    Stable serialStep (fun s => SucceededWith s.store k.1 k.2) nothingPaid as

/-- No payment that shows its success is accepted again, and no invoice is made with its hash. -/
def PaysOnce (s : SerialNode) : Action → Prop
  | .payBolt11Invoice refusal _ invoice amountMsat =>
    (∃ sent, sendBolt11Payment refusal s.ldk invoice amountMsat = .ok sent) →
      ∀ preimage, ¬ SucceededWith s.store invoice.paymentId preimage
  | .createBolt11Invoice _ created _ =>
    ∀ paymentHash, created = .ok paymentHash →
      ∀ preimage, ¬ SucceededWith s.store ⟨paymentHash.val⟩ preimage
  | _ => True

def Action.writesGoThrough : Action → Prop
  | .payBolt11Invoice _ fault _ _ => fault = none
  | .createBolt11Invoice fault _ _ => fault = none
  | _ => True

/-! ### What every step keeps -/

structure SettledSuccess (s : SerialNode) : Prop where
  own : ∀ id payment, getPayment none s.store id = .ok payment → payment.paymentId = id
  kept : ∀ e ∈ s.ldk.queue, isFailed e.result = false → s.ldk.phase e.id = .resolved
  last : s.ldk.queue.Pairwise fun e e' => isFailed e.result = false → e'.id ≠ e.id
  settled : ∀ id preimage, SucceededWith s.store id preimage →
    s.ldk.phase id ≠ .inFlight ∧ ∀ e ∈ s.ldk.queue, e.id ≠ id

section Steps

variable {s s' : SerialNode} {store : KvStore} {id : PaymentId} {preimage : PaymentPreimage}
  {payment : Payment}

lemma succeededWith_written_of_ne (hne : id ≠ payment.paymentId) :
    SucceededWith (written store payment) id preimage ↔ SucceededWith store id preimage := by
  unfold SucceededWith
  rw [getPayment_written_of_ne hne]

lemma not_succeededWith_written (payment : Payment)
    (hno : payment.direction ≠ .outbound ∨ payment.status ≠ .succeeded) :
    ¬ SucceededWith (written store payment) payment.paymentId preimage := by
  rintro ⟨q, hg, hdir, hst, -⟩
  rw [getPayment_written_self] at hg
  cases hg
  exact hno.elim (fun h => h hdir) fun h => h hst

/-- A call to pay fails in LDK and changes nothing, or is accepted; its record is then written or the
store fails. -/
lemma payBolt11Invoice_cases {refusal : Option RetryableSendFailure} {fault : Fault}
    {invoice : Bolt11Invoice} {amountMsat : Option UInt64}
    (hs : serialStep s (.payBolt11Invoice refusal fault invoice amountMsat) = some s') :
    s' = s ∨ ∃ ldk' amount,
      (∃ sent, sendBolt11Payment refusal s.ldk invoice amountMsat = .ok sent) ∧
      s.ldk.accept invoice.paymentId = some ldk' ∧
      (s' = { ldk := ldk', store := s.store } ∨
        s' = { ldk := ldk', store := written s.store (outboundPayment invoice amount) }) := by
  rw [serialStep, payBolt11Invoice] at hs
  rcases hsend : sendBolt11Payment refusal s.ldk invoice amountMsat with e | ⟨ldk', payment⟩
  · simp only [hsend, Option.some.injEq] at hs
    exact Or.inl hs.symm
  · obtain ⟨haccept, amount, rfl⟩ := sendBolt11Payment_ok hsend
    right
    refine ⟨ldk', amount, ⟨_, rfl⟩, haccept, ?_⟩
    cases fault with
    | none =>
      simp only [hsend, addPayment_ok, Option.some.injEq] at hs
      exact Or.inr hs.symm
    | some err =>
      simp only [hsend, addPayment_fault, Option.some.injEq] at hs
      exact Or.inl hs.symm

/-- Creating an invoice changes nothing, or writes the record of a payment to be received. -/
lemma createBolt11Invoice_cases {fault : Fault} {created : Except SignOrCreationError PaymentHash}
    {amountMsat : Option UInt64}
    (hs : serialStep s (.createBolt11Invoice fault created amountMsat) = some s') :
    s' = s ∨ ∃ paymentHash, fault = none ∧ created = .ok paymentHash ∧
      s' = { s with store := written s.store (inboundPayment paymentHash amountMsat) } := by
  rw [serialStep] at hs
  rcases created with (_ | ce) | paymentHash
  · exact Or.inl (Option.some.inj hs).symm
  · exact Or.inl (Option.some.inj hs).symm
  · cases fault with
    | none => exact Or.inr ⟨paymentHash, rfl, rfl, (Option.some.inj hs).symm⟩
    | some err => exact Or.inl (Option.some.inj hs).symm

lemma serialStep_resolve {paymentId : PaymentId} {result : PaymentResult}
    (hs : serialStep s (.resolve paymentId result) = some s') :
    ∃ ldk', s.ldk.resolve paymentId result (isFailed result) = some ldk' ∧
      s' = { s with ldk := ldk' } := by
  rw [serialStep] at hs
  split at hs
  · cases hs
  · rename_i ldk' hres
    exact ⟨ldk', hres, (Option.some.inj hs).symm⟩

lemma serialStep_forget {paymentId : PaymentId} (hs : serialStep s (.forget paymentId) = some s') :
    ∃ ldk', s.ldk.forget paymentId = some ldk' ∧ s' = { s with ldk := ldk' } := by
  rw [serialStep] at hs
  split at hs
  · cases hs
  · rename_i ldk' hforget
    exact ⟨ldk', hforget, (Option.some.inj hs).symm⟩

lemma handlePayment_cases {h : LdkEventHandler} (hs : serialStep s (.handlePayment h) = some s') :
    ∃ e rest, s.ldk.queue = e :: rest ∧ (s' = s ∨ s' = { s with ldk := s.ldk.ack } ∨
      ∃ payment, getPayment none s.store e.id = .ok payment ∧
        s' = { ldk := s.ldk.ack
               store := written s.store ((paymentEvent e).record payment) }) := by
  rw [serialStep] at hs
  split at hs
  · cases hs
  · rename_i e rest hqueue
    refine ⟨e, rest, hqueue, ?_⟩
    obtain rfl := Option.some.inj hs
    rcases handleEvent_payment_store h s.store (paymentEvent_paymentId e) with
      hsame | ⟨hok, payment, hg, hstore⟩
    · by_cases hok : (handleEvent h s.store (paymentEvent e).event).outcome = .ok
      · right; left
        simp only [if_pos hok, hsame]
      · left
        simp only [if_neg hok, hsame]
    · right; right
      exact ⟨payment, hg, by simp only [if_pos hok, hstore]⟩

lemma isFailed_of_succeededWith {e : QueuedEvent} (hpay : payment.paymentId = e.id)
    (h : SucceededWith (written store ((paymentEvent e).record payment)) e.id preimage) :
    isFailed e.result = false := by
  cases hres : e.result with
  | sent p fee => rfl
  | failed reason =>
    have hid : ((paymentEvent e).record payment).paymentId = e.id := by
      rw [PaymentEvent.record_paymentId, hpay]
    refine absurd (hid ▸ h) (not_succeededWith_written _ (Or.inr ?_))
    simp [paymentEvent, hres, PaymentEvent.record, failedRecord]

lemma SettledSuccess.pay {refusal : Option RetryableSendFailure} {fault : Fault}
    {invoice : Bolt11Invoice} {amountMsat : Option UInt64} (h : SettledSuccess s)
    (hok : PaysOnce s (.payBolt11Invoice refusal fault invoice amountMsat))
    (hs : serialStep s (.payBolt11Invoice refusal fault invoice amountMsat) = some s') :
    SettledSuccess s' ∧
      ∀ id preimage, SucceededWith s.store id preimage → SucceededWith s'.store id preimage := by
  rcases payBolt11Invoice_cases hs with rfl | ⟨ldk', amount, hsent, haccept, hcases⟩
  · exact ⟨h, fun _ _ hsucc => hsucc⟩
  have hsettled : ∀ id preimage, id ≠ invoice.paymentId → SucceededWith s.store id preimage →
      ldk'.Idle id := fun id preimage hne hsucc =>
    Ledger.Idle.accept (h.settled id preimage hsucc) haccept hne
  obtain ⟨huntracked, rfl⟩ := Ledger.accept_eq_some haccept
  have hold : ∀ preimage, ¬ SucceededWith s.store invoice.paymentId preimage := hok hsent
  have hkept : ∀ e ∈ s.ldk.queue, isFailed e.result = false →
      Function.update s.ldk.phase invoice.paymentId .inFlight e.id = .resolved := by
    intro e he hfailed
    have hres := h.kept e he hfailed
    have hne : e.id ≠ invoice.paymentId := by
      intro heq
      rw [heq, huntracked] at hres
      cases hres
    rw [Function.update_of_ne hne, hres]
  rcases hcases with rfl | rfl
  · refine ⟨⟨h.own, hkept, h.last, fun id preimage hsucc => ?_⟩, fun _ _ hsucc => hsucc⟩
    exact hsettled id preimage (fun heq => hold preimage (heq ▸ hsucc)) hsucc
  · have hnew : ∀ preimage, ¬ SucceededWith (written s.store (outboundPayment invoice amount))
        invoice.paymentId preimage := fun preimage =>
      not_succeededWith_written (outboundPayment invoice amount)
        (Or.inr (by simp [outboundPayment]))
    refine ⟨⟨OwnKeyed.written h.own _, hkept, h.last, fun id preimage hsucc => ?_⟩,
      fun id preimage hsucc => ?_⟩
    · have hne : id ≠ invoice.paymentId := fun heq => hnew preimage (heq ▸ hsucc)
      exact hsettled id preimage hne ((succeededWith_written_of_ne hne).mp hsucc)
    · have hne : id ≠ invoice.paymentId := fun heq => hold preimage (heq ▸ hsucc)
      exact (succeededWith_written_of_ne hne).mpr hsucc

lemma SettledSuccess.create {fault : Fault} {created : Except SignOrCreationError PaymentHash}
    {amountMsat : Option UInt64} (h : SettledSuccess s)
    (hok : PaysOnce s (.createBolt11Invoice fault created amountMsat))
    (hs : serialStep s (.createBolt11Invoice fault created amountMsat) = some s') :
    SettledSuccess s' ∧
      ∀ id preimage, SucceededWith s.store id preimage → SucceededWith s'.store id preimage := by
  rcases createBolt11Invoice_cases hs with rfl | ⟨paymentHash, -, hcreated, rfl⟩
  · exact ⟨h, fun _ _ hsucc => hsucc⟩
  have hold := hok paymentHash hcreated
  have hnew : ∀ preimage, ¬ SucceededWith (written s.store (inboundPayment paymentHash amountMsat))
      ⟨paymentHash.val⟩ preimage := fun preimage =>
    not_succeededWith_written (inboundPayment paymentHash amountMsat)
      (Or.inl (by simp [inboundPayment]))
  refine ⟨⟨OwnKeyed.written h.own _, h.kept, h.last, fun id preimage hsucc => ?_⟩,
    fun id preimage hsucc => ?_⟩
  · have hne : id ≠ ⟨paymentHash.val⟩ := fun heq => hnew preimage (heq ▸ hsucc)
    exact h.settled id preimage ((succeededWith_written_of_ne hne).mp hsucc)
  · have hne : id ≠ ⟨paymentHash.val⟩ := fun heq => hold preimage (heq ▸ hsucc)
    exact (succeededWith_written_of_ne hne).mpr hsucc

lemma SettledSuccess.resolve {paymentId : PaymentId} {result : PaymentResult}
    {ldk' : OutboundPayments} (h : SettledSuccess s)
    (hres : s.ldk.resolve paymentId result (isFailed result) = some ldk') :
    SettledSuccess { s with ldk := ldk' } := by
  obtain ⟨hflight, rfl⟩ := Ledger.resolve_eq_some hres
  -- a success that waits keeps its id from being in flight
  have hne : ∀ e ∈ s.ldk.queue, isFailed e.result = false → e.id ≠ paymentId := by
    intro e he hfailed heq
    have hkept := h.kept e he hfailed
    rw [heq, hflight] at hkept
    cases hkept
  refine ⟨h.own, fun e he hfailed => ?_, ?_, fun id preimage hsucc => ?_⟩
  · rcases List.mem_append.mp he with he | he
    · simp only [Function.update_of_ne (hne e he hfailed)]
      exact h.kept e he hfailed
    · rw [List.mem_singleton.mp he] at hfailed ⊢
      simp [show isFailed result = false from hfailed]
  · rw [List.pairwise_append]
    refine ⟨h.last, List.pairwise_singleton _ _, fun e he e' he' hfailed => ?_⟩
    rw [List.mem_singleton.mp he']
    exact (hne e he hfailed).symm
  · exact Ledger.Idle.resolve (h.settled id preimage hsucc) hres

lemma SettledSuccess.forget {paymentId : PaymentId} {ldk' : OutboundPayments}
    (h : SettledSuccess s) (hforget : s.ldk.forget paymentId = some ldk') :
    SettledSuccess { s with ldk := ldk' } := by
  obtain ⟨-, hnone, rfl⟩ := Ledger.forget_eq_some hforget
  refine ⟨h.own, fun e he hfailed => ?_, h.last, fun id preimage hsucc => ?_⟩
  · simp only [Function.update_of_ne (hnone e he)]
    exact h.kept e he hfailed
  · exact Ledger.Idle.forget (h.settled id preimage hsucc) hforget

lemma SettledSuccess.ack {e : QueuedEvent} {rest : List QueuedEvent} (h : SettledSuccess s)
    (hqueue : s.ldk.queue = e :: rest) : SettledSuccess { s with ldk := s.ldk.ack } := by
  have hsub : ∀ e' ∈ rest, e' ∈ s.ldk.queue := by
    intro e' he'
    rw [hqueue]
    exact List.mem_cons_of_mem _ he'
  have hidle : ∀ id preimage, SucceededWith s.store id preimage → s.ldk.ack.Idle id :=
    fun id preimage hsucc => Ledger.Idle.ack (h.settled id preimage hsucc)
  have hlast := h.last
  rw [hqueue] at hlast
  rw [Ledger.ack_of_queue hqueue] at hidle ⊢
  exact ⟨h.own, fun e' he' => h.kept e' (hsub e' he'), (List.pairwise_cons.mp hlast).2, hidle⟩

lemma SettledSuccess.handlePayment {hnd : LdkEventHandler} (h : SettledSuccess s)
    (hs : serialStep s (.handlePayment hnd) = some s') :
    SettledSuccess s' ∧
      ∀ id preimage, SucceededWith s.store id preimage → SucceededWith s'.store id preimage := by
  obtain ⟨e, rest, hqueue, rfl | rfl | ⟨payment, hg, rfl⟩⟩ := handlePayment_cases hs
  · exact ⟨h, fun _ _ hsucc => hsucc⟩
  · exact ⟨h.ack hqueue, fun _ _ hsucc => hsucc⟩
  have hacked := h.ack hqueue
  have hpay : payment.paymentId = e.id := h.own e.id payment hg
  have hid : ((paymentEvent e).record payment).paymentId = e.id := by
    rw [PaymentEvent.record_paymentId, hpay]
  have hmem : e ∈ s.ldk.queue := by
    rw [hqueue]
    exact List.mem_cons_self
  refine ⟨⟨OwnKeyed.written h.own _, hacked.kept, hacked.last, fun id preimage hsucc => ?_⟩,
    fun id preimage hsucc => ?_⟩
  · by_cases hne : id = e.id
    · -- the event was a success: its id is kept, and nothing of it waits behind
      subst hne
      have hfailed := isFailed_of_succeededWith hpay hsucc
      have hlast := h.last
      rw [hqueue] at hlast
      rw [Ledger.ack_of_queue hqueue]
      refine ⟨?_, fun e' he' => (List.pairwise_cons.mp hlast).1 e' he' hfailed⟩
      simp [h.kept e hmem hfailed]
    · exact hacked.settled id preimage ((succeededWith_written_of_ne (by rwa [hid])).mp hsucc)
  · have hne : id ≠ e.id := fun heq => (h.settled id preimage hsucc).2 e hmem heq.symm
    exact (succeededWith_written_of_ne (by rwa [hid])).mpr hsucc

lemma handleOther_eq {hnd : LdkEventHandler} {e : Event}
    (hs : serialStep s (.handleOther hnd e) = some s') : s' = s := by
  rw [serialStep] at hs
  split_ifs at hs with hpayment
  obtain rfl := Option.some.inj hs
  rw [handleEvent_other_store]
  rintro (⟨paymentId, preimage, paymentHash, fee⟩ | ⟨paymentId, paymentHash, reason⟩) rfl
  · exact hpayment rfl
  · exact hpayment rfl

theorem SettledSuccess.step {a : Action} (h : SettledSuccess s) (hok : PaysOnce s a)
    (hs : serialStep s a = some s') :
    SettledSuccess s' ∧
      ∀ id preimage, SucceededWith s.store id preimage → SucceededWith s'.store id preimage := by
  cases a with
  | payBolt11Invoice refusal fault invoice amountMsat => exact h.pay hok hs
  | createBolt11Invoice fault created amountMsat => exact h.create hok hs
  | resolve paymentId result =>
    obtain ⟨ldk', hres, rfl⟩ := serialStep_resolve hs
    exact ⟨h.resolve hres, fun _ _ hsucc => hsucc⟩
  | forget paymentId =>
    obtain ⟨ldk', hforget, rfl⟩ := serialStep_forget hs
    exact ⟨h.forget hforget, fun _ _ hsucc => hsucc⟩
  | handlePayment hnd => exact h.handlePayment hs
  | handleOther hnd e =>
    obtain rfl := handleOther_eq hs
    exact ⟨h, fun _ _ hsucc => hsucc⟩

lemma settledSuccess_nothingPaid : SettledSuccess nothingPaid where
  own id payment hg := by simp [nothingPaid] at hg
  kept := by simp [nothingPaid, Ledger.empty]
  last := List.Pairwise.nil
  settled id preimage hsucc := by
    obtain ⟨payment, hg, -⟩ := hsucc
    simp [nothingPaid] at hg

/-- **A call that is accepted again, or an invoice with the hash, ends a success**, when the store
takes the record. -/
theorem paysOnce_of_keeps {a : Action} (hfine : a.writesGoThrough)
    (hs : serialStep s a = some s')
    (hkeeps : ∀ k : PaymentId × PaymentPreimage,
      SucceededWith s.store k.1 k.2 → SucceededWith s'.store k.1 k.2) : PaysOnce s a := by
  cases a with
  | payBolt11Invoice refusal fault invoice amountMsat =>
    obtain rfl : fault = none := hfine
    rintro ⟨⟨ldk', payment⟩, hsend⟩ preimage hsucc
    have hlater := hkeeps (invoice.paymentId, preimage) hsucc
    rw [serialStep, payBolt11Invoice] at hs
    simp only [hsend, addPayment_ok, Option.some.injEq] at hs
    subst hs
    obtain ⟨-, amount, rfl⟩ := sendBolt11Payment_ok hsend
    exact not_succeededWith_written (outboundPayment invoice amount)
      (Or.inr (by simp [outboundPayment])) hlater
  | createBolt11Invoice fault created amountMsat =>
    obtain rfl : fault = none := hfine
    rintro paymentHash rfl preimage hsucc
    have hlater := hkeeps (⟨paymentHash.val⟩, preimage) hsucc
    rw [serialStep] at hs
    obtain rfl := Option.some.inj hs
    exact not_succeededWith_written (inboundPayment paymentHash amountMsat)
      (Or.inl (by simp [inboundPayment])) hlater
  | _ => trivial

end Steps

/-- **When success is final.** For every run of calls to pay and to create an invoice, handled events
and attempts that end or are forgotten, with any faults of the store: if no payment that shows its
success is accepted again and no invoice is made with its hash, every success that is shown stays. And
in a run in which the store fails no call, success is final only so. -/
theorem successLasts_iff (as : List Action) :
    (StepsMeet serialStep PaysOnce nothingPaid as → SuccessLasts as) ∧
    ((∀ a ∈ as, a.writesGoThrough) →
      (SuccessLasts as ↔ StepsMeet serialStep PaysOnce nothingPaid as)) := by
  have hsuff : StepsMeet serialStep PaysOnce nothingPaid as → SuccessLasts as := by
    intro hok k
    refine stable_of_stepsMeet (I := SettledSuccess) settledSuccess_nothingPaid hok ?_
    intro s a s' hI ha hs
    obtain ⟨hI', hkeeps⟩ := hI.step ha hs
    exact ⟨hI', hkeeps k.1 k.2⟩
  refine ⟨hsuff, fun hfine => ⟨fun hlasts => ?_, hsuff⟩⟩
  exact stepsMeet_of_stable hlasts hfine fun s a s' ha hs hkeeps => paysOnce_of_keeps ha hs hkeeps

/-! ### An invoice that is paid twice -/

def paidAndForgotten : List Action :=
  [.payBolt11Invoice none none zeroInvoice none, .resolve zeroInvoice.paymentId zeroSent,
    .handlePayment quietHandler, .forget zeroInvoice.paymentId]

theorem successLasts_iff_at : SuccessLasts paidAndForgotten := by
  refine (successLasts_iff _).1 ?_
  refine .cons rfl (fun _ preimage hsucc => ?_) ?_
  · obtain ⟨payment, hg, -⟩ := hsucc
    cases hg
  exact .cons rfl trivial (.cons rfl trivial (.cons rfl trivial trivial))

/-- **The invoice is paid again after LDK has forgotten it**: the record that showed the success and
the preimage is overwritten with a pending one. -/
theorem not_successLasts_paidTwice :
    ∃ s, run serialStep nothingPaid paidAndForgotten = some s ∧
      SucceededWith s.store zeroInvoice.paymentId ⟨zeroBytes⟩ ∧
      ¬ SuccessLasts (paidAndForgotten ++ [.payBolt11Invoice none none zeroInvoice none]) := by
  have hshown : ∃ s, run serialStep nothingPaid paidAndForgotten = some s ∧
      SucceededWith s.store zeroInvoice.paymentId ⟨zeroBytes⟩ ∧
      ∃ s', serialStep s (.payBolt11Invoice none none zeroInvoice none) = some s' ∧
        ¬ SucceededWith s'.store zeroInvoice.paymentId ⟨zeroBytes⟩ := by
    refine ⟨_, rfl, ⟨sentRecord (outboundPayment zeroInvoice 1000) ⟨zeroBytes⟩ (some 1),
      getPayment_written_self _ _, rfl, rfl, rfl⟩, _, rfl, ?_⟩
    exact not_succeededWith_written (outboundPayment zeroInvoice 1000)
      (Or.inr (by simp [outboundPayment]))
  obtain ⟨s, hrun, hsucc, s', hpaid, hgone⟩ := hshown
  refine ⟨s, hrun, hsucc, fun hlasts => hgone ?_⟩
  have hlater := hlasts (zeroInvoice.paymentId, ⟨zeroBytes⟩) paidAndForgotten _ s rfl hrun hsucc
  exact (hlater.2 s' hpaid).head

end LnNode.Node.SuccessFinal
