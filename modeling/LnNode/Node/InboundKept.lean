import LnNode.Node.SuccessFinal

/-!
# Whether the two directions of payments interfere

Payments to be received and payments that are sent are kept under one kind of key, the payment hash.
Another node chooses the hash of an invoice that is paid, and may choose one of ours.

`InboundIdle` is the invariant: no payment is in flight, and no event waits, under the id of a payment
to be received.

* `InboundIdle.step`: a step that pays no invoice with such an id keeps every such record as it is;
* `directionsApart_iff`: where invoices are created with new hashes, nothing else is needed.
-/

namespace LnNode.Node.InboundKept

open LnNode.Storage LnNode.EventHandler LnNode.Lib.Attempts LnNode.Lib.Run LnNode.Node.SuccessFinal
open LnNode.Node.Payments hiding Action

/-! ### What is to be kept -/

def InvoiceStored (store : KvStore) (paymentHash : PaymentHash) (amountMsat : Option UInt64) : Prop :=
  ∃ payment, getPayment none store ⟨paymentHash.val⟩ = .ok payment ∧
    payment.direction = .inbound ∧ payment.amountMsat = amountMsat

/-- The event of an outbound payment that is handled does not change the record. -/
def EventsLeave (id : PaymentId) (s : SerialNode) : Action → Prop
  | .handlePayment h => ∀ s', serialStep s (.handlePayment h) = some s' →
      getPayment none s'.store id = getPayment none s.store id
  | _ => True

/-- After every call that has created an invoice, its record is in all later states, and no event of
an outbound payment changes it. -/
def DirectionsApart (as : List Action) : Prop :=
  ∀ pre fault created amountMsat post s s' invoice,
    as = pre ++ .createBolt11Invoice fault created amountMsat :: post →
    run serialStep nothingPaid pre = some s →
    (createBolt11Invoice fault created s.store amountMsat).2 = .ok invoice →
    serialStep s (.createBolt11Invoice fault created amountMsat) = some s' →
    Always serialStep (fun t => InvoiceStored t.store invoice.paymentHash amountMsat) s' post ∧
      StepsMeet serialStep (EventsLeave ⟨invoice.paymentHash.val⟩) s' post

/-- No payment is accepted under the id of a payment to be received. -/
def PaysOthers (s : SerialNode) : Action → Prop
  | .payBolt11Invoice refusal _ invoice amountMsat =>
    (∃ sent, sendBolt11Payment refusal s.ldk invoice amountMsat = .ok sent) →
      ∀ payment, getPayment none s.store invoice.paymentId = .ok payment →
        payment.direction ≠ .inbound
  | _ => True

/-- LDK creates invoices with new hashes: nothing is tracked, queued or stored under them. -/
def HashesNew (s : SerialNode) : Action → Prop
  | .createBolt11Invoice _ created _ => ∀ paymentHash, created = .ok paymentHash →
      ¬ s.ldk.Tracked ⟨paymentHash.val⟩ ∧ (∀ e ∈ s.ldk.queue, e.id ≠ ⟨paymentHash.val⟩) ∧
        ∀ payment, getPayment none s.store ⟨paymentHash.val⟩ ≠ .ok payment
  | _ => True

/-! ### What every step keeps -/

structure InboundIdle (s : SerialNode) : Prop where
  own : OwnKeyed s.store
  idle : ∀ id payment, getPayment none s.store id = .ok payment → payment.direction = .inbound →
    s.ldk.phase id ≠ .inFlight ∧ ∀ e ∈ s.ldk.queue, e.id ≠ id

/-- The records of payments to be received are the same afterwards. -/
def KeepsInbound (s s' : SerialNode) : Prop :=
  ∀ id payment, getPayment none s.store id = .ok payment → payment.direction = .inbound →
    getPayment none s'.store id = .ok payment

section Steps

variable {s s' : SerialNode}

lemma KeepsInbound.of_store_eq (h : s'.store = s.store) : KeepsInbound s s' := by
  intro id payment hg _
  rw [h]
  exact hg

lemma InboundIdle.pay {refusal : Option RetryableSendFailure} {fault : Fault}
    {invoice : Bolt11Invoice} {amountMsat : Option UInt64} (h : InboundIdle s)
    (hok : PaysOthers s (.payBolt11Invoice refusal fault invoice amountMsat))
    (hs : serialStep s (.payBolt11Invoice refusal fault invoice amountMsat) = some s') :
    InboundIdle s' ∧ KeepsInbound s s' := by
  rcases payBolt11Invoice_cases hs with rfl | ⟨ldk', amount, hsent, haccept, hcases⟩
  · exact ⟨h, .of_store_eq rfl⟩
  have hother := hok hsent
  have hidle : ∀ id payment, id ≠ invoice.paymentId → getPayment none s.store id = .ok payment →
      payment.direction = .inbound → ldk'.Idle id := fun id payment hne hg hdir =>
    Ledger.Idle.accept (h.idle id payment hg hdir) haccept hne
  have hne : ∀ id payment, getPayment none s.store id = .ok payment →
      payment.direction = .inbound → id ≠ invoice.paymentId := by
    rintro id payment hg hdir rfl
    exact hother payment hg hdir
  rcases hcases with rfl | rfl
  · exact ⟨⟨h.own, fun id payment hg hdir => hidle id payment (hne id payment hg hdir) hg hdir⟩,
      .of_store_eq rfl⟩
  · refine ⟨⟨h.own.written _, fun id payment hg hdir => ?_⟩, fun id payment hg hdir => ?_⟩
    · rw [getPayment_written] at hg
      split_ifs at hg with hid
      · cases hg
        cases hdir
      · exact hidle id payment hid hg hdir
    · have hid : id ≠ (outboundPayment invoice amount).paymentId := hne id payment hg hdir
      rw [getPayment_written_of_ne hid]
      exact hg

lemma InboundIdle.create {fault : Fault} {created : Except SignOrCreationError PaymentHash}
    {amountMsat : Option UInt64} (h : InboundIdle s)
    (hok : HashesNew s (.createBolt11Invoice fault created amountMsat))
    (hs : serialStep s (.createBolt11Invoice fault created amountMsat) = some s') :
    InboundIdle s' ∧ KeepsInbound s s' := by
  rcases createBolt11Invoice_cases hs with rfl | ⟨paymentHash, -, hcreated, rfl⟩
  · exact ⟨h, .of_store_eq rfl⟩
  obtain ⟨huntracked, hqueue, hnone⟩ := hok paymentHash hcreated
  refine ⟨⟨h.own.written _, fun id payment hg hdir => ?_⟩, fun id payment hg hdir => ?_⟩
  · by_cases hid : id = ⟨paymentHash.val⟩
    · subst hid
      refine ⟨fun hphase => huntracked ?_, hqueue⟩
      rw [Ledger.Tracked, hphase]
      decide
    · rw [getPayment_written_of_ne hid] at hg
      exact h.idle id payment hg hdir
  · have hid : id ≠ (inboundPayment paymentHash amountMsat).paymentId := by
      rintro rfl
      exact hnone payment hg
    rw [getPayment_written_of_ne hid]
    exact hg

lemma InboundIdle.resolve {paymentId : PaymentId} {result : PaymentResult}
    {ldk' : OutboundPayments} (h : InboundIdle s)
    (hres : s.ldk.resolve paymentId result (isFailed result) = some ldk') :
    InboundIdle { s with ldk := ldk' } :=
  ⟨h.own, fun id payment hg hdir => Ledger.Idle.resolve (h.idle id payment hg hdir) hres⟩

lemma InboundIdle.forget {paymentId : PaymentId} {ldk' : OutboundPayments} (h : InboundIdle s)
    (hforget : s.ldk.forget paymentId = some ldk') : InboundIdle { s with ldk := ldk' } :=
  ⟨h.own, fun id payment hg hdir => Ledger.Idle.forget (h.idle id payment hg hdir) hforget⟩

lemma InboundIdle.ack (h : InboundIdle s) : InboundIdle { s with ldk := s.ldk.ack } :=
  ⟨h.own, fun id payment hg hdir => Ledger.Idle.ack (h.idle id payment hg hdir)⟩

lemma InboundIdle.handlePayment {hnd : LdkEventHandler} (h : InboundIdle s)
    (hs : serialStep s (.handlePayment hnd) = some s') : InboundIdle s' ∧ KeepsInbound s s' := by
  obtain ⟨e, rest, hqueue, rfl | rfl | ⟨payment, hg, rfl⟩⟩ := handlePayment_cases hs
  · exact ⟨h, .of_store_eq rfl⟩
  · exact ⟨h.ack, .of_store_eq rfl⟩
  have hmem : e ∈ s.ldk.queue := by
    rw [hqueue]
    exact List.mem_cons_self
  have hdirection : payment.direction ≠ .inbound := fun hdir => (h.idle e.id payment hg hdir).2 e hmem rfl
  have hid : ((paymentEvent e).record payment).paymentId = e.id := by
    rw [PaymentEvent.record_paymentId]
    exact h.own e.id payment hg
  refine ⟨⟨h.own.written _, fun id later hg' hdir => ?_⟩, fun id later hg' hdir => ?_⟩
  · rw [getPayment_written] at hg'
    split_ifs at hg' with hsame
    · cases hg'
      rw [PaymentEvent.record_direction] at hdir
      exact absurd hdir hdirection
    · exact (h.ack).idle id later hg' hdir
  · have hne : id ≠ e.id := fun heq => (h.idle id later hg' hdir).2 e hmem heq.symm
    rw [getPayment_written_of_ne (by rwa [hid])]
    exact hg'

/-- **One step**, if it pays no invoice with the id of a payment to be received: the invariant, and
every record of a payment to be received, stay. -/
theorem InboundIdle.step {a : Action} (h : InboundIdle s) (hnew : HashesNew s a)
    (hok : PaysOthers s a) (hs : serialStep s a = some s') : InboundIdle s' ∧ KeepsInbound s s' := by
  cases a with
  | payBolt11Invoice refusal fault invoice amountMsat => exact h.pay hok hs
  | createBolt11Invoice fault created amountMsat => exact h.create hnew hs
  | resolve paymentId result =>
    obtain ⟨ldk', hres, rfl⟩ := serialStep_resolve hs
    exact ⟨h.resolve hres, .of_store_eq rfl⟩
  | forget paymentId =>
    obtain ⟨ldk', hforget, rfl⟩ := serialStep_forget hs
    exact ⟨h.forget hforget, .of_store_eq rfl⟩
  | handlePayment hnd => exact h.handlePayment hs
  | handleOther hnd e =>
    obtain rfl := handleOther_eq hs
    exact ⟨h, .of_store_eq rfl⟩

lemma inboundIdle_nothingPaid : InboundIdle nothingPaid where
  own := ownKeyed_empty
  idle id payment hg := by simp [nothingPaid] at hg

end Steps

/-! ### Where a record of a payment to be received comes from -/

section Origin

variable {s s' : SerialNode} {a : SuccessFinal.Action} {id : PaymentId} {payment : Payment}

/-- What one step does to the store: nothing, or it writes the record of a payment that is sent, of
one to be received, or of an event, which keeps its id and direction. -/
lemma serialStep_store (hs : serialStep s a = some s') :
    s'.store = s.store ∨
    (∃ invoice amount, s'.store = written s.store (outboundPayment invoice amount)) ∨
    (∃ paymentHash amountMsat, a = .createBolt11Invoice none (.ok paymentHash) amountMsat ∧
      s'.store = written s.store (inboundPayment paymentHash amountMsat)) ∨
    ∃ (e : QueuedEvent) (old : Payment), getPayment none s.store e.id = .ok old ∧
      s'.store = written s.store ((paymentEvent e).record old) := by
  cases a with
  | payBolt11Invoice refusal fault invoice amountMsat =>
    rcases payBolt11Invoice_cases hs with rfl | ⟨ldk', amount, -, -, rfl | rfl⟩
    · exact Or.inl rfl
    · exact Or.inl rfl
    · exact Or.inr (Or.inl ⟨invoice, amount, rfl⟩)
  | createBolt11Invoice fault created amountMsat =>
    rcases createBolt11Invoice_cases hs with rfl | ⟨paymentHash, rfl, rfl, rfl⟩
    · exact Or.inl rfl
    · exact Or.inr (Or.inr (Or.inl ⟨paymentHash, amountMsat, rfl, rfl⟩))
  | resolve paymentId result =>
    obtain ⟨ldk', -, rfl⟩ := serialStep_resolve hs
    exact Or.inl rfl
  | forget paymentId =>
    obtain ⟨ldk', -, rfl⟩ := serialStep_forget hs
    exact Or.inl rfl
  | handlePayment hnd =>
    obtain ⟨e, rest, -, rfl | rfl | ⟨old, hg, rfl⟩⟩ := handlePayment_cases hs
    · exact Or.inl rfl
    · exact Or.inl rfl
    · exact Or.inr (Or.inr (Or.inr ⟨e, old, hg, rfl⟩))
  | handleOther hnd e =>
    left
    rw [handleOther_eq hs]

lemma ownKeyed_serialStep (hown : OwnKeyed s.store) (hs : serialStep s a = some s') :
    OwnKeyed s'.store := by
  rcases serialStep_store hs with heq | ⟨_, _, heq⟩ | ⟨_, _, -, heq⟩ | ⟨_, _, -, heq⟩
  · rwa [heq]
  · exact heq ▸ hown.written _
  · exact heq ▸ hown.written _
  · exact heq ▸ hown.written _

/-- A record of a payment to be received was there before the step, or the step has created its
invoice. -/
lemma inbound_before_or_created (hown : OwnKeyed s.store) (hs : serialStep s a = some s')
    (hg : getPayment none s'.store id = .ok payment) (hdir : payment.direction = .inbound) :
    (∃ old, getPayment none s.store id = .ok old ∧ old.direction = .inbound) ∨
      ∃ amountMsat, a = .createBolt11Invoice none (.ok ⟨id.val⟩) amountMsat := by
  rcases serialStep_store hs with heq | ⟨invoice, amount, heq⟩ | ⟨paymentHash, amountMsat, rfl, heq⟩ |
    ⟨e, old, hold, heq⟩
  · rw [heq] at hg
    exact Or.inl ⟨payment, hg, hdir⟩
  all_goals
    rw [heq, getPayment_written] at hg
    split_ifs at hg with hid
  · cases hg
    cases hdir
  · exact Or.inl ⟨payment, hg, hdir⟩
  · subst hid
    exact Or.inr ⟨amountMsat, rfl⟩
  · exact Or.inl ⟨payment, hg, hdir⟩
  · cases hg
    rw [PaymentEvent.record_direction] at hdir
    rw [PaymentEvent.record_paymentId, hown e.id old hold] at hid
    subst hid
    exact Or.inl ⟨old, hold, hdir⟩
  · exact Or.inl ⟨payment, hg, hdir⟩

/-- **A record of a payment to be received was written when its invoice was created.** -/
theorem created_of_inbound {as : List SuccessFinal.Action}
    (hr : run serialStep nothingPaid as = some s) (hg : getPayment none s.store id = .ok payment)
    (hdir : payment.direction = .inbound) :
    ∃ pre amountMsat post t t',
      as = pre ++ .createBolt11Invoice none (.ok ⟨id.val⟩) amountMsat :: post ∧
      run serialStep nothingPaid pre = some t ∧
      serialStep t (.createBolt11Invoice none (.ok ⟨id.val⟩) amountMsat) = some t' ∧
      run serialStep t' post = some s := by
  induction as using List.reverseRecOn generalizing s payment with
  | nil =>
    cases hr
    simp [nothingPaid] at hg
  | append_singleton as a ih =>
    rw [run_append, Option.bind_eq_some_iff] at hr
    obtain ⟨t, ht, hs⟩ := hr
    rw [run_cons, Option.bind_eq_some_iff] at hs
    obtain ⟨s', hs, hend⟩ := hs
    obtain rfl : s' = s := Option.some.inj hend
    have hown : OwnKeyed t.store :=
      run_keeps (I := fun s => OwnKeyed s.store) ownKeyed_empty
        (fun _ _ _ => ownKeyed_serialStep) ht
    rcases inbound_before_or_created hown hs hg hdir with ⟨old, hold, hdir⟩ | ⟨amountMsat, rfl⟩
    · obtain ⟨pre, amountMsat, post, u, u', rfl, hpre, hcreate, hpost⟩ := ih ht hold hdir
      refine ⟨pre, amountMsat, post ++ [a], u, u', by simp, hpre, hcreate, ?_⟩
      rw [run_append, hpost]
      simp [run_cons, hs]
    · exact ⟨as, amountMsat, [], t, s', rfl, ht, hs, rfl⟩

end Origin

/-! ### When the directions do not interfere -/

/-- A step that creates invoices with new hashes only, and pays none with the id of one of them. -/
def Apart (s : SerialNode) (a : SuccessFinal.Action) : Prop := HashesNew s a ∧ PaysOthers s a

section Apart

variable {s s' : SerialNode} {as : List SuccessFinal.Action} {paymentHash : PaymentHash}
  {amountMsat : Option UInt64}

lemma invoice_kept (h : InboundIdle s)
    (hstored : getPayment none s.store ⟨paymentHash.val⟩ = .ok (inboundPayment paymentHash amountMsat))
    (hok : StepsMeet serialStep Apart s as) :
    Always serialStep (fun t => InvoiceStored t.store paymentHash amountMsat) s as ∧
      StepsMeet serialStep (EventsLeave ⟨paymentHash.val⟩) s as := by
  let I : SerialNode → Prop := fun t => InboundIdle t ∧
    getPayment none t.store ⟨paymentHash.val⟩ = .ok (inboundPayment paymentHash amountMsat)
  have hstep : ∀ t a t', I t → Apart t a → serialStep t a = some t' → I t' := by
    intro t a t' hI ha hs
    obtain ⟨hidle, hkeeps⟩ := hI.1.step ha.1 ha.2 hs
    exact ⟨hidle, hkeeps _ _ hI.2 rfl⟩
  constructor
  · refine (hok.always (I := I) ⟨h, hstored⟩ hstep).imp fun t hI => ?_
    exact ⟨_, hI.2, rfl, rfl⟩
  · refine hok.strengthen (I := I) ⟨h, hstored⟩ fun t a t' hI ha hs => ⟨hstep t a t' hI ha hs, ?_⟩
    cases a with
    | handlePayment hnd =>
      intro t'' hs''
      exact ((hstep t _ t'' hI ha hs'').2).trans hI.2.symm
    | _ => trivial

lemma created_record {fault : Fault} {created : Except SignOrCreationError PaymentHash}
    {invoice : Bolt11Invoice}
    (hcall : (createBolt11Invoice fault created s.store amountMsat).2 = .ok invoice)
    (hs : serialStep s (.createBolt11Invoice fault created amountMsat) = some s') :
    getPayment none s'.store ⟨invoice.paymentHash.val⟩ =
      .ok (inboundPayment invoice.paymentHash amountMsat) := by
  rcases created with (_ | ce) | paymentHash
  · cases hcall
  · cases hcall
  · cases fault with
    | some err => cases hcall
    | none =>
      cases hcall
      cases hs
      exact getPayment_written_self _ _

theorem directionsApart_of_stepsMeet (hok : StepsMeet serialStep Apart nothingPaid as) :
    DirectionsApart as := by
  rintro pre fault created amountMsat post s s' invoice rfl hr hcall hs
  obtain ⟨hidle, hrest⟩ := hok.drop inboundIdle_nothingPaid
    (fun t a t' hI ha hs => (hI.step ha.1 ha.2 hs).1) hr
  obtain ⟨hnow, hpost⟩ := hrest s' hs
  exact invoice_kept (hidle.step hnow.1 hnow.2 hs).1 (created_record hcall hs) hpost

theorem paysOthers_of_directionsApart (h : DirectionsApart as) (hfine : ∀ a ∈ as, a.writesGoThrough) :
    StepsMeet serialStep PaysOthers nothingPaid as := by
  rw [stepsMeet_iff]
  rintro pre a post t t' rfl hr hs
  cases a with
  | payBolt11Invoice refusal fault invoice amountMsat =>
    rintro ⟨⟨ldk', record⟩, hsend⟩ payment hg hdir
    obtain rfl : fault = none :=
      hfine (.payBolt11Invoice refusal fault invoice amountMsat) (by simp)
    obtain ⟨before, created, after, u, u', rfl, hbefore, hcreate, hafter⟩ :=
      created_of_inbound hr hg hdir
    have hkept : Always serialStep (fun t => InvoiceStored t.store invoice.paymentHash created) u'
        ((after ++ [.payBolt11Invoice refusal none invoice amountMsat]) ++ post) := by
      rw [List.append_assoc]
      exact (h before none (.ok invoice.paymentHash) created
        (after ++ .payBolt11Invoice refusal none invoice amountMsat :: post) u u' _
        (List.append_assoc _ _ _) hbefore rfl hcreate).1
    have hlater : InvoiceStored t'.store invoice.paymentHash created := by
      refine hkept.reached (t := t') ?_
      rw [run_append, hafter]
      simp [run_cons, hs]
    obtain ⟨later, hlater, hinbound, -⟩ := hlater
    obtain ⟨-, amount, rfl⟩ := sendBolt11Payment_ok hsend
    rw [serialStep, payBolt11Invoice] at hs
    simp only [hsend, addPayment_ok, Option.some.injEq] at hs
    subst hs
    rw [show (⟨invoice.paymentHash.val⟩ : PaymentId) = (outboundPayment invoice amount).paymentId
      from rfl, getPayment_written_self] at hlater
    cases hlater
    cases hinbound
  | _ => trivial

end Apart

/-- **When the two directions do not interfere.** For every run of calls to pay and to create an
invoice, handled events and attempts that end or are forgotten, with any faults of the store, in which
LDK creates invoices with new hashes: if no payment is accepted under the id of an invoice of this
node, its record stays with its amount and no event changes it. And in a run in which the store fails
no call, only so. -/
theorem directionsApart_iff (as : List SuccessFinal.Action)
    (hnew : StepsMeet serialStep HashesNew nothingPaid as) :
    (StepsMeet serialStep PaysOthers nothingPaid as → DirectionsApart as) ∧
    ((∀ a ∈ as, a.writesGoThrough) →
      (DirectionsApart as ↔ StepsMeet serialStep PaysOthers nothingPaid as)) := by
  have hsuff : StepsMeet serialStep PaysOthers nothingPaid as → DirectionsApart as :=
    fun hok => directionsApart_of_stepsMeet (hnew.and hok)
  exact ⟨hsuff, fun hfine => ⟨fun h => paysOthers_of_directionsApart h hfine, hsuff⟩⟩

/-! ### An invoice with a hash of ours -/

def createZero : SuccessFinal.Action := .createBolt11Invoice none (.ok ⟨zeroBytes⟩) (some 5000)

def otherInvoice : Bolt11Invoice where
  paymentHash := ⟨oneBytes⟩
  amountMilliSatoshis := some 1000

/-- The other invoice is paid, the payment goes through, and its event is handled. -/
def payOther : List SuccessFinal.Action :=
  [.payBolt11Invoice none none otherInvoice none, .resolve otherInvoice.paymentId zeroSent,
    .handlePayment quietHandler]

theorem directionsApart_iff_at :
    DirectionsApart (createZero :: payOther) ∧
      ∃ s, run serialStep nothingPaid (createZero :: payOther) = some s ∧
        InvoiceStored s.store ⟨zeroBytes⟩ (some 5000) ∧
        SucceededWith s.store otherInvoice.paymentId ⟨zeroBytes⟩ := by
  have hnew : StepsMeet serialStep HashesNew nothingPaid (createZero :: payOther) := by
    refine .cons rfl (fun paymentHash hcreated => ?_)
      (.cons rfl trivial (.cons rfl trivial (.cons rfl trivial trivial)))
    cases hcreated
    exact ⟨fun h => h rfl, by simp [nothingPaid, Ledger.empty], by simp [nothingPaid]⟩
  have hfree : ∀ payment, getPayment none (written ∅ (inboundPayment ⟨zeroBytes⟩ (some 5000)))
      otherInvoice.paymentId ≠ .ok payment := by
    intro payment
    rw [getPayment_written_of_ne (by decide)]
    simp
  have hother : StepsMeet serialStep PaysOthers nothingPaid (createZero :: payOther) :=
    .cons rfl trivial (.cons rfl (fun _ payment hg => absurd hg (hfree payment))
      (.cons rfl trivial (.cons rfl trivial trivial)))
  have hapart := (directionsApart_iff _ hnew).1 hother
  have hkept := (hapart [] none (.ok ⟨zeroBytes⟩) (some 5000) payOther _ _ _ rfl rfl rfl rfl).1
  exact ⟨hapart, _, rfl, hkept.last rfl,
    sentRecord (outboundPayment otherInvoice 1000) ⟨zeroBytes⟩ (some 1),
    getPayment_written_self _ _, rfl, rfl, rfl⟩

/-- **An invoice of another node with a hash of ours is paid**: the record of our invoice becomes the
record of the payment that is sent. -/
theorem not_directionsApart_hashReused :
    ∃ s, run serialStep nothingPaid [createZero, .payBolt11Invoice none none zeroInvoice none] = some s ∧
      getPayment none s.store ⟨zeroBytes⟩ = .ok (outboundPayment zeroInvoice 1000) ∧
      ¬ DirectionsApart [createZero, .payBolt11Invoice none none zeroInvoice none] := by
  have hpaid : ∃ s, run serialStep nothingPaid
      [createZero, .payBolt11Invoice none none zeroInvoice none] = some s ∧
      getPayment none s.store ⟨zeroBytes⟩ = .ok (outboundPayment zeroInvoice 1000) :=
    ⟨_, rfl, getPayment_written_self _ (outboundPayment zeroInvoice 1000)⟩
  obtain ⟨s, hr, hg⟩ := hpaid
  refine ⟨s, hr, hg, fun h => ?_⟩
  have hkept := (h [] none (.ok ⟨zeroBytes⟩) (some 5000) _ nothingPaid _ _ rfl rfl rfl rfl).1
  obtain ⟨payment, hg', hdir, -⟩ := hkept.last hr
  cases hg.symm.trans hg'
  cases hdir

end LnNode.Node.InboundKept
