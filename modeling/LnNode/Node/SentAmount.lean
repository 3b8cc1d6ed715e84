import LnNode.EventHandler.LastEventWins
import LnNode.Node.PayAllOrNothing

/-!
# Whether the amount is there when a payment is sent

Calls to pay, cut at their write, calls to create an invoice, and the events of LDK. The arm of
`PaymentSent` unwraps the amount of the record under the event's id, which is that of an outbound
payment, of a payment to be received with the same hash, or none at all.

`Recorded` is the invariant: whatever LDK was ever given to pay has an amount, if it has a record.

* `neverAborts_iff`: the arm never panics exactly if LDK takes no payment whose id has a record without
  an amount.
-/

namespace LnNode.Node.SentAmount

open LnNode.Storage LnNode.EventHandler LnNode.EventHandler.LastEventWins LnNode.Lib.Attempts
  LnNode.Lib.Run LnNode.Node.Payments LnNode.Node.PayAllOrNothing

/-! ### The machine -/

inductive Action where
  | payments (a : Payments.Action)
  | createBolt11Invoice (fault : Fault) (created : Except SignOrCreationError PaymentHash)
      (amountMsat : Option UInt64)
  /-- The call at this position fails to write its record. -/
  | recordFails (position : ℕ)
  /-- The read of an arm fails. -/
  | takeFails (err : IoError)
  /-- The write of an arm fails. -/
  | writeFails (err : IoError)

def nodeStep (s : PaymentsNode) : Action → Option PaymentsNode
  | .payments a => paymentsStep s a
  | .createBolt11Invoice fault created amountMsat =>
    some { s with store := (createBolt11Invoice fault created s.store amountMsat).1 }
  | .recordFails position =>
    match s.calls[position]? with
    | none => none
    | some _ => some { s with calls := s.calls.eraseIdx position }
  | .takeFails err =>
    match s.background, s.ldk.queue with
    | .idle, e :: _ =>
      some { s with background := .holding e ((paymentEvent e).read true (some err) s.store) }
    | _, _ => none
  | .writeFails err =>
    match s.background with
    | .holding e step =>
      match writePayment (some err) s.store step with
      | (.ok, store') =>
        some { s with ldk := s.ldk.ack, store := store', background := .idle, lost := s.lost ++ [e] }
      | (_, store') => some { s with store := store', background := .dead }
    | _ => none

/-! ### What is never to happen -/

def isSent : PaymentResult → Prop
  | .sent _ _ => True
  | .failed _ => False

/-- LDK may emit a `PaymentSent` of the id: for an attempt in flight, or again. -/
def MayBeSent (ldk : OutboundPayments) (id : PaymentId) : Prop :=
  ldk.phase id = .inFlight ∨ ∃ e ∈ ldk.log, e.id = id ∧ isSent e.result

/-- Whatever `PaymentSent` comes next, the record that its arm reads has an amount; and no arm has
panicked. -/
structure NeverAborts (s : PaymentsNode) : Prop where
  amounts : ∀ id, MayBeSent s.ldk id →
    ∀ payment, getPayment none s.store id = .ok payment → payment.amountMsat.isSome
  step : ∀ e, s.background ≠ .holding e .panic
  alive : s.background ≠ .dead

/-- No payment is taken under the id of a record without an amount. -/
def PaysWithAmount (s : PaymentsNode) : Action → Prop
  | .payments (.pay refusal invoice amountMsat) =>
    LdkTakes refusal s.ldk invoice amountMsat → ¬ LacksAmount s.store invoice.paymentId
  | _ => True

/-- What LDK does for an invoice without a hash of the caller: it makes a new one, which is not that
of a payment it was given before. -/
def MakesNewHash (s : PaymentsNode) : Action → Prop
  | .createBolt11Invoice _ created _ =>
    ∀ paymentHash, created = .ok paymentHash → s.ldk.attempts ⟨paymentHash.val⟩ = 0
  | _ => True

/-! ### What every step keeps -/

def Given (ldk : OutboundPayments) (id : PaymentId) : Prop := 0 < ldk.attempts id

structure Recorded (s : PaymentsNode) : Prop where
  flight : ∀ id, s.ldk.phase id = .inFlight → Given s.ldk id
  log : ∀ e ∈ s.ldk.log, Given s.ldk e.id
  amounts : ∀ id, Given s.ldk id → ¬ LacksAmount s.store id
  calls : ∀ call ∈ s.calls, call.payment.amountMsat.isSome
  holding : ∀ e step, s.background = .holding e step →
    step = .done ∨ ∃ payment, step = .update payment ∧ payment.amountMsat.isSome
  alive : s.background ≠ .dead

section Steps

variable {s s' : PaymentsNode} {ldk' : OutboundPayments} {store : KvStore} {payment : Payment}
  {id : PaymentId}

lemma MayBeSent.given (h : Recorded s) (hsent : MayBeSent s.ldk id) : Given s.ldk id := by
  rcases hsent with hflight | ⟨e, he, rfl, -⟩
  · exact h.flight id hflight
  · exact h.log e he

lemma Recorded.neverAborts (h : Recorded s) : NeverAborts s := by
  refine ⟨fun id hsent payment hget => ?_, fun e hback => ?_, h.alive⟩
  · cases hsome : payment.amountMsat with
    | some amount => rfl
    | none => exact absurd ⟨payment, hget, hsome⟩ (h.amounts id (hsent.given h))
  · rcases h.holding e _ hback with hdone | ⟨payment, hupdate, -⟩
    · cases hdone
    · cases hupdate

lemma lacksAmount_written (hlacks : LacksAmount (written store payment) id) :
    id = payment.paymentId ∧ payment.amountMsat = none ∨ LacksAmount store id := by
  obtain ⟨found, hget, hnone⟩ := hlacks
  rw [getPayment_written] at hget
  split_ifs at hget with hid
  · cases hget
    exact Or.inl ⟨hid, hnone⟩
  · exact Or.inr ⟨found, hget, hnone⟩

/-- A record with an amount may be written under any id, one without under an id that LDK was never
given. -/
lemma Recorded.written (h : Recorded s)
    (hp : payment.amountMsat.isSome ∨ ¬ Given s.ldk payment.paymentId) :
    Recorded { s with store := written s.store payment } := by
  refine ⟨h.flight, h.log, fun id hgiven hlacks => ?_, h.calls, h.holding, h.alive⟩
  rcases lacksAmount_written hlacks with ⟨rfl, hnone⟩ | hlacks
  · rcases hp with hsome | hnew
    · rw [hnone] at hsome
      cases hsome
    · exact hnew hgiven
  · exact h.amounts id hgiven hlacks

/-- LDK ends attempts, forgets them and takes acknowledgements, but is given nothing. -/
lemma Recorded.ldk (h : Recorded s) (hattempts : ldk'.attempts = s.ldk.attempts)
    (hflight : ∀ id, ldk'.phase id = .inFlight → s.ldk.phase id = .inFlight)
    (hlog : ∀ e ∈ ldk'.log, e ∈ s.ldk.log ∨ s.ldk.phase e.id = .inFlight) :
    Recorded { s with ldk := ldk' } := by
  have hgiven : ∀ id, Given ldk' id ↔ Given s.ldk id := by simp [Given, hattempts]
  refine ⟨fun id hid => ?_, fun e he => ?_, fun id hid => ?_, h.calls, h.holding, h.alive⟩
  · exact (hgiven id).mpr (h.flight id (hflight id hid))
  · rcases hlog e he with he | he
    · exact (hgiven e.id).mpr (h.log e he)
    · exact (hgiven e.id).mpr (h.flight e.id he)
  · exact h.amounts id ((hgiven id).mp hid)

lemma Recorded.ack (h : Recorded s) : Recorded { s with ldk := s.ldk.ack } :=
  h.ldk Ledger.attempts_ack (by simp) fun e he => Or.inl (by simpa using he)

lemma Recorded.background (h : Recorded s) {background : Background} (halive : background ≠ .dead)
    (hstep : ∀ e step, background = .holding e step →
      step = .done ∨ ∃ payment, step = .update payment ∧ payment.amountMsat.isSome) :
    Recorded { s with background } :=
  ⟨h.flight, h.log, h.amounts, h.calls, hstep, halive⟩

lemma Recorded.idle (h : Recorded s) : Recorded { s with background := .idle } :=
  h.background (by simp) (by simp)

lemma Recorded.lost (h : Recorded s) {lost : List QueuedEvent} : Recorded { s with lost } :=
  ⟨h.flight, h.log, h.amounts, h.calls, h.holding, h.alive⟩

lemma Recorded.eraseIdx (h : Recorded s) (position : ℕ) :
    Recorded { s with calls := s.calls.eraseIdx position } :=
  ⟨h.flight, h.log, h.amounts, fun call hcall => h.calls call (List.mem_of_mem_eraseIdx hcall),
    h.holding, h.alive⟩

/-- **A payment that LDK takes** is under an id whose record, if there is one, has an amount. -/
lemma Recorded.pay {refusal : Option RetryableSendFailure} {invoice : Bolt11Invoice}
    {amountMsat : Option UInt64} (h : Recorded s)
    (hok : LdkTakes refusal s.ldk invoice amountMsat → ¬ LacksAmount s.store invoice.paymentId)
    (hs : paymentsStep s (.pay refusal invoice amountMsat) = some s') : Recorded s' := by
  by_cases htakes : LdkTakes refusal s.ldk invoice amountMsat
  · obtain ⟨ldk', amount, haccept, -, hsend⟩ := sendBolt11Payment_of_ldkTakes htakes
    rw [paymentsStep, hsend] at hs
    obtain rfl := Option.some.inj hs
    have hgiven : ∀ id, Given ldk' id → id = invoice.paymentId ∨ Given s.ldk id := by
      intro id hid
      by_cases hne : id = invoice.paymentId
      · exact Or.inl hne
      · obtain ⟨-, rfl⟩ := Ledger.accept_eq_some haccept
        exact Or.inr (by simpa [Given, hne] using hid)
    have hkeeps : ∀ id, Given s.ldk id → Given ldk' id := fun id hid =>
      hid.trans_le (Ledger.accept_attempts_le haccept id)
    refine ⟨fun id hid => ?_, fun e he => ?_, fun id hid => ?_, fun call hcall => ?_, h.holding,
      h.alive⟩
    · by_cases hne : id = invoice.paymentId
      · rw [hne, Given, Ledger.accept_attempts_self haccept]
        omega
      · refine hkeeps id (h.flight id ?_)
        obtain ⟨-, rfl⟩ := Ledger.accept_eq_some haccept
        simpa [hne] using hid
    · refine hkeeps e.id (h.log e ?_)
      obtain ⟨-, rfl⟩ := Ledger.accept_eq_some haccept
      exact he
    · rcases hgiven id hid with rfl | hid
      · exact hok htakes
      · exact h.amounts id hid
    · rcases List.mem_append.mp hcall with hcall | hcall
      · exact h.calls call hcall
      · rw [List.mem_singleton.mp hcall]
        rfl
  · obtain ⟨err, hsend⟩ := sendBolt11Payment_of_not_ldkTakes htakes
    rw [paymentsStep, hsend] at hs
    obtain rfl := Option.some.inj hs
    exact h

/-- **The read of an arm**: the record of an id that LDK was given has an amount. -/
lemma Recorded.take {e : QueuedEvent} {rest : List QueuedEvent} {fault : Fault} (h : Recorded s)
    (hqueue : s.ldk.queue = e :: rest) :
    Recorded { s with background := .holding e ((paymentEvent e).read true fault s.store) } := by
  refine h.background (by simp) fun e' step hback => ?_
  cases hback
  cases hg : getPayment fault s.store e.id with
  | error err =>
    rw [PaymentEvent.read_error (paymentEvent_paymentId e) (paymentEvent_readsStore e) hg]
    exact Or.inl rfl
  | ok payment =>
    have hmem : e ∈ s.ldk.log := List.mem_append_right _ (by simp [hqueue])
    have hsome : payment.amountMsat.isSome = true := by
      cases hamount : payment.amountMsat with
      | some amount => rfl
      | none =>
        exact absurd ⟨payment, getPayment_none_of_ok hg, hamount⟩ (h.amounts e.id (h.log e hmem))
    rw [PaymentEvent.read_ok (paymentEvent_paymentId e) (paymentEvent_readsStore e) hg,
      paymentEvent_fieldsPresent e payment hsome]
    exact Or.inr ⟨_, rfl, by simpa using hsome⟩

lemma Recorded.payments {a : Payments.Action} (h : Recorded s)
    (hok : PaysWithAmount s (.payments a)) (hs : paymentsStep s a = some s') : Recorded s' := by
  cases a with
  | pay refusal invoice amountMsat => exact h.pay hok hs
  | record position =>
    obtain ⟨call, hcall, rfl⟩ := record_cases hs
    have hsome := h.calls call (List.mem_of_getElem? hcall)
    exact (h.written (Or.inl hsome)).eraseIdx position
  | resolve paymentId result untrack =>
    obtain ⟨ldk', hres, rfl⟩ := resolve_cases hs
    obtain ⟨hflight, rfl⟩ := Ledger.resolve_eq_some hres
    refine h.ldk rfl (fun id hid => ?_) fun e he => ?_
    · by_cases hne : id = paymentId
      · rw [hne]
        exact hflight
      · simpa [hne] using hid
    · rw [Ledger.log, ← List.append_assoc] at he
      rcases List.mem_append.mp he with he | he
      · exact Or.inl he
      · rw [List.mem_singleton.mp he]
        exact Or.inr hflight
  | forget paymentId =>
    obtain ⟨ldk', hforget, rfl⟩ := forget_cases hs
    obtain ⟨-, -, rfl⟩ := Ledger.forget_eq_some hforget
    refine h.ldk rfl (fun id hid => ?_) fun e he => Or.inl he
    by_cases hne : id = paymentId
    · simp [hne] at hid
    · simpa [hne] using hid
  | take =>
    obtain ⟨e, rest, -, hqueue, rfl⟩ := take_cases hs
    exact h.take hqueue
  | write =>
    obtain ⟨e, step, hback, hcases⟩ := write_cases hs
    have hstep := h.holding e step hback
    rcases hcases with ⟨payment, rfl, rfl⟩ | ⟨rfl, rfl⟩ | ⟨rfl, rfl⟩
    · obtain ⟨payment', hupdate, hsome⟩ := hstep.resolve_left (by simp)
      cases hupdate
      exact (h.written (Or.inl hsome)).ack.idle
    · exact h.ack.idle.lost
    · rcases hstep with hdone | ⟨payment, hupdate, -⟩
      · cases hdone
      · cases hupdate
  | crash acknowledged =>
    obtain rfl := crash_cases hs
    have hldk : Recorded { s with ldk := s.ldk.rewind acknowledged } :=
      h.ldk rfl (by simp) fun e he => Or.inl (by simpa using he)
    exact ⟨hldk.flight, hldk.log, hldk.amounts, by simp, by simp, by simp⟩

theorem Recorded.step {a : Action} (h : Recorded s) (hnew : MakesNewHash s a)
    (hok : PaysWithAmount s a) (hs : nodeStep s a = some s') : Recorded s' := by
  cases a with
  | payments a => exact h.payments hok hs
  | createBolt11Invoice fault created amountMsat =>
    obtain rfl := Option.some.inj hs
    rcases created with (_ | ce) | paymentHash
    · exact h
    · exact h
    · cases fault with
      | some err => exact h
      | none =>
        refine h.written (Or.inr ?_)
        show ¬ 0 < s.ldk.attempts ⟨paymentHash.val⟩
        rw [hnew paymentHash rfl]
        exact lt_irrefl 0
  | recordFails position =>
    rw [nodeStep] at hs
    split at hs
    · cases hs
    · obtain rfl := Option.some.inj hs
      exact h.eraseIdx position
  | takeFails err =>
    rw [nodeStep] at hs
    split at hs
    · rename_i e rest hidle hqueue
      obtain rfl := Option.some.inj hs
      exact h.take hqueue
    · cases hs
  | writeFails err =>
    rw [nodeStep] at hs
    split at hs
    · rename_i e step hback
      rcases h.holding e step hback with rfl | ⟨payment, rfl, hsome⟩
      · obtain rfl := Option.some.inj hs
        exact h.ack.idle.lost
      · obtain rfl := Option.some.inj hs
        exact h.ack.idle.lost
    · cases hs

/-- **A payment under the id of a record without an amount** may be sent at once. -/
lemma paysWithAmount_of_neverAborts {a : Action} (hs : nodeStep s a = some s') (h : NeverAborts s') :
    PaysWithAmount s a := by
  match a with
  | .payments (.pay refusal invoice amountMsat) =>
    rintro htakes ⟨payment, hget, hnone⟩
    obtain ⟨ldk', amount, haccept, -, hsend⟩ := sendBolt11Payment_of_ldkTakes htakes
    rw [nodeStep, paymentsStep, hsend] at hs
    obtain rfl := Option.some.inj hs
    obtain ⟨-, rfl⟩ := Ledger.accept_eq_some haccept
    have hsome := h.amounts invoice.paymentId (Or.inl (by simp)) payment hget
    rw [hnone] at hsome
    cases hsome
  | .payments (.record _) | .payments (.resolve _ _ _) | .payments (.forget _) | .payments .take
  | .payments .write | .payments (.crash _) | .createBolt11Invoice _ _ _ | .recordFails _
  | .takeFails _ | .writeFails _ => trivial

end Steps

lemma recorded_noPayments : Recorded noPayments where
  flight := by simp [noPayments, Ledger.empty]
  log := by simp [noPayments, Ledger.empty, Ledger.log]
  amounts := by simp [noPayments, Ledger.empty, Given]
  calls := by simp [noPayments]
  holding := by simp [noPayments]
  alive := by simp [noPayments]

/-- **When the arm of `PaymentSent` never panics.** For every interleaving of calls to pay and to
create an invoice with the events of LDK, where LDK makes new hashes for new invoices. -/
theorem neverAborts_iff (as : List Action) (hnew : StepsMeet nodeStep MakesNewHash noPayments as) :
    Always nodeStep NeverAborts noPayments as ↔
      StepsMeet nodeStep PaysWithAmount noPayments as :=
  always_iff_stepsMeet_of hnew recorded_noPayments (fun _ h => h.neverAborts)
    (fun _ _ _ h hg hok hs => h.step hg hok hs)
    fun _ _ _ _ hs h => paysWithAmount_of_neverAborts hs h

/-! ### An invoice for any amount, and a payment with its hash -/

/-- An invoice with an amount is made. A payment with its hash is then sent. -/
def madeAndPaid (amountMsat : Option UInt64) : List Action :=
  [.createBolt11Invoice none (.ok ⟨zeroBytes⟩) amountMsat, .payments (.pay none zeroInvoice none),
    .payments (.resolve zeroInvoice.paymentId zeroSent false), .payments .take, .payments .write]

lemma makesNewHash_madeAndPaid (amountMsat : Option UInt64) :
    StepsMeet nodeStep MakesNewHash noPayments (madeAndPaid amountMsat) := by
  refine fun _ _ => ⟨fun _ _ => rfl, ?_⟩
  exact fun _ _ => ⟨trivial, fun _ _ => ⟨trivial, fun _ _ => ⟨trivial, fun _ _ => ⟨trivial, trivial⟩⟩⟩⟩

theorem neverAborts_iff_at : Always nodeStep NeverAborts noPayments (madeAndPaid (some 1)) := by
  refine (neverAborts_iff _ (makesNewHash_madeAndPaid _)).mpr ?_
  refine .cons rfl trivial (.cons rfl ?_ (.cons rfl trivial (.cons rfl trivial
    (.cons rfl trivial trivial))))
  rintro - ⟨payment, hget, hnone⟩
  obtain rfl : inboundPayment ⟨zeroBytes⟩ (some 1) = payment := by
    exact Except.ok.inj ((getPayment_written_self ∅ (inboundPayment _ _)).symm.trans hget)
  cases hnone

/-- **The payment is sent before its record is written**: the arm reads the record of the invoice,
which is for any amount, and panics. -/
theorem not_neverAborts_anyAmount :
    StepsMeet nodeStep MakesNewHash noPayments (madeAndPaid none) ∧
    (∃ s, run nodeStep noPayments (madeAndPaid none) = some s ∧ s.background = .dead) ∧
    ¬ Always nodeStep NeverAborts noPayments (madeAndPaid none) := by
  have hdead : ∃ s, run nodeStep noPayments (madeAndPaid none) = some s ∧ s.background = .dead :=
    ⟨_, rfl, rfl⟩
  refine ⟨makesNewHash_madeAndPaid none, hdead, fun halways => ?_⟩
  obtain ⟨s, hrun, hback⟩ := hdead
  exact (halways.last hrun).alive hback

end LnNode.Node.SentAmount
