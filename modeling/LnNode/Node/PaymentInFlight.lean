import LnNode.Node.Payments

/-!
# Whether a payment in flight is shown as ended

LDK stops tracking an id when it queues the event that ends an attempt, so the next attempt may be
accepted, and its record written, before that event is handled. The event then finds the record of the
next attempt. `always_pendingInFlight_iff` says when no record of a tracked id shows an end: exactly
when no event is written while its id is tracked again and the record of the new attempt is already
there.
-/

namespace LnNode.Node.PaymentInFlight

open LnNode.Storage LnNode.EventHandler LnNode.Lib.Attempts LnNode.Lib.Run LnNode.Node.Payments

/-- Calls, event handling, and attempts that end with their id untracked. -/
def Action.untracks : Action → Bool
  | .resolve _ _ untrack => untrack
  | .crash _ => false
  | _ => true

/-- The machine in which every attempt that ends is untracked at once. -/
def untrackingStep (s : PaymentsNode) (a : Action) : Option PaymentsNode :=
  if Action.untracks a then paymentsStep s a else none

/-- No call of the payment is between its halves. -/
def NoCall (s : PaymentsNode) (id : PaymentId) : Prop :=
  ∀ call ∈ s.calls, call.payment.paymentId ≠ id

/-- What `get_payment` shows of an id that LDK tracks, and for which no call is midway, is pending. -/
def PendingAt (s : PaymentsNode) (id : PaymentId) : Prop :=
  s.ldk.Tracked id → NoCall s id →
    ∀ payment, nodeGetPayment none s.store id = some payment → payment.status = .pending

def PendingInFlight (s : PaymentsNode) : Prop := ∀ id, PendingAt s id

/-- An event is not written over the record of a new attempt. -/
def WritesBeforeRecord (s : PaymentsNode) : Action → Prop
  | .write => ∀ e payment, s.background = .holding e (.update payment) →
      ¬ (s.ldk.Tracked e.id ∧ NoCall s e.id)
  | _ => True

section Steps

variable {s s' : PaymentsNode}

lemma nodeGetPayment_eq_some {store : KvStore} {id : PaymentId} {payment : Payment} :
    nodeGetPayment none store id = some payment ↔ getPayment none store id = .ok payment := by
  unfold nodeGetPayment
  cases getPayment none store id <;> simp [Except.toOption]

lemma PendingAt.congr {id : PaymentId} (h : PendingAt s id)
    (htracked : s'.ldk.Tracked id → s.ldk.Tracked id) (hcalls : NoCall s' id → NoCall s id)
    (hget : getPayment none s'.store id = getPayment none s.store id) : PendingAt s' id := by
  intro ht hc payment hg
  rw [nodeGetPayment_eq_some, hget, ← nodeGetPayment_eq_some] at hg
  exact h (htracked ht) (hcalls hc) payment hg

lemma PendingInFlight.pay {refusal : Option RetryableSendFailure} {invoice : Bolt11Invoice}
    {amountMsat : Option UInt64} (h : PendingInFlight s)
    (hs : paymentsStep s (.pay refusal invoice amountMsat) = some s') : PendingInFlight s' := by
  rcases pay_cases hs with rfl | ⟨ldk', amount, haccept, rfl⟩
  · exact h
  obtain ⟨-, hldk⟩ := Ledger.accept_eq_some haccept
  intro id
  by_cases hne : id = invoice.paymentId
  · -- the new call has yet to write
    intro _ hc
    exact absurd hne.symm (hc _ (List.mem_append_right _ (List.mem_singleton_self _)))
  · refine (h id).congr (fun ht => ?_) (fun hc call hcall => ?_) rfl
    · subst hldk
      simpa [Ledger.Tracked, hne] using ht
    · exact hc call (List.mem_append_left _ hcall)

lemma PendingInFlight.record {position : ℕ} (h : PendingInFlight s) (hwf : WellFormed s)
    (hs : paymentsStep s (.record position) = some s') : PendingInFlight s' := by
  obtain ⟨call, hpos, rfl⟩ := record_cases hs
  intro id
  by_cases hne : id = call.payment.paymentId
  · subst hne
    intro _ _ payment hg
    rw [nodeGetPayment_eq_some, getPayment_written_self] at hg
    cases hg
    exact (hwf.calls call (List.mem_of_getElem? hpos)).2.1
  · refine (h id).congr (fun ht => ht) (fun hc c hcall he => ?_) (getPayment_written_of_ne hne)
    exact hc c (mem_eraseIdx_of_ne hpos hcall (by rwa [he])) he

lemma PendingInFlight.untrack {ldk' : OutboundPayments} {paymentId : PaymentId}
    (h : PendingInFlight s)
    (hphase : ldk'.phase = Function.update s.ldk.phase paymentId .untracked) :
    PendingInFlight { s with ldk := ldk' } := by
  intro id
  by_cases hne : id = paymentId
  · intro ht
    simp [Ledger.Tracked, hphase, hne] at ht
  · refine (h id).congr (fun ht => ?_) (fun hc => hc) rfl
    simpa [Ledger.Tracked, hphase, hne] using ht

lemma PendingInFlight.write (h : PendingInFlight s) (hwf : WellFormed s)
    (hok : WritesBeforeRecord s .write) (hs : paymentsStep s .write = some s') :
    PendingInFlight s' := by
  obtain ⟨e, step, hback, hcases⟩ := write_cases hs
  have hgood := (hwf.holding e step hback).2
  have htracked : ∀ id, s.ldk.ack.Tracked id → s.ldk.Tracked id := by simp [Ledger.Tracked]
  rcases hcases with ⟨payment, rfl, rfl⟩ | ⟨rfl, rfl⟩ | ⟨rfl, rfl⟩
  · obtain ⟨payment', hupdate, hown, -⟩ := hgood.resolve_left (by simp)
    cases hupdate
    intro id
    by_cases hne : id = e.id
    · subst hne
      intro ht hc
      exact absurd ⟨htracked _ ht, hc⟩ (hok e payment hback)
    · exact (h id).congr (htracked id) (fun hc => hc)
        (getPayment_written_of_ne (by rwa [hown.paymentId]))
  · exact fun id => (h id).congr (htracked id) (fun hc => hc) rfl
  · exact h

theorem PendingInFlight.step {a : Action} (h : PendingInFlight s) (hwf : WellFormed s)
    (hok : WritesBeforeRecord s a) (hs : untrackingStep s a = some s') : PendingInFlight s' := by
  unfold untrackingStep at hs
  split_ifs at hs with huntracks
  cases a with
  | pay refusal invoice amountMsat => exact h.pay hs
  | record position => exact h.record hwf hs
  | resolve paymentId result untrack =>
    obtain rfl : untrack = true := huntracks
    obtain ⟨ldk', hres, rfl⟩ := resolve_cases hs
    obtain ⟨-, rfl⟩ := Ledger.resolve_eq_some hres
    exact h.untrack rfl
  | forget paymentId =>
    obtain ⟨ldk', hforget, rfl⟩ := forget_cases hs
    obtain ⟨-, -, rfl⟩ := Ledger.forget_eq_some hforget
    exact h.untrack rfl
  | take =>
    obtain ⟨e, rest, -, -, rfl⟩ := take_cases hs
    exact h
  | write => exact h.write hwf hok hs
  | crash acknowledged => cases huntracks

theorem writesBeforeRecord_of_pending {a : Action} (hwf : WellFormed s)
    (hs : untrackingStep s a = some s') (hp : PendingInFlight s') : WritesBeforeRecord s a := by
  unfold untrackingStep at hs
  split_ifs at hs
  cases a with
  | write =>
    rintro e payment hback ⟨ht, hc⟩
    obtain ⟨e', step, hback', hcases⟩ := write_cases hs
    obtain ⟨rfl, rfl⟩ : e = e' ∧ PaymentStep.update payment = step := by
      rw [hback] at hback'
      cases hback'
      exact ⟨rfl, rfl⟩
    obtain ⟨payment', hupdate, hown, hshown⟩ := (hwf.holding e _ hback).2.resolve_left (by simp)
    cases hupdate
    rcases hcases with ⟨payment', hupdate, rfl⟩ | ⟨hdone, -⟩ | ⟨hpanic, -⟩
    · cases hupdate
      refine not_pending_of_shown e payment hshown (hp e.id ?_ hc payment ?_)
      · simpa [Ledger.Tracked] using ht
      · rw [nodeGetPayment_eq_some, getPayment_written, if_pos hown.paymentId.symm]
    · cases hdone
    · cases hpanic
  | _ => trivial

end Steps

/-- **When a payment in flight is never shown as ended.** For every interleaving of any number of
calls with event handling, where LDK untracks an id as it queues the event: in every state reached,
every tracked id without a call midway shows pending, exactly when no event is written while its id is
tracked again with no call of it midway. -/
theorem always_pendingInFlight_iff (as : List Action) :
    Always untrackingStep PendingInFlight noPayments as ↔
      StepsMeet untrackingStep WritesBeforeRecord noPayments as := by
  refine always_iff_stepsMeet (I := fun s => WellFormed s ∧ PendingInFlight s) ?_ ?_ ?_ ?_
  · refine ⟨wellFormed_noPayments, fun id ht => absurd rfl ht⟩
  · exact fun s h => h.2
  · intro s a s' h hok hs
    refine ⟨?_, h.2.step h.1 hok hs⟩
    unfold untrackingStep at hs
    split_ifs at hs
    exact h.1.step hs
  · exact fun s a s' h hs hp => writesBeforeRecord_of_pending h.1 hs hp

/-- **The first attempt fails, the invoice is paid again, and then the failure is handled**: no call
is midway, LDK tracks the second attempt, and `get_payment` shows a failed payment. -/
theorem not_pendingInFlight_stale :
    ∃ s, run untrackingStep noPayments
        [.pay none zeroInvoice none, .record 0, .resolve zeroInvoice.paymentId (.failed 0) true,
          .pay none zeroInvoice none, .record 0, .take, .write] = some s ∧
      s.calls = [] ∧ s.ldk.Tracked zeroInvoice.paymentId ∧
      (nodeGetPayment none s.store zeroInvoice.paymentId).map Payment.status = some .failed ∧
      ¬ PendingInFlight s := by
  have hstatus : ∀ s : PaymentsNode, s.calls = [] → s.ldk.Tracked zeroInvoice.paymentId →
      (nodeGetPayment none s.store zeroInvoice.paymentId).map Payment.status = some .failed →
      ¬ PendingInFlight s := by
    intro s hcalls ht hfailed hp
    obtain ⟨payment, hg, hst⟩ := Option.map_eq_some_iff.mp hfailed
    have hpending := hp _ ht (by simp [NoCall, hcalls]) payment hg
    rw [hst] at hpending
    cases hpending
  have htracked : Phase.inFlight ≠ .untracked := by decide
  exact ⟨_, rfl, rfl, htracked, rfl, hstatus _ rfl htracked rfl⟩

end LnNode.Node.PaymentInFlight
