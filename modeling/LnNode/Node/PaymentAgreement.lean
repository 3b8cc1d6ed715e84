import LnNode.Node.Payments

/-!
# Whether records and LDK's ledger agree

In a quiescent state (no call between its halves, the background task idle, the queue empty) every
payment that LDK ever accepted should have an outbound record that shows its last event.

`Accounted` is the invariant. A call between its halves is ahead of every acknowledged event of its
id, so that an id whose record is still to be written has an event waiting; and an id with nothing
waiting and no call shows its last event. `OrderedStep` is what a step must meet for it: an event is
delivered to a record, no call that is as old as the event is still to write, and a crash loses no
first record.
-/

namespace LnNode.Node.PaymentAgreement

open LnNode.Storage LnNode.EventHandler LnNode.Lib.Attempts LnNode.Lib.Run LnNode.Node.Payments

def HasRecord (store : KvStore) (id : PaymentId) : Prop :=
  ∃ payment, getPayment none store id = .ok payment

/-- The record of an id shows its last event. -/
def ShowsLastEvent (s : PaymentsNode) (id : PaymentId) : Prop :=
  ∃ e payment, s.ldk.lastEvent id = some e ∧ getPayment none s.store id = .ok payment ∧
    (paymentEvent e).Shown payment

def Quiescent (s : PaymentsNode) : Prop :=
  s.calls = [] ∧ s.background = .idle ∧ s.ldk.queue = []

/-- In a quiescent state every accepted id has an outbound record, which shows its last event unless
the id is in flight again; and no event was lost. -/
def AgreesWhenQuiescent (s : PaymentsNode) : Prop :=
  Quiescent s →
    (∀ id, 0 < s.ldk.attempts id →
      (∃ payment, getPayment none s.store id = .ok payment ∧ payment.direction = .outbound) ∧
      (s.ldk.phase id ≠ .inFlight → ShowsLastEvent s id)) ∧
    s.lost = []

/-- The order in which records and events must be written. -/
def OrderedStep (s : PaymentsNode) : Action → Prop
  | .take => ∀ e rest, s.ldk.queue = e :: rest → HasRecord s.store e.id
  | .write => ∀ e step, s.background = .holding e step →
      ∀ call ∈ s.calls, call.payment.paymentId = e.id → e.attempt < call.attempt
  | .crash _ => ∀ call ∈ s.calls, HasRecord s.store call.payment.paymentId
  | _ => True

/-! ### The invariant -/

structure Accounted (s : PaymentsNode) : Prop where
  wellFormed : WellFormed s
  known : ∀ id, 0 < s.ldk.attempts id →
    HasRecord s.store id ∨ ∃ call ∈ s.calls, call.payment.paymentId = id
  ahead : ∀ call ∈ s.calls, ∀ e ∈ s.ldk.acked, e.id = call.payment.paymentId →
    e.attempt < call.attempt
  shown : ∀ id, 0 < s.ldk.attempts id → s.ldk.phase id ≠ .inFlight →
    (∀ e ∈ s.ldk.queue, e.id ≠ id) → (∀ call ∈ s.calls, call.payment.paymentId ≠ id) →
    ShowsLastEvent s id
  found : ∀ e step, s.background = .holding e step → step ≠ .done
  lost : s.lost = []

section Accounted

variable {s s' : PaymentsNode} {store : KvStore} {id : PaymentId}

lemma hasRecord_written (payment : Payment) (h : HasRecord store id) :
    HasRecord (written store payment) id := by
  obtain ⟨payment', hg⟩ := h
  by_cases hid : id = payment.paymentId
  · exact ⟨payment, by rw [getPayment_written, if_pos hid]⟩
  · exact ⟨payment', by rw [getPayment_written_of_ne hid, hg]⟩

lemma hasRecord_written_self (payment : Payment) :
    HasRecord (written store payment) payment.paymentId :=
  ⟨payment, getPayment_written_self store payment⟩

lemma ShowsLastEvent.congr (h : ShowsLastEvent s id)
    (hlast : s'.ldk.lastEvent id = s.ldk.lastEvent id)
    (hget : getPayment none s'.store id = getPayment none s.store id) : ShowsLastEvent s' id := by
  obtain ⟨e, payment, hl, hg, hs⟩ := h
  exact ⟨e, payment, by rw [hlast, hl], by rw [hget, hg], hs⟩

/-- A call whose payment is not in flight any more has its event waiting. -/
lemma Accounted.waits (h : Accounted s) {call : PayCall} (hcall : call ∈ s.calls)
    (hphase : s.ldk.phase call.payment.paymentId ≠ .inFlight) :
    ∃ e ∈ s.ldk.queue, e.id = call.payment.paymentId := by
  obtain ⟨-, -, hpos, hle⟩ := h.wellFormed.calls call hcall
  obtain ⟨e, he, hid, hattempt⟩ := h.wellFormed.ldk.settled _ (by omega) hphase
  rcases List.mem_append.mp he with hacked | hqueue
  · have := h.ahead call hcall e hacked hid
    omega
  · exact ⟨e, hqueue, hid⟩

lemma Accounted.pay {refusal : Option RetryableSendFailure} {invoice : Bolt11Invoice}
    {amountMsat : Option UInt64} (h : Accounted s)
    (hs : paymentsStep s (.pay refusal invoice amountMsat) = some s') : Accounted s' := by
  have hwf := h.wellFormed.step hs
  rcases pay_cases hs with rfl | ⟨ldk', amount, haccept, rfl⟩
  · exact h
  have hself := Ledger.accept_attempts_self haccept
  obtain ⟨-, hldk⟩ := Ledger.accept_eq_some haccept
  refine ⟨hwf, fun id hid => ?_, fun call hcall e he heid => ?_, fun id hid hphase hqueue hcalls => ?_,
    h.found, h.lost⟩
  · by_cases hne : id = invoice.paymentId
    · right
      exact ⟨_, List.mem_append_right _ (List.mem_singleton_self _), hne.symm⟩
    · subst hldk
      simp only [Function.update_of_ne hne] at hid
      rcases h.known id hid with hrec | ⟨call, hcall, hc⟩
      · left
        exact hrec
      · right
        exact ⟨call, List.mem_append_left _ hcall, hc⟩
  · have hacked : e ∈ s.ldk.acked := by
      subst hldk
      exact he
    rcases List.mem_append.mp hcall with hcall | hcall
    · exact h.ahead call hcall e hacked heid
    · have hle := h.wellFormed.ldk.attempt_le e (List.mem_append_left _ hacked)
      rw [List.mem_singleton.mp hcall] at heid ⊢
      rw [heid] at hle
      simp only [hself]
      exact Nat.lt_succ_of_le hle
  · by_cases hne : id = invoice.paymentId
    · exact absurd (hcalls _ (List.mem_append_right _ (List.mem_singleton_self _)))
        (by simp [outboundPayment, hne])
    · subst hldk
      simp only [Function.update_of_ne hne] at hid hphase
      exact (h.shown id hid hphase hqueue fun call hcall =>
        hcalls call (List.mem_append_left _ hcall)).congr rfl rfl

lemma Accounted.record {position : ℕ} (h : Accounted s)
    (hs : paymentsStep s (.record position) = some s') : Accounted s' := by
  have hwf := h.wellFormed.step hs
  obtain ⟨call, hpos, rfl⟩ := record_cases hs
  have hcall := List.mem_of_getElem? hpos
  refine ⟨hwf, fun id hid => ?_, fun c hc => h.ahead c (List.mem_of_mem_eraseIdx hc),
    fun id hid hphase hqueue hcalls => ?_, h.found, h.lost⟩
  · by_cases hne : id = call.payment.paymentId
    · left
      rw [hne]
      exact hasRecord_written_self _
    · rcases h.known id hid with hrec | ⟨c, hc, hcid⟩
      · left
        exact hasRecord_written _ hrec
      · right
        exact ⟨c, mem_eraseIdx_of_ne hpos hc (by rwa [hcid]), hcid⟩
  · by_cases hne : id = call.payment.paymentId
    · -- the record that was just written waits for its event
      subst hne
      obtain ⟨e, he, heid⟩ := h.waits hcall hphase
      exact absurd heid (hqueue e he)
    · refine (h.shown id hid hphase hqueue fun c hc hcid => ?_).congr rfl
        (getPayment_written_of_ne hne)
      exact hcalls c (mem_eraseIdx_of_ne hpos hc (by rwa [hcid])) hcid

lemma Accounted.resolve {paymentId : PaymentId} {result : PaymentResult} {untrack : Bool}
    (h : Accounted s) (hs : paymentsStep s (.resolve paymentId result untrack) = some s') :
    Accounted s' := by
  have hwf := h.wellFormed.step hs
  obtain ⟨ldk', hres, rfl⟩ := resolve_cases hs
  obtain ⟨-, rfl⟩ := Ledger.resolve_eq_some hres
  refine ⟨hwf, h.known, h.ahead, fun id hid hphase hqueue hcalls => ?_, h.found, h.lost⟩
  have hne : id ≠ paymentId := fun he => hqueue _ (List.mem_append_right _
    (List.mem_singleton_self _)) he.symm
  simp only [Function.update_of_ne hne] at hphase
  refine (h.shown id hid hphase (fun e he => hqueue e (List.mem_append_left _ he)) hcalls).congr
    (Ledger.lastEvent_append_of_ne (e := ⟨paymentId, s.ldk.attempts paymentId, result⟩) ?_ hne.symm) rfl
  simp [Ledger.log]

lemma Accounted.forget {paymentId : PaymentId} (h : Accounted s)
    (hs : paymentsStep s (.forget paymentId) = some s') : Accounted s' := by
  have hwf := h.wellFormed.step hs
  obtain ⟨ldk', hforget, rfl⟩ := forget_cases hs
  obtain ⟨hresolved, -, rfl⟩ := Ledger.forget_eq_some hforget
  refine ⟨hwf, h.known, h.ahead, fun id hid hphase hqueue hcalls => ?_, h.found, h.lost⟩
  have hphase' : s.ldk.phase id ≠ .inFlight := by
    by_cases hne : id = paymentId
    · rw [hne, hresolved]
      decide
    · simpa [hne] using hphase
  exact (h.shown id hid hphase' hqueue hcalls).congr rfl rfl

lemma Accounted.take (h : Accounted s) (hok : OrderedStep s .take)
    (hs : paymentsStep s .take = some s') : Accounted s' := by
  have hwf := h.wellFormed.step hs
  obtain ⟨e, rest, -, hqueue, rfl⟩ := take_cases hs
  refine ⟨hwf, h.known, h.ahead, fun id hid hphase hq hcalls =>
    (h.shown id hid hphase hq hcalls).congr rfl rfl, fun e' step hback => ?_, h.lost⟩
  cases hback
  obtain ⟨payment, hg⟩ := hok e rest hqueue
  rcases h.wellFormed.read_cases e with ⟨_, -, hread⟩ | ⟨hnone, -⟩
  · rw [hread]
    simp
  · exact absurd hg (hnone payment)

lemma Accounted.write (h : Accounted s) (hok : OrderedStep s .write)
    (hs : paymentsStep s .write = some s') : Accounted s' := by
  have hwf := h.wellFormed.step hs
  obtain ⟨e, step, hback, hcases⟩ := write_cases hs
  obtain ⟨⟨rest, hqueue⟩, hgood⟩ := h.wellFormed.holding e step hback
  obtain ⟨payment, rfl, hown, hshown⟩ := hgood.resolve_left (h.found e step hback)
  rcases hcases with ⟨payment', hupdate, rfl⟩ | ⟨hdone, -⟩ | ⟨hpanic, -⟩
  · cases hupdate
    have hack := Ledger.ack_of_queue hqueue
    refine ⟨hwf, fun id hid => ?_, fun call hcall e' he' heid => ?_,
      fun id hid hphase hq hcalls => ?_, by simp, h.lost⟩
    · simp only [Ledger.attempts_ack] at hid
      rcases h.known id hid with hrec | hcall
      · left
        exact hasRecord_written _ hrec
      · right
        exact hcall
    · simp only [hack] at he'
      rcases List.mem_append.mp he' with he' | he'
      · exact h.ahead call hcall e' he' heid
      · rw [List.mem_singleton.mp he'] at heid ⊢
        exact hok e _ hback call hcall heid.symm
    · simp only [Ledger.attempts_ack] at hid
      simp only [Ledger.phase_ack] at hphase
      simp only [hack] at hq
      by_cases hne : id = e.id
      · -- nothing of the id waits behind the event that was just written
        subst hne
        refine ⟨e, payment, ?_, ?_, hshown⟩
        · rw [Ledger.lastEvent_congr Ledger.log_ack]
          exact Ledger.lastEvent_head hqueue hq
        · rw [getPayment_written, if_pos hown.paymentId.symm]
      · refine (h.shown id hid hphase (fun e' he' => ?_) hcalls).congr
          (Ledger.lastEvent_congr Ledger.log_ack)
          (getPayment_written_of_ne (by rwa [hown.paymentId]))
        rw [hqueue] at he'
        rcases List.mem_cons.mp he' with rfl | he'
        · exact fun he => hne he.symm
        · exact hq e' he'
  · cases hdone
  · cases hpanic

lemma Accounted.crash {acknowledged : ℕ} (h : Accounted s)
    (hok : OrderedStep s (.crash acknowledged))
    (hs : paymentsStep s (.crash acknowledged) = some s') : Accounted s' := by
  have hwf := h.wellFormed.step hs
  obtain rfl := crash_cases hs
  refine ⟨hwf, fun id hid => ?_, by simp, fun id hid hphase hqueue _ => ?_, by simp, h.lost⟩
  · left
    rcases h.known id hid with hrec | ⟨call, hcall, rfl⟩
    · exact hrec
    · exact hok call hcall
  · have hqueue' : ∀ e ∈ s.ldk.queue, e.id ≠ id := fun e he =>
      hqueue e (Ledger.mem_queue_rewind he)
    refine (h.shown id hid hphase hqueue' fun call hcall hcid => ?_).congr
      (Ledger.lastEvent_congr Ledger.log_rewind) rfl
    subst hcid
    obtain ⟨e, he, heid⟩ := h.waits hcall hphase
    exact hqueue' e he heid

theorem Accounted.step {a : Action} (h : Accounted s) (hok : OrderedStep s a)
    (hs : paymentsStep s a = some s') : Accounted s' := by
  cases a with
  | pay refusal invoice amountMsat => exact h.pay hs
  | record position => exact h.record hs
  | resolve paymentId result untrack => exact h.resolve hs
  | forget paymentId => exact h.forget hs
  | take => exact h.take hok hs
  | write => exact h.write hok hs
  | crash acknowledged => exact h.crash hok hs

lemma Accounted.agrees (h : Accounted s) : AgreesWhenQuiescent s := by
  rintro ⟨hcalls, -, hqueue⟩
  refine ⟨fun id hid => ⟨?_, fun hphase => ?_⟩, h.lost⟩
  · rcases h.known id hid with ⟨payment, hg⟩ | ⟨call, hcall, -⟩
    · exact ⟨payment, hg, (h.wellFormed.stored id payment hg).direction⟩
    · simp [hcalls] at hcall
  · exact h.shown id hid hphase (by simp [hqueue]) (by simp [hcalls])

lemma accounted_noPayments : Accounted noPayments where
  wellFormed := wellFormed_noPayments
  known id hid := absurd hid (by simp [noPayments, Ledger.empty])
  ahead := by simp [noPayments]
  shown id hid := absurd hid (by simp [noPayments, Ledger.empty])
  found := by simp [noPayments]
  lost := rfl

end Accounted

/-- **When records and events agree.** For every interleaving of the halves of any number of calls
with the halves of event handling, LDK ending and forgetting attempts, and crashes at any point: if
every step is in order, every quiescent state agrees. -/
theorem always_agreesWhenQuiescent (as : List Action)
    (hok : StepsMeet paymentsStep OrderedStep noPayments as) :
    Always paymentsStep AgreesWhenQuiescent noPayments as :=
  (hok.always accounted_noPayments fun _ _ _ hI hk hs => hI.step hk hs).imp fun _ h => h.agrees

theorem always_agreesWhenQuiescent_at :
    Always paymentsStep AgreesWhenQuiescent noPayments
      [.pay none zeroInvoice none, .record 0, .resolve zeroInvoice.paymentId zeroSent false, .take,
        .write] := by
  refine always_agreesWhenQuiescent _ ?_
  refine .cons rfl trivial (.cons rfl trivial (.cons rfl trivial ?_))
  rintro _ ⟨⟩
  refine ⟨fun e rest hqueue => ?_, fun s _ => ⟨fun e step hback call hcall => ?_, trivial⟩⟩
  · cases hqueue
    exact hasRecord_written_self _
  · cases hcall

/-- **The event comes before the record**: it finds no record and is lost, and the record that is then
written stays pending although nothing is in flight. -/
theorem not_agreesWhenQuiescent_early :
    ∃ s, run paymentsStep noPayments
        [.pay none zeroInvoice none, .resolve zeroInvoice.paymentId zeroSent false, .take, .write,
          .record 0] = some s ∧
      Quiescent s ∧ s.ldk.phase zeroInvoice.paymentId = .resolved ∧
      getPayment none s.store zeroInvoice.paymentId = .ok (outboundPayment zeroInvoice 1000) ∧
      ¬ AgreesWhenQuiescent s := by
  have hget := getPayment_written_self ∅ (outboundPayment zeroInvoice 1000)
  refine ⟨_, rfl, ⟨rfl, rfl, rfl⟩, rfl, hget, fun h => ?_⟩
  obtain ⟨e, payment, -, hg, hshown⟩ :=
    ((h ⟨rfl, rfl, rfl⟩).1 zeroInvoice.paymentId (by decide)).2 (by decide)
  obtain rfl : outboundPayment zeroInvoice 1000 = payment := Except.ok.inj (hget.symm.trans hg)
  exact not_pending_of_shown e _ hshown rfl

end LnNode.Node.PaymentAgreement
