import LnNode.Node.Payments

/-!
# Whether a call to pay is all or nothing

`pay_bolt11_invoice` hands the payment to LDK and then writes its record. Between the two stands only
the write, and nothing takes the payment back when it fails.

* `payBolt11Invoice_eq`: the outcomes of the call;
* `allOrNothing_iff`: it is all or nothing unless LDK takes the payment and the write fails;
* `recordedAmount_iff`: the record has the amount that LDK sends unless the caller gives more than the
  invoice is for.
-/

namespace LnNode.Node.PayAllOrNothing

open LnNode.Storage LnNode.EventHandler LnNode.Lib.Attempts LnNode.Node.Payments

/-- LDK tracks a payment under the id that it did not have before the call. -/
def Started (ldk ldk' : OutboundPayments) (id : PaymentId) : Prop :=
  ldk'.Tracked id ∧ ldk.attempts id < ldk'.attempts id

/-- An error leaves no payment that the call started and the store as it was; a success leaves LDK
with the payment and the store with its record. -/
def AllOrNothing (refusal : Option RetryableSendFailure) (fault : Fault) (ldk : OutboundPayments)
    (store : KvStore) (invoice : Bolt11Invoice) (amountMsat : Option UInt64) : Prop :=
  match payBolt11Invoice refusal fault ldk store invoice amountMsat with
  | (ldk', store', .error _) => (∀ id, ¬ Started ldk ldk' id) ∧ store' = store
  | (ldk', store', .ok id) => ldk'.Tracked id ∧
      ∃ payment, getPayment none store' id = .ok payment ∧ payment.paymentId = id ∧
        payment.direction = .outbound ∧ payment.status = .pending ∧
        payment.amountMsat = invoice.amountMilliSatoshis.or amountMsat

/-- LDK takes the payment: there is an amount, not below the invoice's, it has no reason of its own to
refuse, and it does not track the id. -/
def LdkTakes (refusal : Option RetryableSendFailure) (ldk : OutboundPayments)
    (invoice : Bolt11Invoice) (amountMsat : Option UInt64) : Prop :=
  (amountSent invoice amountMsat).isSome = true ∧ refusal = none ∧ ¬ ldk.Tracked invoice.paymentId

section

variable {refusal : Option RetryableSendFailure} {fault : Fault} {ldk : OutboundPayments}
  {store : KvStore} {invoice : Bolt11Invoice} {amountMsat : Option UInt64}

lemma amountToPay_of_amountSent {sent : UInt64} (h : amountSent invoice amountMsat = some sent) :
    ∃ amount, amountToPay invoice amountMsat = .ok amount ∧
      invoice.amountMilliSatoshis.or amountMsat = some amount := by
  unfold amountSent at h
  unfold amountToPay
  cases hinvoice : invoice.amountMilliSatoshis with
  | some amount => exact ⟨amount, rfl, rfl⟩
  | none =>
    simp only [hinvoice] at h
    subst h
    exact ⟨sent, rfl, rfl⟩

lemma sendBolt11Payment_of_ldkTakes (h : LdkTakes refusal ldk invoice amountMsat) :
    ∃ ldk' amount, ldk.accept invoice.paymentId = some ldk' ∧
      invoice.amountMilliSatoshis.or amountMsat = some amount ∧
      sendBolt11Payment refusal ldk invoice amountMsat =
        .ok (ldk', outboundPayment invoice amount) := by
  obtain ⟨hsome, rfl, htracked⟩ := h
  obtain ⟨sent, hsent⟩ := Option.isSome_iff_exists.mp hsome
  obtain ⟨amount, hamount, hor⟩ := amountToPay_of_amountSent hsent
  have haccept : ∃ ldk', ldk.accept invoice.paymentId = some ldk' := by
    unfold Ledger.accept
    rw [if_pos (not_not.mp htracked)]
    exact ⟨_, rfl⟩
  obtain ⟨ldk', haccept⟩ := haccept
  refine ⟨ldk', amount, haccept, hor, ?_⟩
  unfold sendBolt11Payment payForBolt11Invoice
  simp only [hamount, hsent, haccept]

lemma sendBolt11Payment_of_not_ldkTakes (h : ¬ LdkTakes refusal ldk invoice amountMsat) :
    ∃ e, sendBolt11Payment refusal ldk invoice amountMsat = .error e := by
  cases hsend : sendBolt11Payment refusal ldk invoice amountMsat with
  | error e => exact ⟨e, rfl⟩
  | ok taken =>
    refine absurd ?_ h
    unfold sendBolt11Payment payForBolt11Invoice at hsend
    split at hsend
    · cases hsend
    split at hsend
    · cases hsend
    rename_i htaken
    split at htaken
    · cases htaken
    rename_i sent hsent
    split at htaken
    · cases htaken
    split at htaken
    · cases htaken
    · rename_i haccept
      have huntracked := (Ledger.accept_eq_some haccept).1
      exact ⟨by rw [hsent]; rfl, rfl, not_not.mpr huntracked⟩

/-- **The outcomes of the call**: refused, taken and recorded, or taken without a record. -/
theorem payBolt11Invoice_eq (refusal : Option RetryableSendFailure) (fault : Fault)
    (ldk : OutboundPayments) (store : KvStore) (invoice : Bolt11Invoice)
    (amountMsat : Option UInt64) :
    (¬ LdkTakes refusal ldk invoice amountMsat ∧
      ∃ e, payBolt11Invoice refusal fault ldk store invoice amountMsat = (ldk, store, .error e)) ∨
    LdkTakes refusal ldk invoice amountMsat ∧ ∃ ldk' amount,
      ldk.accept invoice.paymentId = some ldk' ∧
      invoice.amountMilliSatoshis.or amountMsat = some amount ∧
      payBolt11Invoice refusal fault ldk store invoice amountMsat = match fault with
        | none => (ldk', written store (outboundPayment invoice amount), .ok invoice.paymentId)
        | some err => (ldk', store, .error (.io err)) := by
  by_cases h : LdkTakes refusal ldk invoice amountMsat
  · right
    obtain ⟨ldk', amount, haccept, hor, hsend⟩ := sendBolt11Payment_of_ldkTakes h
    refine ⟨h, ldk', amount, haccept, hor, ?_⟩
    unfold payBolt11Invoice
    cases fault with
    | none => simp only [hsend, addPayment_ok]
    | some err => simp only [hsend, addPayment_fault]
  · left
    obtain ⟨e, hsend⟩ := sendBolt11Payment_of_not_ldkTakes h
    refine ⟨h, e, ?_⟩
    unfold payBolt11Invoice
    simp only [hsend]

lemma tracked_of_accept {ldk' : OutboundPayments} {id : PaymentId} (h : ldk.accept id = some ldk') :
    ldk'.Tracked id := by
  obtain ⟨-, rfl⟩ := Ledger.accept_eq_some h
  simp [Ledger.Tracked]

lemma started_of_accept {ldk' : OutboundPayments} {id : PaymentId} (h : ldk.accept id = some ldk') :
    Started ldk ldk' id := by
  refine ⟨tracked_of_accept h, ?_⟩
  rw [Ledger.accept_attempts_self h]
  omega

end

/-- **When a call to pay is all or nothing.** For every invoice, amount argument, answer of LDK,
payments it tracks, store, and outcome of the write: exactly when LDK does not take the payment or the
write goes through. -/
theorem allOrNothing_iff (refusal : Option RetryableSendFailure) (fault : Fault)
    (ldk : OutboundPayments) (store : KvStore) (invoice : Bolt11Invoice)
    (amountMsat : Option UInt64) :
    AllOrNothing refusal fault ldk store invoice amountMsat ↔
      ¬ LdkTakes refusal ldk invoice amountMsat ∨ fault = none := by
  unfold AllOrNothing
  rcases payBolt11Invoice_eq refusal fault ldk store invoice amountMsat with
    ⟨hno, e, heq⟩ | ⟨htakes, ldk', amount, haccept, hor, heq⟩
  · rw [heq]
    refine iff_of_true ⟨fun id hstarted => ?_, rfl⟩ (Or.inl hno)
    exact absurd hstarted.2 (lt_irrefl _)
  · rw [heq]
    cases fault with
    | none =>
      refine iff_of_true ⟨tracked_of_accept haccept, outboundPayment invoice amount, ?_⟩ (Or.inr rfl)
      exact ⟨getPayment_written_self _ _, rfl, rfl, rfl, hor.symm⟩
    | some err =>
      refine iff_of_false (fun h => h.1 _ (started_of_accept haccept)) ?_
      rintro (hno | hfault)
      · exact hno htakes
      · cases hfault

/-- **The disk is full**: the call returns an error, and LDK is sending the payment. -/
theorem not_allOrNothing_diskFull :
    let called := payBolt11Invoice none (some (.other "No space left on device")) .empty ∅
      zeroInvoice none
    called.2.2 = .error (.io (.other "No space left on device")) ∧
    Started .empty called.1 zeroInvoice.paymentId ∧
    ¬ AllOrNothing none (some (.other "No space left on device")) .empty ∅ zeroInvoice none := by
  have hstarted : Started .empty (payBolt11Invoice none (some (.other "No space left on device"))
      .empty ∅ zeroInvoice none).1 zeroInvoice.paymentId :=
    started_of_accept rfl
  exact ⟨rfl, hstarted, fun h => h.1 _ hstarted⟩

/-! ### The recorded amount -/

/-- The caller does not give more than the invoice is for. -/
def NotMoreThanInvoice (invoice : Bolt11Invoice) (amountMsat : Option UInt64) : Prop :=
  ∀ invoiceAmount amount, invoice.amountMilliSatoshis = some invoiceAmount →
    amountMsat = some amount → amount ≤ invoiceAmount

/-- The two ways to resolve the two amounts agree, where LDK finds the amount valid, unless the caller
gives more. -/
lemma or_eq_amountSent_iff {invoice : Bolt11Invoice} {amountMsat : Option UInt64}
    (hvalid : (amountSent invoice amountMsat).isSome = true) :
    invoice.amountMilliSatoshis.or amountMsat = amountSent invoice amountMsat ↔
      NotMoreThanInvoice invoice amountMsat := by
  unfold amountSent at hvalid ⊢
  unfold NotMoreThanInvoice
  cases hinvoice : invoice.amountMilliSatoshis with
  | none => simp
  | some invoiceAmount =>
    cases amountMsat with
    | none => simp
    | some amount =>
      have hless : ¬ amount < invoiceAmount := fun hless => by simp [hinvoice, hless] at hvalid
      have hle : invoiceAmount ≤ amount := UInt64.not_lt.mp hless
      simp only [Option.some_or, if_neg hless, Option.some.injEq]
      constructor
      · rintro rfl _ _ rfl rfl
        exact UInt64.le_refl _
      · exact fun hnotMore => UInt64.le_antisymm hle (hnotMore _ _ rfl rfl)

/-- **When the recorded amount is the amount sent.** For every call to pay that returns Ok: exactly
when the caller does not give more than the invoice is for. -/
theorem recordedAmount_iff (refusal : Option RetryableSendFailure) (fault : Fault)
    (ldk ldk' : OutboundPayments) (store store' : KvStore) (invoice : Bolt11Invoice)
    (amountMsat : Option UInt64) (id : PaymentId)
    (hpay : payBolt11Invoice refusal fault ldk store invoice amountMsat = (ldk', store', .ok id)) :
    (∃ payment, getPayment none store' id = .ok payment ∧
        payment.amountMsat = amountSent invoice amountMsat) ↔
      NotMoreThanInvoice invoice amountMsat := by
  rcases payBolt11Invoice_eq refusal fault ldk store invoice amountMsat with
    ⟨-, e, heq⟩ | ⟨htakes, ldk₁, amount, -, hor, heq⟩
  · rw [heq] at hpay
    cases hpay
  · rw [heq] at hpay
    cases fault with
    | some err => cases hpay
    | none =>
      cases hpay
      have hget : getPayment none (written store (outboundPayment invoice amount)) invoice.paymentId =
          .ok (outboundPayment invoice amount) := getPayment_written_self _ _
      rw [← or_eq_amountSent_iff htakes.1, hor, hget]
      simp [outboundPayment]

theorem recordedAmount_iff_at :
    ∃ payment, getPayment none (written ∅ (outboundPayment zeroInvoice 1000)) zeroInvoice.paymentId =
      .ok payment ∧ payment.amountMsat = amountSent zeroInvoice none := by
  refine (recordedAmount_iff none none .empty _ ∅ _ zeroInvoice none zeroInvoice.paymentId rfl).mpr ?_
  rintro _ _ _ ⟨⟩

/-- **An invoice of 1,000 msat is paid with 5,000**: LDK sends 5,000, and the record says 1,000. -/
theorem not_recordedAmount_overpaid :
    let called := payBolt11Invoice none none .empty ∅ zeroInvoice (some 5000)
    called.2.2 = .ok zeroInvoice.paymentId ∧ amountSent zeroInvoice (some 5000) = some 5000 ∧
    getPayment none called.2.1 zeroInvoice.paymentId = .ok (outboundPayment zeroInvoice 1000) ∧
    ¬ ∃ payment, getPayment none called.2.1 zeroInvoice.paymentId = .ok payment ∧
      payment.amountMsat = amountSent zeroInvoice (some 5000) := by
  intro called
  have hget : getPayment none called.2.1 zeroInvoice.paymentId =
      .ok (outboundPayment zeroInvoice 1000) := getPayment_written_self _ _
  refine ⟨rfl, rfl, hget, ?_⟩
  rintro ⟨payment, hother, hamount⟩
  cases hget.symm.trans hother
  cases hamount

end LnNode.Node.PayAllOrNothing
