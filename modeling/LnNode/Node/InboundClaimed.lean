import LnNode.Node.Payments

/-!
# Whether the record of a payment to be received follows the payment

`create_bolt11_invoice` writes a pending record. `PaymentClaimable` and `PaymentClaimed` are the two
events of the payment's arrival; the first claims the funds, the second is logged.

* `AllPending.step`: nothing of this ever makes a record anything else than pending;
* `followsClaims_iff`: so the record follows the payment only where nothing is claimed.
-/

namespace LnNode.Node.InboundClaimed

open LnNode.Storage LnNode.EventHandler LnNode.Lib.Run
open LnNode.Node.Payments hiding Action

/-! ### The machine -/

inductive Action where
  | createBolt11Invoice (created : Except SignOrCreationError PaymentHash)
      (amountMsat : Option UInt64)
  | paymentClaimable (h : LdkEventHandler) (paymentHash : PaymentHash) (purpose : PaymentPurpose)
  | paymentClaimed (h : LdkEventHandler) (paymentHash : PaymentHash) (amountMsat : UInt64)

/-- The store never fails here. -/
def inboundStep (store : KvStore) : Action → Option KvStore
  | .createBolt11Invoice created amountMsat =>
    some (createBolt11Invoice none created store amountMsat).1
  | .paymentClaimable h paymentHash purpose =>
    some (handleEvent h store (.paymentClaimable paymentHash purpose)).store
  | .paymentClaimed h paymentHash amountMsat =>
    some (handleEvent h store (.paymentClaimed paymentHash amountMsat)).store

/-! ### What is to follow -/

/-- The record of a payment to be received is stored. -/
def InboundStored (store : KvStore) (id : PaymentId) : Prop :=
  ∃ payment, getPayment none store id = .ok payment ∧ payment.direction = .inbound

/-- After `PaymentClaimed` has been handled, the record shows the success, and the other records are
as they were. -/
def ClaimShown (store : KvStore) : Action → Prop
  | .paymentClaimed h paymentHash amountMsat => InboundStored store ⟨paymentHash.val⟩ →
      ∀ store', inboundStep store (.paymentClaimed h paymentHash amountMsat) = some store' →
        (∃ payment, getPayment none store' ⟨paymentHash.val⟩ = .ok payment ∧
          payment.status = .succeeded) ∧
        ∀ id, id ≠ ⟨paymentHash.val⟩ → getPayment none store' id = getPayment none store id
  | _ => True

/-- Every claim is shown, and no success is shown before its claim. -/
def FollowsClaims (as : List Action) : Prop :=
  StepsMeet inboundStep ClaimShown ∅ as ∧
    ∀ pre post store id payment, as = pre ++ post → run inboundStep ∅ pre = some store →
      getPayment none store id = .ok payment → payment.direction = .inbound →
      payment.status = .succeeded → ∃ h amountMsat, .paymentClaimed h ⟨id.val⟩ amountMsat ∈ pre

/-- No payment is claimed whose record is stored. -/
def ClaimsUnknown (store : KvStore) : Action → Prop
  | .paymentClaimed _ paymentHash _ => ¬ InboundStored store ⟨paymentHash.val⟩
  | _ => True

/-! ### Every record stays pending -/

def AllPending (store : KvStore) : Prop :=
  ∀ id payment, getPayment none store id = .ok payment → payment.status = .pending

section Steps

variable {store store' : KvStore} {a : Action}

lemma events_store (h : LdkEventHandler) (store : KvStore) (paymentHash : PaymentHash)
    (purpose : PaymentPurpose) (amountMsat : UInt64) :
    (handleEvent h store (.paymentClaimable paymentHash purpose)).store = store ∧
      (handleEvent h store (.paymentClaimed paymentHash amountMsat)).store = store := by
  constructor
  · refine handleEvent_other_store h store ?_
    rintro (⟨id, preimage, hash, fee⟩ | ⟨id, hash, reason⟩) heq <;> cases heq
  · refine handleEvent_other_store h store ?_
    rintro (⟨id, preimage, hash, fee⟩ | ⟨id, hash, reason⟩) heq <;> cases heq

theorem AllPending.step (h : AllPending store) (hs : inboundStep store a = some store') :
    AllPending store' := by
  cases a with
  | createBolt11Invoice created amountMsat =>
    rw [inboundStep] at hs
    rcases created with (_ | ce) | paymentHash
    · cases hs
      exact h
    · cases hs
      exact h
    · cases hs
      intro id payment hg
      have hwritten := getPayment_written store (inboundPayment paymentHash amountMsat) id
      rw [show getPayment none (written store (inboundPayment paymentHash amountMsat)) id =
        .ok payment from hg] at hwritten
      split_ifs at hwritten
      · cases hwritten
        rfl
      · exact h id payment hwritten.symm
  | paymentClaimable hnd paymentHash purpose =>
    rw [inboundStep, (events_store hnd store paymentHash purpose 0).1] at hs
    cases hs
    exact h
  | paymentClaimed hnd paymentHash amountMsat =>
    rw [inboundStep, (events_store hnd store paymentHash .bolt12OfferPayment amountMsat).2] at hs
    cases hs
    exact h

lemma allPending_empty : AllPending ∅ := by
  intro id payment hg
  simp at hg

lemma claimShown_iff (h : AllPending store) (hs : inboundStep store a = some store') :
    ClaimShown store a ↔ ClaimsUnknown store a := by
  cases a with
  | paymentClaimed hnd paymentHash amountMsat =>
    constructor
    · intro hshown hstored
      obtain ⟨⟨payment, hg, hstatus⟩, -⟩ := hshown hstored store' hs
      rw [h.step hs _ payment hg] at hstatus
      cases hstatus
    · intro hunknown hstored
      exact absurd hstored hunknown
  | _ => rfl

end Steps

/-- **When the record follows the payment.** For every run of invoices that are created and payments
that are claimable and claimed, in any order: exactly when no payment is claimed whose record is
stored. -/
theorem followsClaims_iff (as : List Action) :
    FollowsClaims as ↔ StepsMeet inboundStep ClaimsUnknown ∅ as := by
  constructor
  · rintro ⟨hshown, -⟩
    refine hshown.strengthen allPending_empty fun store a store' hI ha hs => ⟨hI.step hs, ?_⟩
    exact (claimShown_iff hI hs).mp ha
  · intro hunknown
    refine ⟨hunknown.strengthen allPending_empty fun store a store' hI ha hs => ⟨hI.step hs, ?_⟩, ?_⟩
    · exact (claimShown_iff hI hs).mpr ha
    · intro pre post store id payment _ hr hg _ hstatus
      have hpending : AllPending store :=
        run_keeps allPending_empty (fun _ _ _ hI hs => hI.step hs) hr
      rw [hpending id payment hg] at hstatus
      cases hstatus

/-! ### One invoice that is paid -/

def receivePayment : List Action :=
  [.createBolt11Invoice (.ok ⟨zeroBytes⟩) (some 5000),
    .paymentClaimable quietHandler ⟨zeroBytes⟩ (.bolt11InvoicePayment (some ⟨zeroBytes⟩)),
    .paymentClaimed quietHandler ⟨zeroBytes⟩ 5000]

/-- **The payment is received**, and its record stays pending. -/
theorem not_followsClaims_received :
    ∃ store, run inboundStep ∅ receivePayment = some store ∧
      getPayment none store ⟨zeroBytes⟩ = .ok (inboundPayment ⟨zeroBytes⟩ (some 5000)) ∧
      ¬ FollowsClaims receivePayment := by
  refine ⟨_, rfl, getPayment_written_self _ (inboundPayment ⟨zeroBytes⟩ (some 5000)), ?_⟩
  rintro ⟨hshown, -⟩
  have hstored : InboundStored (written ∅ (inboundPayment ⟨zeroBytes⟩ (some 5000))) ⟨zeroBytes⟩ :=
    ⟨_, getPayment_written_self _ (inboundPayment ⟨zeroBytes⟩ (some 5000)), rfl⟩
  have hclaim := (((hshown _ rfl).2 _ rfl).2 _ rfl).1
  obtain ⟨⟨payment, hg, hstatus⟩, -⟩ := hclaim hstored _ rfl
  cases (getPayment_written_self ∅ (inboundPayment ⟨zeroBytes⟩ (some 5000))).symm.trans hg
  cases hstatus

end LnNode.Node.InboundClaimed
