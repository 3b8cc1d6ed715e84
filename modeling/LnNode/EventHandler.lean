import LnNode.OnchainWallet
import LnNode.Storage

/-!
# `LdkEventHandler`

The events LDK delivers, and what `handle_event` does with each of them. What the rest of the world
answers while one event is handled (the wallet, the channel manager, the faults of the store) is a
record of its own; what the handler asks of LDK is a list of calls.

The two events that end an outbound payment read a record, change it and write it back. Their arms
are given in two halves, since other calls of the node may come between the read and the write.

* `handleEvent_payment`: handling such an event is its read followed by its write.

Log lines are left out, but what their arguments `unwrap` is kept: where info lines are logged, it
panics before the write.
-/

namespace LnNode.EventHandler

open LnNode.OnchainWallet LnNode.Storage

/-! ### Events -/

/-- Channel ids and public keys, as numbers. -/
abbrev ChannelId := ℕ

abbrev PublicKey := ℕ

/-- What an output descriptor describes. -/
abbrev SpendableOutputDescriptor := OutPoint

/-- The code of the reason LDK gives. -/
abbrev PaymentFailureReason := ℕ

inductive PaymentPurpose where
  | bolt11InvoicePayment (paymentPreimage : Option PaymentPreimage)
  | bolt12OfferPayment
  | bolt12RefundPayment
  | spontaneousPayment

/-- LDK's events, with the fields that are read, and the outputs of `SpendableOutputs`. -/
inductive Event where
  | fundingGenerationReady (temporaryChannelId : ChannelId) (counterpartyNodeId : PublicKey)
      (channelValueSatoshis : ℕ) (outputScript : Script)
  | channelPending
  | channelReady
  | openChannelRequest (temporaryChannelId : ChannelId) (counterpartyNodeId : PublicKey)
      (fundingSatoshis : ℕ) (supportsAnchorsZeroFeeHtlcTx : Bool)
  | channelClosed
  | splicePending
  | spliceFailed
  | fundingTransactionReadyForSigning
  | paymentSent (paymentId : Option PaymentId) (paymentPreimage : PaymentPreimage)
      (paymentHash : PaymentHash) (feePaidMsat : Option UInt64)
  | paymentClaimable (paymentHash : PaymentHash) (purpose : PaymentPurpose)
  | paymentClaimed (paymentHash : PaymentHash) (amountMsat : UInt64)
  | paymentFailed (paymentId : PaymentId) (paymentHash : Option PaymentHash)
      (reason : Option PaymentFailureReason)
  | paymentPathFailed
  | paymentPathSuccessful (paymentHash : Option PaymentHash)
  | paymentForwarded
  | invoiceReceived
  | htlcIntercepted
  | htlcHandlingFailed
  | persistStaticInvoice
  | staticInvoiceRequested
  | spendableOutputs (outputs : List SpendableOutputDescriptor)
  | bumpTransaction (bumpEvent : ℕ)
  | discardFunding
  | fundingTxBroadcastSafe
  | onionMessageIntercepted
  | onionMessagePeerConnected
  | connectionNeeded
  | probeFailed
  | probeSuccessful

/-! ### What one event meets and what it causes -/

/-- The channel manager takes a funding transaction, or returns an error, with which it may have
closed the channel. -/
inductive FundingResult where
  | accepted
  | error (channelClosed : Bool)
  deriving DecidableEq, Repr

/-- The handler while it handles one event: the wallet, what BDK decides and the fee estimate it
builds with, the answers of the channel manager, and the faults of the store. -/
structure LdkEventHandler where
  onchainWallet : WalletManager
  txBuilder : TxBuilder
  maximumFeeEstimate : ℕ
  fundingTransactionGenerated : FundingResult
  forceCloseBroadcastingLatestTxn : Bool
  acceptInboundChannel : Bool
  /-- The log level takes info lines, whose arguments are evaluated only then. -/
  infoLogged : Bool
  readFault : Fault
  writeFault : Fault

/-- A call to LDK, with its result where the handler looks at it. -/
inductive Call where
  | fundingTransactionGenerated (temporaryChannelId : ChannelId) (counterpartyNodeId : PublicKey)
      (fundingTx : Transaction) (result : FundingResult)
  | forceCloseBroadcastingLatestTxn (temporaryChannelId : ChannelId)
      (counterpartyNodeId : PublicKey) (errorMessage : String) (ok : Bool)
  | acceptInboundChannel (temporaryChannelId : ChannelId) (counterpartyNodeId : PublicKey)
      (userChannelId : ℕ) (ok : Bool)
  | claimFunds (preimage : PaymentPreimage)
  | failHtlcBackwards (paymentHash : PaymentHash)
  | bumpTransaction (bumpEvent : ℕ)
  /-- What a sweeper is called with. The node runs without one. -/
  | trackSpendableOutputs (outputs : List SpendableOutputDescriptor)

inductive Outcome where
  | ok
  | replayEvent
  | panic
  deriving DecidableEq, Repr

structure Handled where
  outcome : Outcome
  store : KvStore
  calls : List Call

def Handled.of (store : KvStore) (outcome : Outcome) (calls : List Call) : Handled :=
  { outcome, store, calls }

/-! ### The two events that end a payment -/

/-- What is left of an arm after its read of the store. -/
inductive PaymentStep where
  | done
  | panic
  | update (payment : Payment)
  deriving DecidableEq

def sentRecord (payment : Payment) (preimage : PaymentPreimage) (feePaidMsat : Option UInt64) :
    Payment :=
  { payment with status := .succeeded, paymentPreimage := some preimage, feePaidMsat }

def failedRecord (payment : Payment) : Payment := { payment with status := .failed }

/-- `PaymentSent` up to its write. The amount and the fee are unwrapped for the log line. -/
def readPaymentSent (infoLogged : Bool) (fault : Fault) (store : KvStore)
    (paymentId : Option PaymentId) (preimage : PaymentPreimage) (feePaidMsat : Option UInt64) :
    PaymentStep :=
  match paymentId with
  | none => .panic
  | some id =>
    match getPayment fault store id with
    | .error _ => .done
    | .ok payment =>
      if infoLogged && !(payment.amountMsat.isSome && feePaidMsat.isSome) then .panic
      else .update (sentRecord payment preimage feePaidMsat)

/-- `PaymentFailed` up to its write. The reason is unwrapped for the log line. -/
def readPaymentFailed (infoLogged : Bool) (fault : Fault) (store : KvStore)
    (paymentId : PaymentId) (paymentHash : Option PaymentHash)
    (reason : Option PaymentFailureReason) : PaymentStep :=
  if paymentHash.isSome then
    match getPayment fault store paymentId with
    | .error _ => .done
    | .ok payment =>
      if infoLogged && !reason.isSome then .panic else .update (failedRecord payment)
  else .done

/-- The second half of both: a write that fails is not reported. -/
def writePayment (fault : Fault) (store : KvStore) : PaymentStep → Outcome × KvStore
  | .done => (.ok, store)
  | .panic => (.panic, store)
  | .update payment =>
    match updatePayment fault store payment with
    | .error _ => (.ok, store)
    | .ok store' => (.ok, store')

lemma writePayment_update_outcome (fault : Fault) (store : KvStore) (payment : Payment) :
    (writePayment fault store (.update payment)).1 = .ok := by
  cases fault <;> rfl

/-! ### `handle_event` -/

def anchorReserveSat : ℕ := 10000

def acceptChannel (h : LdkEventHandler) (temporaryChannelId : ChannelId)
    (counterpartyNodeId : PublicKey) : Call :=
  .acceptInboundChannel temporaryChannelId counterpartyNodeId 0 h.acceptInboundChannel

def rejectChannel (h : LdkEventHandler) (temporaryChannelId : ChannelId)
    (counterpartyNodeId : PublicKey) : Call :=
  .forceCloseBroadcastingLatestTxn temporaryChannelId counterpartyNodeId
    "unable to accept new channel" h.forceCloseBroadcastingLatestTxn

def handleEvent (h : LdkEventHandler) (store : KvStore) : Event → Handled
  | .fundingGenerationReady temporaryChannelId counterpartyNodeId channelValueSatoshis
      outputScript =>
    match buildTransaction h.onchainWallet h.txBuilder channelValueSatoshis outputScript
      h.maximumFeeEstimate with
    | .ok fundingTx => .of store .ok
        [.fundingTransactionGenerated temporaryChannelId counterpartyNodeId fundingTx
          h.fundingTransactionGenerated]
    | .error (.error _) => .of store .ok []
    | .error .panic => .of store .panic []
  | .openChannelRequest temporaryChannelId counterpartyNodeId _ supportsAnchorsZeroFeeHtlcTx =>
    -- the comparison with the least channel value has no consequence
    if supportsAnchorsZeroFeeHtlcTx then
      match h.onchainWallet.lock with
      | none => .of store .panic []
      | some wallet =>
        if wallet.confirmedBalance < anchorReserveSat then
          -- the arm goes on to accept the channel it has just rejected
          .of store .ok [rejectChannel h temporaryChannelId counterpartyNodeId,
            acceptChannel h temporaryChannelId counterpartyNodeId]
        else .of store .ok [acceptChannel h temporaryChannelId counterpartyNodeId]
    else .of store .ok [acceptChannel h temporaryChannelId counterpartyNodeId]
  | .paymentSent paymentId paymentPreimage _ feePaidMsat =>
    let (outcome, store') := writePayment h.writeFault store
      (readPaymentSent h.infoLogged h.readFault store paymentId paymentPreimage feePaidMsat)
    .of store' outcome []
  | .paymentClaimable paymentHash purpose =>
    match purpose with
    | .bolt11InvoicePayment (some preimage) => .of store .ok [.claimFunds preimage]
    | .bolt11InvoicePayment none => .of store .ok []
    | _ => .of store .ok [.failHtlcBackwards paymentHash]
  | .paymentFailed paymentId paymentHash reason =>
    let (outcome, store') := writePayment h.writeFault store
      (readPaymentFailed h.infoLogged h.readFault store paymentId paymentHash reason)
    .of store' outcome []
  | .paymentPathSuccessful paymentHash =>
    .of store (if h.infoLogged && !paymentHash.isSome then .panic else .ok) []
  | .bumpTransaction bumpEvent => .of store .ok [.bumpTransaction bumpEvent]
  | .channelPending | .channelReady | .channelClosed | .splicePending | .spliceFailed
  | .fundingTransactionReadyForSigning | .paymentClaimed .. | .paymentPathFailed | .paymentForwarded
  | .invoiceReceived | .htlcIntercepted | .htlcHandlingFailed | .persistStaticInvoice
  | .staticInvoiceRequested | .spendableOutputs _ | .discardFunding | .fundingTxBroadcastSafe
  | .onionMessageIntercepted | .onionMessagePeerConnected | .connectionNeeded | .probeFailed
  | .probeSuccessful => .of store .ok []

/-! ### The events that end a payment, as one kind -/

inductive PaymentEvent where
  | sent (paymentId : Option PaymentId) (paymentPreimage : PaymentPreimage)
      (paymentHash : PaymentHash) (feePaidMsat : Option UInt64)
  | failed (paymentId : PaymentId) (paymentHash : Option PaymentHash)
      (reason : Option PaymentFailureReason)

namespace PaymentEvent

def event : PaymentEvent → Event
  | sent paymentId preimage paymentHash fee => .paymentSent paymentId preimage paymentHash fee
  | failed paymentId paymentHash reason => .paymentFailed paymentId paymentHash reason

def paymentId? : PaymentEvent → Option PaymentId
  | sent paymentId _ _ _ => paymentId
  | failed paymentId _ _ => some paymentId

def read (infoLogged : Bool) (fault : Fault) (store : KvStore) : PaymentEvent → PaymentStep
  | sent paymentId preimage _ fee => readPaymentSent infoLogged fault store paymentId preimage fee
  | failed paymentId paymentHash reason =>
    readPaymentFailed infoLogged fault store paymentId paymentHash reason

/-- A record shows the event: its terminal status, and for a payment that was sent its preimage and
fee. -/
def Shown (payment : Payment) : PaymentEvent → Prop
  | sent _ preimage _ fee =>
    payment.status = .succeeded ∧ payment.paymentPreimage = some preimage ∧
      payment.feePaidMsat = fee
  | failed _ _ _ => payment.status = .failed

def record (payment : Payment) : PaymentEvent → Payment
  | sent _ preimage _ fee => sentRecord payment preimage fee
  | failed _ _ _ => failedRecord payment

/-- What the log line of the arm unwraps is there. -/
def fieldsPresent (payment : Payment) : PaymentEvent → Bool
  | sent _ _ _ fee => payment.amountMsat.isSome && fee.isSome
  | failed _ _ reason => reason.isSome

def readsStore : PaymentEvent → Bool
  | sent _ _ _ _ => true
  | failed _ paymentHash _ => paymentHash.isSome

end PaymentEvent

section PaymentArms

variable (h : LdkEventHandler) (store : KvStore) (e : PaymentEvent)

theorem handleEvent_payment :
    (handleEvent h store e.event).outcome =
        (writePayment h.writeFault store (e.read h.infoLogged h.readFault store)).1 ∧
      (handleEvent h store e.event).store =
        (writePayment h.writeFault store (e.read h.infoLogged h.readFault store)).2 := by
  cases e with
  | sent paymentId preimage paymentHash fee => exact ⟨rfl, rfl⟩
  | failed paymentId paymentHash reason => exact ⟨rfl, rfl⟩

variable {store e} {infoLogged : Bool} {fault : Fault} {id : PaymentId} {payment : Payment}
  {err : IoError}

theorem PaymentEvent.read_ok (hid : e.paymentId? = some id) (hr : e.readsStore = true)
    (hg : getPayment fault store id = .ok payment) :
    e.read infoLogged fault store =
      if infoLogged && !e.fieldsPresent payment then .panic else .update (e.record payment) := by
  cases e with
  | sent paymentId preimage paymentHash fee =>
    obtain rfl : paymentId = some id := hid
    simp only [PaymentEvent.read, readPaymentSent, hg]
    rfl
  | failed paymentId paymentHash reason =>
    obtain rfl : paymentId = id := Option.some.inj hid
    have hh : paymentHash.isSome = true := hr
    simp only [PaymentEvent.read, readPaymentFailed, hh, if_true, hg]
    rfl

theorem PaymentEvent.read_error (hid : e.paymentId? = some id) (hr : e.readsStore = true)
    (hg : getPayment fault store id = .error err) : e.read infoLogged fault store = .done := by
  cases e with
  | sent paymentId preimage paymentHash fee =>
    obtain rfl : paymentId = some id := hid
    simp only [PaymentEvent.read, readPaymentSent, hg]
  | failed paymentId paymentHash reason =>
    obtain rfl : paymentId = id := Option.some.inj hid
    have hh : paymentHash.isSome = true := hr
    simp only [PaymentEvent.read, readPaymentFailed, hh, if_true, hg]

lemma PaymentEvent.read_of_not_readsStore (hr : e.readsStore = false) :
    e.read infoLogged fault store = .done := by
  cases e with
  | sent paymentId preimage paymentHash fee => cases hr
  | failed paymentId paymentHash reason =>
    have hh : paymentHash.isSome = false := hr
    simp [PaymentEvent.read, readPaymentFailed, hh]

lemma PaymentEvent.read_of_no_id (hid : e.paymentId? = none) (infoLogged : Bool) (fault : Fault)
    (store : KvStore) : e.read infoLogged fault store = .panic := by
  cases e with
  | sent paymentId preimage paymentHash fee =>
    obtain rfl : paymentId = none := hid
    rfl
  | failed paymentId paymentHash reason => cases hid

/-- **What a payment event does to the store**: nothing, or it changes the record of its id. -/
theorem handleEvent_payment_store (h : LdkEventHandler) (store : KvStore)
    (hid : e.paymentId? = some id) :
    (handleEvent h store e.event).store = store ∨
      (handleEvent h store e.event).outcome = .ok ∧ ∃ payment,
        getPayment none store id = .ok payment ∧
        (handleEvent h store e.event).store = written store (e.record payment) := by
  obtain ⟨hout, hstore⟩ := handleEvent_payment h store e
  rw [hout, hstore]
  cases hreads : e.readsStore with
  | false =>
    left
    rw [PaymentEvent.read_of_not_readsStore hreads]
    rfl
  | true =>
    cases hg : getPayment h.readFault store id with
    | error err =>
      left
      rw [PaymentEvent.read_error hid hreads hg]
      rfl
    | ok payment =>
      rw [PaymentEvent.read_ok hid hreads hg]
      split_ifs
      · left
        rfl
      · cases h.writeFault with
        | some err =>
          left
          rfl
        | none =>
          right
          exact ⟨rfl, payment, getPayment_none_of_ok hg, rfl⟩

variable (e payment)

@[simp] lemma PaymentEvent.record_paymentId : (e.record payment).paymentId = payment.paymentId := by
  cases e <;> rfl

@[simp] lemma PaymentEvent.record_direction : (e.record payment).direction = payment.direction := by
  cases e <;> rfl

@[simp] lemma PaymentEvent.record_amountMsat :
    (e.record payment).amountMsat = payment.amountMsat := by
  cases e <;> rfl

lemma PaymentEvent.shown_record : e.Shown (e.record payment) := by
  cases e with
  | sent paymentId preimage paymentHash fee => exact ⟨rfl, rfl, rfl⟩
  | failed paymentId paymentHash reason => rfl

end PaymentArms

theorem handleEvent_other_store (h : LdkEventHandler) (store : KvStore) {e : Event}
    (he : ∀ p : PaymentEvent, e ≠ p.event) : (handleEvent h store e).store = store := by
  cases e with
  | paymentSent paymentId preimage paymentHash fee =>
    exact absurd rfl (he (.sent paymentId preimage paymentHash fee))
  | paymentFailed paymentId paymentHash reason =>
    exact absurd rfl (he (.failed paymentId paymentHash reason))
  | fundingGenerationReady temporaryChannelId counterpartyNodeId value script =>
    rw [handleEvent]
    split <;> rfl
  | openChannelRequest temporaryChannelId counterpartyNodeId sats anchors =>
    rw [handleEvent]
    split_ifs
    · split
      · rfl
      · split_ifs <;> rfl
    · rfl
  | paymentClaimable paymentHash purpose =>
    rcases purpose with (_ | preimage) | _ | _ | _ <;> rfl
  | _ => rfl

/-! ### The smallest handler -/

/-- An empty wallet, and a store and an LDK that never fail; the log takes everything. -/
def quietHandler : LdkEventHandler where
  onchainWallet := { bdkWallet := loadedWallet }
  txBuilder := firstCoins
  maximumFeeEstimate := 253
  fundingTransactionGenerated := .accepted
  forceCloseBroadcastingLatestTxn := true
  acceptInboundChannel := true
  infoLogged := true
  readFault := none
  writeFault := none

end LnNode.EventHandler
