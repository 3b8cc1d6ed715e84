import LnNode.EventHandler

/-!
# The obligations of fund-bearing events

Three events put funds into the hands of the handler: a channel that waits for its funding
transaction, an HTLC that can be claimed, and outputs that can be spent. `ObligationMet` says what
must have been done when such an event is acknowledged; `obligationsMet_iff` says for every stream of
events and everything the wallet and LDK may answer when the handler meets them all.
-/

namespace LnNode.EventHandler.Obligations

open LnNode.OnchainWallet LnNode.Storage

/-! ### What is owed -/

/-- The channel got its funding transaction or was closed. -/
def Call.SettlesFunding (temporaryChannelId : ChannelId) (counterpartyNodeId : PublicKey) :
    Call → Prop
  | .fundingTransactionGenerated channel peer _ result =>
    channel = temporaryChannelId ∧ peer = counterpartyNodeId ∧
      (result = .accepted ∨ result = .error true)
  | .forceCloseBroadcastingLatestTxn channel peer _ ok =>
    channel = temporaryChannelId ∧ peer = counterpartyNodeId ∧ ok = true
  | _ => False

/-- The HTLC was claimed with its preimage or failed back. -/
def Call.SettlesHtlc (paymentHash : PaymentHash) (purpose : PaymentPurpose) : Call → Prop
  | .claimFunds preimage => purpose = .bolt11InvoicePayment (some preimage)
  | .failHtlcBackwards hash => hash = paymentHash
  | _ => False

/-- The output was given to a sweeper, or something at least was written to the store. -/
def OutputKept (store : KvStore) (handled : Handled) (output : SpendableOutputDescriptor) : Prop :=
  (∃ outputs, .trackSpendableOutputs outputs ∈ handled.calls ∧ output ∈ outputs) ∨
    ∃ key, handled.store.lookup key ≠ store.lookup key

/-- An event that is acknowledged has `P`, and one that is not is handed back. -/
def Settled (handled : Handled) (P : Prop) : Prop :=
  match handled.outcome with
  | .ok => P
  | .replayEvent => True
  | .panic => False

/-- What the handling of an event owes, given the store before it. -/
def ObligationMet (store : KvStore) (handled : Handled) : Event → Prop
  | .fundingGenerationReady temporaryChannelId counterpartyNodeId _ _ =>
    Settled handled
      (∃ c ∈ handled.calls, Call.SettlesFunding temporaryChannelId counterpartyNodeId c)
  | .paymentClaimable paymentHash purpose =>
    Settled handled (∃ c ∈ handled.calls, Call.SettlesHtlc paymentHash purpose c)
  | .spendableOutputs outputs =>
    Settled handled (∀ output ∈ outputs, OutputKept store handled output)
  | _ => True

/-! ### When it is met -/

/-- The wallet can build the funding transaction, and LDK takes it or closes the channel; the HTLC is
not one of an invoice whose preimage is unknown; there is no output to spend. -/
def CanDischarge (h : LdkEventHandler) : Event → Prop
  | .fundingGenerationReady _ _ channelValueSatoshis outputScript =>
    (∃ tx, buildTransaction h.onchainWallet h.txBuilder channelValueSatoshis outputScript
      h.maximumFeeEstimate = .ok tx) ∧ h.fundingTransactionGenerated ≠ .error false
  | .paymentClaimable _ purpose => purpose ≠ .bolt11InvoicePayment none
  | .spendableOutputs outputs => outputs = []
  | _ => True

section OneEvent

variable (h : LdkEventHandler) (store : KvStore)

lemma fundingGenerationReady_iff (channel : ChannelId) (peer : PublicKey) (value : ℕ)
    (script : Script) :
    ObligationMet store (handleEvent h store (.fundingGenerationReady channel peer value script))
        (.fundingGenerationReady channel peer value script) ↔
      CanDischarge h (.fundingGenerationReady channel peer value script) := by
  unfold ObligationMet CanDischarge Settled
  rw [handleEvent]
  cases hbuild : buildTransaction h.onchainWallet h.txBuilder value script h.maximumFeeEstimate with
  | error failure => cases failure <;> simp [Handled.of, hbuild]
  | ok tx =>
    rcases hresult : h.fundingTransactionGenerated with _ | (_ | _) <;>
      simp [Handled.of, Call.SettlesFunding, hbuild]

lemma paymentClaimable_iff (paymentHash : PaymentHash) (purpose : PaymentPurpose) :
    ObligationMet store (handleEvent h store (.paymentClaimable paymentHash purpose))
        (.paymentClaimable paymentHash purpose) ↔
      CanDischarge h (.paymentClaimable paymentHash purpose) := by
  unfold ObligationMet CanDischarge Settled
  rcases purpose with (_ | preimage) | _ | _ | _ <;>
    simp [handleEvent, Handled.of, Call.SettlesHtlc]

lemma spendableOutputs_iff (outputs : List SpendableOutputDescriptor) :
    ObligationMet store (handleEvent h store (.spendableOutputs outputs))
        (.spendableOutputs outputs) ↔ CanDischarge h (.spendableOutputs outputs) := by
  unfold ObligationMet CanDischarge Settled
  simp [handleEvent, Handled.of, OutputKept, List.eq_nil_iff_forall_not_mem]

/-- **One event**: its obligation is met exactly when it can be. -/
theorem obligationMet_iff (e : Event) :
    ObligationMet store (handleEvent h store e) e ↔ CanDischarge h e := by
  cases e with
  | fundingGenerationReady channel peer value script =>
    exact fundingGenerationReady_iff h store channel peer value script
  | paymentClaimable paymentHash purpose => exact paymentClaimable_iff h store paymentHash purpose
  | spendableOutputs outputs => exact spendableOutputs_iff h store outputs
  | _ => exact Iff.rfl

end OneEvent

/-! ### Streams of events -/

/-- Every event of a stream meets its obligation, each with what the world answers to it, the store
going from one to the next. What follows a panic is delivered after a restart. -/
def ObligationsMet : KvStore → List (LdkEventHandler × Event) → Prop
  | _, [] => True
  | store, (h, e) :: es =>
    ObligationMet store (handleEvent h store e) e ∧ ObligationsMet (handleEvent h store e).store es

/-- **When no fund-bearing event is dropped**: for every store and every stream of events, with
everything the wallet and LDK may answer, exactly when every event can be discharged. -/
theorem obligationsMet_iff (store : KvStore) (es : List (LdkEventHandler × Event)) :
    ObligationsMet store es ↔ ∀ x ∈ es, CanDischarge x.1 x.2 := by
  induction es generalizing store with
  | nil => simp [ObligationsMet]
  | cons x es ih =>
    rw [List.forall_mem_cons, ObligationsMet, obligationMet_iff, ih]

/-! ### Dropped events -/

def refusingHandler : LdkEventHandler :=
  { quietHandler with fundingTransactionGenerated := .error false }

/-- **Acknowledged with nothing done**: outputs that can be spent, a funding request that the wallet
cannot pay for, one whose transaction LDK refuses, and an HTLC of an invoice without its preimage. -/
theorem not_obligationsMet_dropped :
    ¬ ObligationsMet ∅ [(quietHandler, .spendableOutputs [⟨1, 0⟩])] ∧
    ¬ ObligationsMet ∅ [(quietHandler, .fundingGenerationReady 1 2 50000 3)] ∧
    ¬ ObligationsMet ∅ [(refusingHandler, .fundingGenerationReady 1 2 0 3)] ∧
    ¬ ObligationsMet ∅ [(quietHandler,
      .paymentClaimable ⟨zeroBytes⟩ (.bolt11InvoicePayment none))] := by
  have one : ∀ h e, ¬ CanDischarge h e → ¬ ObligationsMet ∅ [(h, e)] :=
    fun h e hno hmet => hno ((obligationMet_iff h ∅ e).mp hmet.1)
  refine ⟨one _ _ ?_, one _ _ ?_, one _ _ ?_, one _ _ ?_⟩
  · simp [CanDischarge]
  · rintro ⟨⟨tx, htx⟩, -⟩
    cases htx
  · exact fun h => h.2 rfl
  · exact fun h => h rfl

end LnNode.EventHandler.Obligations
