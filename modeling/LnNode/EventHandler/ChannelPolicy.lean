import LnNode.EventHandler

/-!
# Which inbound channels are accepted

The operator sets the least value of a channel, and an anchor channel wants a reserve on-chain. The
handler compares the value with the setting and the balance with the reserve, and goes on to accept the
channel after either comparison.

* `NodeBuilder`: the handler and LDK are given the same settings;
* `handleEvent_config`: what the handler does depends on none of them;
* `accepts_openChannelRequest`, `not_rejects_openChannelRequest`: channels are accepted, and none is
  rejected for good;
* `policyEnforced_iff`: the requests that are treated as the policy says.
-/

namespace LnNode.EventHandler.ChannelPolicy

open LnNode.OnchainWallet LnNode.Storage LnNode.EventHandler

/-! ### `NodeBuilder` -/

structure Config where
  minChannelValueSat : ℕ
  defaultChannelPublic : Bool
  maxPendingHtlcs : ℕ
  deriving DecidableEq, Repr

/-- LDK's settings, as far as the builder writes them. -/
structure UserConfig where
  minFundingSatoshis : ℕ
  announceForForwarding : Bool
  negotiateAnchorsZeroFeeHtlcTx : Bool
  manuallyAcceptInboundChannels : Bool
  ourMaxAcceptedHtlcs : ℕ
  acceptForwardsToPrivChannels : Bool
  deriving DecidableEq, Repr

/-- Whatever setters are called and in whatever order, the node and LDK are told the same. -/
structure NodeBuilder where
  config : Config
  ldkConfig : UserConfig
  minFundingSatoshis : ldkConfig.minFundingSatoshis = config.minChannelValueSat
  announceForForwarding : ldkConfig.announceForForwarding = config.defaultChannelPublic
  ourMaxAcceptedHtlcs : ldkConfig.ourMaxAcceptedHtlcs = config.maxPendingHtlcs

namespace NodeBuilder

def new (config : Config) : NodeBuilder where
  config := config
  ldkConfig :=
    { minFundingSatoshis := config.minChannelValueSat
      announceForForwarding := config.defaultChannelPublic
      negotiateAnchorsZeroFeeHtlcTx := true
      manuallyAcceptInboundChannels := true
      ourMaxAcceptedHtlcs := config.maxPendingHtlcs
      acceptForwardsToPrivChannels := true }
  minFundingSatoshis := rfl
  announceForForwarding := rfl
  ourMaxAcceptedHtlcs := rfl

def withManuallyAcceptInboundChannels (b : NodeBuilder) (manual : Bool) : NodeBuilder :=
  { b with ldkConfig := { b.ldkConfig with manuallyAcceptInboundChannels := manual } }

def withMinChannelValueSat (b : NodeBuilder) (minValue : ℕ) : NodeBuilder :=
  { b with
    config := { b.config with minChannelValueSat := minValue }
    ldkConfig := { b.ldkConfig with minFundingSatoshis := minValue }
    minFundingSatoshis := rfl }

def withMaxPendingHtlcs (b : NodeBuilder) (maxHtlcs : ℕ) : NodeBuilder :=
  { b with
    config := { b.config with maxPendingHtlcs := maxHtlcs }
    ldkConfig := { b.ldkConfig with ourMaxAcceptedHtlcs := maxHtlcs }
    ourMaxAcceptedHtlcs := rfl }

def withDefaultChannelPublic (b : NodeBuilder) (isPublic : Bool) : NodeBuilder :=
  { b with
    config := { b.config with defaultChannelPublic := isPublic }
    ldkConfig := { b.ldkConfig with announceForForwarding := isPublic }
    announceForForwarding := rfl }

end NodeBuilder

/-! ### The handler with its settings -/

structure ConfiguredHandler extends LdkEventHandler where
  config : Config

/-- The handler of a node that was built: the settings are the builder's. -/
def NodeBuilder.eventHandler (b : NodeBuilder) (h : LdkEventHandler) : ConfiguredHandler :=
  { h with config := b.config }

section Arm

variable (h : ConfiguredHandler) (store : KvStore) (temporaryChannelId : ChannelId)
  (counterpartyNodeId : PublicKey) (fundingSatoshis : ℕ) (supportsAnchorsZeroFeeHtlcTx : Bool)

/-- The first check: nothing stands in its block. -/
def checkChannelValue : List Call :=
  if fundingSatoshis < h.config.minChannelValueSat then [] else []

/-- The second check. It panics with a poisoned lock; what the rejection returns is only logged. -/
def checkAnchorReserve : Option (List Call) :=
  if supportsAnchorsZeroFeeHtlcTx then
    match h.onchainWallet.lock with
    | none => none
    | some wallet =>
      if wallet.confirmedBalance < anchorReserveSat then
        some [rejectChannel h.toLdkEventHandler temporaryChannelId counterpartyNodeId]
      else some []
  else some []

/-- The arm of `OpenChannelRequest`: one check after the other, then the channel is accepted. -/
def openChannelRequest : Handled :=
  let valueCalls := checkChannelValue h fundingSatoshis
  match checkAnchorReserve h temporaryChannelId counterpartyNodeId supportsAnchorsZeroFeeHtlcTx with
  | none => .of store .panic valueCalls
  | some reserveCalls => .of store .ok (valueCalls ++ reserveCalls ++
      [acceptChannel h.toLdkEventHandler temporaryChannelId counterpartyNodeId])

/-- `handle_event`, with the one arm that looks at the settings. -/
def ConfiguredHandler.handleEvent : Event → Handled
  | .openChannelRequest temporaryChannelId counterpartyNodeId fundingSatoshis
      supportsAnchorsZeroFeeHtlcTx =>
    openChannelRequest h store temporaryChannelId counterpartyNodeId fundingSatoshis
      supportsAnchorsZeroFeeHtlcTx
  | e => EventHandler.handleEvent h.toLdkEventHandler store e

lemma checkChannelValue_eq : checkChannelValue h fundingSatoshis = [] := ite_self _

theorem handleEvent_config (e : Event) :
    h.handleEvent store e = EventHandler.handleEvent h.toLdkEventHandler store e := by
  cases e with
  | openChannelRequest channel peer sats anchors =>
    rw [ConfiguredHandler.handleEvent, openChannelRequest, checkChannelValue_eq,
      EventHandler.handleEvent]
    cases anchors with
    | false => rfl
    | true =>
      simp only [checkAnchorReserve, if_true]
      cases hl : h.onchainWallet.lock with
      | none => rfl
      | some wallet =>
        dsimp only
        split_ifs <;> rfl
  | _ => rfl

/-! ### The policy -/

def Allowed : Prop :=
  h.config.minChannelValueSat ≤ fundingSatoshis ∧
    (supportsAnchorsZeroFeeHtlcTx = true →
      anchorReserveSat ≤ h.onchainWallet.bdkWallet.confirmedBalance)

instance : Decidable (Allowed h fundingSatoshis supportsAnchorsZeroFeeHtlcTx) :=
  inferInstanceAs (Decidable (_ ∧ _))

/-- `accept_inbound_channel` is called for the channel, whatever it returns. -/
def Accepts (calls : List Call) : Prop :=
  ∃ userChannelId ok,
    Call.acceptInboundChannel temporaryChannelId counterpartyNodeId userChannelId ok ∈ calls

/-- The channel is rejected, whatever the rejection returns, and is not accepted afterwards. -/
def Rejects (calls : List Call) : Prop :=
  ∃ before errorMessage ok after,
    calls = before ++ Call.forceCloseBroadcastingLatestTxn temporaryChannelId counterpartyNodeId
      errorMessage ok :: after ∧ ¬ Accepts temporaryChannelId counterpartyNodeId after

/-- The channels that are allowed are accepted and no others, and the others are rejected. -/
def PolicyEnforced : Prop :=
  let calls := (h.handleEvent store (.openChannelRequest temporaryChannelId counterpartyNodeId
    fundingSatoshis supportsAnchorsZeroFeeHtlcTx)).calls
  (Accepts temporaryChannelId counterpartyNodeId calls ↔
    Allowed h fundingSatoshis supportsAnchorsZeroFeeHtlcTx) ∧
  (¬ Allowed h fundingSatoshis supportsAnchorsZeroFeeHtlcTx →
    Rejects temporaryChannelId counterpartyNodeId calls)

end Arm

section Policy

/-- What the arm calls: nothing where it panics, and else the acceptance last. -/
lemma openChannelRequest_cases (h : LdkEventHandler) (store : KvStore) (channel : ChannelId)
    (peer : PublicKey) (sats : ℕ) (anchors : Bool) :
    (anchors = true ∧ h.onchainWallet.poisoned = true ∧
      (EventHandler.handleEvent h store (.openChannelRequest channel peer sats anchors)).calls = []) ∨
    ((anchors = true → h.onchainWallet.poisoned = false) ∧ ∃ rejected,
      (EventHandler.handleEvent h store (.openChannelRequest channel peer sats anchors)).calls =
        rejected ++ [acceptChannel h channel peer]) := by
  rw [EventHandler.handleEvent]
  cases anchors with
  | false => exact Or.inr ⟨fun ha => absurd ha Bool.false_ne_true, [], rfl⟩
  | true =>
    cases hp : h.onchainWallet.poisoned with
    | true =>
      left
      simp [WalletManager.lock_of_poisoned hp, Handled.of]
    | false =>
      refine Or.inr ⟨fun _ => rfl, ?_⟩
      simp only [WalletManager.lock_of_unpoisoned hp, if_true]
      split_ifs
      · exact ⟨[rejectChannel h channel peer], rfl⟩
      · exact ⟨[], rfl⟩

variable (h : LdkEventHandler) (store : KvStore) (channel : ChannelId) (peer : PublicKey) (sats : ℕ)
  (anchors : Bool)

lemma not_accepts_nil : ¬ Accepts channel peer [] := by
  rintro ⟨userChannelId, ok, hmem⟩
  cases hmem

lemma accepts_append (rejected : List Call) :
    Accepts channel peer (rejected ++ [acceptChannel h channel peer]) :=
  ⟨0, h.acceptInboundChannel, List.mem_append_right _ List.mem_cons_self⟩

lemma not_rejects_append (rejected : List Call) :
    ¬ Rejects channel peer (rejected ++ [acceptChannel h channel peer]) := by
  rintro ⟨before, errorMessage, ok, after, heq, hafter⟩
  rcases List.eq_nil_or_concat after with rfl | ⟨init, last, rfl⟩
  · have hlast := (List.append_inj' heq rfl).2
    cases hlast
  · rw [List.concat_eq_append, ← List.cons_append, ← List.append_assoc] at heq
    obtain ⟨-, hlast⟩ := List.append_inj' heq rfl
    refine hafter ?_
    rw [List.concat_eq_append, ← hlast]
    exact accepts_append h channel peer init

/-- **A channel is accepted whatever the settings and the balance**, unless the wallet cannot be looked
at for an anchor channel. -/
theorem accepts_openChannelRequest :
    Accepts channel peer (EventHandler.handleEvent h store
      (.openChannelRequest channel peer sats anchors)).calls ↔
      (anchors = true → h.onchainWallet.poisoned = false) := by
  rcases openChannelRequest_cases h store channel peer sats anchors with
    ⟨ha, hp, hcalls⟩ | ⟨hp, rejected, hcalls⟩
  · rw [hcalls]
    refine iff_of_false (not_accepts_nil channel peer) fun hnot => ?_
    rw [hnot ha] at hp
    cases hp
  · rw [hcalls]
    exact iff_of_true (accepts_append h channel peer rejected) hp

theorem not_rejects_openChannelRequest :
    ¬ Rejects channel peer (EventHandler.handleEvent h store
      (.openChannelRequest channel peer sats anchors)).calls := by
  rcases openChannelRequest_cases h store channel peer sats anchors with
    ⟨-, -, hcalls⟩ | ⟨-, rejected, hcalls⟩
  · rw [hcalls]
    rintro ⟨before, errorMessage, ok, after, heq, -⟩
    simp at heq
  · rw [hcalls]
    exact not_rejects_append h channel peer rejected

/-- **Which requests are treated as the policy says.** For every request, every setting, every wallet
and all answers of LDK, the policy is enforced exactly for a channel that is large enough and, with
anchors, finds the reserve and a wallet that can be looked at. -/
theorem policyEnforced_iff (h : ConfiguredHandler) (store : KvStore) (channel : ChannelId)
    (peer : PublicKey) (sats : ℕ) (anchors : Bool) :
    PolicyEnforced h store channel peer sats anchors ↔
      h.config.minChannelValueSat ≤ sats ∧ (anchors = true →
        h.onchainWallet.poisoned = false ∧
          anchorReserveSat ≤ h.onchainWallet.bdkWallet.confirmedBalance) := by
  have haccepts := accepts_openChannelRequest h.toLdkEventHandler store channel peer sats anchors
  have hrejects := not_rejects_openChannelRequest h.toLdkEventHandler store channel peer sats anchors
  simp only [PolicyEnforced, handleEvent_config]
  constructor
  · rintro ⟨haccept, hreject⟩
    have hallowed : Allowed h sats anchors := by
      by_contra hnot
      exact hrejects (hreject hnot)
    have hlock := haccepts.mp (haccept.mpr hallowed)
    exact ⟨hallowed.1, fun ha => ⟨hlock ha, hallowed.2 ha⟩⟩
  · rintro ⟨hmin, hreserve⟩
    have hallowed : Allowed h sats anchors := ⟨hmin, fun ha => (hreserve ha).2⟩
    have haccept := haccepts.mpr fun ha => (hreserve ha).1
    exact ⟨iff_of_true haccept hallowed, fun hnot => absurd hallowed hnot⟩

end Policy

/-! ### Two channels that are not allowed -/

/-- The handler of a node with the default settings and an empty wallet. -/
def defaultHandler (rejectionOk : Bool) : ConfiguredHandler :=
  (NodeBuilder.new
    { minChannelValueSat := 100000
      defaultChannelPublic := true
      maxPendingHtlcs := 50 }).eventHandler
    { quietHandler with forceCloseBroadcastingLatestTxn := rejectionOk }

/-- **A channel of one sat is accepted, and an anchor channel without reserve is accepted after its
rejection**, when that succeeded and when it failed. -/
theorem not_policyEnforced_unallowed :
    ¬ PolicyEnforced (defaultHandler true) ∅ 0 1 1 false ∧
    ∀ rejectionOk, ¬ PolicyEnforced (defaultHandler rejectionOk) ∅ 0 1 100000 true := by
  constructor
  · rintro ⟨hacc, -⟩
    have hallowed := hacc.mp ⟨0, true, List.mem_cons_self⟩
    exact absurd hallowed (by decide)
  · rintro rejectionOk ⟨hacc, -⟩
    have hallowed := hacc.mp ⟨0, true, List.mem_cons_of_mem _ List.mem_cons_self⟩
    cases rejectionOk
    · exact absurd hallowed (by decide)
    · exact absurd hallowed (by decide)

end LnNode.EventHandler.ChannelPolicy
