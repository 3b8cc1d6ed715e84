import LnNode.Node.Funding

/-!
# Whether every anchor channel has its reserve

The handler wants 10,000 sats on-chain for each anchor channel. It looks at the confirmed balance when
a channel is asked for, at nothing else, and accepts the channel whatever it finds; a funding
transaction spends what its coin selection takes.

* `acceptsInbound_openChannelRequest`: the balance does not decide whether a channel is accepted;
* `run_demands`: what a run leaves is the sum of what its requests were for;
* `alwaysReserved_iff`: every anchor channel has its reserve exactly when the requests stay within the
  balance.
-/

namespace LnNode.Node.AnchorReserve

open LnNode.Lib.BlockTree LnNode.Lib.Run LnNode.OnchainWallet LnNode.Storage LnNode.EventHandler
  LnNode.Node.Funding

/-! ### The machine -/

/-- The wallet, the funding transactions that were built, and the number of open anchor channels. -/
structure Reserve where
  onchainWallet : WalletManager
  built : List Transaction
  anchorChannels : ℕ

inductive Action where
  /-- Another node asks for a channel. -/
  | openChannelRequest (h : LdkEventHandler) (temporaryChannelId : ChannelId)
      (counterpartyNodeId : PublicKey) (fundingSatoshis : ℕ) (supportsAnchorsZeroFeeHtlcTx : Bool)
  /-- A channel of ours, with anchors or not, waits for its funding transaction. -/
  | fundingGenerationReady (h : LdkEventHandler) (temporaryChannelId : ChannelId)
      (counterpartyNodeId : PublicKey) (channelValueSatoshis : ℕ) (outputScript : Script)
      (anchors : Bool)
  | blockConnected (block : Chain Block)

def acceptsInbound (calls : List Call) : Bool :=
  calls.any fun
    | .acceptInboundChannel _ _ _ ok => ok
    | _ => false

/-- The calls to LDK of the event's arm. -/
def Action.calls (s : Reserve) : Action → List Call
  | .openChannelRequest h temporaryChannelId counterpartyNodeId sats anchors =>
    (handleEvent { h with onchainWallet := s.onchainWallet } ∅
      (.openChannelRequest temporaryChannelId counterpartyNodeId sats anchors)).calls
  | .fundingGenerationReady h temporaryChannelId counterpartyNodeId value script _ =>
    (handleEvent { h with onchainWallet := s.onchainWallet } ∅
      (.fundingGenerationReady temporaryChannelId counterpartyNodeId value script)).calls
  | .blockConnected _ => []

def reserveStep (s : Reserve) (a : Action) : Option Reserve :=
  match a with
  | .openChannelRequest _ _ _ _ anchors =>
    some { s with
      anchorChannels := s.anchorChannels + if anchors && acceptsInbound (a.calls s) then 1 else 0 }
  | .fundingGenerationReady _ _ _ _ _ anchors =>
    some { s with
      built := handedTxs (a.calls s) ++ s.built
      anchorChannels := s.anchorChannels + if anchors then (acceptedTxs (a.calls s)).length else 0 }
  | .blockConnected block =>
    some { s with onchainWallet := walletBlockConnected s.onchainWallet block }

/-! ### The reserve -/

/-- The confirmed balance, without the coins that are spent already. -/
def freeBalance (w : BdkWallet) (spent : List OutPoint) : ℕ :=
  (((w.listUnspent.filter w.isMature).filter fun utxo => !spent.contains utxo.outpoint).map
    fun utxo => utxo.txout.value).sum

def Reserve.spent (s : Reserve) : List OutPoint := s.built.flatMap Transaction.input

/-- So many anchor channels have their reserve when these coins are spent. -/
def Reserved (s : Reserve) (channels : ℕ) (spent : List OutPoint) : Prop :=
  anchorReserveSat * channels ≤ freeBalance s.onchainWallet.bdkWallet spent

instance (s : Reserve) (channels : ℕ) (spent : List OutPoint) : Decidable (Reserved s channels spent) :=
  inferInstanceAs (Decidable (_ ≤ _))

/-- When an inbound anchor channel is accepted, and when LDK is handed a funding transaction, what is
left covers every anchor channel, the new one included. -/
def ReserveKept (s : Reserve) (a : Action) : Prop :=
  match a with
  | .openChannelRequest _ _ _ _ anchors =>
    anchors = true → acceptsInbound (a.calls s) = true → Reserved s (s.anchorChannels + 1) s.spent
  | .fundingGenerationReady _ _ _ _ _ anchors => ∀ tx ∈ handedTxs (a.calls s),
      Reserved s (s.anchorChannels + if anchors then 1 else 0) (tx.input ++ s.spent)
  | .blockConnected _ => True

/-! ### The requests of a run against the balance -/

/-- What a request that goes through is for: anchor channels that want their reserve, coins, and the
anchor channels that are open afterwards. -/
structure Demand where
  anchorChannels : ℕ
  coins : List OutPoint
  opened : ℕ

/-- The coins BDK selects for an amount that the balance covers, when it can also sign. -/
def selection (m : WalletManager) (b : TxBuilder) (value feeRate : ℕ) : Option (List OutPoint) :=
  match m.lock, b.sign, b.extractTx with
  | some w, .ok true, .ok () =>
    if value ≤ w.confirmedBalance then
      (b.coinSelection.select w.listUnspent value feeRate).map
        fun selected => selected.1.map Utxo.outpoint
    else none
  | _, _, _ => none

/-- A request for an anchor channel that LDK takes, and a funding request whose coins are there. LDK
may still refuse the funding transaction. -/
def Action.demand (m : WalletManager) : Action → Option Demand
  | .openChannelRequest h _ _ _ anchors =>
    if anchors && !m.poisoned && h.acceptInboundChannel then
      some { anchorChannels := 1, coins := [], opened := 1 }
    else none
  | .fundingGenerationReady h _ _ value _ anchors =>
    (selection m h.txBuilder value h.maximumFeeEstimate).map fun coins =>
      { anchorChannels := if anchors then 1 else 0
        coins
        opened := if anchors && h.fundingTransactionGenerated = .accepted then 1 else 0 }
  | .blockConnected _ => none

def Action.wallet (m : WalletManager) : Action → WalletManager
  | .blockConnected block => walletBlockConnected m block
  | _ => m

def walletAfter (m : WalletManager) (as : List Action) : WalletManager := as.foldl Action.wallet m

def demands (m : WalletManager) : List Action → List Demand
  | [] => []
  | a :: as => (a.demand m).toList ++ demands (a.wallet m) as

/-- What some coins are worth to the confirmed balance. -/
def valueIn (w : BdkWallet) (coins : List OutPoint) : ℕ :=
  (((w.listUnspent.filter w.isMature).filter fun utxo => coins.contains utxo.outpoint).map
    fun utxo => utxo.txout.value).sum

/-- **The requests stay within the balance**: at each one that goes through, the reserves of the
channels open at the start, of those opened by the requests before it and of its own, and the coins
selected so far, come to no more than the confirmed balance. -/
def WithinBalance (s : Reserve) (as : List Action) : Prop :=
  ∀ pre a post d, as = pre ++ a :: post → a.demand (walletAfter s.onchainWallet pre) = some d →
    let before := demands s.onchainWallet pre
    let wallet := (walletAfter s.onchainWallet pre).bdkWallet
    anchorReserveSat * (s.anchorChannels + (before.map Demand.opened).sum + d.anchorChannels) +
        valueIn wallet (d.coins ++ before.flatMap Demand.coins ++ s.spent) ≤
      wallet.confirmedBalance

/-! ### What each event does -/

section Steps

variable {s s' t : Reserve}

/-- **A channel with anchors is accepted whatever the balance**: when the wallet can be looked at, LDK
alone decides. -/
theorem acceptsInbound_openChannelRequest (h : LdkEventHandler) (store : KvStore)
    (channel : ChannelId) (peer : PublicKey) (sats : ℕ) :
    acceptsInbound (handleEvent h store (.openChannelRequest channel peer sats true)).calls =
      (!h.onchainWallet.poisoned && h.acceptInboundChannel) := by
  rw [handleEvent]
  cases hp : h.onchainWallet.poisoned with
  | true => simp [WalletManager.lock_of_poisoned hp, acceptsInbound, Handled.of]
  | false =>
    simp only [WalletManager.lock_of_unpoisoned hp, if_true]
    split_ifs <;> simp [acceptsInbound, Handled.of, acceptChannel, rejectChannel]

lemma selection_eq_some (m : WalletManager) (b : TxBuilder) (value feeRate : ℕ) (dest : Script)
    (coins : List OutPoint) : selection m b value feeRate = some coins ↔
      ∃ tx, buildTransaction m b value dest feeRate = .ok tx ∧ tx.input = coins := by
  simp only [buildTransaction_eq_ok]
  unfold selection
  cases hp : m.poisoned with
  | true => simp [WalletManager.lock_of_poisoned hp]
  | false =>
    rw [WalletManager.lock_of_unpoisoned hp]
    rcases hsign : b.sign with e | _ | _
    · simp
    · simp
    · rcases hextract : b.extractTx with e | _
      · simp
      · by_cases hbal : value ≤ m.bdkWallet.confirmedBalance
        · simp [hbal, TxBuilder.transaction]
        · simp [hbal]

lemma inputs_fundingGenerationReady (h : LdkEventHandler) (m : WalletManager) (store : KvStore)
    (channel : ChannelId) (peer : PublicKey) (value : ℕ) (script : Script) :
    let calls := (handleEvent { h with onchainWallet := m } store
      (.fundingGenerationReady channel peer value script)).calls
    let coins := (selection m h.txBuilder value h.maximumFeeEstimate).toList
    (handedTxs calls).map Transaction.input = coins ∧
      (acceptedTxs calls).map Transaction.input =
        if h.fundingTransactionGenerated = .accepted then coins else [] := by
  intro calls coins
  cases hbuild : buildTransaction m h.txBuilder value script h.maximumFeeEstimate with
  | error failure =>
    have hcoins : coins = [] := by
      rw [Option.toList_eq_nil_iff, Option.eq_none_iff_forall_ne_some]
      intro selected hselected
      obtain ⟨tx, htx, -⟩ := (selection_eq_some _ _ _ _ script _).mp hselected
      rw [hbuild] at htx
      cases htx
    have hcalls : calls = [] := by
      show (handleEvent _ _ _).calls = []
      rw [handleEvent, hbuild]
      cases failure <;> rfl
    rw [hcalls, hcoins]
    simp [handedTxs, acceptedTxs]
  | ok tx =>
    have hcoins : coins = [tx.input] := by
      show Option.toList _ = _
      rw [(selection_eq_some _ _ _ _ script _).mpr ⟨tx, hbuild, rfl⟩]
      rfl
    have hcalls : calls = [.fundingTransactionGenerated channel peer tx
        h.fundingTransactionGenerated] := by
      show (handleEvent _ _ _).calls = _
      rw [handleEvent, hbuild]
      rfl
    rw [hcalls, hcoins]
    cases h.fundingTransactionGenerated <;> simp [handedTxs, acceptedTxs]

theorem reserveKept_iff (s : Reserve) (a : Action) : ReserveKept s a ↔
    ∀ d, a.demand s.onchainWallet = some d →
      Reserved s (s.anchorChannels + d.anchorChannels) (d.coins ++ s.spent) := by
  cases a with
  | openChannelRequest h channel peer sats anchors =>
    cases anchors with
    | false => simp [ReserveKept, Action.demand]
    | true =>
      simp only [ReserveKept, Action.calls, acceptsInbound_openChannelRequest, Action.demand,
        Bool.true_and]
      cases (!s.onchainWallet.poisoned && h.acceptInboundChannel) <;> simp
  | fundingGenerationReady h channel peer value script anchors =>
    have hhanded := (inputs_fundingGenerationReady h s.onchainWallet ∅ channel peer value script).1
    simp only [ReserveKept, Action.calls, Action.demand, Option.map_eq_some_iff]
    constructor
    · rintro hkept d ⟨coins, hcoins, rfl⟩
      have hmem : coins ∈ (selection s.onchainWallet h.txBuilder value
          h.maximumFeeEstimate).toList := by simp [hcoins]
      obtain ⟨tx, htx, rfl⟩ := List.mem_map.mp (hhanded ▸ hmem)
      exact hkept tx htx
    · intro hdemand tx htx
      have hmem := List.mem_map_of_mem (f := Transaction.input) htx
      rw [hhanded, Option.mem_toList] at hmem
      exact hdemand _ ⟨tx.input, hmem, rfl⟩
  | blockConnected block => simp [ReserveKept, Action.demand]

/-- What one event changes is what it is for. -/
lemma reserveStep_demand {a : Action} (hs : reserveStep s a = some s') :
    s'.onchainWallet = a.wallet s.onchainWallet ∧
      s'.anchorChannels =
        s.anchorChannels + ((a.demand s.onchainWallet).toList.map Demand.opened).sum ∧
      s'.spent = (a.demand s.onchainWallet).toList.flatMap Demand.coins ++ s.spent := by
  cases a with
  | openChannelRequest h channel peer sats anchors =>
    cases hs
    refine ⟨rfl, ?_, ?_⟩
    · cases anchors with
      | false => simp [Action.demand]
      | true =>
        simp only [Action.calls, acceptsInbound_openChannelRequest, Action.demand, Bool.true_and]
        cases (!s.onchainWallet.poisoned && h.acceptInboundChannel) <;> simp
    · rw [Action.demand]
      split_ifs <;> rfl
  | fundingGenerationReady h channel peer value script anchors =>
    cases hs
    obtain ⟨hhanded, haccepted⟩ :=
      inputs_fundingGenerationReady h s.onchainWallet ∅ channel peer value script
    refine ⟨rfl, ?_, ?_⟩
    · have hlength := congrArg List.length haccepted
      rw [List.length_map] at hlength
      simp only [Action.calls, hlength, Action.demand]
      cases anchors <;> cases h.fundingTransactionGenerated <;>
        cases selection s.onchainWallet h.txBuilder value h.maximumFeeEstimate <;> simp
    · unfold Reserve.spent
      rw [List.flatMap_append, List.flatMap_def, Action.calls, hhanded, Action.demand]
      cases selection s.onchainWallet h.txBuilder value h.maximumFeeEstimate <;> simp
  | blockConnected block =>
    cases hs
    exact ⟨rfl, rfl, rfl⟩

lemma reserveStep_total (s : Reserve) (a : Action) : ∃ s', reserveStep s a = some s' := by
  cases a <;> exact ⟨_, rfl⟩

/-- **What a run leaves is what its requests were for.** -/
theorem run_demands {as : List Action} (hr : run reserveStep s as = some t) :
    t.onchainWallet = walletAfter s.onchainWallet as ∧
      t.anchorChannels =
        s.anchorChannels + ((demands s.onchainWallet as).map Demand.opened).sum ∧
      ∀ o, o ∈ t.spent ↔ o ∈ (demands s.onchainWallet as).flatMap Demand.coins ++ s.spent := by
  induction as generalizing s with
  | nil =>
    cases hr
    simp [walletAfter, demands]
  | cons a as ih =>
    rw [run_cons, Option.bind_eq_some_iff] at hr
    obtain ⟨s', hs', hr⟩ := hr
    obtain ⟨hwallet, hchannels, hspent⟩ := reserveStep_demand hs'
    obtain ⟨hwallet', hchannels', hspent'⟩ := ih hr
    refine ⟨?_, ?_, fun o => ?_⟩
    · rw [hwallet', hwallet]
      rfl
    · rw [hchannels', hchannels, hwallet, demands, List.map_append, List.sum_append, Nat.add_assoc]
    · rw [hspent', hspent, hwallet, demands, List.flatMap_append]
      simp only [List.mem_append]
      tauto

/-- The confirmed balance is what is spent of it and what is free. -/
lemma freeBalance_add_valueIn (w : BdkWallet) (coins : List OutPoint) :
    freeBalance w coins + valueIn w coins = w.confirmedBalance := by
  unfold freeBalance valueIn BdkWallet.confirmedBalance
  induction w.listUnspent.filter w.isMature with
  | nil => rfl
  | cons utxo utxos ih =>
    cases hc : coins.contains utxo.outpoint <;>
      simp only [List.filter_cons, hc, Bool.not_true, Bool.not_false, Bool.false_eq_true, if_true,
        if_false, List.map_cons, List.sum_cons] <;> omega

lemma valueIn_congr (w : BdkWallet) {coins coins' : List OutPoint}
    (h : ∀ o, o ∈ coins ↔ o ∈ coins') : valueIn w coins = valueIn w coins' := by
  have hcontains : ∀ o, coins.contains o = coins'.contains o := fun o => by
    rw [Bool.eq_iff_iff, List.contains_iff_mem, List.contains_iff_mem, h o]
  simp only [valueIn, hcontains]

lemma reserveKept_reached_iff {pre : List Action} (hr : run reserveStep s pre = some t) (a : Action) :
    ReserveKept t a ↔ ∀ d, a.demand (walletAfter s.onchainWallet pre) = some d →
      let before := demands s.onchainWallet pre
      let wallet := (walletAfter s.onchainWallet pre).bdkWallet
      anchorReserveSat * (s.anchorChannels + (before.map Demand.opened).sum + d.anchorChannels) +
          valueIn wallet (d.coins ++ before.flatMap Demand.coins ++ s.spent) ≤
        wallet.confirmedBalance := by
  obtain ⟨hwallet, hchannels, hspent⟩ := run_demands hr
  rw [reserveKept_iff, hwallet]
  refine forall₂_congr fun d _ => ?_
  have hcoins : ∀ o, o ∈ d.coins ++ t.spent ↔
      o ∈ d.coins ++ (demands s.onchainWallet pre).flatMap Demand.coins ++ s.spent := fun o => by
    rw [List.append_assoc, List.mem_append, List.mem_append, hspent]
  have hsplit := freeBalance_add_valueIn t.onchainWallet.bdkWallet (d.coins ++ t.spent)
  rw [valueIn_congr _ hcoins, hwallet] at hsplit
  simp only [Reserved, hwallet, hchannels]
  omega

end Steps

/-- **When every anchor channel has its reserve.** For every wallet and every run of channel requests,
funding requests and connected blocks, with any answers of BDK and LDK: the reserve covers all anchor
channels whenever one is accepted or a funding transaction is handed over, exactly when the requests
stay within the balance. -/
theorem alwaysReserved_iff (s : Reserve) (as : List Action) :
    StepsMeet reserveStep ReserveKept s as ↔ WithinBalance s as := by
  rw [stepsMeet_iff]
  constructor
  · intro h pre a post d has hd
    obtain ⟨t, hr⟩ := run_of_total reserveStep_total s pre
    obtain ⟨t', hs⟩ := reserveStep_total t a
    exact (reserveKept_reached_iff hr a).mp (h pre a post t t' has hr hs) d hd
  · intro h pre a post t t' has hr _
    exact (reserveKept_reached_iff hr a).mpr fun d hd => h pre a post d has hd

/-! ### Two channels with one reserve -/

def reserveBlock : Block where
  header := 1
  txdata := [{ txid := 7, input := [⟨1, 0⟩], output := [{ value := 10000, scriptPubkey := 3 }] }]

def oneReserve : Reserve where
  onchainWallet := { bdkWallet := { paidWallet with
    latestCheckpoint := [reserveBlock]
    graph := reserveBlock.txdata } }
  built := []
  anchorChannels := 0

def askAnchorChannel (channel : ChannelId) : Action :=
  .openChannelRequest quietHandler channel 1 20000 true

/-- **Two anchor channels are accepted on one reserve.** -/
theorem not_alwaysReserved_twoChannels :
    StepsMeet reserveStep ReserveKept oneReserve [askAnchorChannel 0] ∧
    ¬ StepsMeet reserveStep ReserveKept oneReserve [askAnchorChannel 0, askAnchorChannel 1] := by
  constructor
  · rintro _ ⟨⟩
    exact ⟨fun _ _ => by decide, trivial⟩
  · intro h
    have hsecond := ((h _ rfl).2 _ rfl).1 rfl rfl
    exact absurd hsecond (by decide)

end LnNode.Node.AnchorReserve
