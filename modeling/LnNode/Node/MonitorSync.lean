import LnNode.Node.Start
import LnNode.Lib.Run

/-!
# Whether the channel monitors see every block

At every start the listeners are synchronised to the best tip, and the SPV client feeds the chain
monitor from that tip on. The listeners of the monitors are clones, so what the chain monitor holds
is where it was on disk.

* `caughtUp_iff_best`: one start leaves the monitors caught up exactly when the tip is no further
  than the best block of each of them;
* `always_seesBestChain`: over any number of starts that all find the tip so, every monitor that is
  held sees every block of the best chain.
-/

namespace LnNode.Node.MonitorSync

open LnNode.Lib.BlockTree LnNode.Lib.Run LnNode.OnchainWallet LnNode.BitcoindClient
  LnNode.Node.Start

/-! ### One start -/

/-- Each of the monitors that were on disk is held, and the held one has processed every block on
the path from the best block on disk to the tip. -/
def CaughtUp (monitors held : List ChannelMonitor) (tip : Chain Block) : Prop :=
  ∀ m ∈ monitors, ∃ m', getMonitor held m.channelId = some m' ∧
    ∀ b ∈ pathUp (forkPoint m.best tip) tip, b ∈ m'.processed

/-- The tip is no further than the best block of any of the monitors. -/
def TipBehindMonitors (monitors : List ChannelMonitor) (tip : Chain Block) : Prop :=
  ∀ m ∈ monitors, tip <:+ m.best

section OneStart

variable {held held' ms : List ChannelMonitor} {m : ChannelMonitor}

lemma watchChannel_ok (h : watchChannel held m = .ok held') :
    held' = held ++ [m] ∧ ∀ m' ∈ held, m'.channelId ≠ m.channelId := by
  unfold watchChannel at h
  split_ifs at h with hany
  refine ⟨(Except.ok.inj h).symm, fun m' hm' he => hany ?_⟩
  exact List.any_eq_true.mpr ⟨m', hm', by simp [he]⟩

lemma getMonitor_append_self (h : ∀ m' ∈ held, m'.channelId ≠ m.channelId) :
    getMonitor (held ++ m :: ms) m.channelId = some m := by
  unfold getMonitor
  rw [List.find?_append, List.find?_eq_none.mpr (fun m' hm' => by simpa using h m' hm')]
  simp

theorem getMonitor_of_watchChannels (h : watchChannels held ms = .ok held') (hm : m ∈ ms) :
    getMonitor held' m.channelId = some m := by
  induction ms generalizing held with
  | nil => cases hm
  | cons m₀ ms ih =>
    rw [watchChannels] at h
    split at h
    · cases h
    · rename_i held₁ h₁
      obtain ⟨rfl, hfresh⟩ := watchChannel_ok h₁
      rcases List.mem_cons.mp hm with rfl | hm
      · rw [watchChannels_ok h, List.append_assoc, List.singleton_append]
        exact getMonitor_append_self hfresh
      · exact ih h hm

/-- **One start.** The synchronisation leaves the held monitors caught up with its tip exactly when
there was nothing to catch up with. -/
theorem caughtUp_iff_best {manager tip : Chain Block} {monitors : List ChannelMonitor}
    {wallet : BdkWallet} {node node' : ChainListener}
    (hb : build manager monitors wallet = .ok node) (hs : startSync node tip = .ok node') :
    CaughtUp monitors node'.chainMonitor tip ↔ TipBehindMonitors monitors tip := by
  have hheld : watchChannels [] monitors = .ok node'.chainMonitor := by
    rw [startSync_eq] at hs
    rw [← Except.ok.inj hs]
    unfold build at hb
    split at hb
    · cases hb
    · rename_i held hw
      cases hb
      exact hw
  refine ⟨fun h m hm => ?_, fun h m hm => ?_⟩
  · obtain ⟨m', hm', hpath⟩ := h m hm
    obtain rfl : m = m' := Option.some.inj ((getMonitor_of_watchChannels hheld hm).symm.trans hm')
    by_cases hf : forkPoint m.best tip = tip
    · exact forkPoint_eq_right.mp hf
    · -- the tip itself is on the path, and a monitor has processed ancestors of its best block only
      have htip : tip ∈ pathUp (forkPoint m.best tip) tip := by
        rw [mem_pathUp (forkPoint_suffix_right _ _)]
        exact ⟨List.suffix_refl tip, forkPoint_suffix_right _ _, fun he => hf he.symm⟩
      exact m.processed_le tip (hpath tip htip)
  · refine ⟨m, getMonitor_of_watchChannels hheld hm, fun b hb => ?_⟩
    rw [forkPoint_eq_right.mpr (h m hm), pathUp_self] at hb
    cases hb

end OneStart

/-! ### Any number of starts and stops -/

/-- A node whose chain task is running: what the listener holds, and the tip of the SPV client. -/
structure Running where
  node : ChainListener
  chainTip : Chain Block

/-- What is on disk, and the node if it is running. -/
structure Lifetime where
  manager : Chain Block
  monitors : List ChannelMonitor
  running : Option Running

inductive Action where
  /-- Build from disk with the wallet as it is loaded, synchronise, and catch up with the wallet. -/
  | start (wallet : BdkWallet) (syncedTip walletTip : Chain Block)
  | poll (best : Chain Block)
  /-- A new channel, whose monitor starts at the manager's best block. -/
  | openChannel (channelId : ℕ)
  | persistManager
  | persistMonitor (channelId : ℕ)
  /-- A shutdown or a crash: what was not persisted is gone. -/
  | stop

/-- The monitor's file is replaced, or a new one is written. -/
def persist (monitors : List ChannelMonitor) (m : ChannelMonitor) : List ChannelMonitor :=
  m :: monitors.filter fun m' => m'.channelId != m.channelId

def newMonitor (node : ChainListener) (channelId : ℕ) : ChannelMonitor :=
  .atBlock channelId node.channelManager

section Machine

variable (blockWork : Block → ℕ+)

/-- The node at the moment its chain task enters the loop. -/
def startNode (s : Lifetime) (wallet : BdkWallet) (syncedTip walletTip : Chain Block) :
    Except StartError Running :=
  match build s.manager s.monitors wallet with
  | .error e => .error e
  | .ok node =>
    match chainTask blockWork node syncedTip walletTip [] with
    | .error e => .error e
    | .ok (node', chainTip) => .ok { node := node', chainTip }

/-- One step of a node's life. A start that fails leaves no node; a poll that panics ends the run. -/
def lifetimeStep (s : Lifetime) : Action → Option Lifetime
  | .start wallet syncedTip walletTip =>
    match s.running with
    | some _ => none
    | none => some { s with running := (startNode blockWork s wallet syncedTip walletTip).toOption }
  | .poll best =>
    match s.running with
    | none => none
    | some r =>
      match pollBestTip blockWork r.node r.chainTip best with
      | .error _ => none
      | .ok (node', chainTip') => some { s with running := some { node := node', chainTip := chainTip' } }
  | .openChannel channelId =>
    match s.running with
    | none => none
    | some r =>
      match watchChannel r.node.chainMonitor (newMonitor r.node channelId) with
      | .error _ => none
      | .ok held =>
        some { s with
          monitors := persist s.monitors (newMonitor r.node channelId)
          running := some { r with node := { r.node with chainMonitor := held } } }
  | .persistManager =>
    match s.running with
    | none => none
    | some r => some { s with manager := r.node.channelManager }
  | .persistMonitor channelId =>
    match s.running with
    | none => none
    | some r =>
      match getMonitor r.node.chainMonitor channelId with
      | none => none
      | some m => some { s with monitors := persist s.monitors m }
  | .stop => some { s with running := none }

end Machine

/-- A node that has never run: no monitors, and the best block a fresh manager is created with. -/
def neverRun (manager : Chain Block) : Lifetime where
  manager := manager
  monitors := []
  running := none

/-- A monitor has every block of its chain up to `c` since it was created. -/
def ChannelMonitor.SeenUpTo (m : ChannelMonitor) (c : Chain Block) : Prop :=
  ∀ b, b <:+ c → ¬ b <:+ m.birth → b ∈ m.processed

/-- Every monitor that is held has seen every block of the chain of the SPV client. -/
def SeesBestChain (s : Lifetime) : Prop :=
  ∀ r, s.running = some r → ∀ m ∈ r.node.chainMonitor, ChannelMonitor.SeenUpTo m r.chainTip

/-- A start finds its tip no further than the monitors on disk. -/
def StartsBehindMonitors (s : Lifetime) : Action → Prop
  | .start _ syncedTip _ => TipBehindMonitors s.monitors syncedTip
  | _ => True

/-! ### What every step keeps -/

/-- A held monitor is no lower than the chain of the SPV client, and has no gap. -/
structure HeldAt (c : Chain Block) (m : ChannelMonitor) : Prop where
  tip : c <:+ m.best
  noGap : ChannelMonitor.SeenUpTo m m.best

/-- The monitors on disk have no gap; the running node's manager is at the SPV client's tip and its
monitors are no lower. -/
structure NoGaps (s : Lifetime) : Prop where
  disk : ∀ m ∈ s.monitors, ChannelMonitor.SeenUpTo m m.best
  manager : ∀ r, s.running = some r → r.node.channelManager = r.chainTip
  held : ∀ r, s.running = some r → ∀ m ∈ r.node.chainMonitor, HeldAt r.chainTip m

section Steps

variable {blockWork : Block → ℕ+} {c f : Chain Block} {m : ChannelMonitor} {s s' : Lifetime}

lemma HeldAt.seen (h : HeldAt c m) : ChannelMonitor.SeenUpTo m c :=
  fun b hb => h.noGap b (hb.trans h.tip)

lemma HeldAt.connected (h : HeldAt c m) (x : Block) : HeldAt (x :: c) (m.blockConnected (x :: c)) := by
  refine ⟨List.suffix_refl _, fun b hb hbirth => ?_⟩
  rw [ChannelMonitor.mem_processed_blockConnected]
  rcases List.suffix_cons_iff.mp hb with rfl | hbc
  · exact Or.inl rfl
  · exact Or.inr ⟨h.seen b hbc hbirth, hb⟩

lemma HeldAt.disconnected (h : HeldAt c m) (hf : f <:+ c) :
    HeldAt f (m.blocksDisconnected f) := by
  refine ⟨List.suffix_refl _, fun b hb hbirth => ?_⟩
  rw [ChannelMonitor.mem_processed_blocksDisconnected]
  exact ⟨h.seen b (hb.trans hf) hbirth, hb⟩

def ListenerAt (c : Chain Block) (l : ChainListener) : Prop :=
  l.channelManager = c ∧ ∀ m ∈ l.chainMonitor, HeldAt c m

lemma ListenerAt.connected {l l' : ChainListener} {x : Block} (h : ListenerAt c l)
    (hc : chainListener.connected l (x :: c) = .ok l') : ListenerAt (x :: c) l' := by
  obtain ⟨-, -, rfl⟩ := filteredBlockConnected_ok hc
  refine ⟨rfl, fun m hm => ?_⟩
  obtain ⟨m₀, hm₀, rfl⟩ := List.mem_map.mp hm
  exact (h.2 m₀ hm₀).connected x

lemma ListenerAt.disconnected {l l' : ChainListener} (h : ListenerAt c l) (hf : f <:+ c)
    (hne : f ≠ c) (hd : chainListener.disconnected l f = .ok l') : ListenerAt f l' := by
  obtain ⟨rfl, hheld⟩ := h
  obtain rfl : l.retreat f = l' := Except.ok.inj ((blocksDisconnected_ancestor hf hne).symm.trans hd)
  refine ⟨rfl, fun m hm => ?_⟩
  obtain ⟨m₀, hm₀, rfl⟩ := List.mem_map.mp hm
  exact (hheld m₀ hm₀).disconnected hf

lemma ListenerAt.poll {l l' : ChainListener} {best c' : Chain Block} (h : ListenerAt c l)
    (hp : pollBestTip blockWork l c best = .ok (l', c')) : ListenerAt c' l' := by
  unfold pollBestTip at hp
  split_ifs at hp
  · split at hp
    · cases hp
    · rename_i l₁ hfollow
      cases hp
      exact follow_keeps h (fun _ _ _ _ hs hf hne hd => hs.disconnected hf hne hd)
        (fun _ _ _ _ hs hc => hs.connected hc) hfollow
  · cases hp
    exact h

/-- A start puts the monitors on disk into the chain monitor, and the manager at the tip. -/
lemma startNode_eq_some {wallet : BdkWallet} {syncedTip walletTip : Chain Block} {r : Running}
    (h : (startNode blockWork s wallet syncedTip walletTip).toOption = some r) :
    r.chainTip = syncedTip ∧ r.node.channelManager = syncedTip ∧
      r.node.chainMonitor = s.monitors := by
  unfold startNode at h
  split at h
  · cases h
  · rename_i node hb
    rw [build_ok hb] at h
    simp only [chainTask, startSync_eq, WalletManager.lock, Bool.false_eq_true, if_false] at h
    obtain ⟨w', hw', -⟩ := syncWallet_eq wallet walletTip
    simp only [hw', pollLoop, Except.mapError] at h
    cases h
    exact ⟨rfl, rfl, rfl⟩

lemma seenUpTo_persist {ms : List ChannelMonitor}
    (h : ∀ m ∈ ms, ChannelMonitor.SeenUpTo m m.best) (hm : ChannelMonitor.SeenUpTo m m.best) :
    ∀ m' ∈ persist ms m, ChannelMonitor.SeenUpTo m' m'.best := by
  intro m' hm'
  rcases List.mem_cons.mp hm' with rfl | hm'
  · exact hm
  · exact h m' (List.mem_filter.mp hm').1

lemma heldAt_newMonitor {node : ChainListener} (channelId : ℕ) (h : node.channelManager = c) :
    HeldAt c (newMonitor node channelId) := by
  subst h
  exact ⟨List.suffix_refl _, fun b hb hbirth => absurd hb hbirth⟩

/-! What each action does. -/

lemma start_cases {wallet : BdkWallet} {syncedTip walletTip : Chain Block}
    (hs : lifetimeStep blockWork s (.start wallet syncedTip walletTip) = some s') :
    s' = { s with running := (startNode blockWork s wallet syncedTip walletTip).toOption } := by
  rw [lifetimeStep] at hs
  split at hs
  · cases hs
  · exact (Option.some.inj hs).symm

lemma poll_cases {best : Chain Block} (hs : lifetimeStep blockWork s (.poll best) = some s') :
    ∃ r node' chainTip', s.running = some r ∧
      pollBestTip blockWork r.node r.chainTip best = .ok (node', chainTip') ∧
      s' = { s with running := some { node := node', chainTip := chainTip' } } := by
  rw [lifetimeStep] at hs
  split at hs
  · cases hs
  · rename_i r hr
    split at hs
    · cases hs
    · rename_i node' chainTip' hpoll
      exact ⟨r, node', chainTip', hr, hpoll, (Option.some.inj hs).symm⟩

lemma openChannel_cases {channelId : ℕ}
    (hs : lifetimeStep blockWork s (.openChannel channelId) = some s') :
    ∃ r held, s.running = some r ∧
      watchChannel r.node.chainMonitor (newMonitor r.node channelId) = .ok held ∧
      s' = { s with
        monitors := persist s.monitors (newMonitor r.node channelId)
        running := some { r with node := { r.node with chainMonitor := held } } } := by
  rw [lifetimeStep] at hs
  split at hs
  · cases hs
  · rename_i r hr
    split at hs
    · cases hs
    · rename_i held hw
      exact ⟨r, held, hr, hw, (Option.some.inj hs).symm⟩

lemma persistManager_cases (hs : lifetimeStep blockWork s .persistManager = some s') :
    ∃ r, s.running = some r ∧ s' = { s with manager := r.node.channelManager } := by
  rw [lifetimeStep] at hs
  split at hs
  · cases hs
  · rename_i r hr
    exact ⟨r, hr, (Option.some.inj hs).symm⟩

lemma persistMonitor_cases {channelId : ℕ}
    (hs : lifetimeStep blockWork s (.persistMonitor channelId) = some s') :
    ∃ r m, s.running = some r ∧ m ∈ r.node.chainMonitor ∧
      s' = { s with monitors := persist s.monitors m } := by
  rw [lifetimeStep] at hs
  split at hs
  · cases hs
  · rename_i r hr
    split at hs
    · cases hs
    · rename_i m hm
      exact ⟨r, m, hr, List.mem_of_find?_eq_some hm, (Option.some.inj hs).symm⟩

/-- **One step keeps the monitors without gaps**, if it is no start that finds its tip further than
a monitor. -/
theorem NoGaps.step {a : Action} (h : NoGaps s) (hok : StartsBehindMonitors s a)
    (hs : lifetimeStep blockWork s a = some s') : NoGaps s' := by
  cases a with
  | start wallet syncedTip walletTip =>
    obtain rfl := start_cases hs
    refine ⟨h.disk, fun r hr => ?_, fun r hr m hm => ?_⟩
    · obtain ⟨htip, hman, -⟩ := startNode_eq_some hr
      rw [htip, hman]
    · obtain ⟨htip, -, hmon⟩ := startNode_eq_some hr
      rw [hmon] at hm
      rw [htip]
      exact ⟨hok m hm, h.disk m hm⟩
  | poll best =>
    obtain ⟨r, node', chainTip', hr, hpoll, rfl⟩ := poll_cases hs
    have hat : ListenerAt chainTip' node' := ListenerAt.poll ⟨h.manager r hr, h.held r hr⟩ hpoll
    refine ⟨h.disk, fun r' hr' => ?_, fun r' hr' => ?_⟩
    · cases hr'
      exact hat.1
    · cases hr'
      exact hat.2
  | openChannel channelId =>
    obtain ⟨r, held, hr, hw, rfl⟩ := openChannel_cases hs
    have hnew := heldAt_newMonitor channelId (h.manager r hr)
    refine ⟨seenUpTo_persist h.disk hnew.noGap, fun r' hr' => ?_, fun r' hr' m hm => ?_⟩
    · cases hr'
      exact h.manager r hr
    · cases hr'
      rw [(watchChannel_ok hw).1] at hm
      rcases List.mem_append.mp hm with hm | hm
      · exact h.held r hr m hm
      · rw [List.mem_singleton.mp hm]
        exact hnew
  | persistManager =>
    obtain ⟨r, -, rfl⟩ := persistManager_cases hs
    exact ⟨h.disk, h.manager, h.held⟩
  | persistMonitor channelId =>
    obtain ⟨r, m, hr, hm, rfl⟩ := persistMonitor_cases hs
    exact ⟨seenUpTo_persist h.disk (h.held r hr m hm).noGap, h.manager, h.held⟩
  | stop =>
    cases hs
    exact ⟨h.disk, by simp, by simp⟩

theorem always_seesBestChain {as : List Action} (h : NoGaps s)
    (hok : StepsMeet (lifetimeStep blockWork) StartsBehindMonitors s as) :
    Always (lifetimeStep blockWork) SeesBestChain s as :=
  (hok.always h fun _ _ _ hI hk hs => hI.step hk hs).imp
    fun _ hI r hr m hm => (hI.held r hr m hm).seen

lemma noGaps_neverRun (manager : Chain Block) : NoGaps (neverRun manager) :=
  ⟨by simp [neverRun], by simp [neverRun], by simp [neverRun]⟩

end Steps

/-- **When no monitor skips a block.** For every set of monitors on disk and every tip, the
synchronisation of a start leaves the held monitors caught up exactly when the tip is no further than
the best block of each; and over any number of starts, polls, new channels, writes and stops in which
every start finds its tip so, every held monitor sees every block of the best chain. -/
theorem monitorsSeeEveryBlock_iff (manager : Chain Block) :
    (∀ (tip : Chain Block) (monitors : List ChannelMonitor) (wallet : BdkWallet)
      (node node' : ChainListener), build manager monitors wallet = .ok node →
      startSync node tip = .ok node' →
      (CaughtUp monitors node'.chainMonitor tip ↔ TipBehindMonitors monitors tip)) ∧
    ∀ (blockWork : Block → ℕ+) (as : List Action),
      StepsMeet (lifetimeStep blockWork) StartsBehindMonitors (neverRun manager) as →
      Always (lifetimeStep blockWork) SeesBestChain (neverRun manager) as :=
  ⟨fun _ _ _ _ _ hb hs => caughtUp_iff_best hb hs,
    fun _ _ hok => always_seesBestChain (noGaps_neverRun manager) hok⟩

/-! ### A block while the node is offline -/

def monitorAtRoot : ChannelMonitor := .atBlock 0 []

def listenerAtRoot : ChainListener where
  channelManager := []
  chainMonitor := [monitorAtRoot]
  onchainWallet := { bdkWallet := loadedWallet }

theorem monitorsSeeEveryBlock_iff_at :
    (CaughtUp [monitorAtRoot] [monitorAtRoot] [] ↔ TipBehindMonitors [monitorAtRoot] []) ∧
    Always (lifetimeStep fun _ => 1) SeesBestChain (neverRun [])
      [.start loadedWallet [] [], .openChannel 0, .poll [emptyBlock 1], .persistMonitor 0, .stop,
        .start loadedWallet [emptyBlock 1] [emptyBlock 1]] := by
  refine ⟨(monitorsSeeEveryBlock_iff []).1 [] [monitorAtRoot] loadedWallet listenerAtRoot
    listenerAtRoot rfl rfl, (monitorsSeeEveryBlock_iff []).2 _ _ ?_⟩
  refine .cons rfl (by simp [StartsBehindMonitors, TipBehindMonitors, neverRun]) ?_
  refine .cons rfl trivial (.cons rfl trivial (.cons rfl trivial (.cons rfl trivial ?_)))
  refine .cons rfl ?_ trivial
  show ∀ m ∈ _, [emptyBlock 1] <:+ ChannelMonitor.best m
  decide

/-- **A monitor that was written at the root, and a block while the node is offline**: after the
synchronisation the held monitor has not processed the block, and the next poll brings the one after
it. The block is never seen. -/
theorem not_seesEveryBlock_offline :
    (∃ node node', build [] [monitorAtRoot] loadedWallet = .ok node ∧
      startSync node [emptyBlock 1] = .ok node' ∧
      ¬ CaughtUp [monitorAtRoot] node'.chainMonitor [emptyBlock 1]) ∧
    ∃ s, run (lifetimeStep fun _ => 1) (neverRun [])
      [.start loadedWallet [] [], .openChannel 0, .persistManager, .stop,
        .start loadedWallet [emptyBlock 1] [emptyBlock 1], .poll [emptyBlock 2, emptyBlock 1]] =
        some s ∧ ¬ SeesBestChain s := by
  refine ⟨⟨listenerAtRoot, _, rfl, rfl, fun h => ?_⟩, _, rfl, fun h => ?_⟩
  · obtain ⟨m, hm, hpath⟩ := h monitorAtRoot List.mem_cons_self
    cases hm
    exact absurd (hpath [emptyBlock 1] (by decide)) (by decide)
  · exact absurd (h _ rfl _ List.mem_cons_self [emptyBlock 1] (by decide) (by decide)) (by decide)

end LnNode.Node.MonitorSync
