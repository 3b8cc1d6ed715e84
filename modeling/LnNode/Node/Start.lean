import LnNode.BitcoindClient

/-!
# `Node::start`: the chain side

What `NodeBuilder::build` puts into the chain monitor, the synchronisation of the listeners to the
best tip, the catch-up of the wallet through the emitter, and the loop of the SPV client.

`init::synchronize_listeners`, the emitter and `SpvClient` are code outside the repository; the model
takes of them that they bring what they are given from its own best block to the tip, block by block
(`follow`), and that the SPV client follows strictly heavier tips only.

* `startSync_eq`: the synchronisation always succeeds, brings the manager to the tip and leaves the
  monitors inside the chain monitor as they were, since it runs on clones of them;
* `syncWallet_eq`: the catch-up always succeeds and ends at the best tip of its own moment;
* `follow_chainListener_ok`, `follow_chainListener_panics`: when the loop can follow a tip.
-/

namespace LnNode.Node.Start

open LnNode.Lib.BlockTree LnNode.OnchainWallet LnNode.BitcoindClient

inductive StartError where
  | watchChannel
  | monitorNotFound
  | emittedBlock
  | panicked (panic : Panic)
  deriving DecidableEq, Repr

/-! ### `NodeBuilder::build` -/

/-- A channel is watched once. -/
def watchChannel (held : List ChannelMonitor) (m : ChannelMonitor) :
    Except StartError (List ChannelMonitor) :=
  if held.any fun m' => m'.channelId == m.channelId then .error .watchChannel else .ok (held ++ [m])

/-- The monitors that were read go into the chain monitor one by one. -/
def watchChannels : List ChannelMonitor → List ChannelMonitor → Except StartError (List ChannelMonitor)
  | held, [] => .ok held
  | held, m :: ms =>
    match watchChannel held m with
    | .error e => .error e
    | .ok held' => watchChannels held' ms

/-- A node as it is built: the manager and the monitors that were on disk, and the loaded wallet. -/
def build (manager : Chain Block) (monitors : List ChannelMonitor) (wallet : BdkWallet) :
    Except StartError ChainListener :=
  match watchChannels [] monitors with
  | .error e => .error e
  | .ok held =>
    .ok { channelManager := manager, chainMonitor := held, onchainWallet := { bdkWallet := wallet } }

/-! ### The synchronisation of the listeners -/

def getMonitor (held : List ChannelMonitor) (channelId : ℕ) : Option ChannelMonitor :=
  held.find? fun m => m.channelId == channelId

/-- A clone has its own copy of the inner state. -/
def clone (m : ChannelMonitor) : ChannelMonitor := m

/-- The listeners of the monitors: for every id a clone of the monitor that is held, with the
clone's best block. -/
def monitorListeners (held : List ChannelMonitor) :
    List ℕ → Except StartError (List (Chain Block × ChannelMonitor))
  | [] => .ok []
  | channelId :: ids =>
    match getMonitor held channelId with
    | none => .error .monitorNotFound
    | some m =>
      match monitorListeners held ids with
      | .error e => .error e
      | .ok rest => .ok (((clone m).best, clone m) :: rest)

def synchronizeMonitors (tip : Chain Block) :
    List (Chain Block × ChannelMonitor) → Except Panic (List ChannelMonitor)
  | [] => .ok []
  | (best, m) :: rest =>
    match follow monitorListener m best tip with
    | .error e => .error e
    | .ok m' =>
      match synchronizeMonitors tip rest with
      | .error e => .error e
      | .ok ms => .ok (m' :: ms)

/-- Channel manager and channel monitors are synchronised to the same tip: the manager itself, and
of the monitors the clones, which nothing holds afterwards. -/
def startSync (node : ChainListener) (tip : Chain Block) : Except StartError ChainListener :=
  match monitorListeners node.chainMonitor (node.chainMonitor.map ChannelMonitor.channelId) with
  | .error e => .error e
  | .ok listeners =>
    match follow managerListener node.channelManager node.channelManager tip with
    | .error e => .error (.panicked e)
    | .ok manager =>
      match synchronizeMonitors tip listeners with
      | .error e => .error (.panicked e)
      | .ok _clones => .ok { node with channelManager := manager }

/-! ### The catch-up of the wallet -/

/-- The blocks of the emitter go into the wallet, each connected to its parent. -/
def applyEmitted : BdkWallet → List (Chain Block) → Option BdkWallet
  | w, [] => some w
  | w, b :: bs =>
    match w.applyBlockConnectedTo b b.tail with
    | none => none
    | some w' => applyEmitted w' bs

/-- The emitter goes from the last block the wallet shares with the best chain up to its tip. -/
def syncWallet (w : BdkWallet) (tip : Chain Block) : Option BdkWallet :=
  applyEmitted w (pathUp (forkPoint w.latestCheckpoint tip) tip)

/-- Where the wallet is after the catch-up: at the tip, unless it was above it already. -/
def caughtUpTip (walletTip tip : Chain Block) : Chain Block :=
  if tip <:+ walletTip then walletTip else tip

/-! ### The loop of the SPV client -/

section Poll

variable (blockWork : Block → ℕ+)

/-- One poll: a strictly heavier tip is followed. -/
def pollBestTip (node : ChainListener) (chainTip best : Chain Block) :
    Except Panic (ChainListener × Chain Block) :=
  if work blockWork chainTip < work blockWork best then
    match follow chainListener node chainTip best with
    | .error e => .error e
    | .ok node' => .ok (node', best)
  else .ok (node, chainTip)

/-- The loop, over the best tips that the polls see. -/
def pollLoop : ChainListener → Chain Block → List (Chain Block) →
    Except Panic (ChainListener × Chain Block)
  | node, chainTip, [] => .ok (node, chainTip)
  | node, chainTip, best :: rest =>
    match pollBestTip blockWork node chainTip best with
    | .error e => .error e
    | .ok (node', chainTip') => pollLoop node' chainTip' rest

/-- From the synchronisation on, with the best tips of its three moments: the one the listeners are
brought to, the one the wallet catches up with, and the ones that the polls see. -/
def chainTask (node : ChainListener) (syncedTip walletTip : Chain Block) (polls : List (Chain Block)) :
    Except StartError (ChainListener × Chain Block) :=
  match startSync node syncedTip with
  | .error e => .error e
  | .ok node =>
    match node.onchainWallet.lock with
    | none => .error (.panicked .mutexPoisoned)
    | some w =>
      match syncWallet w walletTip with
      | none => .error .emittedBlock
      | some w' =>
        let node := { node with onchainWallet := { node.onchainWallet with bdkWallet := w' } }
        (pollLoop blockWork node syncedTip polls).mapError StartError.panicked

end Poll

/-! ### The synchronisation leaves the monitors as they were -/

section Sync

variable {held : List ChannelMonitor} {node : ChainListener} {tip : Chain Block}

lemma follow_managerListener (best tip : Chain Block) :
    follow managerListener best best tip = .ok tip := by
  obtain ⟨s', h, rfl⟩ : ∃ s', follow managerListener best best tip = .ok s' ∧ s' = tip :=
    follow_ok (P := fun c s => s = c) rfl
    (fun c f s hs hf hne => ⟨f, by subst hs; exact managerBlocksDisconnected_ancestor hf hne, rfl⟩)
    (fun c s x hs => ⟨x :: c, by subst hs; exact managerBlockConnected_child x, rfl⟩)
  exact h

lemma follow_monitorListener (m : ChannelMonitor) (best tip : Chain Block) :
    ∃ m', follow monitorListener m best tip = .ok m' := by
  obtain ⟨m', h, -⟩ : ∃ m', follow monitorListener m best tip = .ok m' ∧ True :=
    follow_ok (P := fun _ _ => True) trivial
    (fun c f s _ _ _ => ⟨s.blocksDisconnected f, rfl, trivial⟩)
    (fun c s x _ => ⟨s.blockConnected (x :: c), rfl, trivial⟩)
  exact ⟨m', h⟩

lemma synchronizeMonitors_ok (tip : Chain Block) (ls : List (Chain Block × ChannelMonitor)) :
    ∃ ms, synchronizeMonitors tip ls = .ok ms := by
  induction ls with
  | nil => exact ⟨[], rfl⟩
  | cons l ls ih =>
    obtain ⟨m', hm'⟩ := follow_monitorListener l.2 l.1 tip
    obtain ⟨ms, hms⟩ := ih
    exact ⟨m' :: ms, by rw [synchronizeMonitors, hm', hms]⟩

lemma monitorListeners_ok {ids : List ℕ} (h : ∀ i ∈ ids, ∃ m ∈ held, m.channelId = i) :
    ∃ ls, monitorListeners held ids = .ok ls := by
  induction ids with
  | nil => exact ⟨[], rfl⟩
  | cons i ids ih =>
    obtain ⟨m, hm, hi⟩ := h i List.mem_cons_self
    obtain ⟨ls, hls⟩ := ih fun j hj => h j (List.mem_cons_of_mem _ hj)
    cases hg : getMonitor held i with
    | none =>
      unfold getMonitor at hg
      exact absurd hi (by simpa using List.find?_eq_none.mp hg m hm)
    | some m' => exact ⟨((clone m').best, clone m') :: ls, by rw [monitorListeners, hg, hls]⟩

/-- **The synchronisation succeeds and brings the manager to the tip**; what the chain monitor holds
stays as it was. -/
theorem startSync_eq (node : ChainListener) (tip : Chain Block) :
    startSync node tip = .ok { node with channelManager := tip } := by
  have hids : ∀ i ∈ node.chainMonitor.map ChannelMonitor.channelId,
      ∃ m ∈ node.chainMonitor, m.channelId = i := fun i hi => List.mem_map.mp hi
  obtain ⟨ls, hls⟩ := monitorListeners_ok hids
  obtain ⟨ms, hms⟩ := synchronizeMonitors_ok tip ls
  unfold startSync
  simp only [hls, follow_managerListener, hms]

lemma watchChannels_ok {ms : List ChannelMonitor} {held' : List ChannelMonitor}
    (h : watchChannels held ms = .ok held') : held' = held ++ ms := by
  induction ms generalizing held with
  | nil =>
    cases h
    simp
  | cons m ms ih =>
    rw [watchChannels] at h
    unfold watchChannel at h
    split_ifs at h
    rw [ih h]
    simp

theorem build_ok {manager : Chain Block} {monitors : List ChannelMonitor} {wallet : BdkWallet}
    (h : build manager monitors wallet = .ok node) :
    node = { channelManager := manager, chainMonitor := monitors
             onchainWallet := { bdkWallet := wallet } } := by
  unfold build at h
  split at h
  · cases h
  · rename_i held hw
    cases h
    rw [watchChannels_ok hw, List.nil_append]

end Sync

/-! ### The wallet ends at the best tip of its own moment -/

lemma applyEmitted_append (w : BdkWallet) (bs cs : List (Chain Block)) :
    applyEmitted w (bs ++ cs) = (applyEmitted w bs).bind fun w' => applyEmitted w' cs := by
  induction bs generalizing w with
  | nil => rfl
  | cons b bs ih =>
    rw [List.cons_append, applyEmitted, applyEmitted]
    cases w.applyBlockConnectedTo b b.tail with
    | none => rfl
    | some w' => exact ih w'

lemma applyEmitted_pathUp {w : BdkWallet} {f b : Chain Block} (hf : f <:+ b)
    (hw : f <:+ w.latestCheckpoint) :
    ∃ w', applyEmitted w (pathUp f b) = some w' ∧
      w'.latestCheckpoint = caughtUpTip w.latestCheckpoint b := by
  refine branch_induction hf ⟨w, by rw [pathUp_self]; rfl, (if_pos hw).symm⟩ fun x b _ hx ih => ?_
  obtain ⟨t, ht, htip⟩ := ih
  have hparent : b <:+ t.latestCheckpoint := by
    rw [htip, caughtUpTip]
    split_ifs with h
    · exact h
    · exact List.suffix_refl b
  refine ⟨t.advance (x :: b), ?_, ?_⟩
  · rw [pathUp_cons hx, applyEmitted_append, ht, Option.bind_some, applyEmitted]
    simp [BdkWallet.applyBlockConnectedTo, hparent, applyEmitted]
  · by_cases hb : b <:+ w.latestCheckpoint
    · rw [caughtUpTip, if_pos hb] at htip
      rw [BdkWallet.advance, htip]
      rfl
    · have hxb : ¬ x :: b <:+ w.latestCheckpoint := fun h => hb ((List.suffix_cons x b).trans h)
      rw [caughtUpTip, if_neg hb] at htip
      rw [caughtUpTip, if_neg hxb, advance_child x b htip.symm]

theorem syncWallet_eq (w : BdkWallet) (tip : Chain Block) :
    ∃ w', syncWallet w tip = some w' ∧
      w'.latestCheckpoint = caughtUpTip w.latestCheckpoint tip :=
  applyEmitted_pathUp (forkPoint_suffix_right w.latestCheckpoint tip)
    (forkPoint_suffix_left w.latestCheckpoint tip)

/-! ### When the loop can follow a tip -/

/-- The manager is at `c`, and the wallet can be locked and has `c` on its chain. -/
structure OnWalletChain (c : Chain Block) (node : ChainListener) : Prop where
  manager : node.channelManager = c
  unpoisoned : node.onchainWallet.poisoned = false
  wallet : c <:+ node.onchainWallet.bdkWallet.latestCheckpoint

section Follow

variable {node : ChainListener} {c f tip : Chain Block}

lemma OnWalletChain.connected (h : OnWalletChain c node) (x : Block) :
    ∃ node', chainListener.connected node (x :: c) = .ok node' ∧ OnWalletChain (x :: c) node' := by
  obtain ⟨rfl, hp, hw⟩ := h
  refine ⟨node.advance (x :: node.channelManager), ?_, ⟨rfl, hp, suffix_advance _ _⟩⟩
  have := filteredBlockConnected_child (x := x) hp
  rwa [if_pos hw] at this

lemma OnWalletChain.disconnected (h : OnWalletChain c node) (hf : f <:+ c) (hne : f ≠ c) :
    ∃ node', chainListener.disconnected node f = .ok node' ∧ OnWalletChain f node' := by
  obtain ⟨rfl, hp, hw⟩ := h
  exact ⟨node.retreat f, blocksDisconnected_ancestor hf hne, ⟨rfl, hp, hf.trans hw⟩⟩

/-- From a tip on the wallet's chain, any tip is followed, and is then on it too. -/
theorem OnWalletChain.follow (h : OnWalletChain c node) (tip : Chain Block) :
    ∃ node', follow chainListener node c tip = .ok node' ∧ OnWalletChain tip node' :=
  follow_ok h (fun _ _ _ hs hf hne => hs.disconnected hf hne) fun _ _ x hs => hs.connected x

variable (hm : node.channelManager = c) (hp : node.onchainWallet.poisoned = false)

include hm hp

/-- Off the wallet's chain, a tip is still followed when the two fork below the point where the
wallet left. -/
theorem follow_chainListener_ok
    (hw : forkPoint c tip <:+ node.onchainWallet.bdkWallet.latestCheckpoint) :
    ∃ node', follow chainListener node c tip = .ok node' ∧ OnWalletChain tip node' := by
  subst hm
  have hleft := forkPoint_suffix_left node.channelManager tip
  have hright := forkPoint_suffix_right node.channelManager tip
  by_cases hfork : forkPoint node.channelManager tip = node.channelManager
  · rw [hfork] at hw
    exact OnWalletChain.follow ⟨rfl, hp, hw⟩ tip
  · have hdis : chainListener.disconnected node (forkPoint node.channelManager tip) =
        .ok (node.retreat _) := blocksDisconnected_ancestor hleft hfork
    unfold LnNode.Lib.BlockTree.follow
    simp only [if_neg hfork, hdis]
    exact connectAll_ok hright ⟨rfl, hp, hw⟩ fun _ _ x hs => hs.connected x

/-- Otherwise the first block of the new branch has no parent in the wallet, and the `unwrap` on
`apply_block` panics. -/
theorem follow_chainListener_panics (hne : forkPoint c tip ≠ tip)
    (hw : ¬ forkPoint c tip <:+ node.onchainWallet.bdkWallet.latestCheckpoint) :
    follow chainListener node c tip = .error .applyBlock := by
  subst hm
  have hleft := forkPoint_suffix_left node.channelManager tip
  obtain ⟨x, rest, hpath⟩ := pathUp_head (forkPoint_suffix_right node.channelManager tip) hne
  have hfirst : ∀ l : ChainListener, l.onchainWallet = node.onchainWallet →
      l.channelManager = forkPoint node.channelManager tip →
      connectAll chainListener l ((x :: forkPoint node.channelManager tip) :: rest) =
        .error .applyBlock := by
    intro l hl hlm
    rw [← hl] at hp hw
    rw [← hlm] at hw ⊢
    have hcall : chainListener.connected l (x :: l.channelManager) = .error .applyBlock := by
      have := filteredBlockConnected_child (x := x) hp
      rwa [if_neg hw] at this
    rw [connectAll, hcall]
  unfold LnNode.Lib.BlockTree.follow
  by_cases hfork : forkPoint node.channelManager tip = node.channelManager
  · rw [if_pos hfork, hpath]
    exact hfirst node rfl hfork.symm
  · have hdis : chainListener.disconnected node (forkPoint node.channelManager tip) =
        .ok (node.retreat _) := blocksDisconnected_ancestor hleft hfork
    simp only [if_neg hfork, hdis, hpath]
    exact hfirst _ rfl rfl

end Follow

end LnNode.Node.Start
