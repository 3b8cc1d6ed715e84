import LnNode.ChainConsumers
import LnNode.Node.MonitorSync

/-!
# Whether the loop of the SPV client survives an error

`poll_best_tip` follows the best tip that it sees, or returns an error, with some of the blocks
delivered. The loop of `Node::start` unwraps its result.

* `deliver_followCalls`: following a tip is a list of calls to the listener;
* `spvLoop_ok`: after polls that succeed, the manager is at the best tip seen, and every monitor has
  the blocks that lead to it;
* `losesNoBlocks_iff`: the loop goes on so exactly if no poll returns an error;
* `LosesNoBlocks.listenerAt`: monitors that have missed nothing before then miss nothing.
-/

namespace LnNode.Node.PollErrors

open LnNode.Lib.BlockTree LnNode.OnchainWallet LnNode.BitcoindClient LnNode.ChainConsumers
  LnNode.Node.Start LnNode.Node.MonitorSync

/-! ### The loop -/

/-- What one poll comes to: the best tip that it saw, and on an error the number of calls to the
listener that were made before. -/
inductive PollOutcome where
  | ok (best : Chain Block)
  | err (best : Chain Block) (delivered : ℕ)

/-- What the task of the loop dies of. -/
inductive LoopPanic where
  | pollBestTip
  | listener (panic : Panic)
  deriving DecidableEq, Repr

/-- The calls that bring a listener from one tip to another. -/
def followCalls (chainTip best : Chain Block) : List ListenCall :=
  (if forkPoint chainTip best = chainTip then []
    else [.blocksDisconnected (forkPoint chainTip best)]) ++
  (pathUp (forkPoint chainTip best) best).map .filteredBlockConnected

def deliver : ChainListener → List ListenCall → Except Panic ChainListener
  | l, [] => .ok l
  | l, .filteredBlockConnected block :: calls =>
    match l.filteredBlockConnected block with
    | .error e => .error e
    | .ok l' => deliver l' calls
  | l, .blocksDisconnected forkPoint :: calls =>
    match l.blocksDisconnected forkPoint with
    | .error e => .error e
    | .ok l' => deliver l' calls

section Loop

variable (blockWork : Block → ℕ+)

/-- The tip that a poll makes the best one. -/
def heavier (chainTip best : Chain Block) : Chain Block :=
  if work blockWork chainTip < work blockWork best then best else chainTip

/-- One turn of the loop: the poll, and the `unwrap` of its result. -/
def pollTurn (r : Running) : PollOutcome → Except LoopPanic Running
  | .ok best =>
    match pollBestTip blockWork r.node r.chainTip best with
    | .error e => .error (.listener e)
    | .ok (node', chainTip') => .ok { node := node', chainTip := chainTip' }
  | .err best delivered =>
    match deliver r.node ((followCalls r.chainTip (heavier blockWork r.chainTip best)).take delivered) with
    | .error e => .error (.listener e)
    | .ok _ => .error .pollBestTip

def spvLoop : Running → List PollOutcome → Except LoopPanic Running
  | r, [] => .ok r
  | r, p :: ps =>
    match pollTurn blockWork r p with
    | .error e => .error e
    | .ok r' => spvLoop r' ps

/-! ### What is to hold after every poll -/

/-- The best tip that the polls have seen, from the one the loop started with. -/
def bestSeen (chainTip : Chain Block) : List PollOutcome → Chain Block
  | [] => chainTip
  | .ok best :: ps => bestSeen (heavier blockWork chainTip best) ps
  | .err _ _ :: ps => bestSeen chainTip ps

end Loop

/-- A monitor before and after: it is at the new tip, unless that is the old one, and it has processed
the blocks of the new chain, but for those it had missed before. It has no others, by its type. -/
structure Followed (start c : Chain Block) (m m' : ChannelMonitor) : Prop where
  birth : m'.birth = m.birth
  best : m'.best = c ∨ c = start ∧ m' = m
  seen : ∀ b, b <:+ c → ¬ b <:+ start ∨ b ∈ m.processed → b ∈ m'.processed

/-- The manager and the monitors have processed what leads from one tip to another. -/
structure AtTip (start c : Chain Block) (l l' : ChainListener) : Prop where
  manager : l'.channelManager = c
  monitors : List.Forall₂ (Followed start c) l.chainMonitor l'.chainMonitor

/-- The loop goes on after every poll, and every poll that succeeds leaves the manager and the monitors
at the best tip seen. -/
structure LosesNoBlocks (blockWork : Block → ℕ+) (r : Running) (polls : List PollOutcome) : Prop where
  goesOn : ∃ r', spvLoop blockWork r polls = .ok r'
  synced : ∀ pre best post, polls = pre ++ .ok best :: post →
    ∃ r', spvLoop blockWork r (pre ++ [.ok best]) = .ok r' ∧
      AtTip r.chainTip (bestSeen blockWork r.chainTip (pre ++ [.ok best])) r.node r'.node

def ListenersSucceed (blockWork : Block → ℕ+) (r : Running) (polls : List PollOutcome) : Prop :=
  ∀ panic, spvLoop blockWork r polls ≠ .error (.listener panic)

def PollOutcome.isOk : PollOutcome → Prop
  | .ok _ => True
  | .err _ _ => False

/-! ### Following a tip -/

section Calls

variable {l : ChainListener}

lemma deliver_connections (bs : List (Chain Block)) :
    deliver l (bs.map .filteredBlockConnected) = connectAll chainListener l bs := by
  induction bs generalizing l with
  | nil => rfl
  | cons b bs ih =>
    have hcall : chainListener.connected l b = l.filteredBlockConnected b := rfl
    rw [List.map_cons, deliver, connectAll, hcall]
    cases l.filteredBlockConnected b with
    | error e => rfl
    | ok l' => exact ih

/-- **Following a tip is a list of calls**, of which an error leaves some undone. -/
theorem deliver_followCalls (l : ChainListener) (chainTip best : Chain Block) :
    deliver l (followCalls chainTip best) = follow chainListener l chainTip best := by
  rw [followCalls, follow]
  split_ifs with hfork
  · exact deliver_connections _
  · have hcall : chainListener.disconnected l (forkPoint chainTip best) =
        l.blocksDisconnected (forkPoint chainTip best) := rfl
    rw [List.singleton_append, deliver, hcall]
    cases l.blocksDisconnected (forkPoint chainTip best) with
    | error e => rfl
    | ok l' => exact deliver_connections _

end Calls

/-! ### What a poll leaves -/

section Steps

variable {blockWork : Block → ℕ+} {start c f : Chain Block} {m m' : ChannelMonitor}
  {l l' l'' : ChainListener} {r r' : Running} {ps : List PollOutcome}

lemma Followed.refl : Followed c c m m := ⟨rfl, Or.inr ⟨rfl, rfl⟩, fun _ hb h => h.resolve_left (not_not.mpr hb)⟩

lemma Followed.connected (h : Followed start c m m') (x : Block) :
    Followed start (x :: c) m (m'.blockConnected (x :: c)) := by
  refine ⟨h.birth, Or.inl rfl, fun b hb hold => ?_⟩
  rw [ChannelMonitor.mem_processed_blockConnected]
  rcases List.suffix_cons_iff.mp hb with rfl | hbc
  · exact Or.inl rfl
  · exact Or.inr ⟨h.seen b hbc hold, hb⟩

lemma Followed.disconnected (h : Followed start c m m') (hf : f <:+ c) :
    Followed start f m (m'.blocksDisconnected f) := by
  refine ⟨h.birth, Or.inl rfl, fun b hb hold => ?_⟩
  rw [ChannelMonitor.mem_processed_blocksDisconnected]
  exact ⟨h.seen b (hb.trans hf) hold, hb⟩

lemma forall₂_followed_map {ms ms' : List ChannelMonitor} {g : ChannelMonitor → ChannelMonitor}
    (h : List.Forall₂ (Followed start c) ms ms')
    (hg : ∀ m m', Followed start c m m' → Followed start f m (g m')) :
    List.Forall₂ (Followed start f) ms (ms'.map g) := by
  rw [List.forall₂_map_right_iff]
  exact h.imp hg

lemma Followed.heldAt (h : Followed start c m m') (hm : HeldAt start m) : HeldAt c m' := by
  rcases h.best with hbest | ⟨rfl, rfl⟩
  · refine ⟨by rw [hbest], fun b hb hbirth => ?_⟩
    rw [hbest] at hb
    rw [h.birth] at hbirth
    refine h.seen b hb ?_
    by_cases hstart : b <:+ start
    · exact Or.inr (hm.seen b hstart hbirth)
    · exact Or.inl hstart
  · exact hm

lemma AtTip.refl (h : l.channelManager = c) : AtTip c c l l :=
  ⟨h, List.forall₂_same.mpr fun _ _ => Followed.refl⟩

lemma AtTip.connected {x : Block} (h : AtTip start c l l')
    (hc : chainListener.connected l' (x :: c) = .ok l'') : AtTip start (x :: c) l l'' := by
  obtain ⟨-, -, rfl⟩ := filteredBlockConnected_ok hc
  exact ⟨rfl, forall₂_followed_map h.monitors fun _ _ hm => hm.connected x⟩

lemma AtTip.disconnected (h : AtTip start c l l') (hf : f <:+ c) (hne : f ≠ c)
    (hd : chainListener.disconnected l' f = .ok l'') : AtTip start f l l'' := by
  obtain ⟨rfl, hmonitors⟩ := h
  obtain rfl : l'.retreat f = l'' :=
    Except.ok.inj ((blocksDisconnected_ancestor hf hne).symm.trans hd)
  exact ⟨rfl, forall₂_followed_map hmonitors fun _ _ hm => hm.disconnected hf⟩

lemma AtTip.listenerAt (h : AtTip start c l l') (hl : ListenerAt start l) : ListenerAt c l' := by
  refine ⟨h.manager, fun m' hm' => ?_⟩
  obtain ⟨i, rfl⟩ := List.mem_iff_get.mp hm'
  have hi : i.val < l.chainMonitor.length := by
    rw [h.monitors.length_eq]
    exact i.isLt
  have hfollowed := h.monitors.get hi i.isLt
  exact hfollowed.heldAt (hl.2 _ (List.get_mem _ _))

/-- **One turn that goes on**: the poll has succeeded, and the listener is at the new tip. -/
lemma pollTurn_ok {p : PollOutcome} (h : AtTip start r.chainTip l r.node)
    (hturn : pollTurn blockWork r p = .ok r') :
    ∃ best, p = .ok best ∧ r'.chainTip = heavier blockWork r.chainTip best ∧
      AtTip start r'.chainTip l r'.node := by
  cases p with
  | err best delivered =>
    rw [pollTurn] at hturn
    split at hturn <;> cases hturn
  | ok best =>
    refine ⟨best, rfl, ?_⟩
    rw [pollTurn, pollBestTip] at hturn
    rw [heavier]
    split_ifs at hturn ⊢ with hwork
    · cases hfollow : follow chainListener r.node r.chainTip best with
      | error e =>
        rw [hfollow] at hturn
        cases hturn
      | ok node' =>
        rw [hfollow] at hturn
        cases hturn
        have hat : AtTip start best l node' := follow_keeps (P := fun c l' => AtTip start c l l') h
          (fun _ _ _ _ hs hf hne hd => hs.disconnected hf hne hd)
          (fun _ _ _ _ hs hc => hs.connected hc) hfollow
        exact ⟨rfl, hat⟩
    · cases hturn
      exact ⟨rfl, h⟩

theorem spvLoop_ok (h : AtTip start r.chainTip l r.node) (hloop : spvLoop blockWork r ps = .ok r') :
    (∀ p ∈ ps, p.isOk) ∧ AtTip start (bestSeen blockWork r.chainTip ps) l r'.node := by
  induction ps generalizing r with
  | nil =>
    cases hloop
    exact ⟨by simp, h⟩
  | cons p ps ih =>
    rw [spvLoop] at hloop
    cases hturn : pollTurn blockWork r p with
    | error e =>
      rw [hturn] at hloop
      cases hloop
    | ok r₁ =>
      rw [hturn] at hloop
      obtain ⟨best, rfl, htip, hat⟩ := pollTurn_ok h hturn
      obtain ⟨hrest, hend⟩ := ih hat hloop
      rw [htip] at hend
      exact ⟨List.forall_mem_cons.mpr ⟨trivial, hrest⟩, hend⟩

lemma spvLoop_prefix {qs : List PollOutcome} (hloop : spvLoop blockWork r (ps ++ qs) = .ok r') :
    ∃ r₁, spvLoop blockWork r ps = .ok r₁ := by
  induction ps generalizing r with
  | nil => exact ⟨r, rfl⟩
  | cons p ps ih =>
    rw [List.cons_append, spvLoop] at hloop
    rw [spvLoop]
    cases hturn : pollTurn blockWork r p with
    | error e =>
      rw [hturn] at hloop
      cases hloop
    | ok r₁ =>
      rw [hturn] at hloop
      exact ih hloop

lemma spvLoop_of_isOk (hok : ∀ p ∈ ps, p.isOk) : spvLoop blockWork r ps ≠ .error .pollBestTip := by
  induction ps generalizing r with
  | nil => simp [spvLoop]
  | cons p ps ih =>
    obtain ⟨hp, hrest⟩ := List.forall_mem_cons.mp hok
    cases p with
    | err best delivered => exact hp.elim
    | ok best =>
      rw [spvLoop, pollTurn]
      cases pollBestTip blockWork r.node r.chainTip best with
      | error e => simp
      | ok next => exact ih hrest

end Steps

/-- **When errors of the chain source lose no blocks.** For every node that has entered the loop of
`Node::start`, and every list of polls, with every call to the listener succeeding. -/
theorem losesNoBlocks_iff (blockWork : Block → ℕ+) (s : Lifetime) (wallet : BdkWallet)
    (syncedTip walletTip : Chain Block) (r : Running)
    (hstart : startNode blockWork s wallet syncedTip walletTip = .ok r) (polls : List PollOutcome)
    (hlisten : ListenersSucceed blockWork r polls) :
    LosesNoBlocks blockWork r polls ↔ ∀ p ∈ polls, p.isOk := by
  have hat : AtTip r.chainTip r.chainTip r.node r.node := by
    obtain ⟨htip, hmanager, -⟩ := startNode_eq_some (r := r) (by rw [hstart]; rfl)
    exact AtTip.refl (hmanager.trans htip.symm)
  constructor
  · rintro ⟨⟨r', hloop⟩, -⟩
    exact (spvLoop_ok hat hloop).1
  · intro hok
    have hgoesOn : ∃ r', spvLoop blockWork r polls = .ok r' := by
      cases hloop : spvLoop blockWork r polls with
      | ok r' => exact ⟨r', rfl⟩
      | error e =>
        cases e with
        | pollBestTip => exact absurd hloop (spvLoop_of_isOk hok)
        | listener panic => exact absurd hloop (hlisten panic)
    refine ⟨hgoesOn, ?_⟩
    rintro pre best post rfl
    obtain ⟨r', hloop⟩ := hgoesOn
    rw [List.append_cons] at hloop
    obtain ⟨r₁, hpre⟩ := spvLoop_prefix hloop
    exact ⟨r₁, hpre, (spvLoop_ok hat hpre).2⟩

/-- **No gaps**: where the listener has missed nothing before, it has missed nothing of the best chain
after a poll that succeeds. -/
theorem LosesNoBlocks.listenerAt {blockWork : Block → ℕ+} {r : Running} {pre post : List PollOutcome}
    {best : Chain Block} (h : LosesNoBlocks blockWork r (pre ++ .ok best :: post))
    (hr : ListenerAt r.chainTip r.node) :
    ∃ r', spvLoop blockWork r (pre ++ [.ok best]) = .ok r' ∧
      ListenerAt (bestSeen blockWork r.chainTip (pre ++ [.ok best])) r'.node := by
  obtain ⟨r', hloop, hat⟩ := h.synced pre best post rfl
  exact ⟨r', hloop, hat.listenerAt hr⟩

/-! ### An error between two blocks -/

def runningAtRoot : Running where
  node := { channelManager := [], chainMonitor := [], onchainWallet := { bdkWallet := loadedWallet } }
  chainTip := []

lemma startNode_neverRun :
    startNode (fun _ => 1) (neverRun []) loadedWallet [] [] = .ok runningAtRoot := rfl

theorem losesNoBlocks_iff_at :
    LosesNoBlocks (fun _ => 1) runningAtRoot [.ok [emptyBlock 1], .ok [emptyBlock 2, emptyBlock 1]] := by
  refine (losesNoBlocks_iff _ _ _ _ _ _ startNode_neverRun _ ?_).mpr (by simp [PollOutcome.isOk])
  intro panic hloop
  cases hloop

/-- **A poll fails once, before it has delivered anything**: the loop is dead, and the block that the
next poll would have brought is never seen. -/
theorem not_losesNoBlocks_once :
    let polls : List PollOutcome := [.err [emptyBlock 1] 0, .ok [emptyBlock 1]]
    startNode (fun _ => 1) (neverRun []) loadedWallet [] [] = .ok runningAtRoot ∧
    ListenersSucceed (fun _ => 1) runningAtRoot polls ∧
    spvLoop (fun _ => 1) runningAtRoot polls = .error .pollBestTip ∧
    ¬ LosesNoBlocks (fun _ => 1) runningAtRoot polls := by
  refine ⟨startNode_neverRun, fun panic hloop => ?_, rfl, fun hloses => ?_⟩
  · cases hloop
  · obtain ⟨r', hloop⟩ := hloses.goesOn
    cases hloop

end LnNode.Node.PollErrors
