import LnNode.BitcoindClient
import LnNode.Node.Funding

/-!
# What a block that the wallet does not take stops

The on-chain wallet is shared by three tasks that nobody restarts: the loop that connects blocks, the
background processor, which handles events, and the server. A block that the wallet does not take panics
in the first one while it holds the lock, so that the others panic when they next ask for it.

* `neverPoisoned_iff`: the runs in which this does not happen;
* `stable_poisoned`: after it, the manager, the monitors and the wallet stay as they are, and LDK is
  handed no further funding transaction;
* `atMostOnce_poisoned`: each of the other two tasks ends with the first thing that needs the wallet.
-/

namespace LnNode.Node.WalletLock

open LnNode.Lib.BlockTree LnNode.Lib.Run LnNode.OnchainWallet LnNode.BitcoindClient LnNode.Storage
  LnNode.EventHandler LnNode.Node.Funding

/-! ### The tasks -/

/-- The consumers of blocks, which tasks are still running, and the funding transactions that LDK was
handed. -/
structure Tasks where
  node : ChainListener
  chainTask : Bool
  processor : Bool
  server : Bool
  handed : List Transaction

def started (node : ChainListener) : Tasks where
  node := node
  chainTask := true
  processor := true
  server := true
  handed := []

/-- Whether LDK asks the wallet for coins or for a script, in what the handler calls or in what a
request does, is its own decision. -/
inductive Action where
  | blockConnected (block : Chain Block)
  | blocksDisconnected (forkPoint : Chain Block)
  | event (h : LdkEventHandler) (store : KvStore) (event : Event) (ldkAsks : Bool)
  /-- `new_address` and `balance` ask for the lock themselves. -/
  | request (asks : Bool)

/-- What a block leaves of the consumers, also when the call panics, and whether it returns. -/
def connectBlock (l : ChainListener) (block : Chain Block) : ChainListener × Bool :=
  match managerBlockConnected l.channelManager block with
  | .error _ => (l, false)
  | .ok manager =>
    let onchainWallet := walletBlockConnected l.onchainWallet block
    ({ channelManager := manager
       chainMonitor := l.chainMonitor.map (·.blockConnected block)
       onchainWallet := onchainWallet }, !onchainWallet.poisoned)

def disconnectBlocks (l : ChainListener) (forkPoint : Chain Block) : ChainListener × Bool :=
  match l.blocksDisconnected forkPoint with
  | .error _ => (l, false)
  | .ok l' => (l', true)

/-- The arms that lock the wallet before anything else. -/
def needsWallet : Event → Bool
  | .fundingGenerationReady .. => true
  | .openChannelRequest _ _ _ supportsAnchorsZeroFeeHtlcTx => supportsAnchorsZeroFeeHtlcTx
  | _ => false

/-- A task takes steps as long as it runs, and a panic ends it. -/
def taskStep (s : Tasks) : Action → Option Tasks
  | .blockConnected block =>
    if s.chainTask then
      some { s with node := (connectBlock s.node block).1, chainTask := (connectBlock s.node block).2 }
    else none
  | .blocksDisconnected forkPoint =>
    if s.chainTask then
      some { s with
        node := (disconnectBlocks s.node forkPoint).1
        chainTask := (disconnectBlocks s.node forkPoint).2 }
    else none
  | .event h store event ldkAsks =>
    if s.processor then
      let handled := handleEvent { h with onchainWallet := s.node.onchainWallet } store event
      some { s with
        processor := decide (handled.outcome ≠ .panic) && (!ldkAsks || s.node.onchainWallet.lock.isSome)
        handed := s.handed ++ handedTxs handled.calls }
    else none
  | .request asks =>
    if s.server then some { s with server := !asks || s.node.onchainWallet.lock.isSome } else none

def Action.isWalletRequest : Action → Bool
  | .request asks => asks
  | _ => false

def Action.isWalletEvent : Action → Bool
  | .event _ _ e ldkAsks => needsWallet e || ldkAsks
  | _ => false

/-! ### Properties of runs -/

def Unpoisoned (s : Tasks) : Prop := s.node.onchainWallet.poisoned = false

/-- The parent of a block that the manager takes is on the wallet's chain. -/
def BuildsOnWallet (s : Tasks) : Action → Prop
  | .blockConnected block => block ≠ [] ∧ block.tail = s.node.channelManager →
      block.tail <:+ s.node.onchainWallet.bdkWallet.latestCheckpoint
  | _ => True

/-- The lock is poisoned, at these consumers and these funding transactions. -/
def PoisonedAt (node : ChainListener) (handed : List Transaction) (s : Tasks) : Prop :=
  s.node.onchainWallet.poisoned = true ∧ s.node = node ∧ s.handed = handed

/-- The lock is poisoned by the loop that connects blocks, which does not survive it. -/
def LoopOver (s : Tasks) : Prop := s.node.onchainWallet.poisoned = true → s.chainTask = false

section Calls

variable {l : ChainListener}

/-- What is left of a block: nothing, what the listener makes of it, or a wallet that stayed behind with
its lock poisoned. -/
lemma connectBlock_eq (hp : l.onchainWallet.poisoned = false) (block : Chain Block) :
    connectBlock l block =
      if block ≠ [] ∧ block.tail = l.channelManager then
        if block.tail <:+ l.onchainWallet.bdkWallet.latestCheckpoint then (l.advance block, true)
        else ({ l.advance block with onchainWallet := { l.onchainWallet with poisoned := true } }, false)
      else (l, false) := by
  rw [connectBlock, managerBlockConnected]
  by_cases hchild : block ≠ [] ∧ block.tail = l.channelManager
  · rw [if_pos hchild, if_pos hchild]
    simp only [walletBlockConnected_eq hp]
    split_ifs with hchain
    · simp [ChainListener.advance, hp]
    · simp [ChainListener.advance]
  · rw [if_neg hchild, if_neg hchild]

lemma disconnectBlocks_onchainWallet (l : ChainListener) (forkPoint : Chain Block) :
    (disconnectBlocks l forkPoint).1.onchainWallet = l.onchainWallet := by
  rw [disconnectBlocks, ChainListener.blocksDisconnected]
  cases managerBlocksDisconnected l.channelManager forkPoint <;> rfl

variable {h : LdkEventHandler} {store : KvStore}

lemma handedTxs_of_poisoned (hp : h.onchainWallet.poisoned = true) (event : Event) :
    handedTxs (handleEvent h store event).calls = [] := by
  have hlock := WalletManager.lock_of_poisoned hp
  cases event with
  | fundingGenerationReady channel peer value script =>
    rw [handleEvent, buildTransaction, hlock]
    rfl
  | openChannelRequest channel peer sats anchors =>
    rw [handleEvent, hlock]
    split_ifs <;> rfl
  | paymentClaimable paymentHash purpose =>
    rcases purpose with (_ | preimage) | _ | _ | _ <;> rfl
  | _ => rfl

lemma outcome_of_poisoned {event : Event} (hp : h.onchainWallet.poisoned = true)
    (hneeds : needsWallet event = true) : (handleEvent h store event).outcome = .panic := by
  have hlock := WalletManager.lock_of_poisoned hp
  cases event with
  | fundingGenerationReady channel peer value script =>
    rw [handleEvent, buildTransaction, hlock]
    rfl
  | openChannelRequest channel peer sats anchors =>
    obtain rfl : anchors = true := hneeds
    rw [handleEvent, hlock]
    rfl
  | _ => cases hneeds

end Calls

/-! ### One step -/

section Steps

variable {s s' : Tasks} {a : Action} {node : ChainListener} {handed : List Transaction}

lemma taskStep_cases (hs : taskStep s a = some s') :
    (∃ block, a = .blockConnected block ∧ s.chainTask = true ∧
      s' = { s with
        node := (connectBlock s.node block).1
        chainTask := (connectBlock s.node block).2 }) ∨
    (∃ forkPoint, a = .blocksDisconnected forkPoint ∧ s.chainTask = true ∧
      s' = { s with
        node := (disconnectBlocks s.node forkPoint).1
        chainTask := (disconnectBlocks s.node forkPoint).2 }) ∨
    (∃ h store e ldkAsks handled, a = .event h store e ldkAsks ∧ s.processor = true ∧
      handled = handleEvent { h with onchainWallet := s.node.onchainWallet } store e ∧
      s' = { s with
        processor := decide (handled.outcome ≠ .panic) && (!ldkAsks || s.node.onchainWallet.lock.isSome)
        handed := s.handed ++ handedTxs handled.calls }) ∨
    ∃ asks, a = .request asks ∧ s.server = true ∧
      s' = { s with server := !asks || s.node.onchainWallet.lock.isSome } := by
  cases a with
  | blockConnected block =>
    rw [taskStep, Option.ite_none_right_eq_some] at hs
    exact Or.inl ⟨block, rfl, hs.1, (Option.some.inj hs.2).symm⟩
  | blocksDisconnected forkPoint =>
    rw [taskStep, Option.ite_none_right_eq_some] at hs
    exact Or.inr (Or.inl ⟨forkPoint, rfl, hs.1, (Option.some.inj hs.2).symm⟩)
  | event h store e ldkAsks =>
    rw [taskStep, Option.ite_none_right_eq_some] at hs
    exact Or.inr (Or.inr (Or.inl ⟨h, store, e, ldkAsks, _, rfl, hs.1, rfl, (Option.some.inj hs.2).symm⟩))
  | request asks =>
    rw [taskStep, Option.ite_none_right_eq_some] at hs
    exact Or.inr (Or.inr (Or.inr ⟨asks, rfl, hs.1, (Option.some.inj hs.2).symm⟩))

/-- A block is the only thing that can poison the lock, and it does so exactly where it does not build
on the wallet's chain. -/
lemma unpoisoned_step_iff (hp : Unpoisoned s) (hs : taskStep s a = some s') :
    Unpoisoned s' ↔ BuildsOnWallet s a := by
  obtain ⟨block, rfl, -, rfl⟩ | ⟨forkPoint, rfl, -, rfl⟩ |
    ⟨handler, store, e, ldkAsks, handled, rfl, -, -, rfl⟩ | ⟨asks, rfl, -, rfl⟩ := taskStep_cases hs
  · show (connectBlock s.node block).1.onchainWallet.poisoned = false ↔ _
    rw [connectBlock_eq hp, BuildsOnWallet]
    split_ifs with hchild hchain
    · exact ⟨fun _ _ => hchain, fun _ => hp⟩
    · exact ⟨fun h => absurd h (by simp), fun h => absurd (h hchild) hchain⟩
    · exact ⟨fun _ h => absurd h hchild, fun _ => hp⟩
  · refine iff_of_true ?_ trivial
    show (disconnectBlocks s.node forkPoint).1.onchainWallet.poisoned = false
    rw [disconnectBlocks_onchainWallet]
    exact hp
  · exact iff_of_true hp trivial
  · exact iff_of_true hp trivial

lemma LoopOver.step (h : LoopOver s) (hs : taskStep s a = some s') : LoopOver s' := by
  obtain ⟨block, rfl, hrunning, rfl⟩ | ⟨forkPoint, rfl, hrunning, rfl⟩ |
    ⟨handler, store, e, ldkAsks, handled, rfl, -, -, rfl⟩ | ⟨asks, rfl, -, rfl⟩ := taskStep_cases hs
  · have hp : s.node.onchainWallet.poisoned = false := by
      by_contra hp
      rw [h (by simpa using hp)] at hrunning
      cases hrunning
    show (connectBlock s.node block).1.onchainWallet.poisoned = true →
      (connectBlock s.node block).2 = false
    rw [connectBlock_eq hp]
    split_ifs with hchild hchain
    · intro h'
      exact absurd (hp.symm.trans h') (by decide)
    · exact fun _ => rfl
    · exact fun _ => rfl
  · intro hpoisoned
    replace hpoisoned : (disconnectBlocks s.node forkPoint).1.onchainWallet.poisoned = true := hpoisoned
    rw [disconnectBlocks_onchainWallet] at hpoisoned
    rw [h hpoisoned] at hrunning
    cases hrunning
  · exact h
  · exact h

/-- **What a step does once the lock is poisoned**: it is an event or a request, which ends its task if
it needs the wallet, and nothing else changes. -/
lemma poisoned_step (h : LoopOver s) (hp : s.node.onchainWallet.poisoned = true)
    (hs : taskStep s a = some s') :
    s'.node = s.node ∧ s'.handed = s.handed ∧
      (s'.processor = true → s.processor = true ∧ a.isWalletEvent = false) ∧
      (s'.server = true → s.server = true ∧ a.isWalletRequest = false) ∧
      (a.isWalletEvent = true → s.processor = true) ∧ (a.isWalletRequest = true → s.server = true) := by
  have hlock := WalletManager.lock_of_poisoned hp
  obtain ⟨block, rfl, hrunning, rfl⟩ | ⟨forkPoint, rfl, hrunning, rfl⟩ |
    ⟨handler, store, e, ldkAsks, handled, rfl, hrunning, hhandled, rfl⟩ | ⟨asks, rfl, hrunning, rfl⟩ :=
    taskStep_cases hs
  · rw [h hp] at hrunning
    cases hrunning
  · rw [h hp] at hrunning
    cases hrunning
  · refine ⟨rfl, ?_, ?_, fun hserver => ⟨hserver, rfl⟩, fun _ => hrunning, by rintro ⟨⟩⟩
    · rw [hhandled, handedTxs_of_poisoned hp, List.append_nil]
    · intro hgoes
      refine ⟨hrunning, ?_⟩
      simp only [hlock, Option.isSome_none, Bool.or_false, Bool.and_eq_true, decide_eq_true_eq,
        Bool.not_eq_true'] at hgoes
      rw [Action.isWalletEvent, hgoes.2, Bool.or_false]
      by_contra hneeds
      exact hgoes.1 (hhandled ▸ outcome_of_poisoned hp (by simpa using hneeds))
  · refine ⟨rfl, rfl, fun hprocessor => ⟨hprocessor, rfl⟩, ?_, by rintro ⟨⟩, fun _ => hrunning⟩
    intro hgoes
    simp only [hlock, Option.isSome_none, Bool.or_false, Bool.not_eq_true'] at hgoes
    exact ⟨hrunning, hgoes⟩

/-- A task that runs has one thing that needs the wallet before it, and one that is over none. -/
lemma walletCalls_step (h : LoopOver s) (hp : s.node.onchainWallet.poisoned = true)
    (hs : taskStep s a = some s') :
    s'.processor.toNat + (if a.isWalletEvent then 1 else 0) ≤ s.processor.toNat ∧
      s'.server.toNat + (if a.isWalletRequest then 1 else 0) ≤ s.server.toNat := by
  obtain ⟨-, -, hprocessor, hserver, hevent, hrequest⟩ := poisoned_step h hp hs
  constructor
  · cases hgoes : s'.processor with
    | true => simp [hprocessor hgoes]
    | false =>
      split_ifs with hasks
      · simp [hevent hasks]
      · simp
  · cases hgoes : s'.server with
    | true => simp [hserver hgoes]
    | false =>
      split_ifs with hasks
      · simp [hrequest hasks]
      · simp

lemma PoisonedAt.step (h : PoisonedAt node handed s) (hover : LoopOver s) (hs : taskStep s a = some s') :
    PoisonedAt node handed s' := by
  obtain ⟨hp, hnode, hhanded⟩ := h
  obtain ⟨hnode', hhanded', -⟩ := poisoned_step hover hp hs
  exact ⟨hnode' ▸ hp, hnode'.trans hnode, hhanded'.trans hhanded⟩

end Steps

/-! ### Runs -/

/-- **When the lock is never poisoned.** For every state of the consumers with the lock intact, and every
run of connected and disconnected blocks, events and requests in any order: the lock stays intact exactly
as long as each block that the manager takes has its parent on the wallet's chain. -/
theorem neverPoisoned_iff (node : ChainListener) (hp : node.onchainWallet.poisoned = false)
    (as : List Action) :
    Always taskStep Unpoisoned (started node) as ↔ StepsMeet taskStep BuildsOnWallet (started node) as :=
  always_iff_stepsMeet (I := Unpoisoned) hp (fun _ h => h)
    (fun _ _ _ hI hok hs => (unpoisoned_step_iff hI hs).mpr hok)
    fun _ _ _ hI hs hP => (unpoisoned_step_iff hI hs).mp hP

/-- The listeners are one block ahead of the wallet, and a block comes on top. -/
def behindNode : ChainListener where
  channelManager := [emptyBlock 1]
  chainMonitor := []
  onchainWallet := { bdkWallet := loadedWallet }

def nextBlock : Action := .blockConnected [emptyBlock 2, emptyBlock 1]

theorem neverPoisoned_iff_behind :
    ¬ Always taskStep Unpoisoned (started behindNode) [.request true, nextBlock] := by
  rw [neverPoisoned_iff behindNode rfl]
  intro h
  have hbuilds := ((h _ rfl).2 _ rfl).1 ⟨by simp, rfl⟩
  exact absurd hbuilds.length_le (by decide)

lemma loopOver_run {node : ChainListener} (hp : node.onchainWallet.poisoned = false) {as : List Action}
    {s : Tasks} (hr : run taskStep (started node) as = some s) : LoopOver s := by
  refine run_keeps (I := LoopOver) (fun h => ?_) (fun _ _ _ h hs => h.step hs) hr
  exact absurd (hp.symm.trans h) (by decide)

/-- **A poisoned lock stops the node for good.** In every run from consumers with the lock intact: from
the moment it is poisoned, the manager, the monitors and the wallet stay as they are, whatever blocks
arrive, and LDK is handed no further funding transaction. -/
theorem stable_poisoned (node : ChainListener) (hp : node.onchainWallet.poisoned = false)
    (as : List Action) (node' : ChainListener) (handed : List Transaction) :
    Stable taskStep (PoisonedAt node' handed) (started node) as := by
  rintro pre post t rfl hr hpoisoned
  have hover := loopOver_run hp hr
  exact (always_of_keeps (I := fun s => PoisonedAt node' handed s ∧ LoopOver s) ⟨hpoisoned, hover⟩
    fun s a s' h hs => ⟨h.1.step h.2 hs, h.2.step hs⟩).imp fun _ h => h.1

theorem stable_poisoned_behind :
    ∃ s, run taskStep (started behindNode) [nextBlock] = some s ∧ PoisonedAt s.node [] s ∧
      Stable taskStep (PoisonedAt s.node []) (started behindNode) [nextBlock, .request true] :=
  ⟨_, rfl, ⟨rfl, rfl, rfl⟩, stable_poisoned behindNode rfl _ _ _⟩

/-- **Each task is stopped by the first call of the wallet.** In every run from a state where the lock is
poisoned, the processor handles at most one event that needs the wallet and the server at most one
request, and the task that did is over. -/
theorem atMostOnce_poisoned (node : ChainListener) (hp : node.onchainWallet.poisoned = false)
    (as bs : List Action) {s t : Tasks} (hr : run taskStep (started node) as = some s)
    (hpoisoned : s.node.onchainWallet.poisoned = true) (hr' : run taskStep s bs = some t) :
    bs.countP Action.isWalletEvent + t.processor.toNat ≤ 1 ∧
      bs.countP Action.isWalletRequest + t.server.toNat ≤ 1 := by
  have hkeeps : ∀ s a s', LoopOver s ∧ s.node.onchainWallet.poisoned = true → taskStep s a = some s' →
      LoopOver s' ∧ s'.node.onchainWallet.poisoned = true := fun s a s' h hs =>
    ⟨h.1.step hs, (poisoned_step h.1 h.2 hs).1 ▸ h.2⟩
  have hover := loopOver_run hp hr
  have hevents := run_countP_le (fun s : Tasks => s.processor.toNat) Action.isWalletEvent
    ⟨hover, hpoisoned⟩ (fun s a s' h hs => ⟨hkeeps s a s' h hs, (walletCalls_step h.1 h.2 hs).1⟩) hr'
  have hrequests := run_countP_le (fun s : Tasks => s.server.toNat) Action.isWalletRequest
    ⟨hover, hpoisoned⟩ (fun s a s' h hs => ⟨hkeeps s a s' h hs, (walletCalls_step h.1 h.2 hs).2⟩) hr'
  exact ⟨hevents.trans (Bool.toNat_le _), hrequests.trans (Bool.toNat_le _)⟩

/-- A channel waits for its funding transaction, and somebody asks for the balance. -/
theorem atMostOnce_poisoned_behind :
    ∃ s t, run taskStep (started behindNode) [nextBlock] = some s ∧
      run taskStep s [.event quietHandler ∅ (.fundingGenerationReady 0 1 20000 9) false, .request false,
        .request true] = some t ∧ t.processor = false ∧ t.server = false := by
  refine ⟨_, _, rfl, rfl, ?_⟩
  have h := atMostOnce_poisoned behindNode rfl [nextBlock]
    [.event quietHandler ∅ (.fundingGenerationReady 0 1 20000 9) false, .request false, .request true]
    rfl rfl rfl
  exact ⟨Bool.toNat_eq_zero.mp (by simpa [Action.isWalletEvent, needsWallet] using h.1),
    Bool.toNat_eq_zero.mp (by simpa [Action.isWalletRequest] using h.2)⟩

end LnNode.Node.WalletLock
