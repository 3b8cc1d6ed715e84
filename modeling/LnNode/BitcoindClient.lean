import LnNode.OnchainWallet

/-!
# The consumers of the chain

`ChainListener` hands every block to the channel manager, to the monitors inside the chain monitor
and to the on-chain wallet. Of the first two, which are LDK objects, the model keeps what the chain
calls read and change: the best block, and for a monitor the blocks of its best chain that it has
processed. A call that panics says which assertion or `unwrap` it was.
-/

namespace LnNode.BitcoindClient

open LnNode.Lib.BlockTree LnNode.OnchainWallet

/-! ### Channel monitors -/

/-- A channel monitor: the block it was created at, its best block, and the blocks of its best chain
that it has been given. -/
structure ChannelMonitor where
  channelId : ℕ
  birth : Chain Block
  best : Chain Block
  processed : List (Chain Block)
  processed_le : ∀ b ∈ processed, b <:+ best
  deriving DecidableEq

namespace ChannelMonitor

/-- The monitor of a channel that is new at a block. -/
def atBlock (channelId : ℕ) (block : Chain Block) : ChannelMonitor where
  channelId := channelId
  birth := block
  best := block
  processed := []
  processed_le := by simp

/-- A monitor takes any block as its best one, whatever stood there before. -/
def blockConnected (m : ChannelMonitor) (block : Chain Block) : ChannelMonitor where
  channelId := m.channelId
  birth := m.birth
  best := block
  processed := (block :: m.processed).filter (· <:+ block)
  processed_le b hb := by simpa using (List.mem_filter.mp hb).2

def blocksDisconnected (m : ChannelMonitor) (forkPoint : Chain Block) : ChannelMonitor where
  channelId := m.channelId
  birth := m.birth
  best := forkPoint
  processed := m.processed.filter (· <:+ forkPoint)
  processed_le b hb := by simpa using (List.mem_filter.mp hb).2

variable {m : ChannelMonitor} {b c : Chain Block}

lemma mem_processed_blockConnected :
    c ∈ (m.blockConnected b).processed ↔ c = b ∨ c ∈ m.processed ∧ c <:+ b := by
  simp only [blockConnected, List.mem_filter, List.mem_cons, decide_eq_true_eq]
  constructor
  · rintro ⟨rfl | h, hb⟩
    · exact Or.inl rfl
    · exact Or.inr ⟨h, hb⟩
  · rintro (rfl | ⟨h, hb⟩)
    · exact ⟨Or.inl rfl, List.suffix_refl _⟩
    · exact ⟨Or.inr h, hb⟩

lemma mem_processed_blocksDisconnected :
    c ∈ (m.blocksDisconnected b).processed ↔ c ∈ m.processed ∧ c <:+ b := by
  simp [blocksDisconnected]

end ChannelMonitor

/-- What a call to a listener can die of. -/
inductive Panic where
  | chainOrder
  | mutexPoisoned
  | applyBlock
  deriving DecidableEq, Repr

/-! ### The channel manager's best block -/

/-- The channel manager asserts that a block builds on its best block. -/
def managerBlockConnected (best block : Chain Block) : Except Panic (Chain Block) :=
  if block ≠ [] ∧ block.tail = best then .ok block else .error .chainOrder

/-- It asserts that a disconnection goes below its best block. -/
def managerBlocksDisconnected (best forkPoint : Chain Block) : Except Panic (Chain Block) :=
  if forkPoint.length < best.length then .ok forkPoint else .error .chainOrder

def managerListener : Listener Panic (Chain Block) Block where
  connected := managerBlockConnected
  disconnected := managerBlocksDisconnected

def monitorListener : Listener Panic ChannelMonitor Block where
  connected m b := .ok (m.blockConnected b)
  disconnected m f := .ok (m.blocksDisconnected f)

/-! ### `ChainListener` -/

/-- The three consumers. The node holds the same three objects. -/
structure ChainListener where
  channelManager : Chain Block
  chainMonitor : List ChannelMonitor
  onchainWallet : WalletManager

namespace ChainListener

def advance (l : ChainListener) (block : Chain Block) : ChainListener where
  channelManager := block
  chainMonitor := l.chainMonitor.map (·.blockConnected block)
  onchainWallet := { l.onchainWallet with bdkWallet := l.onchainWallet.bdkWallet.advance block }

def retreat (l : ChainListener) (forkPoint : Chain Block) : ChainListener where
  channelManager := forkPoint
  chainMonitor := l.chainMonitor.map (·.blocksDisconnected forkPoint)
  onchainWallet := l.onchainWallet

/-- `impl Listen for ChainListener`: the manager, the monitors, and then the wallet, whose
`apply_block` is unwrapped. -/
def filteredBlockConnected (l : ChainListener) (block : Chain Block) :
    Except Panic ChainListener :=
  match managerBlockConnected l.channelManager block with
  | .error e => .error e
  | .ok manager =>
    let monitors := l.chainMonitor.map (·.blockConnected block)
    match l.onchainWallet.lock with
    | none => .error .mutexPoisoned
    | some w =>
      match w.applyBlock block with
      | none => .error .applyBlock
      | some w' =>
        .ok {
          channelManager := manager
          chainMonitor := monitors
          onchainWallet := { l.onchainWallet with bdkWallet := w' } }

/-- BDK has no notion of disconnecting blocks: the wallet is not called. -/
def blocksDisconnected (l : ChainListener) (forkPoint : Chain Block) : Except Panic ChainListener :=
  match managerBlocksDisconnected l.channelManager forkPoint with
  | .error e => .error e
  | .ok manager =>
    .ok { l with
      channelManager := manager
      chainMonitor := l.chainMonitor.map (·.blocksDisconnected forkPoint) }

end ChainListener

def chainListener : Listener Panic ChainListener Block where
  connected := ChainListener.filteredBlockConnected
  disconnected := ChainListener.blocksDisconnected

/-! ### What one call does -/

section Calls

variable {best block f : Chain Block} {l l' : ChainListener}

lemma managerBlockConnected_child (x : Block) :
    managerBlockConnected best (x :: best) = .ok (x :: best) := by
  simp [managerBlockConnected]

lemma managerBlocksDisconnected_ancestor (hf : f <:+ best) (hne : f ≠ best) :
    managerBlocksDisconnected best f = .ok f := by
  have hlt : f.length < best.length :=
    lt_of_le_of_ne hf.length_le fun h => hne (hf.eq_of_length h)
  simp [managerBlocksDisconnected, hlt]

lemma managerBlockConnected_eq_ok {best' : Chain Block} :
    managerBlockConnected best block = .ok best' ↔
      block ≠ [] ∧ block.tail = best ∧ best' = block := by
  unfold managerBlockConnected
  split_ifs with h
  · simp [h.1, h.2, eq_comm]
  · simp only [false_iff]
    exact fun h' => h ⟨h'.1, h'.2.1⟩

/-- A block that builds on the manager's best one is taken, unless the wallet is poisoned or does
not have the parent on its chain. -/
theorem filteredBlockConnected_child {x : Block} (hp : l.onchainWallet.poisoned = false) :
    l.filteredBlockConnected (x :: l.channelManager) =
      if l.channelManager <:+ l.onchainWallet.bdkWallet.latestCheckpoint then
        .ok (l.advance (x :: l.channelManager))
      else .error .applyBlock := by
  have hlock := WalletManager.lock_of_unpoisoned hp
  unfold ChainListener.filteredBlockConnected
  simp only [managerBlockConnected_child, hlock]
  split_ifs with h
  · rw [applyBlock_child x h]
    rfl
  · rw [(applyBlock_eq_none (b := x :: l.channelManager)).mpr h]

theorem filteredBlockConnected_ok (h : l.filteredBlockConnected block = .ok l') :
    block ≠ [] ∧ block.tail = l.channelManager ∧ l' = l.advance block := by
  unfold ChainListener.filteredBlockConnected at h
  cases hm : managerBlockConnected l.channelManager block with
  | error e => simp [hm] at h
  | ok best' =>
    obtain ⟨h1, h2, rfl⟩ := managerBlockConnected_eq_ok.mp hm
    cases hl : l.onchainWallet.lock with
    | none => simp [hm, hl] at h
    | some w =>
      have hw : w = l.onchainWallet.bdkWallet := by
        unfold WalletManager.lock at hl
        split_ifs at hl
        exact (Option.some.inj hl).symm
      cases ha : w.applyBlock best' with
      | none => simp [hm, hl, ha] at h
      | some w' =>
        obtain ⟨-, rfl⟩ := applyBlock_eq_some.mp ha
        simp only [hm, hl, ha, Except.ok.injEq] at h
        subst hw
        exact ⟨h1, h2, h.symm⟩

theorem blocksDisconnected_ancestor (hf : f <:+ l.channelManager) (hne : f ≠ l.channelManager) :
    l.blocksDisconnected f = .ok (l.retreat f) := by
  unfold ChainListener.blocksDisconnected
  simp only [managerBlocksDisconnected_ancestor hf hne]
  rfl

end Calls

end LnNode.BitcoindClient
