import LnNode.Node.Start

/-!
# Whether new blocks break the wallet

The listeners are synchronised to one tip, the wallet catches up with the best tip of a later moment,
and the SPV client then starts from the first. `chainTask_iff` says for every choice of tips when the
`unwrap` on `apply_block` never fires: the first heavier tip a poll sees must fork off below the point
where the wallet's chain left the synchronised one. After that poll the two are together, and no later
reorganisation separates them.
-/

namespace LnNode.Node.WalletFollow

open LnNode.Lib.BlockTree LnNode.OnchainWallet LnNode.BitcoindClient LnNode.Node.Start

variable (blockWork : Block → ℕ+)

/-- The first tip that the SPV client follows. -/
def firstFollowed (chainTip : Chain Block) (polls : List (Chain Block)) : Option (Chain Block) :=
  polls.find? fun best => work blockWork chainTip < work blockWork best

/-- The wallet of a node that was just built and has been synchronised. -/
def freshNode (manager : Chain Block) (monitors : List ChannelMonitor) (wallet : BdkWallet) :
    ChainListener where
  channelManager := manager
  chainMonitor := monitors
  onchainWallet := { bdkWallet := wallet }

section Loop

variable {blockWork} {node : ChainListener} {chainTip : Chain Block}

/-- With its tip on the wallet's chain, the loop follows whatever the polls see. -/
theorem pollLoop_of_onWalletChain (h : OnWalletChain chainTip node) (polls : List (Chain Block)) :
    ∃ r, pollLoop blockWork node chainTip polls = .ok r := by
  induction polls generalizing node chainTip with
  | nil => exact ⟨(node, chainTip), rfl⟩
  | cons best rest ih =>
    rw [pollLoop, pollBestTip]
    by_cases hw : work blockWork chainTip < work blockWork best
    · obtain ⟨node', hf, h'⟩ := h.follow best
      simp only [if_pos hw, hf]
      exact ih h'
    · simp only [if_neg hw]
      exact ih h

/-- The loop of a node whose manager is at the tip. Everything is decided by the first tip that is
followed. -/
theorem pollLoop_first (polls : List (Chain Block)) (hm : node.channelManager = chainTip)
    (hp : node.onchainWallet.poisoned = false) :
    (pollLoop blockWork node chainTip polls = .error .applyBlock ∧ ∃ best,
        firstFollowed blockWork chainTip polls = some best ∧
        ¬ forkPoint chainTip best <:+ node.onchainWallet.bdkWallet.latestCheckpoint) ∨
      ((∃ r, pollLoop blockWork node chainTip polls = .ok r) ∧
        ∀ best, firstFollowed blockWork chainTip polls = some best →
          forkPoint chainTip best <:+ node.onchainWallet.bdkWallet.latestCheckpoint) := by
  induction polls with
  | nil =>
    right
    exact ⟨⟨(node, chainTip), rfl⟩, by simp [firstFollowed]⟩
  | cons best rest ih =>
    by_cases hw : work blockWork chainTip < work blockWork best
    · have hfirst : firstFollowed blockWork chainTip (best :: rest) = some best := by
        simp [firstFollowed, hw]
      -- an ancestor of the old tip is never heavier than it
      have hne : forkPoint chainTip best ≠ best := by
        intro h
        have := work_le_of_suffix blockWork (forkPoint_eq_right.mp h)
        omega
      by_cases hs : forkPoint chainTip best <:+ node.onchainWallet.bdkWallet.latestCheckpoint
      · right
        obtain ⟨node', hf, h'⟩ := follow_chainListener_ok hm hp hs
        refine ⟨?_, ?_⟩
        · rw [pollLoop, pollBestTip]
          simp only [if_pos hw, hf]
          exact pollLoop_of_onWalletChain h' rest
        · intro b hb
          rw [hfirst, Option.some.injEq] at hb
          exact hb ▸ hs
      · left
        refine ⟨?_, best, hfirst, hs⟩
        rw [pollLoop, pollBestTip]
        simp only [if_pos hw, follow_chainListener_panics hm hp hne hs]
    · have hskip : pollLoop blockWork node chainTip (best :: rest) =
          pollLoop blockWork node chainTip rest := by
        rw [pollLoop, pollBestTip]
        simp only [if_neg hw]
      have hfirst : firstFollowed blockWork chainTip (best :: rest) =
          firstFollowed blockWork chainTip rest := by
        simp [firstFollowed, hw]
      rw [hskip, hfirst]
      exact ih

end Loop

/-- **When new blocks never break the wallet.** For every node that was just built, every tip the
listeners are synchronised to, every tip the wallet catches up with and every list of tips that the
polls see: the `unwrap` on `apply_block` never fires exactly when the fork point of the synchronised
tip and the first tip that is followed is on the chain the wallet has caught up with. Nothing else
can stop the task. -/
theorem chainTask_iff (manager : Chain Block)
    (monitors : List ChannelMonitor) (wallet : BdkWallet) (syncedTip walletTip : Chain Block)
    (polls : List (Chain Block)) :
    (chainTask blockWork (freshNode manager monitors wallet) syncedTip walletTip polls ≠
        .error (.panicked .applyBlock) ↔
      ∀ best, firstFollowed blockWork syncedTip polls = some best →
        forkPoint syncedTip best <:+ caughtUpTip wallet.latestCheckpoint walletTip) ∧
    (chainTask blockWork (freshNode manager monitors wallet) syncedTip walletTip polls ≠
        .error (.panicked .applyBlock) →
      ∃ r, chainTask blockWork (freshNode manager monitors wallet) syncedTip walletTip polls =
        .ok r) := by
  obtain ⟨w', hw', htip⟩ := syncWallet_eq wallet walletTip
  have htask : chainTask blockWork (freshNode manager monitors wallet) syncedTip walletTip polls =
      (pollLoop blockWork (freshNode syncedTip monitors w') syncedTip polls).mapError
        StartError.panicked := by
    unfold chainTask
    simp only [startSync_eq, freshNode, WalletManager.lock, Bool.false_eq_true, if_false, hw']
  rw [htask, ← htip]
  have hmanager : (freshNode syncedTip monitors w').channelManager = syncedTip := rfl
  rcases pollLoop_first polls hmanager rfl with ⟨hpanic, best, hfirst, hoff⟩ | ⟨⟨r, hr⟩, hon⟩
  · rw [hpanic]
    exact ⟨⟨fun h => absurd rfl h, fun h => absurd (h best hfirst) hoff⟩, fun h => absurd rfl h⟩
  · rw [hr]
    exact ⟨⟨fun _ => hon, fun _ => by simp [Except.mapError]⟩, fun _ => ⟨r, rfl⟩⟩

/-! ### A reorganisation and back -/

/-- The listeners are synchronised to a tip, the chain is reorganised to a heavier branch while the
wallet catches up, and then back to a heavier extension of the first tip, each tip heavier than the
one before: **the `unwrap` on `apply_block` fires**. -/
theorem chainTask_panics :
    chainTask (fun _ => 1) (freshNode [] [] loadedWallet) [emptyBlock 1]
      [emptyBlock 12, emptyBlock 11] [[emptyBlock 3, emptyBlock 2, emptyBlock 1]] =
      .error (.panicked .applyBlock) := by
  rfl

end LnNode.Node.WalletFollow
