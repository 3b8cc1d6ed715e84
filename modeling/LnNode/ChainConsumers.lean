import LnNode.BitcoindClient
import LnNode.Lib.Run

/-!
# The three consumers of the chain, call by call

The channel manager, the chain monitor and the on-chain wallet are notified through the one
`ChainListener`. `Agree` says that they have the same best block; `agreesThroughout_iff` says which
sequences of calls keep it: exactly those without a disconnection, because a disconnection does not
reach the wallet.
-/

namespace LnNode.ChainConsumers

open LnNode.Lib.BlockTree LnNode.Lib.Run LnNode.OnchainWallet LnNode.BitcoindClient

/-- The calls of the `Listen` interface. -/
inductive ListenCall where
  | filteredBlockConnected (block : Chain Block)
  | blocksDisconnected (forkPoint : Chain Block)
  deriving DecidableEq

def ListenCall.isConnection : ListenCall → Bool
  | filteredBlockConnected _ => true
  | blocksDisconnected _ => false

/-- One call to the listener; `none` is a panic. -/
def call (l : ChainListener) : ListenCall → Option ChainListener
  | .filteredBlockConnected block => (l.filteredBlockConnected block).toOption
  | .blocksDisconnected forkPoint => (l.blocksDisconnected forkPoint).toOption

/-- The contract of `Listen`: a connected block builds on the best block, and a disconnection goes to
an ancestor of it, removing one block at least. -/
def RespectsContract : Chain Block → List ListenCall → Prop
  | _, [] => True
  | best, .filteredBlockConnected block :: cs =>
    block ≠ [] ∧ block.tail = best ∧ RespectsContract block cs
  | best, .blocksDisconnected forkPoint :: cs =>
    forkPoint <:+ best ∧ forkPoint ≠ best ∧ RespectsContract forkPoint cs

instance decidableRespectsContract : ∀ best cs, Decidable (RespectsContract best cs)
  | _, [] => isTrue trivial
  | best, .filteredBlockConnected block :: cs => by
    haveI := decidableRespectsContract block cs
    unfold RespectsContract
    infer_instance
  | best, .blocksDisconnected forkPoint :: cs => by
    haveI := decidableRespectsContract forkPoint cs
    unfold RespectsContract
    infer_instance

/-- The three have the same best block. The wallet's is read behind its mutex. -/
structure Agree (l : ChainListener) : Prop where
  wallet : l.onchainWallet.lock.map BdkWallet.latestCheckpoint = some l.channelManager
  monitors : ∀ m ∈ l.chainMonitor, m.best = l.channelManager

/-- Every transaction behind the confirmed balance is in a block of the channel manager's chain. -/
def CountsBestChainOnly (l : ChainListener) : Prop :=
  ∀ tx ∈ l.onchainWallet.bdkWallet.confirmedTxs, tx ∈ chainTxs l.channelManager

/-- Every call returns, and after every one of them the three agree and the wallet counts no
transaction of a disconnected block. -/
def AgreesThroughout (l : ChainListener) (cs : List ListenCall) : Prop :=
  (run call l cs).isSome ∧ Always call (fun l => Agree l ∧ CountsBestChainOnly l) l cs

/-! ### One call -/

section Calls

variable {l l' : ChainListener} {f : Chain Block}

lemma Agree.lock (h : Agree l) : l.onchainWallet.poisoned = false ∧
    l.onchainWallet.bdkWallet.latestCheckpoint = l.channelManager := by
  have hw := h.wallet
  unfold WalletManager.lock at hw
  cases hp : l.onchainWallet.poisoned with
  | true => simp [hp] at hw
  | false => exact ⟨rfl, by simpa [hp] using hw⟩

lemma Agree.countsBestChainOnly (h : Agree l) : CountsBestChainOnly l := by
  intro tx htx
  rwa [BdkWallet.confirmedTxs, h.lock.2] at htx

theorem Agree.call_connected (h : Agree l) (x : Block) :
    call l (.filteredBlockConnected (x :: l.channelManager)) =
      some (l.advance (x :: l.channelManager)) ∧ Agree (l.advance (x :: l.channelManager)) := by
  obtain ⟨hp, htip⟩ := h.lock
  refine ⟨?_, ⟨?_, ?_⟩⟩
  · have hsuf : l.channelManager <:+ l.onchainWallet.bdkWallet.latestCheckpoint := by
      rw [htip]
    rw [call, filteredBlockConnected_child hp, if_pos hsuf]
    rfl
  · simp [ChainListener.advance, WalletManager.lock, hp, advance_child x _ htip.symm]
  · intro m hm
    obtain ⟨m₀, -, rfl⟩ := List.mem_map.mp hm
    rfl

theorem Agree.call_disconnected (h : Agree l) (hf : f <:+ l.channelManager)
    (hne : f ≠ l.channelManager) :
    call l (.blocksDisconnected f) = some (l.retreat f) ∧ ¬ Agree (l.retreat f) := by
  refine ⟨?_, fun h' => hne ?_⟩
  · rw [call, blocksDisconnected_ancestor hf hne]
    rfl
  · rw [← h.lock.2]
    exact h'.lock.2.symm

end Calls

/-! ### Sequences of calls -/

/-- **When the three consumers agree after every call**: for every state in which they agree and
every sequence of calls that respects the contract, exactly when no call is a disconnection. -/
theorem agreesThroughout_iff (l : ChainListener) (cs : List ListenCall) (h : Agree l)
    (hc : RespectsContract l.channelManager cs) :
    AgreesThroughout l cs ↔ ∀ c ∈ cs, c.isConnection := by
  induction cs generalizing l with
  | nil =>
    simp only [List.not_mem_nil, false_implies, implies_true, iff_true]
    exact ⟨rfl, h, h.countsBestChainOnly⟩
  | cons c cs ih =>
    cases c with
    | filteredBlockConnected block =>
      obtain ⟨hne, htail, hc⟩ := hc
      obtain ⟨x, hx⟩ : ∃ x, block = x :: l.channelManager := by
        cases block with
        | nil => exact absurd rfl hne
        | cons x b => exact ⟨x, by rw [← htail]; rfl⟩
      obtain ⟨hcall, hagree⟩ := h.call_connected x
      rw [← hx] at hcall hagree
      have hhead : AgreesThroughout l (.filteredBlockConnected block :: cs) ↔
          AgreesThroughout (l.advance block) cs := by
        unfold AgreesThroughout
        simp only [run_cons, hcall, Option.bind_some, Always, Option.some.injEq, forall_eq']
        exact ⟨fun h' => ⟨h'.1, h'.2.2⟩, fun h' => ⟨h'.1, ⟨h, h.countsBestChainOnly⟩, h'.2⟩⟩
      have hall : (∀ c ∈ .filteredBlockConnected block :: cs, c.isConnection = true) ↔
          ∀ c ∈ cs, c.isConnection = true := by
        rw [List.forall_mem_cons]
        exact ⟨fun h' => h'.2, fun h' => ⟨rfl, h'⟩⟩
      rw [hhead, hall]
      exact ih _ hagree hc
    | blocksDisconnected f =>
      obtain ⟨hf, hne, hc⟩ := hc
      obtain ⟨hcall, hbreak⟩ := h.call_disconnected hf hne
      refine ⟨fun h' => absurd (h'.2.2 _ hcall).head.1 hbreak, fun h' => ?_⟩
      exact absurd (h' _ List.mem_cons_self) (by simp [ListenCall.isConnection])

/-! ### A reorganisation -/

/-- The three consumers at a chain of one block, which pays 50,000 sats to the wallet. -/
def atPayingBlock : ChainListener where
  channelManager := [payingBlock]
  chainMonitor := [{ channelId := 0, birth := [], best := [payingBlock], processed := []
                     processed_le := by simp }]
  onchainWallet := { bdkWallet := paidWallet }

lemma atPayingBlock_agree : Agree atPayingBlock := ⟨rfl, by simp [atPayingBlock]⟩

def twoConnections : List ListenCall :=
  [.filteredBlockConnected [⟨2, []⟩, payingBlock],
    .filteredBlockConnected [⟨3, []⟩, ⟨2, []⟩, payingBlock]]

/-- They agree after two connections, and no more when both blocks are disconnected. -/
theorem agreesThroughout_iff_at : AgreesThroughout atPayingBlock twoConnections ∧
    ¬ AgreesThroughout atPayingBlock (twoConnections ++ [.blocksDisconnected [payingBlock]]) := by
  constructor
  · exact (agreesThroughout_iff _ _ atPayingBlock_agree (by decide)).mpr (by decide)
  · intro h
    exact absurd ((agreesThroughout_iff _ _ atPayingBlock_agree (by decide)).mp h) (by decide)

/-- **After the block is disconnected, the wallet still counts it**: the manager and the monitor are
back at the root, the confirmed balance still has the 50,000 sats. -/
theorem not_agreesThroughout_disconnected :
    Agree atPayingBlock ∧
    RespectsContract atPayingBlock.channelManager [.blocksDisconnected []] ∧
    ¬ AgreesThroughout atPayingBlock [.blocksDisconnected []] ∧
    (call atPayingBlock (.blocksDisconnected [])).map
        (fun l => (l.channelManager, l.onchainWallet.bdkWallet.confirmedBalance)) =
      some ([], 50000) := by
  refine ⟨atPayingBlock_agree, by decide, fun h => ?_, by decide⟩
  obtain ⟨hcall, hbreak⟩ := atPayingBlock_agree.call_disconnected (f := []) (by simp) (by decide)
  exact hbreak (h.2.2 _ hcall).head.1

end LnNode.ChainConsumers
