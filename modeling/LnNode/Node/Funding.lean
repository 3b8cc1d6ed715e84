import LnNode.EventHandler
import LnNode.Lib.Run

/-!
# Whether funding transactions conflict

A funding transaction spends coins that the wallet counts as unspent, and the wallet learns that they
are spent from the block that confirms it, not from the build. Between the two, another channel may be
opened.

* `always_fundingsDisjoint`: where no coin of an accepted funding transaction is offered again,
  accepted transactions have disjoint inputs throughout;
* `exists_conflict`: where one is offered again, some coin selection takes it.
-/

namespace LnNode.Node.Funding

open LnNode.Lib.BlockTree LnNode.Lib.Run LnNode.OnchainWallet LnNode.Storage LnNode.EventHandler

/-- The wallet, and the funding transactions that `funding_transaction_generated` has accepted. -/
structure Opening where
  onchainWallet : WalletManager
  accepted : List Transaction

inductive Action where
  /-- A channel waits for its funding transaction; the handler says what BDK and LDK decide. -/
  | fundingGenerationReady (h : LdkEventHandler) (temporaryChannelId : ChannelId)
      (counterpartyNodeId : PublicKey) (channelValueSatoshis : ℕ) (outputScript : Script)
  | blockConnected (block : Chain Block)

/-- The wallet's part of a connected block: the `unwrap` panics under the lock. -/
def walletBlockConnected (m : WalletManager) (block : Chain Block) : WalletManager :=
  match m.lock with
  | none => m
  | some w =>
    match w.applyBlock block with
    | none => { m with poisoned := true }
    | some w' => { m with bdkWallet := w' }

lemma walletBlockConnected_eq {m : WalletManager} (hp : m.poisoned = false) (block : Chain Block) :
    walletBlockConnected m block =
      if block.tail <:+ m.bdkWallet.latestCheckpoint then
        { m with bdkWallet := m.bdkWallet.advance block }
      else { m with poisoned := true } := by
  have hlock := WalletManager.lock_of_unpoisoned hp
  unfold walletBlockConnected
  split_ifs with h
  · simp only [hlock, applyBlock_eq_some.mpr ⟨h, rfl⟩]
  · simp only [hlock, applyBlock_eq_none.mpr h]

def acceptedTxs (calls : List Call) : List Transaction :=
  calls.filterMap fun
    | .fundingTransactionGenerated _ _ fundingTx .accepted => some fundingTx
    | _ => none

/-- The transactions that LDK is handed in a list of calls, accepted or not. -/
def handedTxs (calls : List Call) : List Transaction :=
  calls.filterMap fun
    | .fundingTransactionGenerated _ _ fundingTx _ => some fundingTx
    | _ => none

def openingStep (s : Opening) : Action → Option Opening
  | .fundingGenerationReady h temporaryChannelId counterpartyNodeId value script =>
    let handled := handleEvent { h with onchainWallet := s.onchainWallet } ∅
      (.fundingGenerationReady temporaryChannelId counterpartyNodeId value script)
    some { s with accepted := s.accepted ++ acceptedTxs handled.calls }
  | .blockConnected block =>
    some { s with onchainWallet := walletBlockConnected s.onchainWallet block }

def noneOpened (m : WalletManager) : Opening := { onchainWallet := m, accepted := [] }

/-- Any two of the accepted transactions have disjoint inputs. -/
def FundingsDisjoint (s : Opening) : Prop :=
  s.accepted.Pairwise fun t u => t.input.Disjoint u.input

/-- The wallet counts no input of an accepted transaction as unspent. -/
def SpentCoinsSeen (s : Opening) : Prop :=
  ∀ tx ∈ s.accepted, ∀ o ∈ tx.input, o ∉ s.onchainWallet.bdkWallet.unspentOutpoints

/-- A funding transaction is asked for only when the wallet has seen the earlier ones spend. -/
def BuildsAfterSpends (s : Opening) : Action → Prop
  | .fundingGenerationReady .. => SpentCoinsSeen s
  | .blockConnected _ => True

section Steps

variable {s s' : Opening}

/-- What one funding request adds: at most one transaction, of the wallet's unspent coins. -/
lemma accepted_fundingGenerationReady (h : LdkEventHandler) (store : KvStore)
    (channel : ChannelId) (peer : PublicKey) (value : ℕ) (script : Script) :
    let new := acceptedTxs
      (handleEvent h store (.fundingGenerationReady channel peer value script)).calls
    new = [] ∨ ∃ tx, new = [tx] ∧
      ∀ o ∈ tx.input, o ∈ h.onchainWallet.bdkWallet.unspentOutpoints := by
  intro new
  show acceptedTxs _ = [] ∨ ∃ tx, acceptedTxs _ = [tx] ∧ _
  rw [handleEvent]
  cases hbuild : buildTransaction h.onchainWallet h.txBuilder value script h.maximumFeeEstimate with
  | error failure =>
    left
    cases failure <;> rfl
  | ok tx =>
    cases h.fundingTransactionGenerated with
    | accepted =>
      right
      exact ⟨tx, rfl, (buildTransaction_ok hbuild).2.2⟩
    | error channelClosed =>
      left
      rfl

theorem FundingsDisjoint.step {a : Action} (h : FundingsDisjoint s) (hok : BuildsAfterSpends s a)
    (hs : openingStep s a = some s') : FundingsDisjoint s' := by
  cases a with
  | blockConnected block =>
    cases hs
    exact h
  | fundingGenerationReady hnd channel peer value script =>
    cases hs
    unfold FundingsDisjoint
    rcases accepted_fundingGenerationReady { hnd with onchainWallet := s.onchainWallet } ∅ channel
      peer value script with hnew | ⟨tx, hnew, htx⟩
    · rw [hnew, List.append_nil]
      exact h
    · rw [hnew, List.pairwise_append]
      refine ⟨h, List.pairwise_singleton _ _, fun t ht u hu o hot hou => ?_⟩
      rw [List.mem_singleton.mp hu] at hou
      exact hok t ht o hot (htx o hou)

theorem always_fundingsDisjoint {as : List Action} (h : FundingsDisjoint s)
    (hok : StepsMeet openingStep BuildsAfterSpends s as) :
    Always openingStep FundingsDisjoint s as :=
  hok.always h fun _ _ _ hI hk hs => hI.step hk hs

end Steps

/-! ### The condition cannot be dropped -/

def allCoins : CoinSelection where
  select utxos amount _ :=
    if amount ≤ (utxos.map fun utxo => utxo.txout.value).sum then some (utxos, 0) else none
  sub := by
    intro utxos amount _ chosen fee h
    split_ifs at h
    cases h
    exact fun utxo hu => hu
  covers := by
    intro utxos amount _ chosen fee h
    split_ifs at h with hle
    cases h
    simpa using hle

lemma confirmedBalance_le_unspent (w : BdkWallet) :
    w.confirmedBalance ≤ (w.listUnspent.map fun utxo => utxo.txout.value).sum :=
  (List.filter_sublist.map _).sum_le_sum fun _ _ => Nat.zero_le _

lemma buildTransaction_allCoins {m : WalletManager} {amount feeRate : ℕ} {dest : Script}
    (hp : m.poisoned = false) (hbal : amount ≤ m.bdkWallet.confirmedBalance) :
    ∃ tx, buildTransaction m { firstCoins with coinSelection := allCoins } amount dest feeRate =
      .ok tx ∧ tx.input = m.bdkWallet.unspentOutpoints := by
  have hlock := WalletManager.lock_of_unpoisoned hp
  have hsum := hbal.trans (confirmedBalance_le_unspent m.bdkWallet)
  unfold buildTransaction
  simp only [hlock, if_neg (Nat.not_lt.mpr hbal), allCoins, if_pos hsum, firstCoins]
  exact ⟨_, rfl, rfl⟩

/-- **Some coin selection conflicts.** Where a coin of an accepted transaction still counts as
unspent, a request that the balance allows can be answered with it. -/
theorem exists_conflict {s : Opening} {value : ℕ} (hp : s.onchainWallet.poisoned = false)
    (hbal : value ≤ s.onchainWallet.bdkWallet.confirmedBalance) (hno : ¬ SpentCoinsSeen s)
    (channel : ChannelId) (peer : PublicKey) (script : Script) :
    ∃ h s', openingStep s (.fundingGenerationReady h channel peer value script) = some s' ∧
      ¬ FundingsDisjoint s' := by
  obtain ⟨t, ht, o, hot, hou⟩ : ∃ t ∈ s.accepted, ∃ o ∈ t.input,
      o ∈ s.onchainWallet.bdkWallet.unspentOutpoints := by
    unfold SpentCoinsSeen at hno
    push Not at hno
    exact hno
  obtain ⟨tx, hbuild, hinput⟩ : ∃ tx, buildTransaction s.onchainWallet
      { firstCoins with coinSelection := allCoins } value script quietHandler.maximumFeeEstimate =
        .ok tx ∧ tx.input = s.onchainWallet.bdkWallet.unspentOutpoints :=
    buildTransaction_allCoins hp hbal
  refine ⟨{ quietHandler with txBuilder := { firstCoins with coinSelection := allCoins } }, _, rfl,
    fun hd => ?_⟩
  unfold FundingsDisjoint at hd
  rw [handleEvent] at hd
  simp only [hbuild] at hd
  have htx := (List.pairwise_append.mp hd).2.2 t ht tx
    (by simp [acceptedTxs, Handled.of, quietHandler])
  exact htx hot (hinput ▸ hou)

/-- A request that the balance allows keeps the accepted transactions disjoint, whatever BDK and LDK
decide, exactly when the wallet has seen the earlier ones spend. -/
theorem request_iff {s : Opening} {value : ℕ} (hd : FundingsDisjoint s)
    (hp : s.onchainWallet.poisoned = false)
    (hbal : value ≤ s.onchainWallet.bdkWallet.confirmedBalance)
    (channel : ChannelId) (peer : PublicKey) (script : Script) :
    (∀ h s', openingStep s (.fundingGenerationReady h channel peer value script) = some s' →
      FundingsDisjoint s') ↔ SpentCoinsSeen s := by
  constructor
  · intro hall
    by_contra hno
    obtain ⟨h, s', hs', hconflict⟩ := exists_conflict hp hbal hno channel peer script
    exact hconflict (hall h s' hs')
  · intro hseen h s' hs'
    exact hd.step (a := .fundingGenerationReady h channel peer value script) hseen hs'

/-- **When funding transactions never conflict.** For every wallet and every run of funding requests
and connected blocks in any order, with any coin selection, where nothing accepted before conflicts:
if no input of an accepted transaction is unspent for the wallet when the next one is asked for, any
two accepted transactions have disjoint inputs throughout. The condition is exact: a request that the
balance allows keeps them disjoint under every coin selection only if it is met. -/
theorem fundingsDisjoint_iff (s : Opening) (hd : FundingsDisjoint s) :
    (∀ as : List Action, StepsMeet openingStep BuildsAfterSpends s as →
      Always openingStep FundingsDisjoint s as) ∧
    ∀ (value : ℕ) (channel : ChannelId) (peer : PublicKey) (script : Script),
      s.onchainWallet.poisoned = false → value ≤ s.onchainWallet.bdkWallet.confirmedBalance →
      ((∀ h s', openingStep s (.fundingGenerationReady h channel peer value script) = some s' →
        FundingsDisjoint s') ↔ SpentCoinsSeen s) :=
  ⟨fun _ hok => always_fundingsDisjoint hd hok,
    fun _ channel peer script hp hbal => request_iff hd hp hbal channel peer script⟩

/-! ### Two channels between two blocks -/

def paidManager : WalletManager := { bdkWallet := paidWallet }

def openSmallChannel (channel : ChannelId) : Action :=
  .fundingGenerationReady quietHandler channel 1 20000 9

/-- A builder whose change goes back to script 3, and whose ids tell transactions apart. -/
def changeBack : TxBuilder :=
  { firstCoins with
    changeScript := 3
    txid := fun input _ => 10 + (input.map OutPoint.txid).sum }

/-- A request for a channel of 20,000 sats, the change of which comes back. -/
def openWithChange (channel : ChannelId) : Action :=
  .fundingGenerationReady { quietHandler with txBuilder := changeBack } channel 1 20000 9

/-- The block that confirms the first of these funding transactions, after the paying block. -/
def confirmingBlock : Block where
  header := 2
  txdata := [{ txid := 17, input := [⟨7, 0⟩], output :=
    [{ value := 20000, scriptPubkey := 9 }, { value := 30000, scriptPubkey := 3 }] }]

/-- Two channels, and the block that confirms the first funding transaction between them. -/
def openConfirmOpen : List Action :=
  [openWithChange 0, .blockConnected [confirmingBlock, payingBlock], openWithChange 1]

theorem fundingsDisjoint_iff_at :
    ∃ s, run openingStep (noneOpened paidManager) openConfirmOpen = some s ∧
      s.accepted.map Transaction.input = [[⟨7, 0⟩], [⟨17, 1⟩]] ∧ FundingsDisjoint s ∧
      ¬ ∀ h s', openingStep s (.fundingGenerationReady h 2 1 20000 9) = some s' →
        FundingsDisjoint s' := by
  have hmeets : StepsMeet openingStep BuildsAfterSpends (noneOpened paidManager) openConfirmOpen := by
    refine .cons rfl ?_ (.cons rfl trivial (.cons rfl ?_ trivial))
    · simp [BuildsAfterSpends, SpentCoinsSeen, noneOpened, openWithChange]
    · show SpentCoinsSeen _
      unfold SpentCoinsSeen
      decide
  have hd := (fundingsDisjoint_iff (noneOpened paidManager) List.Pairwise.nil).1 _ hmeets
  refine ⟨_, rfl, rfl, hd.last rfl, fun hall => ?_⟩
  have hseen := ((fundingsDisjoint_iff _ (hd.last rfl)).2 20000 2 1 9 rfl (by decide)).mp hall
  exact absurd hseen (by unfold SpentCoinsSeen; decide)

/-- **Two channels between two blocks** get funding transactions that spend the same coin. -/
theorem not_fundingsDisjoint_twoOpens :
    ∃ s, run openingStep (noneOpened paidManager) [openSmallChannel 0, openSmallChannel 1] = some s ∧
      s.accepted.map Transaction.input = [[⟨7, 0⟩], [⟨7, 0⟩]] ∧ ¬ FundingsDisjoint s := by
  refine ⟨_, rfl, rfl, fun h => ?_⟩
  have hpair := List.pairwise_iff_getElem.mp h 0 1 (by decide) (by decide) (by decide)
  exact hpair (a := ⟨7, 0⟩) (by decide) (by decide)

end LnNode.Node.Funding
