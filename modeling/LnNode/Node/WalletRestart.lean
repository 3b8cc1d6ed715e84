import LnNode.Lib.Run
import LnNode.OnchainWallet.Keychains

/-!
# Whether a restart finds the outputs of the wallet

`WalletManager::new` loads the wallet as it was persisted when it was created, and `Node::start` gives
it the blocks from there to the tip. The chain only grows here: no block is replaced by another one.

`Rescannable` is the invariant: the wallet that a restart would build has seen what the wallet has, and
on the external keychain it is at most one index behind.

* `Rescannable.step`: one step keeps it, if a connected block pays no change that only the revealed
  indices make visible;
* `restartKeeps_of_withinGap`: then no restart loses an output.
-/

namespace LnNode.Node.WalletRestart

open LnNode.Lib.Run LnNode.Lib.BlockTree LnNode.OnchainWallet LnNode.OnchainWallet.Keys
  LnNode.OnchainWallet.Keychains

/-! ### Steps -/

inductive Action where
  | nextAddress
  | getDestinationScript
  | getShutdownScriptpubkey
  | getChangeScript
  | getChangeDestinationScript
  /-- Whether the build comes to a change output. -/
  | buildTransaction (change : Bool)
  /-- The block is mined on the tip of the wallet. -/
  | blockConnected (block : Block)
  | restart

variable (lookahead : ℕ) (D : Descriptors)

def walletStep (w : IndexedWallet) : Action → Option IndexedWallet
  | .nextAddress => some (nextAddress D w).2
  | .getDestinationScript => some (getDestinationScript D w).2
  | .getShutdownScriptpubkey => some (getShutdownScriptpubkey D w).2
  | .getChangeScript => some (getChangeScript D w).2
  | .getChangeDestinationScript => some (getChangeDestinationScript D w).2
  | .buildTransaction change => some (buildTransaction D change w)
  | .blockConnected block => some (connectBlock lookahead D w block)
  | .restart => some (rescan lookahead D w.latestCheckpoint)

/-! ### What a restart keeps -/

/-- The wallet that a restart would build at the same tip has the same unspent outputs. -/
def RestartKeeps (w : IndexedWallet) : Prop :=
  ∀ o, o ∈ (rescan lookahead D w.latestCheckpoint).listUnspent ↔ o ∈ w.listUnspent

/-- A connected block pays own scripts only within the window beyond the highest index paid. -/
def WithinGap (w : IndexedWallet) : Action → Prop
  | .blockConnected block => GapKept lookahead D w (blockOuts block)
  | _ => True

/-- A restart would see what the wallet has seen. -/
def Rescannable (w : IndexedWallet) : Prop := Simulates (rescan lookahead D w.latestCheckpoint) w

section Steps

variable {lookahead : ℕ} {D : Descriptors} {w w' : IndexedWallet} {a : Action}

lemma Rescannable.restartKeeps (h : Rescannable lookahead D w) : RestartKeeps lookahead D w := by
  intro o
  rw [IndexedWallet.listUnspent, IndexedWallet.listUnspent, h.txouts, rescan_latestCheckpoint]

/-- Revealing indices is not seen by a restart, and does not change what was paid. -/
lemma Rescannable.reveals (h : Rescannable lookahead D w) (hw : Reveals w w') :
    Rescannable lookahead D w' := by
  have hr := Simulates.reveals h hw
  rwa [← hw.latestCheckpoint] at hr

/-- A step only reveals indices, the external ones no faster than `Tight` allows, or it connects a
block, or it is a restart. -/
lemma walletStep_cases (hs : walletStep lookahead D w a = some w') :
    (Reveals w w' ∧ (Tight w .external → Tight w' .external)) ∨
      (∃ block, a = .blockConnected block ∧ w' = connectBlock lookahead D w block) ∨
      (a = .restart ∧ w' = rescan lookahead D w.latestCheckpoint) := by
  have hne : KeychainKind.external ≠ .internal := by decide
  cases a with
  | nextAddress | getDestinationScript | getShutdownScriptpubkey =>
    cases hs
    exact Or.inl ⟨nextUnusedAddress_reveals, fun h => h.nextUnusedAddress⟩
  | getChangeScript | getChangeDestinationScript =>
    cases hs
    exact Or.inl ⟨nextUnusedAddress_reveals, fun h => h.nextUnusedAddress_of_ne hne⟩
  | buildTransaction change =>
    cases hs
    exact Or.inl ⟨buildTransaction_reveals change, fun h => h.buildTransaction⟩
  | blockConnected block =>
    cases hs
    exact Or.inr (Or.inl ⟨block, rfl, rfl⟩)
  | restart =>
    cases hs
    exact Or.inr (Or.inr ⟨rfl, rfl⟩)

lemma Rescannable.step (h : Rescannable lookahead D w) (hok : WithinGap lookahead D w a)
    (hs : walletStep lookahead D w a = some w') : Rescannable lookahead D w' := by
  rcases walletStep_cases hs with ⟨hw, -⟩ | ⟨block, rfl, rfl⟩ | ⟨-, rfl⟩
  · exact h.reveals hw
  · exact Simulates.connectBlock h hok
  · have hself := Simulates.self h
    rwa [Rescannable, rescan_latestCheckpoint]

/-- Nothing but a payment takes the external keychain further than one index. -/
lemma tight_step (h : Tight w .external) (hs : walletStep lookahead D w a = some w') :
    Tight w' .external := by
  rcases walletStep_cases hs with ⟨-, hkept⟩ | ⟨block, -, rfl⟩ | ⟨-, rfl⟩
  · exact hkept h
  · exact h.connectBlock
  · exact tight_rescan _

end Steps

/-- **When a restart finds the outputs again.** For every run of addresses, scripts, builds, connected
blocks and restarts: if no block pays an own script beyond the window after the highest index of its
keychain that was paid, a restart at any point leaves the same unspent outputs. Only change can be
beyond it: in any state reached, each external index that was handed out lies within the window. -/
theorem restartKeeps_of_withinGap (lookahead : ℕ) (D : Descriptors) (as : List Action) :
    (StepsMeet (walletStep lookahead D) (WithinGap lookahead D) createdWallet as →
      Always (walletStep lookahead D) (RestartKeeps lookahead D) createdWallet as) ∧
    (0 < lookahead → ∀ w, run (walletStep lookahead D) createdWallet as = some w →
      ∀ i < (w.keychains .external).revealed, i < nextPaid w .external + lookahead) := by
  constructor
  · intro hok
    refine (hok.always (I := Rescannable lookahead D) simulates_created ?_).imp fun _ h => h.restartKeeps
    exact fun _ _ _ h ha hs => h.step ha hs
  · intro hlookahead w hr i hi
    have htight : Tight w .external :=
      run_keeps (I := fun w => Tight w .external) tight_created (fun _ _ _ h hs => tight_step h hs) hr
    have hle := htight.revealed_le
    omega

/-! ### Change that is not found again -/

/-- Even numbers are the external scripts, odd numbers the internal ones. -/
def sampleDescriptors : Descriptors where
  spk
    | .external, i => 2 * i
    | .internal, i => 2 * i + 1
  index s := some (if s % 2 = 0 then .external else .internal, s / 2)
  index_spk kind i := by
    cases kind
    · simp
    · simp
      omega

def changeBlock (i : ℕ) : Block where
  header := 0
  txdata := [{ txid := 7, input := [], output := [{ value := 60000, scriptPubkey := 2 * i + 1 }] }]

def unconfirmedBuilds (n : ℕ) : List Action :=
  List.replicate n (.buildTransaction true) ++ [.buildTransaction true, .blockConnected (changeBlock n)]

theorem restartKeeps_of_withinGap_at :
    Always (walletStep 25 sampleDescriptors) (RestartKeeps 25 sampleDescriptors) createdWallet
      (unconfirmedBuilds 1) ∧ (0 : ℕ) < 0 + 25 := by
  refine ⟨(restartKeeps_of_withinGap 25 sampleDescriptors _).1 ?_,
    (restartKeeps_of_withinGap 25 sampleDescriptors [.nextAddress]).2 (by decide) _ rfl 0 (by decide)⟩
  refine .cons rfl trivial (.cons rfl trivial (.cons rfl ⟨fun kind i hindex _ => ?_, trivial⟩ trivial))
  cases hindex
  decide

/-- **After twenty-five builds** that were not confirmed, the change of the next one is lost. -/
theorem not_restartKeeps_unconfirmed :
    ∃ w, run (walletStep 25 sampleDescriptors) createdWallet (unconfirmedBuilds 25) = some w ∧
      w.listUnspent = [{ outpoint := ⟨7, 0⟩, txout := ⟨60000, 51⟩, keychain := .internal, index := 25 }] ∧
      (rescan 25 sampleDescriptors w.latestCheckpoint).listUnspent = [] ∧
      ¬ Always (walletStep 25 sampleDescriptors) (RestartKeeps 25 sampleDescriptors) createdWallet
        (unconfirmedBuilds 25) := by
  have hruns : ∃ w, run (walletStep 25 sampleDescriptors) createdWallet (unconfirmedBuilds 25) = some w ∧
      w.listUnspent = [{ outpoint := ⟨7, 0⟩, txout := ⟨60000, 51⟩, keychain := .internal, index := 25 }] ∧
      (rescan 25 sampleDescriptors w.latestCheckpoint).listUnspent = [] :=
    ⟨_, rfl, by decide, by decide⟩
  obtain ⟨w, hr, hkept, hlost⟩ := hruns
  refine ⟨w, hr, hkept, hlost, fun h => ?_⟩
  have hfound := (h.last hr _).mpr (hkept ▸ List.mem_singleton_self _)
  rw [hlost] at hfound
  exact List.not_mem_nil hfound

end LnNode.Node.WalletRestart
