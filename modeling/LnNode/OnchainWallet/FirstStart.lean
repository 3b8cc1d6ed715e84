import LnNode.OnchainWallet.Keys

/-!
# Whether an interrupted first start can be repeated

Calls of `WalletManager::new` on an empty path, each killed anywhere. That the seed file is there alone
decides that it is parsed, whatever its write has left of it.

`Recoverable` is the invariant: without a wallet, the seed file is parsed if it is there.

* `repeatable_iff`: a further call returns exactly if no call was killed with a part of the text written
  that is no mnemonic;
* `torn_stays`: on such a file no call ever returns.
-/

namespace LnNode.OnchainWallet.Keys

open LnNode.Lib.Run LnNode.Lib.Wire

/-! ### Calls of a first start -/

/-- One call: the mnemonic it would make, and where it stops. -/
structure Attempt (M : Type) where
  fresh : M
  stop : Stop

section Calls

variable {M D : Type} (B : Mnemonics M D) (network : ℕ)

/-- All calls are on the network of the configuration. -/
def attemptStep [DecidableEq D] (s : Starts M D) (a : Attempt M) : Option (Starts M D) :=
  startStep B s { network, fresh := a.fresh, stop := a.stop }

/-- A further call that is not interrupted returns `Ok`, whatever mnemonic it would make. -/
def Repeatable [DecidableEq D] (s : Starts M D) : Prop :=
  ∀ fresh, (walletManagerNew B s.path network fresh .never).2.isSome

/-- What a call that is killed in the write of the seed file leaves of the text is a mnemonic. -/
def LeavesMnemonic (s : Starts M D) (a : Attempt M) : Prop :=
  ∀ written mnemonic, a.stop = .inSeedWrite written → s.path.wallet = none →
    mnemonicOf B s.path a.fresh = some mnemonic →
    (B.parse ((B.print mnemonic).take written)).isSome

/-- Without a wallet the seed file is parsed if it is there; a wallet is that of the seed file. -/
structure Recoverable (path : NodePath D) : Prop where
  seed : path.wallet = none → ∀ content, path.seed = some content → (B.parse content).isSome
  wallet : ∀ stored, path.wallet = some stored →
    ∃ mnemonic, path.seed = some (B.print mnemonic) ∧ stored = walletOf B mnemonic network

end Calls

/-! ### What every call keeps -/

section Recoverable

variable {M D : Type} {B : Mnemonics M D} {network : ℕ} {s s' : Starts M D} {path : NodePath D}
  {content : Bytes}

lemma recoverable_noWallet : Recoverable B network (noWallet none : Starts M D).path where
  seed := by simp [noWallet]
  wallet := by simp [noWallet]

lemma recoverable_printed (hparse : ∀ mnemonic, B.parse (B.print mnemonic) = some mnemonic)
    {mnemonic : M} {wallet : Option (WalletDb D)}
    (hwallet : ∀ stored ∈ wallet, stored = walletOf B mnemonic network) :
    Recoverable B network { seed := some (B.print mnemonic), wallet } where
  seed := by
    rintro - content hcontent
    rw [← Option.some.inj hcontent, hparse]
    rfl
  wallet stored hstored := ⟨mnemonic, rfl, hwallet stored hstored⟩

lemma Recoverable.exists_mnemonic (h : Recoverable B network path) (hwallet : path.wallet = none)
    (fresh : M) : ∃ mnemonic, mnemonicOf B path fresh = some mnemonic := by
  rw [mnemonicOf]
  cases hseed : path.seed with
  | none => exact ⟨fresh, rfl⟩
  | some content => exact Option.isSome_iff_exists.mp (h.seed hwallet content hseed)

variable [DecidableEq D]

/-- **A further call returns**, with the wallet that is there or with one that it creates. -/
lemma Recoverable.repeatable (hparse : ∀ mnemonic, B.parse (B.print mnemonic) = some mnemonic)
    (h : Recoverable B network s.path) : Repeatable B network s := by
  intro fresh
  cases hwallet : s.path.wallet with
  | none =>
    obtain ⟨mnemonic, hread⟩ := h.exists_mnemonic hwallet fresh
    simp [walletManagerNew, hread, hwallet]
  | some stored =>
    obtain ⟨mnemonic, hseed, rfl⟩ := h.wallet stored hwallet
    simp [walletManagerNew, mnemonicOf_printed hparse fresh hseed, hwallet]

lemma attemptStep_path {a : Attempt M} (hs : attemptStep B network s a = some s') :
    s'.path = (walletManagerNew B s.path network a.fresh a.stop).1 := by
  obtain rfl := Option.some.inj hs
  rfl

theorem Recoverable.step (hparse : ∀ mnemonic, B.parse (B.print mnemonic) = some mnemonic)
    {a : Attempt M} (h : Recoverable B network s.path) (hok : LeavesMnemonic B s a)
    (hs : attemptStep B network s a = some s') : Recoverable B network s'.path := by
  rw [attemptStep_path hs]
  cases hwallet : s.path.wallet with
  | some stored =>
    obtain ⟨mnemonic, hseed, -⟩ := h.wallet stored hwallet
    rw [(new_of_wallet network a.stop hwallet (mnemonicOf_printed hparse a.fresh hseed)).1]
    exact h
  | none =>
    obtain ⟨mnemonic, hread⟩ := h.exists_mnemonic hwallet a.fresh
    simp only [walletManagerNew, hread, hwallet]
    cases hstop : a.stop with
    | beforeWrites => simpa using h
    | inSeedWrite written =>
      refine ⟨fun _ content hcontent => ?_, by simp⟩
      obtain rfl : (B.print mnemonic).take written = content := by simpa using hcontent
      exact hok written mnemonic hstop hwallet hread
    | beforeCreate =>
      have hnew : Recoverable B network { seed := some (B.print mnemonic), wallet := none } :=
        recoverable_printed hparse (by simp)
      simpa using hnew
    | beforeReturn => simpa using recoverable_printed hparse (by simp)
    | never => simpa using recoverable_printed hparse (by simp)

/-! ### A torn seed file -/

lemma new_of_torn (fresh : M) (stop : Stop) (hseed : path.seed = some content)
    (htorn : B.parse content = none) : walletManagerNew B path network fresh stop = (path, none) := by
  have hread : mnemonicOf B path fresh = none := by simp only [mnemonicOf, hseed, htorn]
  simp only [walletManagerNew, hread]

/-- **On a seed file that is no mnemonic no call ever returns**, nor does it change anything. -/
theorem torn_stays (hseed : s.path.seed = some content) (htorn : B.parse content = none)
    (as : List (Attempt M)) : Always (attemptStep B network) (fun t => t = s) s as := by
  refine always_of_keeps rfl ?_
  rintro t a t' rfl ht
  have hnew : walletManagerNew B t.path network a.fresh a.stop = (t.path, none) :=
    new_of_torn a.fresh a.stop hseed htorn
  rw [attemptStep, startStep, hnew] at ht
  rw [← Option.some.inj ht]
  simp

/-- A call that leaves no mnemonic leaves a file that no call returns on. -/
lemma leavesMnemonic_of_repeatable {a : Attempt M} (hs : attemptStep B network s a = some s')
    (h : Repeatable B network s') : LeavesMnemonic B s a := by
  intro written mnemonic hstop hwallet hread
  have hseed : s'.path.seed = some ((B.print mnemonic).take written) := by
    rw [attemptStep_path hs]
    simp [walletManagerNew, hread, hwallet, hstop]
  cases htorn : B.parse ((B.print mnemonic).take written) with
  | some other => rfl
  | none =>
    have hreturns := h a.fresh
    rw [new_of_torn a.fresh .never hseed htorn] at hreturns
    cases hreturns

end Recoverable

/-- **When an interrupted first start can be repeated.** For every sequence of calls on an empty path,
each of them killed anywhere or not. -/
theorem repeatable_iff {M D : Type} [DecidableEq D] (B : Mnemonics M D)
    (hparse : ∀ mnemonic, B.parse (B.print mnemonic) = some mnemonic) (network : ℕ)
    (as : List (Attempt M)) :
    Always (attemptStep B network) (Repeatable B network) (noWallet none) as ↔
      StepsMeet (attemptStep B network) (LeavesMnemonic B) (noWallet none) as :=
  always_iff_stepsMeet (I := fun s => Recoverable B network s.path) recoverable_noWallet
    (fun _ h => h.repeatable hparse) (fun _ _ _ h hok hs => h.step hparse hok hs)
    fun _ _ _ _ hs h => leavesMnemonic_of_repeatable hs h

/-! ### A seed file without a byte -/

/-- A call that is killed in the write after twelve words, and three that find these. -/
def killedInWrite : List (Attempt Bool) :=
  [⟨true, .inSeedWrite shortMnemonic.length⟩, ⟨true, .beforeCreate⟩, ⟨true, .beforeReturn⟩,
    ⟨true, .never⟩]

theorem repeatable_iff_at :
    Always (attemptStep twoMnemonics 0) (Repeatable twoMnemonics 0) (noWallet none) killedInWrite := by
  refine (repeatable_iff twoMnemonics twoMnemonics_parse 0 _).mpr ?_
  refine .cons rfl ?_ (.cons rfl ?_ (.cons rfl ?_ (.cons rfl ?_ trivial)))
  · rintro written mnemonic ⟨⟩ - ⟨⟩
    rw [twoMnemonics_torn, twoMnemonics_parse]
    rfl
  all_goals rintro written mnemonic ⟨⟩

/-- **The first call is killed before the first byte is written**: the file is there and empty, and no
further call returns, whatever mnemonic it would make. -/
theorem not_repeatable_torn :
    let killed : List (Attempt Bool) := [⟨true, .inSeedWrite 0⟩]
    (∃ s, run (attemptStep twoMnemonics 0) (noWallet none) killed = some s ∧
      s.path = { seed := some [], wallet := none } ∧ s.returned = [] ∧
      ∀ as, Always (attemptStep twoMnemonics 0) (fun t => t = s) s as) ∧
    ¬ Always (attemptStep twoMnemonics 0) (Repeatable twoMnemonics 0) (noWallet none) killed := by
  intro killed
  have htorn : twoMnemonics.parse [] = none := by decide +kernel
  have hrun : run (attemptStep twoMnemonics 0) (noWallet none) killed =
      some { path := { seed := some [], wallet := none }, returned := [] } := rfl
  refine ⟨⟨_, hrun, rfl, rfl, fun as => torn_stays rfl htorn as⟩, fun halways => ?_⟩
  have hreturns := halways.last hrun true
  rw [new_of_torn true .never rfl htorn] at hreturns
  cases hreturns

end LnNode.OnchainWallet.Keys
