import LnNode.Lib.Run
import LnNode.Lib.Wire

/-!
# Whether the node ever changes keys

`WalletManager::new` takes its mnemonic from the seed file, or makes one and writes the file before it
creates the wallet. The process may be killed between any two of these, and inside the write, which
leaves a part of the text; a part may be a shorter mnemonic by itself.

Mnemonics and the descriptors made of them are code outside the repository: what is relied on is that a
mnemonic that was printed is parsed back.

* `OneSeed.step`: once there is a wallet, the seed file is of its mnemonic and no call writes it;
* `keysKept`: so all calls that return use one mnemonic.
-/

namespace LnNode.OnchainWallet.Keys

open LnNode.Lib.Run LnNode.Lib.Wire

inductive KeychainKind where
  | external
  | internal
  deriving DecidableEq, Repr

/-! ### Files -/

/-- What the wallet database stores: the descriptors of both keychains, and the network. -/
structure WalletDb (D : Type) where
  external : D
  internal : D
  network : ℕ
  deriving DecidableEq

/-- The seed file and the wallet database. A database without a wallet is none. -/
structure NodePath (D : Type) where
  seed : Option Bytes
  wallet : Option (WalletDb D)

/-- Mnemonics `M` as text, and the descriptors `D` made of them. -/
structure Mnemonics (M D : Type) where
  print : M → Bytes
  parse : Bytes → Option M
  bip84 : M → KeychainKind → D

/-- Where a call is killed, or one of its operations fails. -/
inductive Stop where
  | never
  /-- Before anything is written. -/
  | beforeWrites
  /-- Inside `fs::write`, which has truncated the file and written so many bytes. -/
  | inSeedWrite (written : ℕ)
  | beforeCreate
  | beforeReturn
  deriving DecidableEq

/-! ### `WalletManager::new` -/

section New

variable {M D : Type} (B : Mnemonics M D)

/-- The mnemonic of the seed file, or a new one. -/
def mnemonicOf (path : NodePath D) (fresh : M) : Option M :=
  match path.seed with
  | some content => B.parse content
  | none => some fresh

def walletOf (mnemonic : M) (network : ℕ) : WalletDb D where
  external := B.bip84 mnemonic .external
  internal := B.bip84 mnemonic .internal
  network := network

/-- The files afterwards, and the mnemonic of a call that returns `Ok`. -/
def walletManagerNew [DecidableEq D] (path : NodePath D) (network : ℕ) (fresh : M) (stop : Stop) :
    NodePath D × Option M :=
  match mnemonicOf B path fresh with
  | none => (path, none)
  | some mnemonic =>
    if stop = .beforeWrites then (path, none)
    else
      match path.wallet with
      | some stored =>
        -- loading checks the descriptors and the network
        if stored = walletOf B mnemonic network ∧ stop ≠ .beforeReturn then (path, some mnemonic)
        else (path, none)
      | none =>
        match stop with
        | .inSeedWrite written => ({ path with seed := some ((B.print mnemonic).take written) }, none)
        | .beforeCreate => ({ path with seed := some (B.print mnemonic) }, none)
        | .beforeReturn =>
          ({ seed := some (B.print mnemonic), wallet := some (walletOf B mnemonic network) }, none)
        | _ =>
          ({ seed := some (B.print mnemonic), wallet := some (walletOf B mnemonic network) },
            some mnemonic)

/-! ### Starts on one path -/

/-- The files, and the mnemonics of the calls that have returned `Ok`. -/
structure Starts (M D : Type) where
  path : NodePath D
  returned : List M

/-- One call: the network of the configuration, the mnemonic it would make, and where it stops. -/
structure Start (M : Type) where
  network : ℕ
  fresh : M
  stop : Stop

def startStep [DecidableEq D] (s : Starts M D) (a : Start M) : Option (Starts M D) :=
  let (path, mnemonic) := walletManagerNew B s.path a.network a.fresh a.stop
  some { path, returned := s.returned ++ mnemonic.toList }

/-- A path without a wallet, whatever its seed file is. -/
def noWallet (seed : Option Bytes) : Starts M D where
  path := { seed, wallet := none }
  returned := []

/-- The calls that have returned used one mnemonic, and the seed file holds exactly that. -/
def KeysKept (s : Starts M D) : Prop :=
  ∀ mnemonic ∈ s.returned, s.path.seed = some (B.print mnemonic) ∧
    ∀ mnemonic' ∈ s.returned, mnemonic' = mnemonic

/-- No call has returned before there is a wallet; then the seed file holds the mnemonic of all calls
that have. -/
structure OneSeed (s : Starts M D) : Prop where
  before : s.path.wallet = none → s.returned = []
  after : ∀ stored, s.path.wallet = some stored →
    ∃ mnemonic, s.path.seed = some (B.print mnemonic) ∧ ∀ m ∈ s.returned, m = mnemonic

lemma oneSeed_noWallet (seed : Option Bytes) : OneSeed B (noWallet seed) where
  before _ := rfl
  after stored h := by cases h

lemma OneSeed.oneMnemonic {B : Mnemonics M D} {s : Starts M D} (h : OneSeed B s) : KeysKept B s := by
  intro mnemonic hmem
  cases hwallet : s.path.wallet with
  | none =>
    rw [h.before hwallet] at hmem
    cases hmem
  | some stored =>
    obtain ⟨m, hseed, hall⟩ := h.after stored hwallet
    rw [hall mnemonic hmem]
    exact ⟨hseed, hall⟩

section Steps

variable {B} {s s' : Starts M D} {path : NodePath D} {fresh : M}

lemma mnemonicOf_printed (hparse : ∀ mnemonic, B.parse (B.print mnemonic) = some mnemonic)
    {mnemonic : M} (fresh : M) (hseed : path.seed = some (B.print mnemonic)) :
    mnemonicOf B path fresh = some mnemonic := by
  simp only [mnemonicOf, hseed, hparse]

variable [DecidableEq D]

lemma new_of_wallet {stored : WalletDb D} {mnemonic : M} (network : ℕ) (stop : Stop)
    (hwallet : path.wallet = some stored)
    (hread : mnemonicOf B path fresh = some mnemonic) :
    (walletManagerNew B path network fresh stop).1 = path ∧
      ∀ m ∈ (walletManagerNew B path network fresh stop).2, m = mnemonic := by
  simp only [walletManagerNew, hread, hwallet]
  split_ifs <;> simp

/-- A call that finds none creates none and does not return, or creates it after the seed file. -/
lemma new_of_no_wallet (B : Mnemonics M D) (network : ℕ) (fresh : M) (stop : Stop)
    (hwallet : path.wallet = none) :
    ((walletManagerNew B path network fresh stop).1.wallet = none ∧
        (walletManagerNew B path network fresh stop).2 = none) ∨
      ∃ mnemonic stored, (walletManagerNew B path network fresh stop).1 =
          { seed := some (B.print mnemonic), wallet := some stored } ∧
        ∀ m ∈ (walletManagerNew B path network fresh stop).2, m = mnemonic := by
  cases hread : mnemonicOf B path fresh with
  | none => simp [walletManagerNew, hread, hwallet]
  | some mnemonic =>
    simp only [walletManagerNew, hread, hwallet]
    cases stop with
    | beforeWrites => simp [hwallet]
    | inSeedWrite written => simp
    | beforeCreate => simp
    | beforeReturn =>
      right
      exact ⟨mnemonic, walletOf B mnemonic network, by simp, by simp⟩
    | never =>
      right
      exact ⟨mnemonic, walletOf B mnemonic network, by simp, by simp⟩

theorem OneSeed.step (hparse : ∀ mnemonic, B.parse (B.print mnemonic) = some mnemonic) {a : Start M}
    (h : OneSeed B s) (hs : startStep B s a = some s') : OneSeed B s' := by
  have hs' : s' =
      { path := (walletManagerNew B s.path a.network a.fresh a.stop).1
        returned := s.returned ++ (walletManagerNew B s.path a.network a.fresh a.stop).2.toList } :=
    (Option.some.inj hs).symm
  cases hwallet : s.path.wallet with
  | some stored =>
    obtain ⟨mnemonic, hseed, hall⟩ := h.after stored hwallet
    obtain ⟨hpath, hresult⟩ :=
      new_of_wallet a.network a.stop hwallet (mnemonicOf_printed hparse a.fresh hseed)
    rw [hpath] at hs'
    subst hs'
    refine ⟨fun hnone => by simp [hwallet] at hnone, fun _ _ => ⟨mnemonic, hseed, fun m hm => ?_⟩⟩
    rcases List.mem_append.mp hm with hm | hm
    · exact hall m hm
    · exact hresult m (Option.mem_toList.mp hm)
  | none =>
    have hempty := h.before hwallet
    rcases new_of_no_wallet B a.network a.fresh a.stop hwallet with
      ⟨hnone, hresult⟩ | ⟨mnemonic, stored, hpath, hresult⟩
    · subst hs'
      refine ⟨fun _ => by simp [hempty, hresult], fun stored hstored => ?_⟩
      rw [hnone] at hstored
      cases hstored
    · rw [hpath] at hs'
      subst hs'
      refine ⟨fun hnone => (by cases hnone), fun _ _ => ⟨mnemonic, rfl, fun m hm => ?_⟩⟩
      rw [hempty, List.nil_append] at hm
      exact hresult m (Option.mem_toList.mp hm)

end Steps

end New

/-- **The node never changes keys.** For every sequence of starts on a path without a wallet, each of
them killed anywhere or not: after every start, all calls that have returned used one mnemonic, and the
seed file holds exactly that. -/
theorem keysKept {M D : Type} [DecidableEq D] (B : Mnemonics M D)
    (hparse : ∀ mnemonic, B.parse (B.print mnemonic) = some mnemonic) (seed : Option Bytes)
    (as : List (Start M)) : Always (startStep B) (KeysKept B) (noWallet seed) as := by
  have hmeet : StepsMeet (startStep B) (fun _ _ => True) (noWallet seed) as :=
    stepsMeet_iff.mpr fun _ _ _ _ _ _ _ _ => trivial
  exact (hmeet.always (oneSeed_noWallet B seed) fun s a s' hI _ hs => hI.step hparse hs).imp
    fun s hI => hI.oneMnemonic

/-! ### A mnemonic that begins with another one -/

/-- The mnemonic of 128 zero bits. -/
def shortMnemonic : Bytes := (String.join (List.replicate 11 "abandon ") ++ "about").toUTF8.toList

/-- A mnemonic of 24 words, the first twelve of which are that one. -/
def longMnemonic : Bytes :=
  shortMnemonic ++
    (" " ++ String.join (List.replicate 9 "abandon ") ++ "able able accuse").toUTF8.toList

/-- Mnemonics, as far as these two go. -/
def twoMnemonics : Mnemonics Bool (Bool × KeychainKind) where
  print long := if long then longMnemonic else shortMnemonic
  parse content :=
    if content = shortMnemonic then some false
    else if content = longMnemonic then some true else none
  bip84 long kind := (long, kind)

lemma twoMnemonics_parse : ∀ long, twoMnemonics.parse (twoMnemonics.print long) = some long
  | false => if_pos rfl
  | true => by
    have hne : longMnemonic ≠ shortMnemonic := by decide +kernel
    simp [twoMnemonics, hne]

/-- What is left of the long one when its write is killed after twelve words is the short one. -/
lemma twoMnemonics_torn :
    (twoMnemonics.print true).take shortMnemonic.length = twoMnemonics.print false :=
  List.take_left

/-- The first start is killed in the write of the seed file, the second before it returns. The others
are not, but one is on another network; all of them would make the long mnemonic or the short one. -/
def killedTwice : List (Start Bool) :=
  [⟨0, true, .inSeedWrite shortMnemonic.length⟩, ⟨0, true, .beforeReturn⟩, ⟨0, true, .never⟩,
    ⟨1, false, .never⟩, ⟨0, false, .never⟩]

theorem keysKept_at : ∃ s, run (startStep twoMnemonics) (noWallet none) killedTwice = some s ∧
    s.returned = [false, false] ∧ s.path.seed = some shortMnemonic := by
  have hrun : ∃ s, run (startStep twoMnemonics) (noWallet none) killedTwice = some s ∧
      s.returned = [false, false] := by
    simp [killedTwice, run_cons, startStep, walletManagerNew, mnemonicOf, noWallet, walletOf,
      twoMnemonics_torn, twoMnemonics_parse]
  obtain ⟨s, hr, hreturned⟩ := hrun
  have hkept := (keysKept twoMnemonics twoMnemonics_parse none killedTwice).last hr
  exact ⟨s, hr, hreturned, (hkept false (by simp [hreturned])).1⟩

end LnNode.OnchainWallet.Keys
