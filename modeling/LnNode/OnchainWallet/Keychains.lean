import LnNode.OnchainWallet
import LnNode.OnchainWallet.Keys

/-!
# The keychains of the on-chain wallet

Which scripts the BDK wallet watches. Each of its two keychains has revealed so many indices, some of
them used, and the scripts of these and of a window of further indices are looked for in blocks. What
is revealed or marked used is kept in memory only, so a wallet that is loaded again knows what the
blocks show.

* `scan_simulates`: two wallets see the same of a block, if what one has revealed more does not matter;
* `Tight.nextUnusedAddress`: a keychain that only hands out addresses is never more than one index
  ahead of what was paid; `changeScript` goes ahead by one index each time.
-/

namespace LnNode.OnchainWallet.Keychains

open LnNode.Lib.BlockTree LnNode.OnchainWallet.Keys

/-! ### The wallet -/

/-- The scripts of the keychains, and the index of a script that is one of them. -/
structure Descriptors where
  spk : KeychainKind → ℕ → Script
  index : Script → Option (KeychainKind × ℕ)
  index_spk : ∀ kind i, index (spk kind i) = some (kind, i)

/-- The number of indices that are revealed, and those that are used. -/
structure Keychain where
  revealed : ℕ
  used : List ℕ

structure OwnTxOut where
  outpoint : OutPoint
  txout : TxOut
  keychain : KeychainKind
  index : ℕ
  deriving DecidableEq, Repr

structure IndexedWallet where
  keychains : KeychainKind → Keychain
  latestCheckpoint : Chain Block
  txouts : List OwnTxOut

/-- A wallet as it was persisted when it was created. -/
def createdWallet : IndexedWallet where
  keychains _ := { revealed := 0, used := [] }
  latestCheckpoint := []
  txouts := []

/-- The outputs that no transaction of the chain spends. -/
def IndexedWallet.listUnspent (w : IndexedWallet) : List OwnTxOut :=
  w.txouts.filter fun o => !(chainTxs w.latestCheckpoint).any (·.2.input.contains o.outpoint)

/-! ### Blocks -/

def blockOuts (block : Block) : List (OutPoint × TxOut) :=
  block.txdata.flatMap fun tx => tx.output.zipIdx.map fun out => (⟨tx.txid, out.2⟩, out.1)

section Scan

variable (lookahead : ℕ) (D : Descriptors)

/-- An output that pays a watched script is kept; its index is then used, and revealed with all before
it. -/
def scanOut (w : IndexedWallet) (out : OutPoint × TxOut) : IndexedWallet :=
  match D.index out.2.scriptPubkey with
  | none => w
  | some (kind, i) =>
    if i < (w.keychains kind).revealed + lookahead then
      { w with
        keychains := Function.update w.keychains kind
          { revealed := max (w.keychains kind).revealed (i + 1)
            used := i :: (w.keychains kind).used }
        txouts := { outpoint := out.1, txout := out.2, keychain := kind, index := i } :: w.txouts }
    else w

def scan (w : IndexedWallet) (outs : List (OutPoint × TxOut)) : IndexedWallet :=
  outs.foldl (scanOut lookahead D) w

/-- A block on top of the local chain. -/
def connectBlock (w : IndexedWallet) (block : Block) : IndexedWallet :=
  { scan lookahead D w (blockOuts block) with latestCheckpoint := block :: w.latestCheckpoint }

/-- The wallet that is loaded again and given the blocks of a chain. -/
def rescan : Chain Block → IndexedWallet
  | [] => createdWallet
  | block :: chain => connectBlock lookahead D (rescan chain) block

end Scan

/-! ### Addresses -/

/-- The first revealed index that is not used, or else a new one. -/
def nextUnusedAddress (D : Descriptors) (kind : KeychainKind) (w : IndexedWallet) :
    Script × IndexedWallet :=
  let keychain := w.keychains kind
  match (List.range keychain.revealed).find? fun i => !keychain.used.contains i with
  | some i => (D.spk kind i, w)
  | none => (D.spk kind keychain.revealed, { w with
      keychains := Function.update w.keychains kind
        { keychain with revealed := keychain.revealed + 1 } })

def nextAddress (D : Descriptors) (w : IndexedWallet) : Script × IndexedWallet :=
  nextUnusedAddress D .external w

def getDestinationScript (D : Descriptors) (w : IndexedWallet) : Script × IndexedWallet :=
  nextUnusedAddress D .external w

def getShutdownScriptpubkey (D : Descriptors) (w : IndexedWallet) : Script × IndexedWallet :=
  nextUnusedAddress D .external w

def getChangeScript (D : Descriptors) (w : IndexedWallet) : Script × IndexedWallet :=
  nextUnusedAddress D .internal w

def getChangeDestinationScript (D : Descriptors) (w : IndexedWallet) : Script × IndexedWallet :=
  nextUnusedAddress D .internal w

/-- The script of a change output, marked used at once. Each build is taken to reveal an internal index of
its own, also where one that was handed out is still unused. -/
def changeScript (D : Descriptors) (w : IndexedWallet) : Script × IndexedWallet :=
  let keychain := w.keychains .internal
  (D.spk .internal keychain.revealed, { w with
    keychains := Function.update w.keychains .internal
      { revealed := keychain.revealed + 1, used := keychain.revealed :: keychain.used } })

/-- What a build leaves of the wallet, if it comes to a change output and if not, whether or not it
then succeeds: the transaction itself is not inserted. -/
def buildTransaction (D : Descriptors) (change : Bool) (w : IndexedWallet) : IndexedWallet :=
  if change then (changeScript D w).2 else w

/-! ### What two wallets see -/

/-- One above the highest index of the keychain that was paid. -/
def nextPaid (w : IndexedWallet) (kind : KeychainKind) : ℕ :=
  ((w.txouts.filter fun o => o.keychain = kind).map fun o => o.index + 1).foldr max 0

/-- No output pays a watched index so far beyond those that were paid that only what is revealed makes
it watched. -/
def GapKept (lookahead : ℕ) (D : Descriptors) : IndexedWallet → List (OutPoint × TxOut) → Prop
  | _, [] => True
  | w, out :: outs =>
    (∀ kind i, D.index out.2.scriptPubkey = some (kind, i) →
      i < (w.keychains kind).revealed + lookahead → i < nextPaid w kind + lookahead) ∧
    GapKept lookahead D (scanOut lookahead D w out) outs

/-- The first wallet has seen what the second has, and has revealed no more than that shows. -/
structure Simulates (r w : IndexedWallet) : Prop where
  txouts : r.txouts = w.txouts
  next : ∀ kind, (r.keychains kind).revealed = nextPaid w kind
  revealed : ∀ kind, nextPaid w kind ≤ (w.keychains kind).revealed

/-- What may happen to a wallet between blocks: no more than that indices are revealed. -/
structure Reveals (w w' : IndexedWallet) : Prop where
  txouts : w'.txouts = w.txouts
  latestCheckpoint : w'.latestCheckpoint = w.latestCheckpoint
  revealed : ∀ kind, (w.keychains kind).revealed ≤ (w'.keychains kind).revealed

/-- No index beyond the next one is revealed, and what is used was paid. -/
structure Tight (w : IndexedWallet) (kind : KeychainKind) : Prop where
  revealed_le : (w.keychains kind).revealed ≤ nextPaid w kind + 1
  used_lt : ∀ i ∈ (w.keychains kind).used, i < nextPaid w kind

section Simulation

variable {lookahead : ℕ} {D : Descriptors} {r w w' : IndexedWallet} {out : OutPoint × TxOut}
  {outs : List (OutPoint × TxOut)} {kind : KeychainKind} {i : ℕ}

lemma nextPaid_congr (h : w'.txouts = w.txouts) (kind : KeychainKind) :
    nextPaid w' kind = nextPaid w kind := by
  rw [nextPaid, h, nextPaid]

lemma nextPaid_cons {o : OwnTxOut} (h : w'.txouts = o :: w.txouts)
    (kind : KeychainKind) :
    nextPaid w' kind = if o.keychain = kind then max (o.index + 1) (nextPaid w kind)
      else nextPaid w kind := by
  rw [nextPaid, h]
  split_ifs with hkind
  · simp [hkind, nextPaid]
  · simp [hkind, nextPaid]

lemma scanOut_of_foreign (h : D.index out.2.scriptPubkey = none) : scanOut lookahead D w out = w := by
  simp only [scanOut, h]

lemma scanOut_of_unwatched (h : D.index out.2.scriptPubkey = some (kind, i))
    (hi : ¬ i < (w.keychains kind).revealed + lookahead) : scanOut lookahead D w out = w := by
  simp only [scanOut, h, if_neg hi]

lemma scanOut_of_watched (h : D.index out.2.scriptPubkey = some (kind, i))
    (hi : i < (w.keychains kind).revealed + lookahead) :
    scanOut lookahead D w out =
      { w with
        keychains := Function.update w.keychains kind
          { revealed := max (w.keychains kind).revealed (i + 1)
            used := i :: (w.keychains kind).used }
        txouts := { outpoint := out.1, txout := out.2, keychain := kind, index := i } :: w.txouts } := by
  simp only [scanOut, h, if_pos hi]

lemma Simulates.scanOut (h : Simulates r w)
    (hgap : ∀ kind i, D.index out.2.scriptPubkey = some (kind, i) →
      i < (w.keychains kind).revealed + lookahead → i < nextPaid w kind + lookahead) :
    Simulates (scanOut lookahead D r out) (scanOut lookahead D w out) := by
  cases hindex : D.index out.2.scriptPubkey with
  | none =>
    rw [scanOut_of_foreign hindex, scanOut_of_foreign hindex]
    exact h
  | some own =>
    obtain ⟨kind, i⟩ := own
    have hrevealed := h.revealed kind
    by_cases hi : i < (w.keychains kind).revealed + lookahead
    · have hir : i < (r.keychains kind).revealed + lookahead := by
        rw [h.next kind]
        exact hgap kind i hindex hi
      rw [scanOut_of_watched hindex hi, scanOut_of_watched hindex hir]
      refine ⟨by simp only [h.txouts], fun j => ?_, fun j => ?_⟩
      · have hn := h.next j
        rw [nextPaid_cons (w := w) rfl]
        by_cases hj : j = kind
        · subst hj
          simp only [Function.update_self, if_true, hn]
          omega
        · simp only [Function.update_of_ne hj, if_neg (Ne.symm hj), hn]
      · have hn := h.revealed j
        rw [nextPaid_cons (w := w) rfl]
        by_cases hj : j = kind
        · subst hj
          simp only [Function.update_self, if_true]
          omega
        · simp only [Function.update_of_ne hj, if_neg (Ne.symm hj)]
          exact hn
    · have hir : ¬ i < (r.keychains kind).revealed + lookahead := by
        rw [h.next kind]
        omega
      rw [scanOut_of_unwatched hindex hi, scanOut_of_unwatched hindex hir]
      exact h

theorem scan_simulates (h : Simulates r w) (hgap : GapKept lookahead D w outs) :
    Simulates (scan lookahead D r outs) (scan lookahead D w outs) := by
  induction outs generalizing r w with
  | nil => exact h
  | cons out outs ih => exact ih (h.scanOut hgap.1) hgap.2

/-- A wallet that was loaded again is one that has revealed no more than it was paid at. -/
lemma Simulates.self (h : Simulates r w) : Simulates r r := by
  refine ⟨rfl, fun kind => ?_, fun kind => ?_⟩
  · rw [h.next kind, nextPaid_congr h.txouts]
  · rw [h.next kind, nextPaid_congr h.txouts]

lemma Simulates.reveals (h : Simulates r w) (hw : Reveals w w') : Simulates r w' := by
  refine ⟨h.txouts.trans hw.txouts.symm, fun kind => ?_, fun kind => ?_⟩
  · rw [h.next kind, nextPaid_congr hw.txouts]
  · rw [nextPaid_congr hw.txouts]
    exact (h.revealed kind).trans (hw.revealed kind)

lemma Simulates.connectBlock {block : Block} (h : Simulates r w)
    (hgap : GapKept lookahead D w (blockOuts block)) :
    Simulates (connectBlock lookahead D r block) (connectBlock lookahead D w block) := by
  have hscan := scan_simulates h hgap
  exact ⟨hscan.txouts, hscan.next, hscan.revealed⟩

lemma simulates_created : Simulates createdWallet createdWallet :=
  ⟨rfl, fun _ => rfl, fun _ => le_rfl⟩

lemma Reveals.refl : Reveals w w := ⟨rfl, rfl, fun _ => le_rfl⟩

lemma reveals_update {keychain : Keychain} (h : (w.keychains kind).revealed ≤ keychain.revealed) :
    Reveals w { w with keychains := Function.update w.keychains kind keychain } := by
  refine ⟨rfl, rfl, fun j => ?_⟩
  by_cases hj : j = kind
  · subst hj
    simpa only [Function.update_self] using h
  · simp only [Function.update_of_ne hj, le_refl]

lemma nextUnusedAddress_reveals : Reveals w (nextUnusedAddress D kind w).2 := by
  rw [nextUnusedAddress]
  cases (List.range (w.keychains kind).revealed).find? fun i =>
      !(w.keychains kind).used.contains i with
  | some i => exact .refl
  | none => exact reveals_update (Nat.le_succ _)

lemma buildTransaction_reveals (change : Bool) : Reveals w (buildTransaction D change w) := by
  cases change with
  | false => exact .refl
  | true => exact reveals_update (Nat.le_succ _)

/-! ### A keychain that only hands out addresses -/

lemma tight_created : Tight createdWallet kind := ⟨Nat.zero_le _, by simp [createdWallet]⟩

lemma Tight.congr (h : Tight w kind) (htxouts : w'.txouts = w.txouts)
    (hkeychain : w'.keychains kind = w.keychains kind) : Tight w' kind := by
  refine ⟨?_, fun i hi => ?_⟩
  · rw [hkeychain, nextPaid_congr htxouts]
    exact h.revealed_le
  · rw [hkeychain] at hi
    rw [nextPaid_congr htxouts]
    exact h.used_lt i hi

lemma Tight.scanOut (h : Tight w kind) : Tight (scanOut lookahead D w out) kind := by
  cases hindex : D.index out.2.scriptPubkey with
  | none =>
    rw [scanOut_of_foreign hindex]
    exact h
  | some own =>
    obtain ⟨paid, i⟩ := own
    by_cases hi : i < (w.keychains paid).revealed + lookahead
    · have hle := h.revealed_le
      rw [scanOut_of_watched hindex hi]
      refine ⟨?_, fun j hj => ?_⟩
      · rw [nextPaid_cons (w := w) rfl]
        by_cases hk : kind = paid
        · subst hk
          simp only [Function.update_self, if_true]
          omega
        · simp only [Function.update_of_ne hk, if_neg (Ne.symm hk)]
          exact hle
      · rw [nextPaid_cons (w := w) rfl]
        by_cases hk : kind = paid
        · subst hk
          simp only [Function.update_self] at hj
          simp only [if_true]
          rcases List.mem_cons.mp hj with rfl | hj
          · omega
          · have := h.used_lt j hj
            omega
        · simp only [Function.update_of_ne hk] at hj
          simp only [if_neg (Ne.symm hk)]
          exact h.used_lt j hj
    · rw [scanOut_of_unwatched hindex hi]
      exact h

lemma Tight.scan (h : Tight w kind) : Tight (scan lookahead D w outs) kind := by
  induction outs generalizing w with
  | nil => exact h
  | cons out outs ih => exact ih h.scanOut

lemma Tight.connectBlock {block : Block} (h : Tight w kind) :
    Tight (connectBlock lookahead D w block) kind := by
  have hscan : Tight (Keychains.scan lookahead D w (blockOuts block)) kind := h.scan
  exact hscan.congr rfl rfl

@[simp] lemma rescan_latestCheckpoint :
    ∀ chain : Chain Block, (rescan lookahead D chain).latestCheckpoint = chain
  | [] => rfl
  | block :: chain => congrArg (block :: ·) (rescan_latestCheckpoint chain)

lemma tight_rescan : ∀ chain : Chain Block, Tight (rescan lookahead D chain) kind
  | [] => tight_created
  | _ :: chain => (tight_rescan chain).connectBlock

/-- A new address is the next one: all that were revealed before were paid. -/
lemma Tight.nextUnusedAddress (h : Tight w kind) : Tight (nextUnusedAddress D kind w).2 kind := by
  rw [Keychains.nextUnusedAddress]
  cases hfind : (List.range (w.keychains kind).revealed).find? fun i =>
      !(w.keychains kind).used.contains i with
  | some i => exact h
  | none =>
    have hall : ∀ i < (w.keychains kind).revealed, i ∈ (w.keychains kind).used := by
      intro i hi
      have := List.find?_eq_none.mp hfind i (List.mem_range.mpr hi)
      simpa using this
    have hle := h.revealed_le
    refine ⟨?_, fun i hi => ?_⟩
    · simp only [Function.update_self]
      show (w.keychains kind).revealed + 1 ≤ nextPaid w kind + 1
      rcases Nat.eq_zero_or_pos (w.keychains kind).revealed with hzero | hpos
      · omega
      · have := h.used_lt _ (hall ((w.keychains kind).revealed - 1) (by omega))
        omega
    · simp only [Function.update_self] at hi
      exact h.used_lt i hi

lemma Tight.nextUnusedAddress_of_ne {other : KeychainKind} (h : Tight w kind) (hne : kind ≠ other) :
    Tight (Keychains.nextUnusedAddress D other w).2 kind := by
  rw [Keychains.nextUnusedAddress]
  cases (List.range (w.keychains other).revealed).find? fun i =>
      !(w.keychains other).used.contains i with
  | some i => exact h
  | none => exact h.congr rfl (Function.update_of_ne hne _ _)

lemma Tight.buildTransaction {change : Bool} (h : Tight w .external) :
    Tight (buildTransaction D change w) .external := by
  have hne : KeychainKind.external ≠ .internal := by decide
  cases change with
  | false => exact h
  | true =>
    refine h.congr rfl ?_
    simp only [Keychains.buildTransaction, changeScript, if_true, Function.update_of_ne hne]

end Simulation

end LnNode.OnchainWallet.Keychains
