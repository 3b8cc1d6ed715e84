import LnNode.Node.WalletRestart

/-!
# Which address is handed out

`next_address`, `get_destination_script` and `get_shutdown_scriptpubkey` ask the external keychain for its
next unused address, and nothing is persisted when one is revealed.

`Accounted` is the invariant: the external indices below one number are those that were paid, no index
above it was handed out, and a restart at this tip would find the same.

* `always_handsOutUnpaid`: an address that was paid is never handed out again, and all that were handed
  out and not paid are one address;
* `always_listsReceived`: what an address received is listed until it is spent, across all restarts.
-/

namespace LnNode.Node.Addresses

open LnNode.Lib.Run LnNode.Lib.BlockTree LnNode.OnchainWallet LnNode.OnchainWallet.Keys
  LnNode.OnchainWallet.Keychains LnNode.Node.WalletRestart

/-! ### What was handed out -/

/-- The wallet, and every script that a call has returned since the wallet was created. -/
structure Handing where
  wallet : IndexedWallet
  handedOut : List Script

def returned (D : Descriptors) (w : IndexedWallet) : Action → Option Script
  | .nextAddress => some (nextAddress D w).1
  | .getDestinationScript => some (getDestinationScript D w).1
  | .getShutdownScriptpubkey => some (getShutdownScriptpubkey D w).1
  | .getChangeScript => some (getChangeScript D w).1
  | .getChangeDestinationScript => some (getChangeDestinationScript D w).1
  | .buildTransaction _ | .blockConnected _ | .restart => none

variable (lookahead : ℕ) (D : Descriptors)

def handStep (s : Handing) (a : Action) : Option Handing :=
  (walletStep lookahead D s.wallet a).map fun w =>
    { wallet := w, handedOut := (returned D s.wallet a).toList ++ s.handedOut }

def createdHanding : Handing where
  wallet := createdWallet
  handedOut := []

/-- An external script is paid only after a call has returned it. Any other script may be paid. -/
def PaysHandedOut (s : Handing) : Action → Prop
  | .blockConnected block => ∀ out ∈ blockOuts block, ∀ i,
      D.index out.2.scriptPubkey = some (.external, i) → out.2.scriptPubkey ∈ s.handedOut
  | _ => True

/-! ### What holds of it -/

/-- An output that pays an external script is listed, if no transaction of the chain spends it. -/
def ListsReceived (s : Handing) : Prop :=
  ∀ block ∈ s.wallet.latestCheckpoint, ∀ out ∈ blockOuts block, ∀ i,
    D.index out.2.scriptPubkey = some (.external, i) →
    (∀ tx ∈ chainTxs s.wallet.latestCheckpoint, out.1 ∉ tx.2.input) →
      { outpoint := out.1, txout := out.2, keychain := .external, index := i } ∈ s.wallet.listUnspent

/-! ### The external keychain -/

/-- The indices that were paid are those below the next one, which may be revealed. -/
structure Dense (w : IndexedWallet) : Prop where
  mem_used : ∀ i, i ∈ (w.keychains .external).used ↔ i < nextPaid w .external
  le_revealed : nextPaid w .external ≤ (w.keychains .external).revealed
  revealed_le : (w.keychains .external).revealed ≤ nextPaid w .external + 1
  paid : ∀ i < nextPaid w .external, ∃ o ∈ w.txouts.filter fun o => o.keychain = .external, o.index = i

/-- The external outputs of a wallet are those of the chain. -/
structure Found (chain : Chain Block) (w : IndexedWallet) : Prop where
  sound : ∀ o ∈ w.txouts, o.keychain = .external →
    o.txout.scriptPubkey = D.spk .external o.index ∧
      ∃ block ∈ chain, (o.outpoint, o.txout) ∈ blockOuts block
  complete : ∀ block ∈ chain, ∀ out ∈ blockOuts block, ∀ i,
    D.index out.2.scriptPubkey = some (.external, i) →
      { outpoint := out.1, txout := out.2, keychain := .external, index := i } ∈ w.txouts

/-- The first wallet has the external outputs of the second, and has revealed no more than they show. -/
structure Follows (r w : IndexedWallet) : Prop where
  txouts : (r.txouts.filter fun o => o.keychain = .external) =
    w.txouts.filter fun o => o.keychain = .external
  used : (r.keychains .external).used = (w.keychains .external).used
  next : (r.keychains .external).revealed = nextPaid w .external

structure Accounted (s : Handing) : Prop where
  dense : Dense s.wallet
  found : Found D s.wallet.latestCheckpoint s.wallet
  follows : Follows (rescan lookahead D s.wallet.latestCheckpoint) s.wallet
  handed : ∀ script ∈ s.handedOut, (∃ i ≤ nextPaid s.wallet .external, script = D.spk .external i) ∨
    ∃ i, script = D.spk .internal i

section Keychain

variable {lookahead : ℕ} {D : Descriptors} {r w w' : IndexedWallet} {out : OutPoint × TxOut}
  {outs : List (OutPoint × TxOut)} {chain : Chain Block} {block : Block}

lemma external_ne_internal : KeychainKind.external ≠ .internal := by decide

lemma dense_created : Dense createdWallet := by
  refine ⟨fun i => ?_, le_rfl, Nat.le_succ _, fun i hi => absurd hi (Nat.not_lt_zero i)⟩
  simp [createdWallet, nextPaid]

structure SameExternal (w w' : IndexedWallet) : Prop where
  keychain : w'.keychains .external = w.keychains .external
  txouts : (w'.txouts.filter fun o => o.keychain = .external) =
    w.txouts.filter fun o => o.keychain = .external

lemma SameExternal.nextPaid (h : SameExternal w w') :
    nextPaid w' .external = nextPaid w .external := by
  rw [Keychains.nextPaid, h.txouts, Keychains.nextPaid]

lemma Dense.congr (h : Dense w) (hsame : SameExternal w w') : Dense w' := by
  refine ⟨fun i => ?_, ?_, ?_, fun i hi => ?_⟩
  · rw [hsame.keychain, hsame.nextPaid]
    exact h.mem_used i
  · rw [hsame.keychain, hsame.nextPaid]
    exact h.le_revealed
  · rw [hsame.keychain, hsame.nextPaid]
    exact h.revealed_le
  · rw [hsame.txouts]
    exact h.paid i (hsame.nextPaid ▸ hi)

lemma Follows.congr {r' : IndexedWallet} (h : Follows r w) (hr : SameExternal r r')
    (hw : SameExternal w w') : Follows r' w' := by
  refine ⟨?_, ?_, ?_⟩
  · rw [hr.txouts, hw.txouts, h.txouts]
  · rw [hr.keychain, hw.keychain, h.used]
  · rw [hr.keychain, hw.nextPaid, h.next]

/-- **The next unused address** is the first one that was not paid. -/
lemma Dense.nextUnusedAddress (h : Dense w) :
    (nextUnusedAddress D .external w).1 = D.spk .external (nextPaid w .external) ∧
      Dense (nextUnusedAddress D .external w).2 := by
  have hle := h.le_revealed
  rw [Keychains.nextUnusedAddress]
  cases hfind : (List.range (w.keychains .external).revealed).find? fun i =>
      !(w.keychains .external).used.contains i with
  | some i =>
    have hi : i < (w.keychains .external).revealed :=
      List.mem_range.mp (List.mem_of_find?_eq_some hfind)
    have hunused : ¬ i < nextPaid w .external := by
      rw [← h.mem_used i]
      simpa using List.find?_some hfind
    have hrevealed := h.revealed_le
    obtain rfl : i = nextPaid w .external := by omega
    exact ⟨rfl, h⟩
  | none =>
    have hnext : (w.keychains .external).revealed = nextPaid w .external := by
      by_contra hne
      have hall := List.find?_eq_none.mp hfind (nextPaid w .external)
        (List.mem_range.mpr (by omega))
      have hused : nextPaid w .external ∈ (w.keychains .external).used := by simpa using hall
      exact lt_irrefl _ ((h.mem_used _).mp hused)
    refine ⟨by rw [hnext], fun i => ?_, ?_, ?_, h.paid⟩
    · simp only [Function.update_self]
      exact h.mem_used i
    · simp only [Function.update_self]
      exact hle.trans (Nat.le_succ _)
    · simp only [Function.update_self, hnext]
      exact le_rfl

lemma sameExternal_nextUnusedAddress : SameExternal w (nextUnusedAddress D .internal w).2 := by
  rw [nextUnusedAddress]
  cases (List.range (w.keychains .internal).revealed).find? fun i =>
      !(w.keychains .internal).used.contains i with
  | some i => exact ⟨rfl, rfl⟩
  | none => exact ⟨by simp only [Function.update_of_ne external_ne_internal], rfl⟩

lemma sameExternal_buildTransaction (change : Bool) :
    SameExternal w (buildTransaction D change w) := by
  cases change with
  | false => exact ⟨rfl, rfl⟩
  | true =>
    refine ⟨?_, rfl⟩
    simp only [Keychains.buildTransaction, changeScript, if_true,
      Function.update_of_ne external_ne_internal]

lemma sameExternal_scanOut (h : ∀ i, D.index out.2.scriptPubkey ≠ some (.external, i)) :
    SameExternal w (scanOut lookahead D w out) := by
  cases hindex : D.index out.2.scriptPubkey with
  | none =>
    rw [scanOut_of_foreign hindex]
    exact ⟨rfl, rfl⟩
  | some own =>
    obtain ⟨kind, i⟩ := own
    cases kind with
    | external => exact absurd hindex (h i)
    | internal =>
      by_cases hi : i < (w.keychains .internal).revealed + lookahead
      · rw [scanOut_of_watched hindex hi]
        exact ⟨by simp only [Function.update_of_ne external_ne_internal], by simp⟩
      · rw [scanOut_of_unwatched hindex hi]
        exact ⟨rfl, rfl⟩

/-! ### One block -/

lemma nextPaid_scanOut_external {i : ℕ} (hindex : D.index out.2.scriptPubkey = some (.external, i))
    (hi : i < (w.keychains .external).revealed + lookahead) :
    nextPaid (scanOut lookahead D w out) .external = max (i + 1) (nextPaid w .external) := by
  rw [scanOut_of_watched hindex hi, nextPaid_cons (w := w) rfl, if_pos rfl]

lemma Dense.scanOut_external {i : ℕ} (hlookahead : 0 < lookahead) (h : Dense w)
    (hindex : D.index out.2.scriptPubkey = some (.external, i)) (hi : i ≤ nextPaid w .external) :
    Dense (scanOut lookahead D w out) ∧
      nextPaid w .external ≤ nextPaid (scanOut lookahead D w out) .external := by
  have hle := h.le_revealed
  have hrevealed := h.revealed_le
  have hwatched : i < (w.keychains .external).revealed + lookahead := by omega
  have hn := nextPaid_scanOut_external hindex hwatched
  rw [scanOut_of_watched hindex hwatched] at hn ⊢
  refine ⟨⟨fun j => ?_, ?_, ?_, fun j hj => ?_⟩, by rw [hn]; exact le_max_right _ _⟩
  · rw [hn]
    simp only [Function.update_self, List.mem_cons, h.mem_used j]
    omega
  · rw [hn]
    simp only [Function.update_self]
    omega
  · rw [hn]
    simp only [Function.update_self]
    omega
  · rw [hn] at hj
    simp only [decide_true, List.filter_cons_of_pos]
    by_cases hji : j = i
    · exact ⟨_, List.mem_cons_self, hji.symm⟩
    · have hle : j < max (i + 1) (nextPaid w .external) := hj
      obtain ⟨o, ho, hoj⟩ := h.paid j (by omega)
      exact ⟨o, List.mem_cons_of_mem _ ho, hoj⟩

/-- **One output** is seen alike by the wallet that a restart would build. -/
lemma Follows.scanOut (hlookahead : 0 < lookahead) (h : Follows r w) (hdense : Dense w)
    (hout : ∀ i, D.index out.2.scriptPubkey = some (.external, i) → i ≤ nextPaid w .external) :
    Follows (scanOut lookahead D r out) (scanOut lookahead D w out) := by
  by_cases hown : ∃ i, D.index out.2.scriptPubkey = some (.external, i)
  · obtain ⟨i, hindex⟩ := hown
    have hi := hout i hindex
    have hle := hdense.le_revealed
    have hnext := h.next
    have hwatched : i < (w.keychains .external).revealed + lookahead := by omega
    have hwatched' : i < (r.keychains .external).revealed + lookahead := by omega
    have hn := nextPaid_scanOut_external hindex hwatched
    refine ⟨?_, ?_, ?_⟩
    · rw [scanOut_of_watched hindex hwatched, scanOut_of_watched hindex hwatched']
      simp only [decide_true, List.filter_cons_of_pos, h.txouts]
    · rw [scanOut_of_watched hindex hwatched, scanOut_of_watched hindex hwatched']
      simp only [Function.update_self, h.used]
    · rw [hn, scanOut_of_watched hindex hwatched']
      simp only [Function.update_self, hnext]
      omega
  · have hforeign : ∀ i, D.index out.2.scriptPubkey ≠ some (.external, i) :=
      fun i hi => hown ⟨i, hi⟩
    exact h.congr (sameExternal_scanOut hforeign) (sameExternal_scanOut hforeign)

lemma scan_accounted {n : ℕ} (hlookahead : 0 < lookahead) (hdense : Dense w) (hfollows : Follows r w)
    (hn : n ≤ nextPaid w .external)
    (houts : ∀ out ∈ outs, ∀ i, D.index out.2.scriptPubkey = some (.external, i) → i ≤ n) :
    Dense (scan lookahead D w outs) ∧ Follows (scan lookahead D r outs) (scan lookahead D w outs) ∧
      n ≤ nextPaid (scan lookahead D w outs) .external := by
  induction outs generalizing r w with
  | nil => exact ⟨hdense, hfollows, hn⟩
  | cons out outs ih =>
    have hout : ∀ i, D.index out.2.scriptPubkey = some (.external, i) → i ≤ nextPaid w .external :=
      fun i hi => (houts out List.mem_cons_self i hi).trans hn
    have hstep : Dense (scanOut lookahead D w out) ∧
        nextPaid w .external ≤ nextPaid (scanOut lookahead D w out) .external := by
      by_cases hown : ∃ i, D.index out.2.scriptPubkey = some (.external, i)
      · obtain ⟨i, hindex⟩ := hown
        exact hdense.scanOut_external hlookahead hindex (hout i hindex)
      · have hsame : SameExternal w (scanOut lookahead D w out) :=
          sameExternal_scanOut fun i hi => hown ⟨i, hi⟩
        exact ⟨hdense.congr hsame, hsame.nextPaid.ge⟩
    exact ih hstep.1 (hfollows.scanOut hlookahead hdense hout) (hn.trans hstep.2)
      fun out' hout' => houts out' (List.mem_cons_of_mem _ hout')

lemma mem_scanOut_sound {o : OwnTxOut} (ho : o ∈ (scanOut lookahead D w out).txouts) :
    o ∈ w.txouts ∨ (D.index o.txout.scriptPubkey = some (o.keychain, o.index) ∧
      (o.outpoint, o.txout) = out) := by
  cases hindex : D.index out.2.scriptPubkey with
  | none =>
    rw [scanOut_of_foreign hindex] at ho
    exact Or.inl ho
  | some own =>
    obtain ⟨kind, i⟩ := own
    by_cases hi : i < (w.keychains kind).revealed + lookahead
    · rw [scanOut_of_watched hindex hi] at ho
      rcases List.mem_cons.mp ho with rfl | ho
      · exact Or.inr ⟨hindex, rfl⟩
      · exact Or.inl ho
    · rw [scanOut_of_unwatched hindex hi] at ho
      exact Or.inl ho

lemma mem_scan_sound {o : OwnTxOut} (ho : o ∈ (scan lookahead D w outs).txouts) :
    o ∈ w.txouts ∨ (D.index o.txout.scriptPubkey = some (o.keychain, o.index) ∧
      (o.outpoint, o.txout) ∈ outs) := by
  induction outs generalizing w with
  | nil => exact Or.inl ho
  | cons out outs ih =>
    rcases ih ho with ho | ⟨hindex, hmem⟩
    · rcases mem_scanOut_sound ho with ho | ⟨hindex, rfl⟩
      · exact Or.inl ho
      · exact Or.inr ⟨hindex, List.mem_cons_self⟩
    · exact Or.inr ⟨hindex, List.mem_cons_of_mem _ hmem⟩

lemma txouts_scan_mono {o : OwnTxOut} (ho : o ∈ w.txouts) : o ∈ (scan lookahead D w outs).txouts := by
  induction outs generalizing w with
  | nil => exact ho
  | cons out outs ih =>
    refine ih ?_
    cases hindex : D.index out.2.scriptPubkey with
    | none =>
      rw [scanOut_of_foreign hindex]
      exact ho
    | some own =>
      obtain ⟨kind, i⟩ := own
      by_cases hi : i < (w.keychains kind).revealed + lookahead
      · rw [scanOut_of_watched hindex hi]
        exact List.mem_cons_of_mem _ ho
      · rw [scanOut_of_unwatched hindex hi]
        exact ho

lemma mem_scan_complete {n i : ℕ} (hlookahead : 0 < lookahead) (hn : n ≤ (w.keychains .external).revealed)
    (houts : ∀ out ∈ outs, ∀ i, D.index out.2.scriptPubkey = some (.external, i) → i ≤ n)
    (hout : out ∈ outs) (hindex : D.index out.2.scriptPubkey = some (.external, i)) :
    { outpoint := out.1, txout := out.2, keychain := .external, index := i } ∈
      (scan lookahead D w outs).txouts := by
  induction outs generalizing w with
  | nil => exact absurd hout List.not_mem_nil
  | cons first outs ih =>
    have hi := houts out hout i hindex
    rcases List.mem_cons.mp hout with rfl | hout
    · have hkept : { outpoint := out.1, txout := out.2, keychain := .external, index := i } ∈
          (scanOut lookahead D w out).txouts := by
        rw [scanOut_of_watched hindex (by omega)]
        exact List.mem_cons_self
      exact (txouts_scan_mono hkept :
        _ ∈ (scan lookahead D (scanOut lookahead D w out) outs).txouts)
    · refine ih ?_ (fun out' hout' => houts out' (List.mem_cons_of_mem _ hout')) hout
      refine hn.trans ?_
      cases hfirst : D.index first.2.scriptPubkey with
      | none => rw [scanOut_of_foreign hfirst]
      | some own =>
        obtain ⟨kind, j⟩ := own
        by_cases hj : j < (w.keychains kind).revealed + lookahead
        · rw [scanOut_of_watched hfirst hj]
          by_cases hkind : kind = .external
          · subst hkind
            simp only [Function.update_self]
            exact le_max_left _ _
          · simp only [Function.update_of_ne (Ne.symm hkind), le_refl]
        · rw [scanOut_of_unwatched hfirst hj]

/-- **A block** whose external outputs pay scripts up to the next one. -/
lemma Found.connectBlock (hlookahead : 0 < lookahead) (h : Found D w.latestCheckpoint w)
    (hdense : Dense w)
    (houts : ∀ out ∈ blockOuts block, ∀ i, D.index out.2.scriptPubkey = some (.external, i) →
      i ≤ nextPaid w .external ∧ out.2.scriptPubkey = D.spk .external i) :
    Found D (block :: w.latestCheckpoint) (connectBlock lookahead D w block) := by
  refine ⟨fun o ho hkind => ?_, fun b hb out hout i hindex => ?_⟩
  · rcases mem_scan_sound ho with ho | ⟨hindex, hmem⟩
    · obtain ⟨hindex, b, hb, hmem⟩ := h.sound o ho hkind
      exact ⟨hindex, b, List.mem_cons_of_mem _ hb, hmem⟩
    · rw [hkind] at hindex
      exact ⟨(houts _ hmem _ hindex).2, block, List.mem_cons_self, hmem⟩
  · rcases List.mem_cons.mp hb with rfl | hb
    · exact mem_scan_complete hlookahead hdense.le_revealed (fun out hout i hi => (houts out hout i hi).1)
        hout hindex
    · exact txouts_scan_mono (h.complete b hb out hout i hindex)

end Keychain

/-! ### Steps -/

section Steps

variable {lookahead : ℕ} {D : Descriptors} {s s' : Handing} {a : Action} {script : Script} {i : ℕ}

lemma accounted_created : Accounted lookahead D createdHanding :=
  ⟨dense_created, ⟨by simp [createdHanding, createdWallet], by simp [createdHanding, createdWallet]⟩,
    ⟨rfl, rfl, rfl⟩, by simp [createdHanding]⟩

lemma nextUnusedAddress_spk (kind : KeychainKind) (w : IndexedWallet) :
    ∃ i, (nextUnusedAddress D kind w).1 = D.spk kind i := by
  rw [nextUnusedAddress]
  cases (List.range (w.keychains kind).revealed).find? fun i =>
      !(w.keychains kind).used.contains i with
  | some i => exact ⟨i, rfl⟩
  | none => exact ⟨_, rfl⟩

lemma Dense.returned {w : IndexedWallet} (h : Dense w) (hr : returned D w a = some script) :
    script = D.spk .external (nextPaid w .external) ∨ ∃ i, script = D.spk .internal i := by
  cases a with
  | nextAddress | getDestinationScript | getShutdownScriptpubkey =>
    cases hr
    exact Or.inl h.nextUnusedAddress.1
  | getChangeScript | getChangeDestinationScript =>
    cases hr
    exact Or.inr (nextUnusedAddress_spk .internal w)
  | buildTransaction | blockConnected | restart => cases hr

lemma Follows.dense {r w : IndexedWallet} (h : Follows r w) (hdense : Dense w) : Dense r := by
  have hn : nextPaid r .external = nextPaid w .external := by
    rw [nextPaid, h.txouts, nextPaid]
  refine ⟨fun i => ?_, ?_, ?_, fun i hi => ?_⟩
  · rw [h.used, hn]
    exact hdense.mem_used i
  · rw [h.next, hn]
  · rw [h.next, hn]
    exact Nat.le_succ _
  · rw [h.txouts]
    exact hdense.paid i (hn ▸ hi)

lemma Follows.mem_iff {r w : IndexedWallet} {o : OwnTxOut} (h : Follows r w)
    (ho : o.keychain = .external) : o ∈ r.txouts ↔ o ∈ w.txouts := by
  have hmem : o ∈ r.txouts.filter (fun o => o.keychain = .external) ↔
      o ∈ w.txouts.filter fun o => o.keychain = .external := by rw [h.txouts]
  simpa [List.mem_filter, ho] using hmem

lemma Follows.found {r w : IndexedWallet} {chain : Chain Block} (h : Follows r w)
    (hfound : Found D chain w) : Found D chain r :=
  ⟨fun o ho hkind => hfound.sound o ((h.mem_iff hkind).mp ho) hkind,
    fun block hblock out hout i hindex =>
      (h.mem_iff rfl).mpr (hfound.complete block hblock out hout i hindex)⟩

lemma nextUnusedAddress_used (kind : KeychainKind) (w : IndexedWallet) :
    ((nextUnusedAddress D kind w).2.keychains .external).used = (w.keychains .external).used := by
  rw [nextUnusedAddress]
  cases (List.range (w.keychains kind).revealed).find? fun i =>
      !(w.keychains kind).used.contains i with
  | some i => rfl
  | none =>
    cases kind with
    | external => simp only [Function.update_self]
    | internal => simp only [Function.update_of_ne external_ne_internal]

lemma Accounted.call (h : Accounted lookahead D s) {w : IndexedWallet} (hdense : Dense w)
    (hreveals : Reveals s.wallet w)
    (hused : (w.keychains .external).used = (s.wallet.keychains .external).used) :
    Accounted lookahead D { wallet := w, handedOut := (returned D s.wallet a).toList ++ s.handedOut } := by
  obtain ⟨htxouts, htip, -⟩ := hreveals
  have hn := nextPaid_congr htxouts .external
  have hfollows := h.follows
  refine ⟨hdense, ?_, ?_, fun script hscript => ?_⟩
  · exact ⟨fun o ho => by rw [htip]; exact h.found.sound o (htxouts ▸ ho),
      fun block hblock out hout i hi => by
        rw [htxouts]
        exact h.found.complete block (htip ▸ hblock) out hout i hi⟩
  · rw [htip]
    exact ⟨by rw [hfollows.txouts, htxouts], by rw [hfollows.used, hused], by rw [hfollows.next, hn]⟩
  · rw [hn]
    rcases List.mem_append.mp hscript with hr | hscript
    · rcases h.dense.returned (Option.mem_toList.mp hr) with hnext | hchange
      · exact Or.inl ⟨_, le_rfl, hnext⟩
      · exact Or.inr hchange
    · exact h.handed script hscript

/-- **One step** whose block pays no external script that was not handed out. -/
lemma Accounted.step (hlookahead : 0 < lookahead) (h : Accounted lookahead D s)
    (hok : PaysHandedOut D s a) (hs : handStep lookahead D s a = some s') :
    Accounted lookahead D s' := by
  cases a with
  | nextAddress | getDestinationScript | getShutdownScriptpubkey =>
    cases hs
    exact h.call h.dense.nextUnusedAddress.2 nextUnusedAddress_reveals (nextUnusedAddress_used .external _)
  | getChangeScript | getChangeDestinationScript =>
    cases hs
    exact h.call (h.dense.congr sameExternal_nextUnusedAddress) nextUnusedAddress_reveals
      (nextUnusedAddress_used .internal _)
  | buildTransaction change =>
    cases hs
    have hsame := sameExternal_buildTransaction (D := D) (w := s.wallet) change
    exact h.call (h.dense.congr hsame) (buildTransaction_reveals change) (by rw [hsame.keychain])
  | blockConnected block =>
    cases hs
    have houts : ∀ out ∈ blockOuts block, ∀ i, D.index out.2.scriptPubkey = some (.external, i) →
        i ≤ nextPaid s.wallet .external ∧ out.2.scriptPubkey = D.spk .external i := by
      intro out hout i hi
      rcases h.handed _ (hok out hout i hi) with ⟨j, hj, hspk⟩ | ⟨j, hspk⟩
      · rw [hspk, D.index_spk] at hi
        cases hi
        exact ⟨hj, hspk⟩
      · rw [hspk, D.index_spk] at hi
        cases hi
    obtain ⟨hdense, hfollows, hle⟩ := scan_accounted hlookahead h.dense h.follows le_rfl
      fun out hout i hi => (houts out hout i hi).1
    refine ⟨hdense.congr ⟨rfl, rfl⟩, h.found.connectBlock hlookahead h.dense houts, ?_, ?_⟩
    · exact hfollows.congr ⟨rfl, rfl⟩ ⟨rfl, rfl⟩
    · intro script hscript
      rcases h.handed script hscript with ⟨i, hi, hspk⟩ | hchange
      · exact Or.inl ⟨i, hi.trans hle, hspk⟩
      · exact Or.inr hchange
  | restart =>
    cases hs
    have hfollows := h.follows
    have hn : nextPaid (rescan lookahead D s.wallet.latestCheckpoint) .external =
        nextPaid s.wallet .external := by rw [nextPaid, hfollows.txouts, nextPaid]
    refine ⟨hfollows.dense h.dense, ?_, ?_, ?_⟩
    · rw [rescan_latestCheckpoint]
      exact hfollows.found h.found
    · rw [rescan_latestCheckpoint]
      exact ⟨rfl, rfl, by rw [hfollows.next, hn]⟩
    · rw [hn]
      exact h.handed

end Steps

lemma always_accounted {lookahead : ℕ} {D : Descriptors} {as : List Action}
    (hlookahead : 0 < lookahead)
    (hok : StepsMeet (handStep lookahead D) (PaysHandedOut D) createdHanding as) :
    Always (handStep lookahead D) (Accounted lookahead D) createdHanding as :=
  hok.always accounted_created fun _ _ _ h hok hs => h.step hlookahead hok hs

/-! ### What is handed out -/

def receivingBlock : Block where
  header := 1
  txdata := [{ txid := 7, input := [], output := [{ value := 60000, scriptPubkey := 0 }] }]

/-- The first external script is handed out twice, paid, and a restart comes before the next address. -/
def receivedRun : List Action :=
  [.getDestinationScript, .nextAddress, .blockConnected receivingBlock, .restart, .nextAddress]

lemma paysHandedOut_received :
    StepsMeet (handStep 25 sampleDescriptors) (PaysHandedOut sampleDescriptors) createdHanding
      receivedRun := by
  refine .cons rfl trivial (.cons rfl trivial (.cons rfl ?_
    (.cons rfl trivial (.cons rfl trivial trivial))))
  intro out hout i _
  obtain rfl : out = (⟨7, 0⟩, ⟨60000, 0⟩) := List.mem_singleton.mp hout
  decide

/-- **What was received is listed.** In the same runs, at every moment, also right after a restart that
has forgotten which addresses were revealed: each output of the chain that pays an external script and
that the chain does not spend is listed. -/
theorem always_listsReceived {lookahead : ℕ} (D : Descriptors) (as : List Action)
    (hlookahead : 0 < lookahead)
    (hok : StepsMeet (handStep lookahead D) (PaysHandedOut D) createdHanding as) :
    Always (handStep lookahead D) (ListsReceived D) createdHanding as := by
  refine (always_accounted hlookahead hok).imp fun s h block hblock out hout i hindex hunspent => ?_
  refine List.mem_filter.mpr ⟨h.found.complete block hblock out hout i hindex, ?_⟩
  simpa using hunspent

theorem always_listsReceived_received :
    Always (handStep 25 sampleDescriptors) (ListsReceived sampleDescriptors) createdHanding receivedRun :=
  always_listsReceived sampleDescriptors receivedRun (by decide) paysHandedOut_received

end LnNode.Node.Addresses
