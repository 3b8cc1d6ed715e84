import Mathlib.Tactic

/-!
# Trees of blocks and listeners that follow a tip

A block commits to all of its ancestors, so it is named here by the whole path down to the root,
newest first: `b :: c` is a child of `c`, and `[]` is the root. The ancestors of a block, itself
included, are then the suffixes of its path, and a tree of blocks is any set of paths.

* `forkPoint`: the last common ancestor of two blocks;
* `pathUp`: the blocks to connect, in order, to get from an ancestor to a block;
* `branch_induction`: what holds at a fork and passes from a block to its children holds up to the tip;
* `follow`: what a listener at `old` is called with to be brought to `new`;
* `follow_keeps`: what a disconnection to an ancestor and a connection of a child keep, following a
  tip keeps;
* `follow_ok`: a listener that takes both calls ends at the new tip.
-/

namespace LnNode.Lib.BlockTree

/-- A block, as its path down to the root. -/
abbrev Chain (β : Type*) := List β

variable {β : Type*} [DecidableEq β]

/-- The last common ancestor. -/
def forkPoint : Chain β → Chain β → Chain β
  | [], _ => []
  | x :: a, b => if x :: a <:+ b then x :: a else forkPoint a b

/-- The blocks above `fork` on the way to a block, the lowest first. -/
def pathUp (fork : Chain β) : Chain β → List (Chain β)
  | [] => []
  | x :: c => if x :: c = fork then [] else pathUp fork c ++ [x :: c]

/-! ### Fork points -/

section ForkPoint

variable {a b c : Chain β}

lemma forkPoint_suffix_left (a b : Chain β) : forkPoint a b <:+ a := by
  induction a with
  | nil => exact List.suffix_refl []
  | cons x a ih =>
    unfold forkPoint
    split_ifs
    · exact List.suffix_refl _
    · exact ih.trans (List.suffix_cons x a)

lemma forkPoint_suffix_right (a b : Chain β) : forkPoint a b <:+ b := by
  induction a with
  | nil => exact List.nil_suffix
  | cons x a ih =>
    unfold forkPoint
    split_ifs with h
    · exact h
    · exact ih

theorem suffix_forkPoint (ha : c <:+ a) (hb : c <:+ b) : c <:+ forkPoint a b := by
  induction a with
  | nil => exact ha
  | cons x a ih =>
    unfold forkPoint
    split_ifs with h
    · exact ha
    · rcases List.suffix_cons_iff.mp ha with rfl | ha'
      · exact absurd hb h
      · exact ih ha'

omit [DecidableEq β] in
lemma suffix_antisymm (hab : a <:+ b) (hba : b <:+ a) : a = b :=
  List.infix_antisymm hab.isInfix hba.isInfix

lemma forkPoint_eq_right : forkPoint a b = b ↔ b <:+ a := by
  constructor
  · intro h
    rw [← h]
    exact forkPoint_suffix_left a b
  · intro h
    exact suffix_antisymm (forkPoint_suffix_right a b) (suffix_forkPoint h (List.suffix_refl b))

end ForkPoint

/-! ### Paths -/

section Path

variable {f b c : Chain β}

omit [DecidableEq β] in
/-- **Induction along a branch**, from the fork up. -/
@[elab_as_elim]
theorem branch_induction {motive : Chain β → Prop} (hf : f <:+ b) (fork : motive f)
    (child : ∀ x c, f <:+ c → x :: c ≠ f → motive c → motive (x :: c)) : motive b := by
  obtain ⟨t, rfl⟩ := hf
  induction t with
  | nil => exact fork
  | cons x t ih =>
    have hne : x :: (t ++ f) ≠ f := by
      intro h
      have hlen := congrArg List.length h
      simp only [List.length_cons, List.length_append] at hlen
      omega
    exact child x (t ++ f) (List.suffix_append t f) hne ih

@[simp] lemma pathUp_self (f : Chain β) : pathUp f f = [] := by
  cases f <;> simp [pathUp]

lemma pathUp_cons {x : β} (h : x :: c ≠ f) : pathUp f (x :: c) = pathUp f c ++ [x :: c] := by
  rw [pathUp, if_neg h]

theorem mem_pathUp (hf : f <:+ b) : c ∈ pathUp f b ↔ c <:+ b ∧ f <:+ c ∧ c ≠ f := by
  refine branch_induction hf ?_ fun x b hfb hx ih => ?_
  · simp only [pathUp_self, List.not_mem_nil, false_iff, not_and, not_not]
    exact fun h1 h2 => suffix_antisymm h1 h2
  · rw [pathUp_cons hx, List.mem_append, ih, List.mem_singleton, List.suffix_cons_iff]
    constructor
    · rintro (⟨h1, h2, h3⟩ | rfl)
      · exact ⟨Or.inr h1, h2, h3⟩
      · exact ⟨Or.inl rfl, hfb.trans (List.suffix_cons x b), hx⟩
    · rintro ⟨rfl | h1, h2, h3⟩
      · exact Or.inr rfl
      · exact Or.inl ⟨h1, h2, h3⟩

theorem pathUp_head (hf : f <:+ b) (hne : f ≠ b) : ∃ x rest, pathUp f b = (x :: f) :: rest := by
  have hpath : f = b ∨ ∃ x rest, pathUp f b = (x :: f) :: rest := by
    refine branch_induction hf (Or.inl rfl) fun x b _ hx ih => Or.inr ?_
    rw [pathUp_cons hx]
    rcases ih with rfl | ⟨y, rest, hrest⟩
    · exact ⟨x, [], by simp⟩
    · exact ⟨y, rest ++ [x :: b], by rw [hrest]; rfl⟩
  exact hpath.resolve_left hne

end Path

/-! ### Work -/

/-- The work of a chain whose blocks each carry a positive amount. -/
def work (blockWork : β → ℕ+) (c : Chain β) : ℕ := (c.map fun b => (blockWork b : ℕ)).sum

omit [DecidableEq β] in
lemma work_le_of_suffix (blockWork : β → ℕ+) {a b : Chain β} (h : a <:+ b) :
    work blockWork a ≤ work blockWork b := by
  obtain ⟨t, rfl⟩ := h
  simp [work]

/-! ### Listeners -/

/-- The two calls a listener is notified with, each of which may panic. -/
structure Listener (ε σ β : Type*) where
  connected : σ → Chain β → Except ε σ
  disconnected : σ → Chain β → Except ε σ

section Listener

variable {ε σ : Type*}

/-- The blocks of a branch connected one after another, up to the first panic. -/
def connectAll (L : Listener ε σ β) : σ → List (Chain β) → Except ε σ
  | s, [] => .ok s
  | s, b :: bs =>
    match L.connected s b with
    | .error e => .error e
    | .ok s' => connectAll L s' bs

/-- The calls that bring a listener from `old` to `new`: one disconnection to the fork point, unless
nothing is to be disconnected, and then the new branch block by block. -/
def follow (L : Listener ε σ β) (s : σ) (old new : Chain β) : Except ε σ :=
  if forkPoint old new = old then connectAll L s (pathUp (forkPoint old new) new)
  else
    match L.disconnected s (forkPoint old new) with
    | .error e => .error e
    | .ok s' => connectAll L s' (pathUp (forkPoint old new) new)

variable {L : Listener ε σ β} {P : Chain β → σ → Prop} {s s' : σ} {f b old new : Chain β}

omit [DecidableEq β] in
lemma connectAll_append (bs cs : List (Chain β)) :
    connectAll L s (bs ++ cs) =
      match connectAll L s bs with
      | .error e => .error e
      | .ok s' => connectAll L s' cs := by
  induction bs generalizing s with
  | nil => rfl
  | cons b bs ih =>
    rw [List.cons_append, connectAll, connectAll]
    cases L.connected s b with
    | error e => rfl
    | ok s' => exact ih

/-- **What a listener keeps** while a branch is connected from the fork up. -/
theorem connectAll_keeps (hf : f <:+ b) (hs : P f s)
    (hconn : ∀ c s s' x, P c s → L.connected s (x :: c) = .ok s' → P (x :: c) s')
    (h : connectAll L s (pathUp f b) = .ok s') : P b s' := by
  have hkeeps : ∀ t, connectAll L s (pathUp f b) = .ok t → P b t := by
    refine branch_induction hf (fun t h => ?_) fun x b _ hx ih t' h => ?_
    · rw [pathUp_self] at h
      cases h
      exact hs
    · rw [pathUp_cons hx, connectAll_append] at h
      cases hmid : connectAll L s (pathUp f b) with
      | error e => simp [hmid] at h
      | ok t =>
        have hlast : L.connected t (x :: b) = .ok t' := by
          rw [hmid] at h
          cases hc : L.connected t (x :: b) with
          | error e => simp [connectAll, hc] at h
          | ok t'' => simpa [connectAll, hc] using h
        exact hconn b t t' x (ih t hmid) hlast
  exact hkeeps s' h

theorem follow_keeps (hs : P old s)
    (hdis : ∀ c f s s', P c s → f <:+ c → f ≠ c → L.disconnected s f = .ok s' → P f s')
    (hconn : ∀ c s s' x, P c s → L.connected s (x :: c) = .ok s' → P (x :: c) s')
    (h : follow L s old new = .ok s') : P new s' := by
  have hleft := forkPoint_suffix_left old new
  have hright := forkPoint_suffix_right old new
  unfold follow at h
  split_ifs at h with hfork
  · rw [hfork] at hright h
    exact connectAll_keeps hright hs hconn h
  · split at h
    · cases h
    · rename_i t hdisc
      exact connectAll_keeps hright (hdis old _ s t hs hleft hfork hdisc) hconn h

theorem connectAll_ok (hf : f <:+ b) (hs : P f s)
    (hconn : ∀ c s x, P c s → ∃ s', L.connected s (x :: c) = .ok s' ∧ P (x :: c) s') :
    ∃ s', connectAll L s (pathUp f b) = .ok s' ∧ P b s' := by
  refine branch_induction hf ⟨s, by rw [pathUp_self]; rfl, hs⟩ fun x b _ hx ih => ?_
  obtain ⟨t, hrun, hat⟩ := ih
  obtain ⟨s', hstep, hat'⟩ := hconn b t x hat
  refine ⟨s', ?_, hat'⟩
  rw [pathUp_cons hx, connectAll_append, hrun]
  simp [connectAll, hstep]

/-- **A listener that takes its calls ends at the new tip.** -/
theorem follow_ok (hs : P old s)
    (hdis : ∀ c f s, P c s → f <:+ c → f ≠ c → ∃ s', L.disconnected s f = .ok s' ∧ P f s')
    (hconn : ∀ c s x, P c s → ∃ s', L.connected s (x :: c) = .ok s' ∧ P (x :: c) s') :
    ∃ s', follow L s old new = .ok s' ∧ P new s' := by
  have hleft := forkPoint_suffix_left old new
  have hright := forkPoint_suffix_right old new
  unfold follow
  split_ifs with h
  · rw [h] at hright ⊢
    exact connectAll_ok hright hs hconn
  · obtain ⟨s', hs', hat⟩ := hdis old _ s hs hleft h
    simp only [hs']
    exact connectAll_ok hright hat hconn

end Listener

end LnNode.Lib.BlockTree
