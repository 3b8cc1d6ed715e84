import Mathlib.Tactic

/-!
# Runs of a deterministic machine

A machine is a step function `step : σ → α → Option σ`, where `none` says that the action is not
enabled. A run is a list of actions. Three statements about all of its states are used: `Always P`
(every state reached has `P`), `StepsMeet ok` (every step taken meets `ok` in the state before it)
and `Stable Q` (once `Q` holds it holds in every later state).

* `StepsMeet.always`: an invariant kept by the steps that meet `ok` holds throughout;
* `always_iff_stepsMeet`: where breaking `ok` breaks `P` at once, the two are the same;
* `stable_of_stepsMeet`, `stepsMeet_of_stable`: the same two directions for stability.
-/

namespace LnNode.Lib.Run

variable {σ α : Type*} (step : σ → α → Option σ)

/-- The state after a run, `none` when one of its actions is not enabled. -/
def run : σ → List α → Option σ
  | s, [] => some s
  | s, a :: as => (step s a).bind fun s' => run s' as

/-- Every state reached has `P`. -/
def Always (P : σ → Prop) : σ → List α → Prop
  | s, [] => P s
  | s, a :: as => P s ∧ ∀ s', step s a = some s' → Always P s' as

/-- Every step taken meets `ok` in the state before it. -/
def StepsMeet (ok : σ → α → Prop) : σ → List α → Prop
  | _, [] => True
  | s, a :: as => ∀ s', step s a = some s' → ok s a ∧ StepsMeet ok s' as

/-- Once `Q` holds, it holds in every later state of the run. -/
def Stable (Q : σ → Prop) (s : σ) (as : List α) : Prop :=
  ∀ pre post t, as = pre ++ post → run step s pre = some t → Q t → Always step Q t post

variable {step} {P Q I : σ → Prop} {ok : σ → α → Prop} {s t : σ} {as : List α}

@[simp] lemma run_nil : run step s [] = some s := rfl

lemma run_cons (a : α) : run step s (a :: as) = (step s a).bind fun s' => run step s' as := rfl

lemma run_of_step {a : α} {s' : σ} (hs : step s a = some s') (hr : run step s' as = some t) :
    run step s (a :: as) = some t := by
  rw [run_cons, hs]
  exact hr

lemma run_append (as bs : List α) :
    run step s (as ++ bs) = (run step s as).bind fun t => run step t bs := by
  induction as generalizing s with
  | nil => rfl
  | cons a as ih =>
    rw [List.cons_append, run_cons, run_cons]
    cases step s a with
    | none => rfl
    | some s' => exact ih

lemma run_of_total (htotal : ∀ s a, ∃ s', step s a = some s') (s : σ) (as : List α) :
    ∃ t, run step s as = some t := by
  induction as generalizing s with
  | nil => exact ⟨s, rfl⟩
  | cons a as ih =>
    obtain ⟨s', hs⟩ := htotal s a
    obtain ⟨t, hr⟩ := ih s'
    exact ⟨t, run_of_step hs hr⟩

theorem run_keeps (hI : I s) (hstep : ∀ s a s', I s → step s a = some s' → I s')
    (hr : run step s as = some t) : I t := by
  induction as generalizing s with
  | nil =>
    cases hr
    exact hI
  | cons a as ih =>
    rw [run_cons, Option.bind_eq_some_iff] at hr
    obtain ⟨s', hs', hr⟩ := hr
    exact ih (hstep s a s' hI hs') hr

/-- **A measure** that no step increases bounds the steps that decrease it. -/
theorem run_countP_le (measure : σ → ℕ) (p : α → Bool) (hI : I s)
    (hstep : ∀ s a s', I s → step s a = some s' →
      I s' ∧ measure s' + (if p a then 1 else 0) ≤ measure s)
    (hr : run step s as = some t) : as.countP p + measure t ≤ measure s := by
  induction as generalizing s with
  | nil =>
    cases hr
    simp
  | cons a as ih =>
    rw [run_cons, Option.bind_eq_some_iff] at hr
    obtain ⟨s', hs', hr⟩ := hr
    obtain ⟨hI', hle⟩ := hstep s a s' hI hs'
    have hrest := ih hI' hr
    rw [List.countP_cons]
    omega

lemma Always.head (h : Always step P s as) : P s := by
  cases as with
  | nil => exact h
  | cons a as => exact h.1

/-- `Always` says what its name says: the state after every prefix of the run has `P`. -/
theorem Always.reached {pre post : List α} (h : Always step P s (pre ++ post))
    (hr : run step s pre = some t) : P t := by
  induction pre generalizing s with
  | nil =>
    rw [run_nil, Option.some.injEq] at hr
    subst hr
    exact h.head
  | cons a pre ih =>
    rw [run_cons, Option.bind_eq_some_iff] at hr
    obtain ⟨s', hs', hr⟩ := hr
    exact ih (h.2 s' hs') hr

theorem Always.last (h : Always step P s as) (hr : run step s as = some t) : P t := by
  rw [← List.append_nil as] at h
  exact h.reached hr

theorem always_iff_reached : Always step P s as ↔
    ∀ pre post t, as = pre ++ post → run step s pre = some t → P t := by
  constructor
  · rintro h pre post t rfl hr
    exact h.reached hr
  · intro h
    induction as generalizing s with
    | nil => exact h [] [] s rfl rfl
    | cons a as ih =>
      refine ⟨h [] (a :: as) s rfl rfl, fun s' hs' => ih fun pre post t heq hr => ?_⟩
      exact h (a :: pre) post t (by rw [heq]; rfl) (run_of_step hs' hr)

lemma always_of_keeps (hI : I s) (hstep : ∀ s a s', I s → step s a = some s' → I s') :
    Always step I s as :=
  always_iff_reached.mpr fun _ _ _ _ hr => run_keeps hI hstep hr

lemma always_and : Always step (fun s => P s ∧ Q s) s as ↔
    Always step P s as ∧ Always step Q s as := by
  simp only [always_iff_reached]
  exact ⟨fun h => ⟨fun pre post t he hr => (h pre post t he hr).1,
    fun pre post t he hr => (h pre post t he hr).2⟩,
    fun h pre post t he hr => ⟨h.1 pre post t he hr, h.2 pre post t he hr⟩⟩

lemma always_append {bs : List α} : Always step P s (as ++ bs) ↔
    Always step P s as ∧ ∀ t, run step s as = some t → Always step P t bs := by
  induction as generalizing s with
  | nil => exact ⟨fun h => ⟨h.head, fun t ht => by cases ht; exact h⟩, fun h => h.2 s rfl⟩
  | cons a as ih =>
    simp only [List.cons_append, Always, ih, run_cons, Option.bind_eq_some_iff]
    constructor
    · rintro ⟨hP, h⟩
      exact ⟨⟨hP, fun s' hs' => (h s' hs').1⟩, fun t ⟨s', hs', hr⟩ => (h s' hs').2 t hr⟩
    · rintro ⟨⟨hP, h1⟩, h2⟩
      exact ⟨hP, fun s' hs' => ⟨h1 s' hs', fun t hr => h2 t ⟨s', hs', hr⟩⟩⟩

lemma Always.imp {P' : σ → Prop} (h : Always step P s as) (hi : ∀ s, P s → P' s) :
    Always step P' s as := by
  induction as generalizing s with
  | nil => exact hi s h
  | cons a as ih => exact ⟨hi s h.1, fun s' hs' => ih (h.2 s' hs')⟩

lemma StepsMeet.cons {a : α} {s' : σ} (hs : step s a = some s') (ha : ok s a)
    (h : StepsMeet step ok s' as) : StepsMeet step ok s (a :: as) := by
  intro t ht
  obtain rfl : s' = t := Option.some.inj (hs.symm.trans ht)
  exact ⟨ha, h⟩

lemma StepsMeet.imp {ok' : σ → α → Prop} (h : StepsMeet step ok s as)
    (hi : ∀ s a, ok s a → ok' s a) : StepsMeet step ok' s as := by
  induction as generalizing s with
  | nil => trivial
  | cons a as ih => exact fun s' hs' => ⟨hi s a (h s' hs').1, ih (h s' hs').2⟩

lemma StepsMeet.and {ok' : σ → α → Prop} (h : StepsMeet step ok s as)
    (h' : StepsMeet step ok' s as) : StepsMeet step (fun s a => ok s a ∧ ok' s a) s as := by
  induction as generalizing s with
  | nil => trivial
  | cons a as ih =>
    exact fun s' hs' => ⟨⟨(h s' hs').1, (h' s' hs').1⟩, ih (h s' hs').2 (h' s' hs').2⟩

/-- `StepsMeet` says what its name says: every step of the run that is taken meets `ok`. -/
theorem stepsMeet_iff : StepsMeet step ok s as ↔
    ∀ pre a post t t', as = pre ++ a :: post → run step s pre = some t → step t a = some t' →
      ok t a := by
  induction as generalizing s with
  | nil => simp [StepsMeet]
  | cons b as ih =>
    constructor
    · intro h pre a post t t' heq hr hs
      cases pre with
      | nil =>
        obtain ⟨rfl, rfl⟩ := List.cons.inj heq
        cases hr
        exact (h t' hs).1
      | cons c pre =>
        obtain ⟨rfl, rfl⟩ := List.cons.inj heq
        rw [run_cons, Option.bind_eq_some_iff] at hr
        obtain ⟨s', hs', hr⟩ := hr
        exact ih.mp (h s' hs').2 pre a post t t' rfl hr hs
    · intro h s' hs'
      refine ⟨h [] b as s s' rfl rfl hs', ih.mpr ?_⟩
      rintro pre a post t t' rfl hr hs
      exact h (b :: pre) a post t t' rfl (run_of_step hs' hr) hs

theorem StepsMeet.drop {pre post : List α} (h : StepsMeet step ok s (pre ++ post))
    (hI : I s) (hstep : ∀ s a s', I s → ok s a → step s a = some s' → I s')
    (hr : run step s pre = some t) : I t ∧ StepsMeet step ok t post := by
  induction pre generalizing s with
  | nil =>
    rw [run_nil, Option.some.injEq] at hr
    subst hr
    exact ⟨hI, h⟩
  | cons a pre ih =>
    rw [run_cons, Option.bind_eq_some_iff] at hr
    obtain ⟨s', hs', hr⟩ := hr
    exact ih (h s' hs').2 (hstep s a s' hI (h s' hs').1 hs') hr

/-- **The invariant rule.** -/
theorem StepsMeet.always (h : StepsMeet step ok s as) (hI : I s)
    (hstep : ∀ s a s', I s → ok s a → step s a = some s' → I s') :
    Always step I s as := by
  induction as generalizing s with
  | nil => exact hI
  | cons a as ih =>
    exact ⟨hI, fun s' hs' => ih (h s' hs').2 (hstep s a s' hI (h s' hs').1 hs')⟩

theorem StepsMeet.strengthen {ok' : σ → α → Prop} (h : StepsMeet step ok s as) (hI : I s)
    (hstep : ∀ s a s', I s → ok s a → step s a = some s' → I s' ∧ ok' s a) :
    StepsMeet step ok' s as := by
  induction as generalizing s with
  | nil => trivial
  | cons a as ih =>
    intro s' hs'
    obtain ⟨hI', hok'⟩ := hstep s a s' hI (h s' hs').1 hs'
    exact ⟨hok', ih (h s' hs').2 hI'⟩

/-- **The exact rule.** Among runs whose steps are all `given`, an invariant kept by the steps that
meet `ok` gives `P`, and a step that does not meet `ok` leads to a state without `P`. -/
theorem always_iff_stepsMeet_of {given : σ → α → Prop} (hgiven : StepsMeet step given s as) (hI : I s)
    (hP : ∀ s, I s → P s)
    (hstep : ∀ s a s', I s → given s a → ok s a → step s a = some s' → I s')
    (hbreak : ∀ s a s', I s → step s a = some s' → P s' → ok s a) :
    Always step P s as ↔ StepsMeet step ok s as := by
  constructor
  · intro h
    induction as generalizing s with
    | nil => trivial
    | cons a as ih =>
      intro s' hs'
      have hok := hbreak s a s' hI hs' (h.2 s' hs').head
      obtain ⟨hg, hgiven'⟩ := hgiven s' hs'
      exact ⟨hok, ih hgiven' (hstep s a s' hI hg hok hs') (h.2 s' hs')⟩
  · intro h
    refine ((hgiven.and h).always hI ?_).imp hP
    exact fun s a s' hI hok hs => hstep s a s' hI hok.1 hok.2 hs

theorem always_iff_stepsMeet (hI : I s) (hP : ∀ s, I s → P s)
    (hstep : ∀ s a s', I s → ok s a → step s a = some s' → I s')
    (hbreak : ∀ s a s', I s → step s a = some s' → P s' → ok s a) :
    Always step P s as ↔ StepsMeet step ok s as := by
  have hgiven : StepsMeet step (fun _ _ => True) s as :=
    stepsMeet_iff.mpr fun _ _ _ _ _ _ _ _ => trivial
  exact always_iff_stepsMeet_of hgiven hI hP (fun s a s' hI _ => hstep s a s' hI) hbreak

theorem stable_of_stepsMeet (hI : I s) (h : StepsMeet step ok s as)
    (hstep : ∀ s a s', I s → ok s a → step s a = some s' → I s' ∧ (Q s → Q s')) :
    Stable step Q s as := by
  rintro pre post t rfl hr hq
  obtain ⟨hI', h'⟩ := h.drop hI (fun s a s' hi hk hs => (hstep s a s' hi hk hs).1) hr
  refine (h'.always (I := fun s => I s ∧ Q s) ⟨hI', hq⟩ ?_).imp fun s hs => hs.2
  intro s a s' hs hok hs'
  obtain ⟨h1, h2⟩ := hstep s a s' hs.1 hok hs'
  exact ⟨h1, h2 hs.2⟩

lemma Stable.tail {a : α} {s' : σ} (h : Stable step Q s (a :: as)) (hs : step s a = some s') :
    Stable step Q s' as := by
  rintro pre post t rfl hr
  exact h (a :: pre) post t rfl (run_of_step hs hr)

lemma Stable.keeps {a : α} {s' : σ} (h : Stable step Q s (a :: as)) (hs : step s a = some s')
    (hq : Q s) : Q s' :=
  ((h [] (a :: as) s rfl rfl hq).2 s' hs).head

/-- **The steps from stability.** Where a step that does not meet `ok` breaks one of the stable
properties at once, all steps meet it. -/
theorem stepsMeet_of_stable {κ : Type*} {R : κ → σ → Prop} {fine : α → Prop}
    (h : ∀ k, Stable step (R k) s as) (hfine : ∀ a ∈ as, fine a)
    (hbreak : ∀ s a s', fine a → step s a = some s' → (∀ k, R k s → R k s') → ok s a) :
    StepsMeet step ok s as := by
  induction as generalizing s with
  | nil => trivial
  | cons a as ih =>
    intro s' hs
    refine ⟨hbreak s a s' (hfine a List.mem_cons_self) hs fun k hk => (h k).keeps hs hk, ?_⟩
    exact ih (fun k => (h k).tail hs) fun a' ha' => hfine a' (List.mem_cons_of_mem _ ha')

end LnNode.Lib.Run
