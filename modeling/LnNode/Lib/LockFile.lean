import LnNode.Lib.Run

/-!
# A file that locks

Processes of one program are launched at any time and run side by side. One of them takes hold of a
resource by making a file, which fails while the file is there, and is to remove the file when it lets go.
A process that ends without that leaves the file behind.

* `always_single`: at most one process holds the resource at any time, and the file is there while it does;
* `always_free_iff`: the resource can be taken whenever no process holds it, exactly as long as no process
  leaves the file behind;
* `stable_stuck`: after that no process takes it any more.
-/

namespace LnNode.Lib.LockFile

open LnNode.Lib.Run

inductive Change (before after : Bool) (file file' : Bool) : Prop where
  | none (hb : before = false) (ha : after = false) (hf : file' = file)
  | takes (hb : before = false) (ha : after = true) (hf : file = false) (hf' : file' = true)
  | keeps (hb : before = true) (ha : after = true) (hf : file' = file)
  | releases (hb : before = true) (ha : after = false) (hf : file' = false)
  | leaves (hb : before = true) (ha : after = false) (hf : file' = file)

/-- A program, whose process is in a phase, and takes a step on an event. -/
structure Program (φ ε : Type*) where
  launched : φ
  step : Bool → φ → ε → Option (φ × Bool)
  holds : φ → Bool
  holds_launched : holds launched = false
  change : ∀ file p e p' file', step file p e = some (p', file') → (holds p = true → file = true) →
    Change (holds p) (holds p') file file'

structure System (φ : Type*) where
  file : Bool
  processes : List φ

inductive Action (ε : Type*) where
  | launch
  | process (i : ℕ) (e : ε)

def noProcess {φ : Type*} : System φ where
  file := false
  processes := []

variable {φ ε : Type*} (P : Program φ ε)

def systemStep (s : System φ) : Action ε → Option (System φ)
  | .launch => some { s with processes := s.processes ++ [P.launched] }
  | .process i e =>
    match s.processes[i]? with
    | none => none
    | some p =>
      match P.step s.file p e with
      | none => none
      | some (p', file') => some { file := file', processes := s.processes.set i p' }

/-- The process in this position holds the resource. -/
def Holds (s : System φ) (i : ℕ) : Prop := ∃ p, s.processes[i]? = some p ∧ P.holds p = true

/-- At most one process holds it, and then the file is there. -/
structure Single (s : System φ) : Prop where
  unique : ∀ i j, Holds P s i → Holds P s j → i = j
  file : ∀ i, Holds P s i → s.file = true

/-- While no process holds the resource, it can be taken. -/
def Free (s : System φ) : Prop := (∀ i, ¬ Holds P s i) → s.file = false

/-- No process holds the resource, and none can take it. -/
def Stuck (s : System φ) : Prop := (∀ i, ¬ Holds P s i) ∧ s.file = true

/-- The process that lets go removes the file. -/
def Removes (s : System φ) : Action ε → Prop
  | .launch => True
  | .process i e => ∀ p p' file', s.processes[i]? = some p → P.step s.file p e = some (p', file') →
    P.holds p = true → P.holds p' = false → file' = false

section Steps

variable {P} {s s' : System φ} {a : Action ε} {i j : ℕ}

lemma holds_launch : Holds P { s with processes := s.processes ++ [P.launched] } i ↔ Holds P s i := by
  constructor
  · rintro ⟨p, hp, hholds⟩
    rw [List.getElem?_append] at hp
    split_ifs at hp
    · exact ⟨p, hp, hholds⟩
    · rw [List.mem_singleton.mp (List.mem_of_getElem? hp), P.holds_launched] at hholds
      cases hholds
  · rintro ⟨p, hp, hholds⟩
    refine ⟨p, ?_, hholds⟩
    rw [List.getElem?_append_left (List.getElem?_eq_some_iff.mp hp).1, hp]

lemma holds_set {p p' : φ} {file' : Bool} (hp : s.processes[i]? = some p) :
    Holds P { file := file', processes := s.processes.set i p' } j ↔
      if j = i then P.holds p' = true else Holds P s j := by
  have hlt := (List.getElem?_eq_some_iff.mp hp).1
  by_cases hj : j = i
  · subst hj
    rw [if_pos rfl, Holds, List.getElem?_set_self hlt]
    simp
  · rw [if_neg hj, Holds, Holds, List.getElem?_set_ne (Ne.symm hj)]

lemma process_cases {e : ε} (hs : systemStep P s (.process i e) = some s') :
    ∃ p p' file', s.processes[i]? = some p ∧ P.step s.file p e = some (p', file') ∧
      s' = { file := file', processes := s.processes.set i p' } := by
  rw [systemStep] at hs
  split at hs
  · cases hs
  rename_i p hp
  split at hs
  · cases hs
  rename_i p' file' hstep
  exact ⟨p, p', file', hp, hstep, (Option.some.inj hs).symm⟩

lemma Single.change (h : Single P s) {e : ε} {p p' : φ} {file' : Bool}
    (hp : s.processes[i]? = some p) (hstep : P.step s.file p e = some (p', file')) :
    Change (P.holds p) (P.holds p') s.file file' :=
  P.change s.file p e p' file' hstep fun hholds => h.file i ⟨p, hp, hholds⟩

theorem Single.step (h : Single P s) (hs : systemStep P s a = some s') : Single P s' := by
  cases a with
  | launch =>
    obtain rfl := Option.some.inj hs
    exact ⟨fun i j hi hj => h.unique i j (holds_launch.mp hi) (holds_launch.mp hj),
      fun i hi => h.file i (holds_launch.mp hi)⟩
  | process i e =>
    obtain ⟨p, p', file', hp, hstep, rfl⟩ := process_cases hs
    -- whoever holds it afterwards held it before, or has just taken it
    have hother : ∀ j, Holds P { file := file', processes := s.processes.set i p' } j → j ≠ i →
        Holds P s j := fun j hj hne => by rwa [holds_set hp, if_neg hne] at hj
    have hself : Holds P { file := file', processes := s.processes.set i p' } i →
        P.holds p' = true := fun hi => by rwa [holds_set hp, if_pos rfl] at hi
    cases h.change hp hstep with
    | none _ ha hf =>
      have hne : ∀ j, Holds P { file := file', processes := s.processes.set i p' } j → j ≠ i := by
        rintro j hj rfl
        rw [hself hj] at ha
        cases ha
      exact ⟨fun j k hj hk => h.unique j k (hother j hj (hne j hj)) (hother k hk (hne k hk)),
        fun j hj => hf.trans (h.file j (hother j hj (hne j hj)))⟩
    | takes _ _ hf hf' =>
      have heq : ∀ j, Holds P { file := file', processes := s.processes.set i p' } j → j = i := by
        intro j hj
        by_contra hne
        have hfile := h.file j (hother j hj hne)
        rw [hf] at hfile
        cases hfile
      exact ⟨fun j k hj hk => (heq j hj).trans (heq k hk).symm, fun _ _ => hf'⟩
    | keeps hb _ hf =>
      have hbefore : ∀ j, Holds P { file := file', processes := s.processes.set i p' } j →
          Holds P s j := by
        intro j hj
        by_cases hne : j = i
        · rw [hne]
          exact ⟨p, hp, hb⟩
        · exact hother j hj hne
      exact ⟨fun j k hj hk => h.unique j k (hbefore j hj) (hbefore k hk),
        fun j hj => hf.trans (h.file j (hbefore j hj))⟩
    | releases hb ha _ | leaves hb ha _ =>
      have hnone : ∀ j, ¬ Holds P { file := file', processes := s.processes.set i p' } j := by
        intro j hj
        by_cases hne : j = i
        · subst hne
          rw [hself hj] at ha
          cases ha
        · exact hne (h.unique j i (hother j hj hne) ⟨p, hp, hb⟩)
      exact ⟨fun j _ hj => absurd hj (hnone j), fun j hj => absurd hj (hnone j)⟩

lemma Free.step (h : Single P s) (hfree : Free P s) (hok : Removes P s a)
    (hs : systemStep P s a = some s') : Free P s' := by
  cases a with
  | launch =>
    obtain rfl := Option.some.inj hs
    exact fun hnone => hfree fun i hi => hnone i (holds_launch.mpr hi)
  | process i e =>
    obtain ⟨p, p', file', hp, hstep, rfl⟩ := process_cases hs
    intro hnone
    have hself : P.holds p' ≠ true := fun ha => hnone i ((holds_set hp).mpr (by rwa [if_pos rfl]))
    cases h.change hp hstep with
    | none hb _ hf =>
      refine hf.trans (hfree fun j hj => ?_)
      by_cases hne : j = i
      · obtain ⟨q, hq, hholds⟩ := hj
        rw [hne, hp] at hq
        cases hq
        rw [hb] at hholds
        cases hholds
      · exact hnone j ((holds_set hp).mpr (by rwa [if_neg hne]))
    | takes _ ha _ _ => exact absurd ha hself
    | keeps _ ha _ => exact absurd ha hself
    | releases _ _ hf => exact hf
    | leaves hb ha _ => exact hok p p' file' hp hstep hb ha

lemma removes_of_free (h : Single P s) (hs : systemStep P s a = some s') (hfree : Free P s') :
    Removes P s a := by
  cases a with
  | launch => trivial
  | process i e =>
    intro p p' file' hp hstep hb ha
    have hs' : systemStep P s (.process i e) =
        some { file := file', processes := s.processes.set i p' } := by
      simp only [systemStep, hp, hstep]
    obtain rfl := Option.some.inj (hs'.symm.trans hs)
    refine hfree fun j hj => ?_
    rw [holds_set hp] at hj
    split_ifs at hj with hne
    · rw [ha] at hj
      cases hj
    · exact hne (h.unique j i hj ⟨p, hp, hb⟩)

lemma Stuck.step (h : Stuck P s) (hs : systemStep P s a = some s') : Stuck P s' := by
  cases a with
  | launch =>
    obtain rfl := Option.some.inj hs
    exact ⟨fun i hi => h.1 i (holds_launch.mp hi), h.2⟩
  | process i e =>
    obtain ⟨p, p', file', hp, hstep, rfl⟩ := process_cases hs
    have hsingle : Single P s := ⟨fun j _ hj => absurd hj (h.1 j), fun j hj => absurd hj (h.1 j)⟩
    have hb : P.holds p ≠ true := fun hb => h.1 i ⟨p, hp, hb⟩
    cases hsingle.change hp hstep with
    | none _ ha hf =>
      refine ⟨fun j hj => ?_, hf.trans h.2⟩
      rw [holds_set hp] at hj
      split_ifs at hj
      · rw [ha] at hj
        cases hj
      · exact h.1 j hj
    | takes _ _ hf _ =>
      rw [h.2] at hf
      cases hf
    | keeps hb' _ _ => exact absurd hb' hb
    | releases hb' _ _ => exact absurd hb' hb
    | leaves hb' _ _ => exact absurd hb' hb

end Steps

lemma single_noProcess : Single P noProcess := by
  constructor
  · rintro i j ⟨p, hp, -⟩
    simp [noProcess] at hp
  · rintro i ⟨p, hp, -⟩
    simp [noProcess] at hp

theorem always_single (as : List (Action ε)) : Always (systemStep P) (Single P) noProcess as :=
  always_of_keeps (single_noProcess P) fun _ _ _ h hs => h.step hs

theorem always_free_iff (as : List (Action ε)) : Always (systemStep P) (Free P) noProcess as ↔
    StepsMeet (systemStep P) (Removes P) noProcess as :=
  always_iff_stepsMeet (I := fun s => Single P s ∧ Free P s) ⟨single_noProcess P, fun _ => rfl⟩
    (fun _ h => h.2) (fun _ _ _ h hok hs => ⟨h.1.step hs, h.2.step h.1 hok hs⟩)
    fun _ _ _ h hs hfree => removes_of_free h.1 hs hfree

/-- **A file that was left behind stays**, and keeps every process out. -/
theorem stable_stuck (s : System φ) (as : List (Action ε)) :
    Stable (systemStep P) (Stuck P) s as := by
  rintro pre post t rfl - hstuck
  exact always_of_keeps hstuck fun _ _ _ h hs => h.step hs

end LnNode.Lib.LockFile
