import LnNode.Lib.Run

/-!
# Values that are refreshed one at a time

A state has a value under each key. A refresh of a key gets an answer, which gives a new value or none;
with none the old value stays. A sweep refreshes all keys in a fixed order. Whoever reads between two
refreshes sees some new values and some old ones, so a constraint between the values of two keys must
hold of the mix too.

* `read_run_sweep`: what stands in the state after a part of a sweep;
* `always_sweep_iff`: a sweep keeps the constraints in every state that can be read exactly when they
  hold of the new values, and of the new value of the key that comes first with the old one of the other;
* `always_sweeps_iff`: the same for sweeps one after another.
-/

namespace LnNode.Lib.Refresh

open LnNode.Lib.Run

/-- A state with a value under each key, and what an answer comes to. -/
structure Refreshed (σ κ ν ρ : Type*) [DecidableEq κ] where
  read : σ → κ → ν
  write : σ → κ → ν → σ
  accept : κ → ρ → Option ν
  read_write : ∀ s k x, read (write s k x) = Function.update (read s) k x

variable {σ κ ν ρ : Type*} [DecidableEq κ] (S : Refreshed σ κ ν ρ)

def refreshStep (s : σ) (a : κ × ρ) : Option σ :=
  match S.accept a.1 a.2 with
  | none => some s
  | some x => some (S.write s a.1 x)

def sweep (ks : List κ) (answers : κ → ρ) : List (κ × ρ) := ks.map fun k => (k, answers k)

def sweepStep (ks : List κ) (s : σ) (answers : κ → ρ) : Option σ :=
  run (refreshStep S) s (sweep ks answers)

def fresh (s : σ) (answers : κ → ρ) (k : κ) : ν := (S.accept k (answers k)).getD (S.read s k)

variable (C : κ → κ → ν → ν → Prop)

def Satisfies (s : σ) : Prop := ∀ a b, C a b (S.read s a) (S.read s b)

/-- The constraints hold of the new values, and of a new value with the old one of a key that is
refreshed later. -/
structure SweepFits (ks : List κ) (s : σ) (answers : κ → ρ) : Prop where
  fresh : ∀ a b, C a b (fresh S s answers a) (fresh S s answers b)
  left : ∀ a b, ks.idxOf a < ks.idxOf b → C a b (Refresh.fresh S s answers a) (S.read s b)
  right : ∀ a b, ks.idxOf b < ks.idxOf a → C a b (S.read s a) (Refresh.fresh S s answers b)

variable {S C} {s t : σ} {ks p : List κ} {answers : κ → ρ}

lemma read_refreshStep {k : κ} {r : ρ} (h : refreshStep S s (k, r) = some t) :
    S.read t = Function.update (S.read s) k ((S.accept k r).getD (S.read s k)) := by
  unfold refreshStep at h
  cases ha : S.accept k r with
  | none =>
    simp only [ha, Option.some.injEq] at h
    rw [Option.getD_none, Function.update_eq_self, h]
  | some x =>
    simp only [ha, Option.some.injEq] at h
    rw [Option.getD_some, ← h, S.read_write]

lemma exists_run_sweep (s : σ) (ks : List κ) (answers : κ → ρ) :
    ∃ t, run (refreshStep S) s (sweep ks answers) = some t := by
  induction ks generalizing s with
  | nil => exact ⟨s, rfl⟩
  | cons k ks ih =>
    obtain ⟨s', hs'⟩ : ∃ s', refreshStep S s (k, answers k) = some s' := by
      unfold refreshStep
      cases S.accept k (answers k) with
      | none => exact ⟨_, rfl⟩
      | some x => exact ⟨_, rfl⟩
    obtain ⟨t, ht⟩ := ih s'
    exact ⟨t, by rw [sweep, List.map_cons, run_cons, hs']; exact ht⟩

/-- **What stands in the state after some keys were refreshed**: their new values, and the old ones
elsewhere. -/
theorem read_run_sweep (h : run (refreshStep S) s (sweep p answers) = some t) (k : κ) :
    S.read t k = if k ∈ p then fresh S s answers k else S.read s k := by
  induction p generalizing s with
  | nil =>
    cases h
    simp
  | cons j p ih =>
    rw [sweep, List.map_cons, run_cons, Option.bind_eq_some_iff] at h
    obtain ⟨s', hs', hrest⟩ := h
    have hread := read_refreshStep hs'
    rw [ih hrest, fresh, hread]
    by_cases hkj : k = j
    · subst hkj
      simp only [Function.update_self, List.mem_cons, true_or, if_true, fresh]
      cases S.accept k (answers k) <;> simp
    · simp only [Function.update_of_ne hkj, List.mem_cons, hkj, false_or, fresh]

lemma mem_prefix_iff (h : p <+: ks) (k : κ) : k ∈ p ↔ ks.idxOf k < p.length := by
  obtain ⟨q, rfl⟩ := h
  rw [List.idxOf_append]
  split_ifs with hk
  · exact ⟨fun _ => List.idxOf_lt_length_of_mem hk, fun _ => hk⟩
  · exact ⟨fun hk' => absurd hk' hk, fun hlt => by omega⟩

/-- The states of a sweep are those after its prefixes. -/
lemma always_sweep_iff_parts {P : σ → Prop} :
    Always (refreshStep S) P s (sweep ks answers) ↔
      ∀ p t, p <+: ks → run (refreshStep S) s (sweep p answers) = some t → P t := by
  rw [always_iff_reached]
  constructor
  · rintro h p t ⟨q, rfl⟩ hr
    exact h (sweep p answers) (sweep q answers) t (by rw [sweep, List.map_append]; rfl) hr
  · intro h pre post t heq hr
    obtain ⟨p, q, rfl, rfl, rfl⟩ := List.map_eq_append_iff.mp heq
    exact h p t (List.prefix_append p q) hr

/-- **One sweep.** From a state that satisfies the constraints, a sweep over all keys keeps them in
every state exactly when it fits. -/
theorem always_sweep_iff (hks : ∀ k, k ∈ ks) (hs : Satisfies S C s) :
    Always (refreshStep S) (Satisfies S C) s (sweep ks answers) ↔ SweepFits S C ks s answers := by
  rw [always_sweep_iff_parts]
  constructor
  · intro h
    have hmix : ∀ p, p <+: ks → ∀ a b,
        C a b (if a ∈ p then fresh S s answers a else S.read s a)
          (if b ∈ p then fresh S s answers b else S.read s b) := by
      intro p hp a b
      obtain ⟨t, ht⟩ := exists_run_sweep (S := S) s p answers
      rw [← read_run_sweep ht a, ← read_run_sweep ht b]
      exact h p t hp ht a b
    -- up to the key that comes first, and no further
    have hcut : ∀ a b, ks.idxOf a < ks.idxOf b →
        a ∈ ks.take (ks.idxOf a + 1) ∧ b ∉ ks.take (ks.idxOf a + 1) := by
      intro a b hlt
      have ha := List.idxOf_lt_length_of_mem (hks a)
      rw [mem_prefix_iff (List.take_prefix _ ks), mem_prefix_iff (List.take_prefix _ ks),
        List.length_take]
      omega
    refine ⟨fun a b => ?_, fun a b hlt => ?_, fun a b hlt => ?_⟩
    · simpa only [hks, if_true] using hmix ks (List.prefix_refl ks) a b
    · obtain ⟨ha, hb⟩ := hcut a b hlt
      have h := hmix _ (List.take_prefix (ks.idxOf a + 1) ks) a b
      rwa [if_pos ha, if_neg hb] at h
    · obtain ⟨hb, ha⟩ := hcut b a hlt
      have h := hmix _ (List.take_prefix (ks.idxOf b + 1) ks) a b
      rwa [if_neg ha, if_pos hb] at h
  · intro hfits p t hp ht a b
    rw [read_run_sweep ht a, read_run_sweep ht b]
    split_ifs with ha hb hb
    · exact hfits.fresh a b
    · rw [mem_prefix_iff hp] at ha hb
      exact hfits.left a b (by omega)
    · rw [mem_prefix_iff hp] at ha hb
      exact hfits.right a b (by omega)
    · exact hs a b

theorem always_sweeps_iff (hks : ∀ k, k ∈ ks) (hs : Satisfies S C s) (rounds : List (κ → ρ)) :
    Always (refreshStep S) (Satisfies S C) s (rounds.flatMap (sweep ks)) ↔
      StepsMeet (sweepStep S ks) (SweepFits S C ks) s rounds := by
  induction rounds generalizing s with
  | nil => exact ⟨fun _ => trivial, fun _ => hs⟩
  | cons answers rounds ih =>
    rw [List.flatMap_cons, always_append]
    constructor
    · rintro ⟨hsweep, hrest⟩ t ht
      have hts := hsweep.last ht
      exact ⟨(always_sweep_iff hks hs).mp hsweep, (ih hts).mp (hrest t ht)⟩
    · intro h
      obtain ⟨t, ht⟩ := exists_run_sweep (S := S) s ks answers
      obtain ⟨hfits, hrest⟩ := h t ht
      have hsweep := (always_sweep_iff hks hs).mpr hfits
      refine ⟨hsweep, fun t' ht' => ?_⟩
      obtain rfl : t = t' := Option.some.inj (ht.symm.trans ht')
      exact (ih (hsweep.last ht)).mpr hrest

end LnNode.Lib.Refresh
