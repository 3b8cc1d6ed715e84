import Mathlib.Tactic

/-!
# Events that change the value of their key

A map from keys to values, and events of which each has a key, if any, and changes what that key holds.
An event never makes a value where there is none.

* `applyEvents_apply`: what a key holds afterwards depends on its own events only, in their order;
* `applyEvents_congr`: events of different keys may change places;
* `applyEvents_replay`: if no value is changed by its events a second time, neither is the map.

`lastOf` is the last value that a list of events sets, for values that are overwritten.
-/

namespace LnNode.Lib.KeyedEvents

variable {ι ν ε β : Type*}

/-! ### The last value that is set -/

def lastOf (sets : ε → Option β) (es : List ε) : Option β := (es.filterMap sets).getLast?

section LastOf

variable {sets : ε → Option β} {es : List ε}

@[simp] lemma lastOf_nil : lastOf sets [] = none := rfl

lemma lastOf_cons (e : ε) : lastOf sets (e :: es) = (lastOf sets es).or (sets e) := by
  unfold lastOf
  cases hset : sets e with
  | none => simp [hset]
  | some b =>
    rw [List.filterMap_cons_some hset, List.getLast?_cons]
    cases (es.filterMap sets).getLast? <;> rfl

lemma lastOf_eq_none_iff : lastOf sets es = none ↔ ∀ e ∈ es, sets e = none := by
  rw [lastOf, List.getLast?_eq_none_iff, List.filterMap_eq_nil_iff]

end LastOf

/-! ### Events on a map -/

variable [DecidableEq ι] (key? : ε → Option ι) (act : ε → ν → ν)

def applyEvent (m : ι → Option ν) (e : ε) : ι → Option ν :=
  match key? e with
  | none => m
  | some key => Function.update m key ((m key).map (act e))

def applyEvents (m : ι → Option ν) (es : List ε) : ι → Option ν := es.foldl (applyEvent key? act) m

/-- The events of one key. -/
def eventsOf (key : ι) (es : List ε) : List ε := es.filter fun e => key? e = some key

/-- What the events of one key make of its value. -/
def actAll (es : List ε) (v : ν) : ν := es.foldl (fun v e => act e v) v

section Events

variable {key? act} {m : ι → Option ν} {es es' : List ε} {key : ι} {e : ε}

lemma applyEvent_of_key (h : key? e = some key) :
    applyEvent key? act m e key = (m key).map (act e) := by
  simp [applyEvent, h]

lemma applyEvent_of_ne (h : key? e ≠ some key) : applyEvent key? act m e key = m key := by
  unfold applyEvent
  cases hkey : key? e with
  | none => rfl
  | some other =>
    have hne : key ≠ other := by
      rintro rfl
      exact h hkey
    exact Function.update_of_ne hne _ _

theorem applyEvents_apply : applyEvents key? act m es key = (m key).map (actAll act (eventsOf key? key es)) := by
  induction es generalizing m with
  | nil => exact (congrFun Option.map_id (m key)).symm
  | cons e es ih =>
    show applyEvents key? act (applyEvent key? act m e) es key = _
    rw [ih]
    by_cases h : key? e = some key
    · rw [applyEvent_of_key h, eventsOf, eventsOf, List.filter_cons_of_pos (by simpa using h),
        Option.map_map]
      rfl
    · rw [applyEvent_of_ne h, eventsOf, eventsOf, List.filter_cons_of_neg (by simpa using h)]

/-- **Events of different keys may change places.** -/
theorem applyEvents_congr (h : ∀ key, eventsOf key? key es' = eventsOf key? key es) :
    applyEvents key? act m es' = applyEvents key? act m es := by
  funext key
  rw [applyEvents_apply, applyEvents_apply, h]

/-- **Events that are handled again** change nothing, if they change no value of their key again. -/
theorem applyEvents_replay (h : ∀ key v, m key = some v →
      actAll act (eventsOf key? key es) (actAll act (eventsOf key? key es) v) =
        actAll act (eventsOf key? key es) v) :
    applyEvents key? act (applyEvents key? act m es) es = applyEvents key? act m es := by
  funext key
  rw [applyEvents_apply, applyEvents_apply]
  cases hv : m key with
  | none => rfl
  | some v => exact congrArg some (h key v hv)

end Events

end LnNode.Lib.KeyedEvents
