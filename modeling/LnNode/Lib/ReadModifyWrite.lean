import Mathlib.Tactic

/-!
# A value that is read, changed and written back while others write

A map from keys to values, and operations that put or remove one key. One more client reads the value
of a key, and later writes back a changed one. In between, and before and after, come operations of
others.

* `serializable_iff`: when the outcome is that of some run in which the client's read and write are
  one step.
-/

namespace LnNode.Lib.ReadModifyWrite

variable {κ ν : Type*} [DecidableEq κ]

/-- An operation on one key, or one that has failed. -/
inductive Op (κ ν : Type*) where
  | put (key : κ) (value : ν)
  | del (key : κ)
  | skip

def Op.apply (m : κ → Option ν) : Op κ ν → κ → Option ν
  | .put key value => Function.update m key (some value)
  | .del key => Function.update m key none
  | .skip => m

def applyAll (m : κ → Option ν) (ops : List (Op κ ν)) : κ → Option ν := ops.foldl Op.apply m

def Op.key? : Op κ ν → Option κ
  | .put key _ => some key
  | .del key => some key
  | .skip => none

def Touches (key : κ) (ops : List (Op κ ν)) : Prop := ∃ op ∈ ops, op.key? = some key

/-- What was made of the value that was read is written, if anything was. -/
def writeBack (change : Option ν) (key : κ) (m : κ → Option ν) : κ → Option ν :=
  match change with
  | none => m
  | some value => Function.update m key (some value)

def update (f : ν → Option ν) (key : κ) (m : κ → Option ν) : κ → Option ν :=
  writeBack ((m key).bind f) key m

/-- The read comes after `pre`, the write after `mid`. -/
def splitUpdate (f : ν → Option ν) (key : κ) (m : κ → Option ν) (pre mid post : List (Op κ ν)) :
    κ → Option ν :=
  applyAll (writeBack ((applyAll m pre key).bind f) key (applyAll m (pre ++ mid))) post

/-- The outcome is that of a run with the update as one step. -/
def Serializable (f : ν → Option ν) (key : κ) (m : κ → Option ν) (pre mid post : List (Op κ ν)) :
    Prop :=
  ∃ before after, before ++ after = pre ++ mid ++ post ∧
    splitUpdate f key m pre mid post = applyAll (update f key (applyAll m before)) after

section

variable {f : ν → Option ν} {key j : κ} {m m' : κ → Option ν} {ops pre mid post : List (Op κ ν)}

lemma applyAll_append (before after : List (Op κ ν)) :
    applyAll m (before ++ after) = applyAll (applyAll m before) after := List.foldl_append

lemma Op.apply_congr (op : Op κ ν) (h : m j = m' j) : op.apply m j = op.apply m' j := by
  cases op with
  | put key value => simp only [Op.apply, Function.update_apply, h]
  | del key => simp only [Op.apply, Function.update_apply, h]
  | skip => exact h

lemma applyAll_congr (h : m j = m' j) : applyAll m ops j = applyAll m' ops j := by
  induction ops generalizing m m' with
  | nil => exact h
  | cons op ops ih => exact ih (op.apply_congr h)

lemma Op.apply_of_key?_ne (op : Op κ ν) (h : op.key? ≠ some j) : op.apply m j = m j := by
  cases op with
  | put key value => exact Function.update_of_ne (fun e => h (congrArg some e.symm)) _ _
  | del key => exact Function.update_of_ne (fun e => h (congrArg some e.symm)) _ _
  | skip => rfl

lemma applyAll_of_not_touches (h : ¬ Touches j ops) : applyAll m ops j = m j := by
  induction ops generalizing m with
  | nil => rfl
  | cons op ops ih =>
    have hop : op.key? ≠ some j := fun e => h ⟨op, List.mem_cons_self, e⟩
    have hops : ¬ Touches j ops := fun ⟨o, ho, e⟩ => h ⟨o, List.mem_cons_of_mem _ ho, e⟩
    exact (ih hops).trans (op.apply_of_key?_ne hop)

lemma Op.apply_of_key?_eq (op : Op κ ν) (h : op.key? = some j) : op.apply m j = op.apply m' j := by
  cases op with
  | put key value =>
    obtain rfl : key = j := Option.some.inj h
    simp [Op.apply]
  | del key =>
    obtain rfl : key = j := Option.some.inj h
    simp [Op.apply]
  | skip => cases h

lemma applyAll_of_touches (h : Touches j ops) (m m' : κ → Option ν) :
    applyAll m ops j = applyAll m' ops j := by
  induction ops generalizing m m' with
  | nil =>
    obtain ⟨op, hmem, -⟩ := h
    cases hmem
  | cons op ops ih =>
    by_cases hop : op.key? = some j
    · show applyAll (op.apply m) ops j = applyAll (op.apply m') ops j
      exact applyAll_congr (op.apply_of_key?_eq hop)
    · obtain ⟨o, ho, e⟩ := h
      rcases List.mem_cons.mp ho with rfl | ho
      · exact absurd e hop
      · exact ih ⟨o, ho, e⟩ _ _

lemma writeBack_of_ne (change : Option ν) (h : j ≠ key) : writeBack change key m j = m j := by
  cases change with
  | none => rfl
  | some value => exact Function.update_of_ne h _ _

lemma writeBack_some_self (value : ν) : writeBack (some value) key m key = some value :=
  Function.update_self key _ m

/-- An update whose key is touched afterwards, or that is made of the value just before its write,
might as well be one step there. -/
lemma serializable_at_write
    (h : Touches key post ∨
      (applyAll m (pre ++ mid) key).bind f = (applyAll m pre key).bind f) :
    Serializable f key m pre mid post := by
  refine ⟨pre ++ mid, post, rfl, ?_⟩
  rcases h with htouch | hsame
  · funext j
    by_cases hj : j = key
    · subst hj
      exact applyAll_of_touches htouch _ _
    · refine applyAll_congr ?_
      rw [update, writeBack_of_ne _ hj, writeBack_of_ne _ hj]
  · rw [splitUpdate, update, hsame]

/-- Where some run with the update as one step leaves the same under the key, an update that is not
touched afterwards is made of the value just before its write. -/
lemma change_eq_of_agree {before after : List (Op κ ν)} (hf : ∀ v w, f v = some w → f w = some w)
    (hops : before ++ after = pre ++ mid ++ post)
    (heq : splitUpdate f key m pre mid post key =
      applyAll (update f key (applyAll m before)) after key) {w : ν}
    (hread : (applyAll m pre key).bind f = some w) (hpost : ¬ Touches key post) :
    (applyAll m (pre ++ mid) key).bind f = some w := by
  obtain ⟨v, -, hv⟩ := Option.bind_eq_some_iff.mp hread
  have hw : f w = some w := hf v w hv
  have hfinal : applyAll m (pre ++ mid) key = applyAll (applyAll m before) after key := by
    rw [← applyAll_append, hops, applyAll_append (pre ++ mid), applyAll_of_not_touches hpost]
  have hsplit : splitUpdate f key m pre mid post key = some w := by
    rw [splitUpdate, applyAll_of_not_touches hpost, hread, writeBack_some_self]
  rw [heq] at hsplit
  by_cases hafter : Touches key after
  · -- the update is lost, so the key must have held its outcome anyway
    rw [applyAll_of_touches hafter _ (applyAll m before), ← hfinal] at hsplit
    rw [hsplit]
    exact hw
  · rw [applyAll_of_not_touches hafter] at hsplit hfinal
    rw [hfinal]
    cases hserial : (applyAll m before key).bind f with
    | none =>
      rw [update, hserial] at hsplit
      rw [show applyAll m before key = some w from hsplit] at hserial
      exact absurd (hserial.symm.trans hw) (by simp)
    | some w' =>
      rw [update, hserial, writeBack_some_self] at hsplit
      exact hsplit

/-- **When the update might have been one step.** For a change that makes no further difference when
it is made again: when nothing is written, or the key is touched after the write, or the value just
before the write changes to the one that is written. -/
theorem serializable_iff (hf : ∀ v w, f v = some w → f w = some w) :
    Serializable f key m pre mid post ↔ ∀ w, (applyAll m pre key).bind f = some w →
      Touches key post ∨ (applyAll m (pre ++ mid) key).bind f = some w := by
  constructor
  · rintro ⟨before, after, hops, heq⟩ w hread
    by_cases hpost : Touches key post
    · exact Or.inl hpost
    · exact Or.inr (change_eq_of_agree hf hops (congrFun heq key) hread hpost)
  · intro h
    cases hread : (applyAll m pre key).bind f with
    | none =>
      refine ⟨pre, mid ++ post, (List.append_assoc _ _ _).symm, ?_⟩
      rw [splitUpdate, update, hread, applyAll_append, applyAll_append]
      rfl
    | some w => exact serializable_at_write ((h w hread).imp_right fun hsame => by rw [hsame, hread])

end

end LnNode.Lib.ReadModifyWrite
