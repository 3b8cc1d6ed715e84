import LnNode.Lib.Json.RoundTrip

/-!
# Records read from JSON texts

A record with named fields is read from an object, in which every name is given at most once and other
names are skipped, or from an array, which gives the first of the fields in their order. What an unknown
name is given is skipped by a parser of its own, a parameter.

* `readStruct_object`, `readStruct_array`: what is read of a text that was written;
* `required_eq_some`, `optional_eq_some`: what a field is then taken from.
-/

namespace LnNode.Lib.Json

variable {F : Type}

/-! ### Fields -/

/-- The one value that a name is given; a name that is given two is an error. -/
def onlyValue (fields : List (String × Value F)) (name : String) : Option (Option (Value F)) :=
  match fields.filter fun f => f.1 = name with
  | [] => some none
  | [f] => some (some f.2)
  | _ => none

section Fields

variable {α : Type} (decode : Value F → Option α) (fields : List (String × Value F)) (name : String)

def required : Option α :=
  match onlyValue fields name with
  | some (some v) => decode v
  | _ => none

def optional (missing : α) : Option α :=
  match onlyValue fields name with
  | some (some v) => decode v
  | some none => some missing
  | none => none

end Fields

/-- The name is given this value and no other. -/
def Gives (fields : List (String × Value F)) (name : String) (v : Value F) : Prop :=
  (fields.filter fun f => f.1 = name) = [(name, v)]

def Lacks (fields : List (String × Value F)) (name : String) : Prop := ∀ f ∈ fields, f.1 ≠ name

section Fields

variable {α : Type} {decode : Value F → Option α} {fields : List (String × Value F)} {name : String}
  {v : Value F} {a missing : α}

lemma onlyValue_eq_value : onlyValue fields name = some (some v) ↔ Gives fields name v := by
  have hname : ∀ f ∈ fields.filter fun f => f.1 = name, f.1 = name := fun f hf => by
    simpa using (List.mem_filter.mp hf).2
  rw [onlyValue, Gives]
  cases hfilter : fields.filter fun f => f.1 = name with
  | nil => simp
  | cons f fs =>
    obtain rfl : f.1 = name := hname f (hfilter ▸ List.mem_cons_self)
    cases fs with
    | nil => simp [Prod.ext_iff]
    | cons g gs => simp

lemma onlyValue_eq_missing : onlyValue fields name = some none ↔ Lacks fields name := by
  have hlacks : (fields.filter fun f => f.1 = name) = [] ↔ Lacks fields name := by
    simp [Lacks, List.filter_eq_nil_iff]
  rw [onlyValue, ← hlacks]
  cases fields.filter fun f => f.1 = name with
  | nil => simp
  | cons f fs => cases fs <;> simp

theorem required_eq_some : required decode fields name = some a ↔
    ∃ v, Gives fields name v ∧ decode v = some a := by
  simp only [← onlyValue_eq_value]
  rw [required]
  rcases onlyValue fields name with _ | _ | v <;> simp

theorem optional_eq_some : optional decode fields name missing = some a ↔
    (∃ v, Gives fields name v ∧ decode v = some a) ∨ Lacks fields name ∧ missing = a := by
  simp only [← onlyValue_eq_value, ← onlyValue_eq_missing]
  rw [optional]
  rcases onlyValue fields name with _ | _ | v <;> simp

end Fields

/-! ### Reading a record -/

def readKey : Parser String := fun cs =>
  match skipWs cs with
  | [] => none
  | q :: cs =>
    if q = '"' then do
      let (k, cs) ← readString cs
      match skipWs cs with
      | [] => none
      | c :: cs => if c = ':' then some (k, cs) else none
    else none

/-- How deep the values of a record may be nested. -/
def structDepth : ℕ := 126

/-- A field; of one with an unknown name only the name is kept. -/
def readKnown (T : FloatText F) (skip : Parser Unit) (names : List String) :
    Parser (String × Value F) := fun cs => do
  let (k, cs) ← readKey cs
  if k ∈ names then (readValue T structDepth cs).map fun v => ((k, v.1), v.2)
  else (skip cs).map fun rest => ((k, .null), rest.2)

/-- The fields that a whole text gives. An array gives the names in their order. -/
def readStruct (T : FloatText F) (skip : Parser Unit) (names : List String) (cs : List Char) :
    Option (List (String × Value F)) :=
  match skipWs cs with
  | [] => none
  | c :: cs =>
    if c = '{' then do
      let (fields, rest) ← readContainer (readKnown T skip names) '}' cs
      if skipWs rest = [] then some fields else none
    else if c = '[' then do
      let (vs, rest) ← readContainer (readValue T structDepth) ']' cs
      if skipWs rest = [] ∧ vs.length ≤ names.length then some (names.zip vs) else none
    else none

/-- A value that was written is skipped to its end. -/
def Skips (T : FloatText F) (skip : Parser Unit) : Prop :=
  ∀ v rest, WellFormed T structDepth v → EndsNumber rest → skip (print T v ++ rest) = some ((), rest)

def keepKnown (names : List String) (f : String × Value F) : String × Value F :=
  if f.1 ∈ names then f else (f.1, .null)

section Reading

variable {T : FloatText F} {skip : Parser Unit} {names : List String} {name : String} {v : Value F}
  {fields : List (String × Value F)} {vs : List (Value F)}

@[simp] lemma keepKnown_fst (f : String × Value F) : (keepKnown names f).1 = f.1 := by
  rw [keepKnown]
  split_ifs <;> rfl

lemma filter_keepKnown (hname : name ∈ names) :
    ((fields.map (keepKnown names)).filter fun f => f.1 = name) = fields.filter fun f => f.1 = name := by
  induction fields with
  | nil => rfl
  | cons f fields ih =>
    rw [List.map_cons, List.filter_cons, List.filter_cons, keepKnown_fst, ih]
    split_ifs with h
    · obtain rfl : f.1 = name := by simpa using h
      rw [keepKnown, if_pos hname]
    · rfl

variable {α : Type} {decode : Value F → Option α}

lemma required_keepKnown (hname : name ∈ names) :
    required decode (fields.map (keepKnown names)) name = required decode fields name := by
  rw [required, required, onlyValue, onlyValue, filter_keepKnown hname]

lemma optional_keepKnown (hname : name ∈ names) (missing : α) :
    optional decode (fields.map (keepKnown names)) name missing =
      optional decode fields name missing := by
  rw [optional, optional, onlyValue, onlyValue, filter_keepKnown hname]

lemma readKey_print (k : String) (rest : List Char) :
    readKey (printString k ++ ':' :: rest) = some (k, rest) := by
  have hquote : isWs '"' = false := by decide
  have hcolon : isWs ':' = false := by decide
  have htext : printString k ++ ':' :: rest =
      '"' :: (k.toList.flatMap escapeChar ++ '"' :: (':' :: rest)) := by simp [printString]
  rw [htext, readKey, skipWs_cons hquote]
  simp only [if_true, readString_print, Option.bind_eq_bind, Option.bind_some, skipWs_cons hcolon]

lemma readKnown_print (hskip : Skips T skip) {f : String × Value F}
    (hf : WellFormed T structDepth f.2) :
    ReadsItem (readKnown T skip names) '}' (printString f.1 ++ ':' :: print T f.2)
      (keepKnown names f) := by
  intro rest hhead
  have hends := endsNumber_of_head (by decide) hhead
  rw [List.append_assoc, List.cons_append, readKnown, readKey_print, keepKnown]
  simp only [Option.bind_eq_bind, Option.bind_some]
  by_cases hk : f.1 ∈ names
  · rw [if_pos hk, if_pos hk, readValue_print hf hends, Option.map_some]
  · rw [if_neg hk, if_neg hk, hskip f.2 rest hf hends, Option.map_some]

/-- **What is read of an object**: every field of a known name, as often as it was written. -/
theorem readStruct_object (hskip : Skips T skip) (hfields : ∀ f ∈ fields, WellFormed T structDepth f.2) :
    readStruct T skip names (print T (.object fields)) = some (fields.map (keepKnown names)) := by
  have hitems : List.Forall₂ (ReadsItem (readKnown T skip names) '}') (printFields T fields)
      (fields.map (keepKnown names)) := by
    rw [printFields_eq, List.forall₂_map_left_iff, List.forall₂_map_right_iff, List.forall₂_same]
    exact fun f hf => readKnown_print hskip (hfields f hf)
  have hstart : ∀ text ∈ printFields T fields, ∃ c cs, text = c :: cs ∧ isWs c = false ∧ c ≠ '}' := by
    rw [printFields_eq]
    intro text htext
    obtain ⟨f, -, rfl⟩ := List.mem_map.mp htext
    exact ⟨'"', _, rfl, by decide, by decide⟩
  have hread : readContainer (readKnown T skip names) '}' (commaSep (printFields T fields) ++ ['}']) =
      some (fields.map (keepKnown names), []) := readContainer_commaSep hitems (by decide) hstart
  rw [print, readStruct, skipWs_cons (by decide)]
  simp only [if_true, hread, Option.bind_eq_bind, Option.bind_some]
  rfl

/-- **What is read of an array**: the first fields in their order, if there are no more. -/
theorem readStruct_array (hvs : ∀ v ∈ vs, WellFormed T structDepth v) :
    readStruct T skip names (print T (.array vs)) =
      if vs.length ≤ names.length then some (names.zip vs) else none := by
  have hitems : List.Forall₂ (ReadsItem (readValue T structDepth) ']') (printElems T vs) vs := by
    rw [printElems_eq, List.forall₂_map_left_iff, List.forall₂_same]
    exact fun v hv rest hhead => readValue_print (hvs v hv) (endsNumber_of_head (by decide) hhead)
  have hstart : ∀ text ∈ printElems T vs, ∃ c cs, text = c :: cs ∧ isWs c = false ∧ c ≠ ']' := by
    rw [printElems_eq]
    intro text htext
    obtain ⟨v, hv, rfl⟩ := List.mem_map.mp htext
    exact print_start (hvs v hv)
  have hread : readContainer (readValue T structDepth) ']' (commaSep (printElems T vs) ++ [']']) =
      some (vs, []) := readContainer_commaSep hitems (by decide) hstart
  rw [print, readStruct, skipWs_cons (by decide)]
  simp only [if_neg (by decide : ¬ '[' = '{'), if_true, hread, Option.bind_eq_bind, Option.bind_some]
  simp [skipWs]

end Reading

end LnNode.Lib.Json
