import Mathlib.Data.List.TakeWhile
import LnNode.Lib.Json

/-!
# JSON texts are read back

The parser reads what was printed of a value whose objects are sorted, whose floats are read back and
whose containers are not nested too deep.

* `readValue_print`: a value is read from the front of a text;
* `parse_print`, `fromSlice_toBytes`: the text and the bytes of a value are read back.
-/

namespace LnNode.Lib.Json

variable {F : Type}

/-! ### Strings are read back -/

lemma escapeChar_ne_nil (c : Char) : escapeChar c ≠ [] := by
  unfold escapeChar
  split_ifs <;> simp

lemma hexVal_digitChar {n : ℕ} (h : n < 16) : hexVal (Nat.digitChar n) = some n := by
  have hall : ∀ n : Fin 16, hexVal (Nat.digitChar n) = some n.val := by decide
  exact hall ⟨n, h⟩

lemma readEscape_control {c : Char} (h : c.toNat < 32) (cs : List Char) :
    readEscape ('u' :: '0' :: '0' :: Nat.digitChar (c.toNat / 16) :: Nat.digitChar (c.toNat % 16) :: cs) =
      some (c, cs) := by
  have hzero : hexVal '0' = some 0 := by decide
  have hsum : ((0 * 16 + 0) * 16 + c.toNat / 16) * 16 + c.toNat % 16 = c.toNat := by omega
  have hunit : c.toNat < 0xD800 := by omega
  simp only [readEscape, if_true, readUnicode, readHex4, hzero, hexVal_digitChar (n := c.toNat / 16)
    (by omega), hexVal_digitChar (n := c.toNat % 16) (by omega), Option.bind_eq_bind, Option.bind_some,
    hsum, hunit, true_or, Char.ofNat_toNat]

/-- **One character** of a string is read back. -/
lemma readChars_escapeChar (c : Char) (n : ℕ) (cs : List Char) :
    readChars (n + 1) (escapeChar c ++ cs) =
      (readChars n cs).map fun s => (c :: s.1, s.2) := by
  have hescaped : ∀ rest : List Char, readEscape rest = some (c, cs) →
      readChars (n + 1) ('\\' :: rest) = (readChars n cs).map fun s => (c :: s.1, s.2) := by
    intro rest h
    rw [readChars, if_neg (by decide), if_pos rfl, h, Option.map_eq_bind]
    rfl
  unfold escapeChar
  split_ifs with hquote hslash hline hreturn htab hback hfeed hcontrol
  · subst hquote
    exact hescaped _ rfl
  · subst hslash
    exact hescaped _ rfl
  · subst hline
    exact hescaped _ rfl
  · subst hreturn
    exact hescaped _ rfl
  · subst htab
    exact hescaped _ rfl
  · rw [← Char.ofNat_toNat c, hback] at hescaped ⊢
    exact hescaped _ rfl
  · rw [← Char.ofNat_toNat c, hfeed] at hescaped ⊢
    exact hescaped _ rfl
  · exact hescaped _ (readEscape_control hcontrol cs)
  · rw [List.singleton_append, readChars, if_neg hquote, if_neg hslash, if_neg hcontrol,
      Option.map_eq_bind]
    rfl

lemma readChars_print (s : List Char) {n : ℕ} (h : s.length < n) (rest : List Char) :
    readChars n (s.flatMap escapeChar ++ '"' :: rest) = some (s, rest) := by
  induction s generalizing n with
  | nil =>
    obtain ⟨n, rfl⟩ := Nat.exists_eq_succ_of_ne_zero (Nat.ne_of_gt h)
    simp [readChars]
  | cons c s ih =>
    obtain ⟨n, rfl⟩ := Nat.exists_eq_succ_of_ne_zero (Nat.ne_of_gt (Nat.zero_lt_of_lt h))
    have hlt : s.length < n := by
      rw [List.length_cons] at h
      omega
    rw [List.flatMap_cons, List.append_assoc, readChars_escapeChar, ih hlt, Option.map_some]

lemma length_le_flatMap_escapeChar (s : List Char) : s.length ≤ (s.flatMap escapeChar).length := by
  induction s with
  | nil => exact Nat.zero_le _
  | cons c s ih =>
    have hpos := List.length_pos_of_ne_nil (escapeChar_ne_nil c)
    rw [List.flatMap_cons, List.length_append, List.length_cons]
    omega

lemma readString_print (s : String) (rest : List Char) :
    readString (s.toList.flatMap escapeChar ++ '"' :: rest) = some (s, rest) := by
  have hle := length_le_flatMap_escapeChar s.toList
  rw [readString, readChars_print _ (by rw [List.length_append, List.length_cons]; omega)]
  simp only [Option.map_some, String.ofList_toList]

/-! ### Numbers are read back -/

lemma isDigit_of_mem_toDigits {n : ℕ} {c : Char} (h : c ∈ Nat.toDigits 10 n) : c.isDigit :=
  Nat.isDigit_of_mem_toDigits (by decide) (by decide) h

lemma digitChar_ne_zero {n : ℕ} (hpos : n ≠ 0) (h : n < 10) : Nat.digitChar n ≠ '0' := by
  have hall : ∀ n : Fin 10, n.val ≠ 0 → Nat.digitChar n ≠ '0' := by decide
  exact hall ⟨n, h⟩ hpos

lemma head_toDigits {n : ℕ} (hpos : n ≠ 0) : (Nat.toDigits 10 n).head? ≠ some '0' := by
  induction n using Nat.strongRecOn with
  | _ n ih =>
    rcases Nat.lt_or_ge n 10 with hlt | hge
    · rw [Nat.toDigits_of_lt_base hlt, List.head?_cons]
      exact fun h => digitChar_ne_zero hpos hlt (Option.some.inj h)
    · rw [Nat.toDigits_of_base_le (by decide) hge, List.head?_append_of_ne_nil _ Nat.toDigits_ne_nil]
      exact ih (n / 10) (by omega) (by omega)

lemma natOf_toDigits (n : ℕ) : natOf (Nat.toDigits 10 n) = some n := by
  have hhead : Nat.toDigits 10 n = ['0'] ∨ (Nat.toDigits 10 n).head? ≠ some '0' := by
    rcases Nat.eq_zero_or_pos n with rfl | hpos
    · exact Or.inl (Nat.toDigits_zero 10)
    · exact Or.inr (head_toDigits (Nat.ne_of_gt hpos))
  rw [natOf, if_pos ⟨Nat.toDigits_ne_nil, List.all_eq_true.mpr fun _ => isDigit_of_mem_toDigits, hhead⟩,
    Nat.ofDigitChars_ten_toDigits]

lemma intOf_of_head {cs : List Char} (h : cs.head? ≠ some '-') :
    intOf cs = (natOf cs).bind positiveInt := by
  cases cs with
  | nil => rfl
  | cons c cs =>
    rw [intOf]
    rintro digits ⟨⟩
    exact h rfl

lemma intOf_printInt (n : JsonInt) : intOf (printInt n) = some n := by
  have hlow := n.2.1
  have hhigh := n.2.2
  unfold printInt
  split_ifs with hneg
  · rw [intOf, natOf_toDigits, Option.bind_some, negativeInt, dif_pos (by constructor <;> omega)]
    refine congrArg some (Subtype.ext ?_)
    show -(n.val.natAbs : ℤ) = n.val
    omega
  · have hhead : (Nat.toDigits 10 n.val.natAbs).head? ≠ some '-' := by
      intro h
      have hdigit := isDigit_of_mem_toDigits (List.mem_of_mem_head? h)
      exact absurd hdigit (by decide)
    rw [intOf_of_head hhead, natOf_toDigits, Option.bind_some, positiveInt, dif_pos (by omega)]
    exact congrArg some (Subtype.ext (Int.natAbs_of_nonneg (Int.not_lt.mp hneg)))

lemma isNumberChar_of_mem_printInt {n : ℤ} {c : Char} (h : c ∈ printInt n) : isNumberChar c := by
  unfold printInt at h
  split_ifs at h
  · rcases List.mem_cons.mp h with rfl | h
    · decide
    · simp [isNumberChar, isDigit_of_mem_toDigits h]
  · simp [isNumberChar, isDigit_of_mem_toDigits h]

lemma printInt_ne_nil (n : ℤ) : printInt n ≠ [] := by
  unfold printInt
  split_ifs
  · exact List.cons_ne_nil _ _
  · exact Nat.toDigits_ne_nil

/-- The text of a float is one that is read as that float. -/
structure FloatText.ReadsBack (T : FloatText F) (x : F) : Prop where
  ne_nil : T.print x ≠ []
  chars : ∀ c ∈ T.print x, isNumberChar c
  notInt : intOf (T.print x) = none
  parse : T.parse (T.print x) = some x

/-- A number is not followed by what could be a part of it. -/
def EndsNumber (rest : List Char) : Prop := ∀ c ∈ rest.head?, isNumberChar c = false

section Numbers

variable {token rest : List Char}

lemma takeWhile_number (h : ∀ c ∈ token, isNumberChar c) (hrest : EndsNumber rest) :
    (token ++ rest).takeWhile isNumberChar = token := by
  rw [List.takeWhile_append_of_pos h]
  cases rest with
  | nil => rw [List.takeWhile_nil, List.append_nil]
  | cons c rest =>
    rw [List.takeWhile_cons_of_neg (by simp [hrest c rfl]), List.append_nil]

lemma dropWhile_number (h : ∀ c ∈ token, isNumberChar c) (hrest : EndsNumber rest) :
    (token ++ rest).dropWhile isNumberChar = rest := by
  rw [List.dropWhile_append_of_pos h]
  cases rest with
  | nil => rfl
  | cons c rest => exact List.dropWhile_cons_of_neg (by simp [hrest c rfl])

lemma readNumber_int (T : FloatText F) (n : JsonInt) (hrest : EndsNumber rest) :
    readNumber T (printInt n ++ rest) = some (.int n, rest) := by
  have hchars : ∀ c ∈ printInt n, isNumberChar c := fun c h => isNumberChar_of_mem_printInt h
  simp only [readNumber, takeWhile_number hchars hrest, dropWhile_number hchars hrest, intOf_printInt]

lemma readNumber_float {T : FloatText F} {x : F} (hx : T.ReadsBack x) (hrest : EndsNumber rest) :
    readNumber T (T.print x ++ rest) = some (.float x, rest) := by
  simp only [readNumber, takeWhile_number hx.chars hrest, dropWhile_number hx.chars hrest, hx.notInt,
    hx.parse, Option.map_some]

end Numbers

/-! ### Containers are read back -/

section Containers

variable {α : Type} {item : Parser α} {close : Char} {rest : List Char}

lemma skipWs_cons {c : Char} (h : isWs c = false) (cs : List Char) : skipWs (c :: cs) = c :: cs :=
  List.dropWhile_cons_of_neg (by simp [h])

/-- The item is what the parser reads of a text that a comma or the end follows. -/
def ReadsItem (item : Parser α) (close : Char) (text : List Char) (a : α) : Prop :=
  ∀ rest, rest.head? = some ',' ∨ rest.head? = some close → item (text ++ rest) = some (a, rest)

lemma readItems_commaSep {text : List Char} {a : α} {texts : List (List Char)} {as : List α} {n : ℕ}
    (hitem : ReadsItem item close text a) (hitems : List.Forall₂ (ReadsItem item close) texts as)
    (hclose : close ≠ ',' ∧ isWs close = false) (hn : texts.length < n) :
    readItems item close n (commaSep (text :: texts) ++ close :: rest) = some (a :: as, rest) := by
  induction hitems generalizing text a n with
  | nil =>
    obtain ⟨n, rfl⟩ := Nat.exists_eq_succ_of_ne_zero (Nat.ne_of_gt hn)
    rw [commaSep, readItems, hitem _ (Or.inr rfl)]
    simp [skipWs_cons hclose.2, hclose.1]
  | cons hnext _ ih =>
    obtain ⟨n, rfl⟩ := Nat.exists_eq_succ_of_ne_zero (Nat.ne_of_gt (Nat.zero_lt_of_lt hn))
    rw [commaSep, List.append_assoc, List.cons_append, readItems, hitem _ (Or.inl rfl)]
    · have hcomma : isWs ',' = false := by decide
      have hlt := Nat.succ_lt_succ_iff.mp hn
      simp only [Option.bind_eq_bind, Option.bind_some, skipWs_cons hcomma, if_true, ih hnext hlt]
    · exact List.cons_ne_nil _ _

lemma length_commaSep_cons (text next : List Char) (texts : List (List Char)) :
    (commaSep (text :: next :: texts)).length = text.length + ((commaSep (next :: texts)).length + 1) := by
  rw [commaSep, List.length_append, List.length_cons]
  exact List.cons_ne_nil _ _

lemma length_le_commaSep (texts : List (List Char)) : texts.length ≤ (commaSep texts).length + 1 := by
  induction texts with
  | nil => exact Nat.zero_le _
  | cons text texts ih =>
    cases texts with
    | nil => simp
    | cons next texts =>
      rw [length_commaSep_cons, List.length_cons]
      omega

/-- **A container** is read back, if its items are. -/
lemma readContainer_commaSep {texts : List (List Char)} {as : List α}
    (hitems : List.Forall₂ (ReadsItem item close) texts as)
    (hclose : close ≠ ',' ∧ isWs close = false)
    (hstart : ∀ text ∈ texts, ∃ c cs, text = c :: cs ∧ isWs c = false ∧ c ≠ close) :
    readContainer item close (commaSep texts ++ close :: rest) = some (as, rest) := by
  cases hitems with
  | nil =>
    simp only [commaSep, List.nil_append, readContainer, skipWs_cons hclose.2, if_true]
  | cons hitem hitems =>
    rename_i text a texts as
    obtain ⟨c, cs, rfl, hws, hne⟩ := hstart _ List.mem_cons_self
    have hhead : ∃ tail, commaSep ((c :: cs) :: texts) ++ close :: rest = c :: tail := by
      cases texts with
      | nil => exact ⟨_, rfl⟩
      | cons next texts => exact ⟨_, rfl⟩
    have hlength := length_le_commaSep ((c :: cs) :: texts)
    obtain ⟨tail, htail⟩ := hhead
    rw [readContainer, htail, skipWs_cons hws]
    simp only [if_neg hne]
    rw [← htail]
    refine readItems_commaSep hitem hitems hclose ?_
    rw [List.length_cons] at hlength
    rw [List.length_append, List.length_cons]
    omega

end Containers

/-! ### Values are read back -/

/-- Keys in increasing order, containers nested at most so deep, and floats that are read back. -/
def WellFormed (T : FloatText F) : ℕ → Value F → Prop
  | _, .float x => T.ReadsBack x
  | depth, .array vs =>
    match depth with
    | 0 => False
    | depth + 1 => ∀ v ∈ vs, WellFormed T depth v
  | depth, .object fields =>
    match depth with
    | 0 => False
    | depth + 1 => (fields.map Prod.fst).Pairwise (· < ·) ∧ ∀ f ∈ fields, WellFormed T depth f.2
  | _, _ => True

section WellFormed

variable {T : FloatText F} {depth : ℕ}

@[simp] lemma wellFormed_null : WellFormed T depth (.null : Value F) := by simp only [WellFormed]

@[simp] lemma wellFormed_bool (b : Bool) : WellFormed T depth (.bool b : Value F) := by
  simp only [WellFormed]

@[simp] lemma wellFormed_int (n : JsonInt) : WellFormed T depth (.int n : Value F) := by
  simp only [WellFormed]

@[simp] lemma wellFormed_ofU64 (n : UInt64) : WellFormed T depth (ofU64 n : Value F) := wellFormed_int _

@[simp] lemma wellFormed_string (s : String) : WellFormed T depth (.string s : Value F) := by
  simp only [WellFormed]

lemma wellFormed_float {x : F} (h : T.ReadsBack x) : WellFormed T depth (.float x) := by
  simpa only [WellFormed] using h

@[simp] lemma wellFormed_ofOption {α : Type} {f : α → Value F} (h : ∀ a, WellFormed T depth (f a))
    (a : Option α) : WellFormed T depth (ofOption f a) := by
  cases a with
  | none => exact wellFormed_null
  | some a => exact h a

lemma wellFormed_array {vs : List (Value F)} (h : ∀ v ∈ vs, WellFormed T depth v) :
    WellFormed T (depth + 1) (.array vs) := by
  simpa only [WellFormed] using h

lemma mem_insertField {k : String} {v : Value F} {fs : List (String × Value F)}
    {f : String × Value F} (h : f ∈ insertField k v fs) : f = (k, v) ∨ f ∈ fs := by
  induction fs with
  | nil => exact Or.inl (List.mem_singleton.mp h)
  | cons g fs ih =>
    rw [insertField] at h
    split_ifs at h
    · exact List.mem_cons.mp h
    · rcases List.mem_cons.mp h with h | h
      · exact Or.inl h
      · exact Or.inr (List.mem_cons_of_mem _ h)
    · rcases List.mem_cons.mp h with rfl | h
      · exact Or.inr List.mem_cons_self
      · exact (ih h).imp_right (List.mem_cons_of_mem _)

lemma sorted_insertField (k : String) (v : Value F) {fs : List (String × Value F)}
    (h : fs.Pairwise fun f g => f.1 < g.1) :
    (insertField k v fs).Pairwise fun f g => f.1 < g.1 := by
  induction fs with
  | nil => exact List.pairwise_singleton _ _
  | cons f fs ih =>
    obtain ⟨hhead, htail⟩ := List.pairwise_cons.mp h
    rw [insertField]
    split_ifs with hlt heq
    · refine List.pairwise_cons.mpr ⟨fun g hg => ?_, h⟩
      rcases List.mem_cons.mp hg with rfl | hg
      · exact hlt
      · exact hlt.trans (hhead g hg)
    · exact List.pairwise_cons.mpr ⟨fun g hg => heq ▸ hhead g hg, htail⟩
    · refine List.pairwise_cons.mpr ⟨fun g hg => ?_, ih htail⟩
      rcases mem_insertField hg with rfl | hg
      · exact lt_of_le_of_ne (not_lt.mp hlt) fun e => heq e.symm
      · exact hhead g hg

lemma wellFormed_ofFields {fs : List (String × Value F)} (h : ∀ f ∈ fs, WellFormed T depth f.2) :
    WellFormed T (depth + 1) (ofFields fs) := by
  have hkeeps : ∀ sorted : List (String × Value F), sorted.Pairwise (fun f g => f.1 < g.1) →
      (∀ f ∈ sorted, WellFormed T depth f.2) →
      WellFormed T (depth + 1)
        (.object (fs.foldl (fun sorted f => insertField f.1 f.2 sorted) sorted)) := by
    induction fs with
    | nil =>
      intro sorted hsorted hvalues
      simp only [WellFormed]
      exact ⟨List.pairwise_map.mpr hsorted, hvalues⟩
    | cons f fs ih =>
      intro sorted hsorted hvalues
      refine ih (fun g hg => h g (List.mem_cons_of_mem _ hg)) _ (sorted_insertField f.1 f.2 hsorted) ?_
      intro g hg
      rcases mem_insertField hg with rfl | hg
      · exact h f List.mem_cons_self
      · exact hvalues g hg
  exact hkeeps [] List.Pairwise.nil (by simp)

end WellFormed

lemma printElems_eq (T : FloatText F) (vs : List (Value F)) : printElems T vs = vs.map (print T) := by
  induction vs with
  | nil => rfl
  | cons v vs ih => rw [printElems, ih, List.map_cons]

lemma printFields_eq (T : FloatText F) (fields : List (String × Value F)) :
    printFields T fields = fields.map fun f => printString f.1 ++ ':' :: print T f.2 := by
  induction fields with
  | nil => rfl
  | cons f fields ih =>
    obtain ⟨k, v⟩ := f
    rw [printFields, ih, List.map_cons]

lemma insertField_last {k : String} {v : Value F} {sorted : List (String × Value F)}
    (h : ∀ f ∈ sorted, f.1 < k) : insertField k v sorted = sorted ++ [(k, v)] := by
  induction sorted with
  | nil => rfl
  | cons f fs ih =>
    have hlt := h f List.mem_cons_self
    rw [insertField, if_neg hlt.not_gt, if_neg hlt.ne', ih fun g hg => h g (List.mem_cons_of_mem _ hg),
      List.cons_append]

lemma foldl_insertField {sorted fields : List (String × Value F)}
    (h : ((sorted ++ fields).map Prod.fst).Pairwise (· < ·)) :
    fields.foldl (fun sorted f => insertField f.1 f.2 sorted) sorted = sorted ++ fields := by
  induction fields generalizing sorted with
  | nil => exact (List.append_nil sorted).symm
  | cons f fields ih =>
    have hlast : insertField f.1 f.2 sorted = sorted ++ [f] := by
      refine insertField_last fun g hg => ?_
      rw [List.map_append] at h
      exact (List.pairwise_append.mp h).2.2 _ (List.mem_map_of_mem hg) _ List.mem_cons_self
    rw [List.foldl_cons, hlast, ih, List.append_assoc, List.singleton_append]
    rwa [List.append_assoc, List.singleton_append]

lemma ofFields_of_sorted {fields : List (String × Value F)}
    (h : (fields.map Prod.fst).Pairwise (· < ·)) : ofFields fields = .object fields := by
  rw [ofFields, foldl_insertField h, List.nil_append]

lemma isWs_of_isNumberChar {c : Char} (h : isNumberChar c) : isWs c = false := by
  by_contra hws
  simp only [isWs, Bool.not_eq_false, Bool.or_eq_true, decide_eq_true_eq] at hws
  rcases hws with ((rfl | rfl) | rfl) | rfl <;> exact absurd h (by decide)

lemma print_start {T : FloatText F} {depth : ℕ} {v : Value F} (h : WellFormed T depth v) :
    ∃ c cs, print T v = c :: cs ∧ isWs c = false ∧ c ≠ ']' := by
  have hnumber : ∀ token : List Char, token ≠ [] → (∀ c ∈ token, isNumberChar c) →
      ∃ c cs, token = c :: cs ∧ isWs c = false ∧ c ≠ ']' := by
    intro token hne hchars
    obtain ⟨c, cs, rfl⟩ := List.exists_cons_of_ne_nil hne
    have hc := hchars c List.mem_cons_self
    refine ⟨c, cs, rfl, ?_, ?_⟩
    · exact isWs_of_isNumberChar hc
    · rintro rfl
      exact absurd hc (by decide)
  cases v with
  | null => exact ⟨_, _, rfl, by decide, by decide⟩
  | bool b => cases b <;> exact ⟨_, _, rfl, by decide, by decide⟩
  | int n => exact hnumber _ (printInt_ne_nil n) fun c hc => isNumberChar_of_mem_printInt hc
  | float x =>
    have hx : T.ReadsBack x := by simpa only [WellFormed] using h
    exact hnumber _ hx.ne_nil hx.chars
  | string s => exact ⟨_, _, rfl, by decide, by decide⟩
  | array vs => exact ⟨_, _, rfl, by decide, by decide⟩
  | object fields => exact ⟨_, _, rfl, by decide, by decide⟩

/-- What follows an item of a container does not belong to a number. -/
lemma endsNumber_of_head {close : Char} (hclose : isNumberChar close = false) {rest : List Char}
    (h : rest.head? = some ',' ∨ rest.head? = some close) : EndsNumber rest := by
  intro c hc
  rcases h with h | h
  · obtain rfl := Option.some.inj (h.symm.trans hc)
    decide
  · obtain rfl := Option.some.inj (h.symm.trans hc)
    exact hclose

lemma readWord_append (word rest : List Char) (v : Value F) :
    readWord word v (word ++ rest) = some (v, rest) := by
  rw [readWord, List.isPrefixOf?_eq_some_iff_append_eq.mpr rfl, Option.map_some]

lemma readValue_number (T : FloatText F) (depth : ℕ) {token rest : List Char} (hne : token ≠ [])
    (hchars : ∀ c ∈ token, isNumberChar c) :
    readValue T depth (token ++ rest) = readNumber T (token ++ rest) := by
  obtain ⟨c, cs, rfl⟩ := List.exists_cons_of_ne_nil hne
  have hc := hchars c List.mem_cons_self
  have hquote : c ≠ '"' := by
    rintro rfl
    exact absurd hc (by decide)
  have hbracket : c ≠ '[' := by
    rintro rfl
    exact absurd hc (by decide)
  have hbrace : c ≠ '{' := by
    rintro rfl
    exact absurd hc (by decide)
  rw [List.cons_append, readValue, skipWs_cons (isWs_of_isNumberChar hc)]
  simp only [if_neg hquote, if_neg hbracket, if_neg hbrace, if_pos hc]

lemma readValue_string (T : FloatText F) (depth : ℕ) (s : String) (rest : List Char) :
    readValue T depth (printString s ++ rest) = some (.string s, rest) := by
  have hquote : isWs '"' = false := by decide
  rw [printString, List.cons_append, List.append_assoc, List.singleton_append, readValue,
    skipWs_cons hquote]
  simp only [if_true, readString_print, Option.map_some]

lemma readField_print {T : FloatText F} {depth : ℕ} {f : String × Value F} {rest : List Char}
    (h : readValue T depth (print T f.2 ++ rest) = some (f.2, rest)) :
    readField (readValue T depth) (printString f.1 ++ ':' :: print T f.2 ++ rest) = some (f, rest) := by
  have hquote : isWs '"' = false := by decide
  have hcolon : isWs ':' = false := by decide
  have htext : printString f.1 ++ ':' :: print T f.2 ++ rest =
      '"' :: (f.1.toList.flatMap escapeChar ++ '"' :: (':' :: (print T f.2 ++ rest))) := by
    simp [printString]
  rw [htext, readField, skipWs_cons hquote]
  simp only [if_true, readString_print, Option.bind_eq_bind, Option.bind_some, skipWs_cons hcolon, h,
    Option.map_some]

lemma readValue_scalar {T : FloatText F} {depth : ℕ} {v : Value F} (h : WellFormed T depth v)
    (harray : ∀ vs, v ≠ .array vs) (hobject : ∀ fields, v ≠ .object fields) {rest : List Char}
    (hrest : EndsNumber rest) : readValue T depth (print T v ++ rest) = some (v, rest) := by
  cases v with
  | null =>
    have htext : print T (.null : Value F) ++ rest = 'n' :: ("ull".toList ++ rest) := rfl
    rw [htext, readValue, skipWs_cons (by decide)]
    simpa [isNumberChar] using readWord_append "ull".toList rest .null
  | bool b =>
    cases b with
    | true =>
      have htext : print T (.bool true : Value F) ++ rest = 't' :: ("rue".toList ++ rest) := rfl
      rw [htext, readValue, skipWs_cons (by decide)]
      simpa [isNumberChar] using readWord_append "rue".toList rest (.bool true)
    | false =>
      have htext : print T (.bool false : Value F) ++ rest = 'f' :: ("alse".toList ++ rest) := rfl
      rw [htext, readValue, skipWs_cons (by decide)]
      simpa [isNumberChar] using readWord_append "alse".toList rest (.bool false)
  | int n =>
    rw [print, readValue_number T depth (printInt_ne_nil n) fun c hc => isNumberChar_of_mem_printInt hc]
    exact readNumber_int T n hrest
  | float x =>
    have hx : T.ReadsBack x := by simpa only [WellFormed] using h
    rw [print, readValue_number T depth hx.ne_nil hx.chars]
    exact readNumber_float hx hrest
  | string s => exact readValue_string T depth s rest
  | array vs => exact absurd rfl (harray vs)
  | object fields => exact absurd rfl (hobject fields)

/-- **A value** is read back. -/
theorem readValue_print {T : FloatText F} {depth : ℕ} {v : Value F} (h : WellFormed T depth v)
    {rest : List Char} (hrest : EndsNumber rest) :
    readValue T depth (print T v ++ rest) = some (v, rest) := by
  induction depth generalizing v rest with
  | zero =>
    refine readValue_scalar h ?_ ?_ hrest
    · rintro vs rfl
      simp only [WellFormed] at h
    · rintro fields rfl
      simp only [WellFormed] at h
  | succ depth ih =>
    cases v with
    | array vs =>
      have hvs : ∀ v ∈ vs, WellFormed T depth v := by simpa only [WellFormed] using h
      have hitems : List.Forall₂ (ReadsItem (readValue T depth) ']') (printElems T vs) vs := by
        rw [printElems_eq, List.forall₂_map_left_iff, List.forall₂_same]
        exact fun v hv rest hhead => ih (hvs v hv) (endsNumber_of_head (by decide) hhead)
      have hstart : ∀ text ∈ printElems T vs, ∃ c cs, text = c :: cs ∧ isWs c = false ∧ c ≠ ']' := by
        rw [printElems_eq]
        intro text htext
        obtain ⟨v, hv, rfl⟩ := List.mem_map.mp htext
        exact print_start (hvs v hv)
      rw [print, List.cons_append, List.append_assoc, List.singleton_append, readValue,
        skipWs_cons (by decide)]
      simp only [readContainer_commaSep hitems (by decide) hstart]
      rfl
    | object fields =>
      obtain ⟨hsorted, hfields⟩ : (fields.map Prod.fst).Pairwise (· < ·) ∧
          ∀ f ∈ fields, WellFormed T depth f.2 := by simpa only [WellFormed] using h
      have hitems : List.Forall₂ (ReadsItem (readField (readValue T depth)) '}')
          (printFields T fields) fields := by
        rw [printFields_eq, List.forall₂_map_left_iff, List.forall₂_same]
        intro f hf rest hhead
        exact readField_print (ih (hfields f hf) (endsNumber_of_head (by decide) hhead))
      have hstart : ∀ text ∈ printFields T fields,
          ∃ c cs, text = c :: cs ∧ isWs c = false ∧ c ≠ '}' := by
        rw [printFields_eq]
        intro text htext
        obtain ⟨f, -, rfl⟩ := List.mem_map.mp htext
        exact ⟨'"', _, rfl, by decide, by decide⟩
      rw [print, List.cons_append, List.append_assoc, List.singleton_append, readValue,
        skipWs_cons (by decide)]
      simp only [readContainer_commaSep hitems (by decide) hstart, ofFields_of_sorted hsorted,
        Option.map_some]
      rfl
    | _ => exact readValue_scalar h (by simp) (by simp) hrest

theorem parse_print {T : FloatText F} {v : Value F} (h : WellFormed T maxDepth v) :
    parse T (print T v) = some v := by
  have hread : readValue T maxDepth (print T v ++ []) = some (v, []) :=
    readValue_print h (by simp [EndsNumber])
  rw [List.append_nil] at hread
  simp only [parse, hread]
  rfl

theorem fromSlice_toBytes {T : FloatText F} {v : Value F} (h : WellFormed T maxDepth v) :
    fromSlice T (toBytes T v) = some v := by
  rw [fromSlice, toBytes_eq, List.utf8Decode?_utf8Encode, Option.bind_some, List.toList_toArray,
    parse_print h]

end LnNode.Lib.Json
