import LnNode.Lib.Json.RoundTrip

/-!
# JSON texts that were cut off

What the parser reads of a text it also reads when more follows, unless it went to the end in the
middle of a number. So no proper prefix of an object's text is a text.

* `readValue_append`: an object is read when more follows;
* `parse_prefix`, `fromSlice_cut`: what was cut off is not read;
* `fromSlice_extract_iff`: of the bytes of a message, only all of them are read as that message.
-/

namespace LnNode.Lib.Json

variable {F : Type}

/-! ### What comes after is left alone -/

section Append

variable {T : FloatText F} {cs rest q : List Char}

lemma skipWs_append {c : Char} (h : skipWs cs = c :: rest) (q : List Char) :
    skipWs (cs ++ q) = c :: (rest ++ q) := by
  rw [skipWs, List.dropWhile_append]
  rw [skipWs] at h
  simp [h]

lemma readHex4_append {n : ℕ} (h : readHex4 cs = some (n, rest)) (q : List Char) :
    readHex4 (cs ++ q) = some (n, rest ++ q) := by
  rcases cs with _ | ⟨a, _ | ⟨b, _ | ⟨c, _ | ⟨d, cs⟩⟩⟩⟩
  · cases h
  · cases h
  · cases h
  · cases h
  · simp only [List.cons_append, readHex4, Option.bind_eq_bind, Option.bind_eq_some_iff,
      Option.some.injEq, Prod.mk.injEq] at h ⊢
    obtain ⟨w, hw, x, hx, y, hy, z, hz, hn, rfl⟩ := h
    exact ⟨w, hw, x, hx, y, hy, z, hz, hn, rfl⟩

lemma readTrail_append {n : ℕ} (h : readTrail cs = some (n, rest)) (q : List Char) :
    readTrail (cs ++ q) = some (n, rest ++ q) := by
  rcases cs with _ | ⟨b, _ | ⟨u, cs⟩⟩
  · cases h
  · cases h
  · rw [readTrail] at h
    split_ifs at h with hescape
    rw [List.cons_append, List.cons_append, readTrail, if_pos hescape]
    exact readHex4_append h q

lemma readUnicode_append {c : Char} (h : readUnicode cs = some (c, rest)) (q : List Char) :
    readUnicode (cs ++ q) = some (c, rest ++ q) := by
  simp only [readUnicode, Option.bind_eq_bind, Option.bind_eq_some_iff] at h
  obtain ⟨⟨unit, mid⟩, hunit, h⟩ := h
  rw [readUnicode, readHex4_append hunit]
  simp only [Option.bind_eq_bind, Option.bind_some]
  split_ifs at h ⊢ with hplain hlead
  · cases h
    rfl
  · obtain ⟨⟨trail, tail⟩, htrail, h⟩ := Option.bind_eq_some_iff.mp h
    rw [readTrail_append htrail, Option.bind_some]
    split_ifs at h ⊢ with hpair
    simp only [Option.some.injEq, Prod.mk.injEq] at h ⊢
    obtain ⟨hc, rfl⟩ := h
    exact ⟨hc, rfl⟩

lemma readEscape_append {c : Char} (h : readEscape cs = some (c, rest)) (q : List Char) :
    readEscape (cs ++ q) = some (c, rest ++ q) := by
  cases cs with
  | nil => cases h
  | cons e cs =>
    rw [List.cons_append, readEscape]
    rw [readEscape] at h
    split_ifs at h ⊢
    · exact readUnicode_append h q
    all_goals
      cases h
      rfl

lemma readChars_append {s : List Char} {n m : ℕ} (hnm : n ≤ m)
    (h : readChars n cs = some (s, rest)) (q : List Char) :
    readChars m (cs ++ q) = some (s, rest ++ q) := by
  induction n generalizing m cs s rest with
  | zero => cases h
  | succ n ih =>
    obtain ⟨m, rfl⟩ := Nat.exists_eq_succ_of_ne_zero (Nat.ne_of_gt (Nat.lt_of_lt_of_le n.succ_pos hnm))
    have hle := Nat.succ_le_succ_iff.mp hnm
    cases cs with
    | nil => cases h
    | cons c cs =>
      rw [List.cons_append, readChars]
      rw [readChars] at h
      split_ifs at h ⊢ with hquote hslash hcontrol
      · cases h
        rfl
      · obtain ⟨⟨e, mid⟩, hescape, h⟩ := Option.bind_eq_some_iff.mp h
        obtain ⟨⟨s', tail⟩, hchars, h⟩ := Option.bind_eq_some_iff.mp h
        cases h
        simp only [readEscape_append hescape, ih hle hchars, Option.bind_eq_bind, Option.bind_some]
      · obtain ⟨⟨s', tail⟩, hchars, h⟩ := Option.bind_eq_some_iff.mp h
        cases h
        simp only [ih hle hchars, Option.bind_eq_bind, Option.bind_some]

lemma readString_append {s : String} (h : readString cs = some (s, rest)) (q : List Char) :
    readString (cs ++ q) = some (s, rest ++ q) := by
  obtain ⟨⟨s', tail⟩, hchars, h⟩ := Option.map_eq_some_iff.mp h
  cases h
  rw [readString, readChars_append (by rw [List.length_append]; exact Nat.le_add_right _ _) hchars q,
    Option.map_some]

lemma readNumber_append {v : Value F} (h : readNumber T cs = some (v, rest)) (hrest : rest ≠ [])
    (q : List Char) : readNumber T (cs ++ q) = some (v, rest ++ q) := by
  have hdrop : cs.dropWhile isNumberChar = rest := by
    simp only [readNumber] at h
    split at h
    · exact (Prod.mk.inj (Option.some.inj h)).2
    · obtain ⟨x, -, h⟩ := Option.map_eq_some_iff.mp h
      exact (Prod.mk.inj h).2
  have hchars : ∀ c ∈ cs.takeWhile isNumberChar, isNumberChar c := fun c hc => List.mem_takeWhile_imp hc
  have hends : EndsNumber (rest ++ q) := by
    intro c hc
    rw [List.head?_append_of_ne_nil _ hrest, ← hdrop] at hc
    have hnot := List.head?_dropWhile_not isNumberChar cs
    rwa [hc] at hnot
  have hsplit : cs ++ q = cs.takeWhile isNumberChar ++ (rest ++ q) := by
    rw [← hdrop, ← List.append_assoc, List.takeWhile_append_dropWhile]
  rw [hsplit]
  simp only [readNumber, takeWhile_number hchars hends, dropWhile_number hchars hends]
  simp only [readNumber] at h
  split at h
  · rename_i n hint
    cases h
    rfl
  · rename_i hint
    obtain ⟨x, hx, h⟩ := Option.map_eq_some_iff.mp h
    cases h
    rw [hx, Option.map_some]

lemma readWord_append_right {word : List Char} {v w : Value F} (h : readWord word v cs = some (w, rest))
    (q : List Char) : readWord word v (cs ++ q) = some (w, rest ++ q) := by
  obtain ⟨tail, hword, h⟩ := Option.map_eq_some_iff.mp h
  cases h
  have happend := List.isPrefixOf?_eq_some_iff_append_eq.mp hword
  rw [readWord, ← happend, List.append_assoc, List.isPrefixOf?_eq_some_iff_append_eq.mpr rfl,
    Option.map_some]

/-- What a parser reads it reads when more follows, unless it went to the end. -/
def Extends {α : Type} (item : Parser α) : Prop :=
  ∀ cs a rest q, item cs = some (a, rest) → rest ≠ [] → item (cs ++ q) = some (a, rest ++ q)

lemma readItems_append {α : Type} {item : Parser α} {close : Char} (hitem : Extends item)
    {as : List α} {n m : ℕ} (hnm : n ≤ m) (h : readItems item close n cs = some (as, rest))
    (q : List Char) : readItems item close m (cs ++ q) = some (as, rest ++ q) := by
  induction n generalizing m cs as rest with
  | zero => cases h
  | succ n ih =>
    obtain ⟨m, rfl⟩ := Nat.exists_eq_succ_of_ne_zero (Nat.ne_of_gt (Nat.lt_of_lt_of_le n.succ_pos hnm))
    have hle := Nat.succ_le_succ_iff.mp hnm
    obtain ⟨⟨a, mid⟩, ha, h⟩ := Option.bind_eq_some_iff.mp h
    cases hws : skipWs mid with
    | nil =>
      simp only [hws] at h
      cases h
    | cons c tail =>
      -- the comma or the end that follows the item shows that it did not go to the end
      have hmid : mid ≠ [] := by
        rintro rfl
        cases hws
      simp only [hws] at h
      simp only [readItems, hitem _ _ _ q ha hmid, Option.bind_eq_bind, Option.bind_some,
        skipWs_append hws]
      split_ifs at h ⊢
      · obtain ⟨⟨as', end'⟩, has, h⟩ := Option.bind_eq_some_iff.mp h
        cases h
        rw [ih hle has, Option.bind_some]
      · cases h
        rfl

lemma readContainer_append {α : Type} {item : Parser α} {close : Char} (hitem : Extends item)
    {as : List α} (h : readContainer item close cs = some (as, rest)) (q : List Char) :
    readContainer item close (cs ++ q) = some (as, rest ++ q) := by
  cases hws : skipWs cs with
  | nil =>
    simp only [readContainer, hws] at h
    cases h
  | cons c tail =>
    simp only [readContainer, hws] at h
    simp only [readContainer, skipWs_append hws]
    split_ifs at h ⊢
    · cases h
      rfl
    · exact readItems_append hitem (by rw [List.length_append]; exact Nat.le_add_right _ _) h q

lemma Extends.readField {value : Parser (Value F)} (hvalue : Extends value) :
    Extends (readField value) := by
  intro cs f rest q h hrest
  cases hws : skipWs cs with
  | nil =>
    simp only [Json.readField, hws] at h
    cases h
  | cons quote tail =>
    simp only [Json.readField, hws] at h
    simp only [Json.readField, skipWs_append hws]
    split_ifs at h ⊢
    obtain ⟨⟨k, mid⟩, hk, h⟩ := Option.bind_eq_some_iff.mp h
    simp only [readString_append hk, Option.bind_eq_bind, Option.bind_some]
    cases hcolon : skipWs mid with
    | nil =>
      simp only [hcolon] at h
      cases h
    | cons colon tail' =>
      simp only [hcolon] at h
      simp only [skipWs_append hcolon]
      split_ifs at h ⊢
      obtain ⟨⟨v, end'⟩, hv, h⟩ := Option.map_eq_some_iff.mp h
      cases h
      rw [hvalue _ _ _ q hv hrest, Option.map_some]

lemma readValue_append_of {depth : ℕ} (hinner : ∀ d, depth = d + 1 → Extends (readValue T d))
    {v : Value F} (h : readValue T depth cs = some (v, rest))
    (hrest : rest ≠ [] ∨ ∃ fields, skipWs cs = '{' :: fields) (q : List Char) :
    readValue T depth (cs ++ q) = some (v, rest ++ q) := by
  cases hws : skipWs cs with
  | nil =>
    rw [readValue, hws] at h
    cases h
  | cons c tail =>
    rw [readValue, hws] at h
    rw [readValue, skipWs_append hws]
    simp only at h ⊢
    split_ifs at h ⊢ with hquote hbracket hbrace hnumber hnull htrue hfalse
    · obtain ⟨⟨s, tail'⟩, hs, h⟩ := Option.map_eq_some_iff.mp h
      cases h
      rw [readString_append hs, Option.map_some]
    · cases depth with
      | zero => cases h
      | succ depth =>
        obtain ⟨⟨vs, tail'⟩, hvs, h⟩ := Option.map_eq_some_iff.mp h
        cases h
        simp only [readContainer_append (hinner depth rfl) hvs, Option.map_some]
    · cases depth with
      | zero => cases h
      | succ depth =>
        obtain ⟨⟨fs, tail'⟩, hfs, h⟩ := Option.map_eq_some_iff.mp h
        cases h
        simp only [readContainer_append (hinner depth rfl).readField hfs, Option.map_some]
    · refine readNumber_append h (hrest.resolve_right ?_) q
      rintro ⟨fields, hfields⟩
      exact hbrace (List.cons.inj (hws.symm.trans hfields)).1
    · exact readWord_append_right h q
    · exact readWord_append_right h q
    · exact readWord_append_right h q

lemma extends_readValue (T : FloatText F) (depth : ℕ) : Extends (readValue T depth) := by
  induction depth with
  | zero => exact fun _ _ _ q h hrest => readValue_append_of (by simp) h (Or.inl hrest) q
  | succ depth ih =>
    intro cs v rest q h hrest
    refine readValue_append_of ?_ h (Or.inl hrest) q
    rintro d ⟨⟩
    exact ih

theorem readValue_append {depth : ℕ} {v : Value F} {fields : List Char}
    (h : readValue T depth cs = some (v, rest)) (hobject : skipWs cs = '{' :: fields) (q : List Char) :
    readValue T depth (cs ++ q) = some (v, rest ++ q) :=
  readValue_append_of (fun d _ => extends_readValue T d) h (Or.inr ⟨fields, hobject⟩) q

end Append

/-- **A text that was cut off** inside an object is not read. -/
theorem parse_prefix {T : FloatText F} {fields : List (String × Value F)} {cs q : List Char}
    (h : WellFormed T maxDepth (.object fields)) (htext : cs ++ q = print T (.object fields))
    (hq : q ≠ []) : parse T cs = none := by
  cases cs with
  | nil => rfl
  | cons c cs =>
    have hbrace : c = '{' := (List.cons.inj htext).1
    subst hbrace
    cases hread : readValue T maxDepth ('{' :: cs) with
    | none => simp only [parse, hread]
    | some r =>
      obtain ⟨v, rest⟩ := r
      have hlonger := readValue_append hread (skipWs_cons (by decide) cs) q
      have hwhole : readValue T maxDepth (print T (.object fields) ++ []) = some (.object fields, []) :=
        readValue_print h (by simp [EndsNumber])
      rw [List.append_nil, ← htext, hlonger] at hwhole
      have hrest := (Prod.mk.inj (Option.some.inj hwhole)).2
      exact absurd (List.append_eq_nil_iff.mp hrest).2 hq

/-- An object whose text is read back. -/
structure IsMessage (T : FloatText F) (v : Value F) : Prop where
  object : ∃ fields, v = .object fields
  wellFormed : WellFormed T maxDepth v

lemma isMessage_ofFields {T : FloatText F} {fs : List (String × Value F)}
    (h : ∀ f ∈ fs, WellFormed T 126 f.2) : IsMessage T (ofFields fs) :=
  ⟨⟨_, rfl⟩, wellFormed_ofFields h⟩

theorem fromSlice_cut {T : FloatText F} {v : Value F} (h : IsMessage T v) {n : ℕ}
    (hn : n < (toBytes T v).size) : fromSlice T ((toBytes T v).extract 0 n) = none := by
  obtain ⟨⟨fields, rfl⟩, hwf⟩ := h
  cases hdecode : ((toBytes T (.object fields)).extract 0 n).utf8Decode? with
  | none => rw [fromSlice, hdecode, Option.bind_none]
  | some cs =>
    have hsome : (((toBytes T (.object fields)).extract 0 n).utf8Decode?).isSome := by rw [hdecode]; rfl
    have hcs : cs.toList.utf8Encode = (toBytes T (.object fields)).extract 0 n := by
      have hget := ByteArray.utf8Encode_get_utf8Decode? (h := hsome)
      simpa only [hdecode, Option.get_some] using hget
    have hcut : cs.toList.utf8Encode ++
        (toBytes T (.object fields)).extract n (toBytes T (.object fields)).size =
          (print T (.object fields)).utf8Encode := by
      rw [hcs, ByteArray.extract_append_extract, Nat.zero_min, Nat.max_eq_right hn.le,
        ByteArray.extract_zero_size, toBytes_eq]
    obtain ⟨q, hq⟩ := List.isPrefix_of_utf8Encode_append_eq_utf8Encode _ hcut
    have hne : q ≠ [] := by
      rintro rfl
      rw [List.append_nil] at hq
      rw [hq, ← toBytes_eq] at hcs
      have hsize := congrArg ByteArray.size hcs
      rw [ByteArray.size_extract] at hsize
      omega
    rw [fromSlice, hdecode, Option.bind_some]
    exact parse_prefix hwf hq hne

/-- **Of the bytes of a message**, only all of them are read as that message. -/
theorem fromSlice_extract_iff {T : FloatText F} {v : Value F} (h : IsMessage T v) (n : ℕ) :
    fromSlice T ((toBytes T v).extract 0 n) = some v ↔ (toBytes T v).size ≤ n := by
  constructor
  · intro hread
    by_contra hlt
    rw [fromSlice_cut h (Nat.not_le.mp hlt)] at hread
    cases hread
  · intro hle
    rw [← Nat.max_eq_left hle, ByteArray.extract_zero_max_size]
    exact fromSlice_toBytes h.wellFormed

end LnNode.Lib.Json
