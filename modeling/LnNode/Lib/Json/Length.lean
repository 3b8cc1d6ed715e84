import LnNode.Lib.Json.RoundTrip

/-!
# The length of JSON texts

Lower bounds, for containers from those of what they contain, and upper bounds for strings and in bytes.

* `sum_le_length_array`, `sum_le_length_ofFields`: the text of a container is as long as its parts;
* `length_le_size`, `size_le_length`: every character is a byte at least, and four at most.
-/

namespace LnNode.Lib.Json

variable {F : Type}

lemma sum_le_length_commaSep (texts : List (List Char)) :
    (texts.map List.length).sum ≤ (commaSep texts).length := by
  induction texts with
  | nil => exact Nat.zero_le _
  | cons text texts ih =>
    cases texts with
    | nil => simp [commaSep]
    | cons next texts =>
      rw [length_commaSep_cons, List.map_cons, List.sum_cons]
      omega

lemma length_le_printString (s : String) : s.length + 2 ≤ (printString s).length := by
  have hle := length_le_flatMap_escapeChar s.toList
  rw [String.length_toList] at hle
  rw [printString, List.length_cons, List.length_append, List.length_singleton]
  omega

lemma length_printString_le (s : String) : (printString s).length ≤ 6 * s.length + 2 := by
  have hchar : ∀ c, (escapeChar c).length ≤ 6 := by
    intro c
    rw [escapeChar]
    split_ifs <;> simp
  have hle : (s.toList.flatMap escapeChar).length ≤ 6 * s.toList.length := by
    rw [List.length_flatMap, Nat.mul_comm, ← smul_eq_mul, ← List.length_map fun c => (escapeChar c).length]
    refine List.sum_le_card_nsmul _ _ fun n hn => ?_
    obtain ⟨c, -, rfl⟩ := List.mem_map.mp hn
    exact hchar c
  rw [String.length_toList] at hle
  rw [printString, List.length_cons, List.length_append, List.length_singleton]
  omega

theorem sum_le_length_array (T : FloatText F) (vs : List (Value F)) :
    (vs.map fun v => (print T v).length).sum ≤ (print T (.array vs)).length := by
  have hsum := sum_le_length_commaSep (printElems T vs)
  rw [printElems_eq, List.map_map] at hsum
  rw [print, printElems_eq, List.length_cons, List.length_append]
  exact hsum.trans (by omega)

/-- The length of a field, as a bound from below. -/
def fieldLength (T : FloatText F) (f : String × Value F) : ℕ := f.1.length + 3 + (print T f.2).length

lemma sum_le_length_object (T : FloatText F) (fields : List (String × Value F)) :
    (fields.map (fieldLength T)).sum ≤ (print T (.object fields)).length := by
  have hfields : ∀ f ∈ fields,
      fieldLength T f ≤ (printString f.1 ++ ':' :: print T f.2).length := by
    intro f _
    have hle := length_le_printString f.1
    rw [fieldLength, List.length_append, List.length_cons]
    omega
  have hsum := sum_le_length_commaSep (printFields T fields)
  rw [printFields_eq, List.map_map] at hsum
  rw [print, printFields_eq, List.length_cons, List.length_append]
  have hle := List.sum_le_sum hfields
  exact (hle.trans hsum).trans (by omega)

lemma sum_insertField (w : String × Value F → ℕ) (k : String) (v : Value F)
    {fs : List (String × Value F)} (h : k ∉ fs.map Prod.fst) :
    ((insertField k v fs).map w).sum = w (k, v) + (fs.map w).sum := by
  induction fs with
  | nil => rfl
  | cons f fs ih =>
    rw [List.map_cons, List.mem_cons, not_or] at h
    rw [insertField]
    split_ifs with hlt heq
    · rfl
    · exact absurd heq h.1
    · rw [List.map_cons, List.sum_cons, ih h.2, List.map_cons, List.sum_cons]
      omega

lemma sum_foldl_insertField (w : String × Value F → ℕ) {sorted fs : List (String × Value F)}
    (hfs : (fs.map Prod.fst).Nodup) (hnew : ∀ f ∈ fs, f.1 ∉ sorted.map Prod.fst) :
    ((fs.foldl (fun sorted f => insertField f.1 f.2 sorted) sorted).map w).sum =
      (sorted.map w).sum + (fs.map w).sum := by
  induction fs generalizing sorted with
  | nil => rfl
  | cons f fs ih =>
    rw [List.map_cons, List.nodup_cons] at hfs
    have hrest : ∀ g ∈ fs, g.1 ∉ (insertField f.1 f.2 sorted).map Prod.fst := by
      intro g hg hmem
      obtain ⟨e, he, heq⟩ := List.mem_map.mp hmem
      rcases mem_insertField he with rfl | he
      · exact hfs.1 (List.mem_map.mpr ⟨g, hg, heq.symm⟩)
      · exact hnew g (List.mem_cons_of_mem _ hg) (List.mem_map.mpr ⟨e, he, heq⟩)
    rw [List.foldl_cons, ih hfs.2 hrest, sum_insertField w _ _ (hnew f List.mem_cons_self),
      List.map_cons, List.sum_cons, Prod.mk.eta]
    omega

theorem sum_le_length_ofFields (T : FloatText F) {fs : List (String × Value F)}
    (h : (fs.map Prod.fst).Nodup) :
    (fs.map (fieldLength T)).sum ≤ (print T (ofFields fs)).length := by
  have hnew : ∀ f ∈ fs, f.1 ∉ ([] : List (String × Value F)).map Prod.fst := by simp
  have hsum := sum_foldl_insertField (fieldLength T) h hnew
  rw [List.map_nil, List.sum_nil, Nat.zero_add] at hsum
  rw [ofFields, ← hsum]
  exact sum_le_length_object T _

theorem length_le_size (T : FloatText F) (v : Value F) : (print T v).length ≤ (toBytes T v).size := by
  rw [toBytes_eq]
  induction print T v with
  | nil => exact Nat.zero_le _
  | cons c cs ih =>
    have hsize : [c].utf8Encode.size = c.utf8Size := by
      rw [List.utf8Encode_singleton, List.size_toByteArray, String.length_utf8EncodeChar]
    have hpos := c.utf8Size_pos
    rw [List.utf8Encode_cons, ByteArray.size_append, hsize]
    exact (Nat.succ_le_succ ih).trans (by omega)

theorem size_le_length (T : FloatText F) (v : Value F) :
    (toBytes T v).size ≤ 4 * (print T v).length := by
  rw [toBytes_eq]
  induction print T v with
  | nil => exact Nat.le_refl 0
  | cons c cs ih =>
    have hsize : [c].utf8Encode.size = c.utf8Size := by
      rw [List.utf8Encode_singleton, List.size_toByteArray, String.length_utf8EncodeChar]
    have hle := c.utf8Size_le_four
    rw [List.utf8Encode_cons, ByteArray.size_append, hsize, List.length_cons]
    omega

end LnNode.Lib.Json
