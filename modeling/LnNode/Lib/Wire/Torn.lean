import LnNode.Lib.Wire

/-!
# Bytes that are cut off

What is left of bytes when their write is cut off is a part from the front that is not all of them. A
reader is stable if what it has read stays read whatever bytes follow; then it reads nothing from the
front part of what it reads to the end.

* `StableReader.error_of_torn`: a stable reader fails on what is cut off;
* `stable_readPrefixed`: the reader of a stream behind its length is stable, whatever its fields are, and
  so is `readRecord`, the reader of what the fields make;
* `decodeStream_torn`: without its length, a stream that ends with a required field fails too.
-/

namespace LnNode.Lib.Wire

/-! ### What is left of bytes -/

/-- A part from the front that is not all. -/
def IsTorn (torn whole : Bytes) : Prop := torn <+: whole ∧ torn ≠ whole

section IsTorn

variable {torn xs ys : Bytes}

lemma IsTorn.length_lt (h : IsTorn torn xs) : torn.length < xs.length :=
  lt_of_le_of_ne h.1.length_le fun heq => h.2 (h.1.eq_of_length heq)

lemma IsTorn.append_cases (h : IsTorn torn (xs ++ ys)) :
    IsTorn torn xs ∨ ∃ left, torn = xs ++ left ∧ IsTorn left ys := by
  obtain ⟨⟨more, hmore⟩, hne⟩ := h
  rcases List.append_eq_append_iff.mp hmore with ⟨gap, hxs, -⟩ | ⟨left, rfl, hys⟩
  · by_cases hgap : gap = []
    · refine Or.inr ⟨[], by simp [hxs, hgap], List.nil_prefix, ?_⟩
      rintro rfl
      exact hne (by simp [hxs, hgap])
    · exact Or.inl ⟨⟨gap, hxs.symm⟩, by simpa [hxs] using hgap⟩
  · refine Or.inr ⟨left, rfl, ⟨more, hys.symm⟩, ?_⟩
    rintro rfl
    exact hne rfl

end IsTorn

/-! ### Readers that look no further -/

/-- What is read stays read, whatever bytes follow. -/
def StableReader {α : Type} (read : Reader α) : Prop :=
  ∀ bs a rest more, read bs = .ok (a, rest) → read (bs ++ more) = .ok (a, rest ++ more)

section Stable

variable {α σ : Type} {read : Reader α} {torn whole : Bytes}

theorem StableReader.error_of_torn (h : StableReader read) {a : α} (hwhole : read whole = .ok (a, []))
    (htorn : IsTorn torn whole) : ∃ e, read torn = .error e := by
  obtain ⟨⟨more, rfl⟩, hne⟩ := htorn
  cases hread : read torn with
  | error e => exact ⟨e, rfl⟩
  | ok p =>
    have hmore := h torn p.1 p.2 more hread
    rw [hwhole] at hmore
    have hnil : p.2 ++ more = [] := (congrArg Prod.snd (Except.ok.inj hmore)).symm
    rw [(List.append_eq_nil_iff.mp hnil).2] at hne
    exact absurd (List.append_nil torn).symm hne

/-- A value is read to the end of its encoding, and nothing is read from a part of that. -/
structure DetectsTorn (encode : α → Bytes) (read : Reader α) (a : α) : Prop where
  whole : read (encode a) = .ok (a, [])
  torn : ∀ torn, IsTorn torn (encode a) → ∃ e, read torn = .error e

lemma DetectsTorn.map_fst {encode : α → Bytes} {a : α} (h : DetectsTorn encode read a)
    (htorn : IsTorn torn (encode a)) : ∃ e, (read torn).map Prod.fst = .error e := by
  obtain ⟨e, he⟩ := h.torn torn htorn
  exact ⟨e, by rw [he]; rfl⟩

lemma StableReader.detectsTorn (h : StableReader read) {encode : α → Bytes}
    (hread : ∀ a rest, read (encode a ++ rest) = .ok (a, rest)) (a : α) : DetectsTorn encode read a := by
  have hwhole : read (encode a) = .ok (a, []) := by
    have hnil := hread a []
    rwa [List.append_nil] at hnil
  exact ⟨hwhole, fun _ htorn => h.error_of_torn hwhole htorn⟩

lemma stable_takeBytes (k : ℕ) : StableReader (takeBytes k) := by
  intro bs v rest more h
  unfold takeBytes at h ⊢
  split_ifs at h with hlen
  cases h
  have hle : k ≤ bs.length := Nat.not_lt.mp hlen
  rw [if_neg (by simp; omega), List.take_append_of_le_length hle, List.drop_append_of_le_length hle]

lemma stable_readWide (k least : ℕ) : StableReader (readWide k least) := by
  intro bs n rest more h
  unfold readWide at h ⊢
  cases htake : takeBytes k bs with
  | error e =>
    rw [htake] at h
    cases h
  | ok p =>
    rw [htake] at h
    rw [stable_takeBytes k bs p.1 p.2 more htake]
    simp only at h ⊢
    split_ifs at h ⊢
    cases h
    rfl

lemma stable_readBigSize : StableReader readBigSize := by
  intro bs n rest more h
  cases bs with
  | nil => cases h
  | cons b bs =>
    rw [List.cons_append, readBigSize]
    rw [readBigSize] at h
    split_ifs at h ⊢
    · exact stable_readWide _ _ bs n rest more h
    · exact stable_readWide _ _ bs n rest more h
    · exact stable_readWide _ _ bs n rest more h
    · cases h
      rfl

/-- **The length prefix makes a reader stable**: the stream is given its own bytes only, and all of
them must be there. -/
theorem stable_readPrefixed (S : StreamSpec σ) (init : σ) : StableReader (readPrefixed S init) := by
  intro bs st rest more h
  unfold readPrefixed at h ⊢
  cases hsize : readBigSize bs with
  | error e =>
    rw [hsize] at h
    cases h
  | ok p =>
    rw [hsize] at h
    rw [stable_readBigSize bs p.1 p.2 more hsize]
    simp only at h ⊢
    cases hstream : decodeStream S (p.1 + 1) none init (p.2.take p.1) with
    | error e =>
      rw [hstream] at h
      cases h
    | ok st' =>
      rw [hstream] at h
      simp only at h
      split_ifs at h with hlen
      cases h
      have hle : p.1 ≤ p.2.length := Nat.not_lt.mp hlen
      rw [List.take_append_of_le_length hle, hstream, List.drop_append_of_le_length hle]
      simp only
      rw [if_neg (by simp; omega)]

/-- A record behind its length: the fields of its stream, and what they make. -/
def readRecord (S : StreamSpec σ) (init : σ) (finish : σ → Except DecodeError α) : Reader α := fun bs =>
  match readPrefixed S init bs with
  | .error e => .error e
  | .ok (st, rest) =>
    match finish st with
    | .error e => .error e
    | .ok a => .ok (a, rest)

lemma map_fst_readRecord (S : StreamSpec σ) (init : σ) (finish : σ → Except DecodeError α) (bs : Bytes) :
    (readRecord S init finish bs).map Prod.fst =
      match readPrefixed S init bs with
      | .error e => .error e
      | .ok p => finish p.1 := by
  rw [readRecord]
  cases readPrefixed S init bs with
  | error e => rfl
  | ok p => cases hfinish : finish p.1 <;> simp [hfinish, Except.map]

lemma readRecord_write {S : StreamSpec σ} {init st : σ} {finish : σ → Except DecodeError α}
    {bytes : Bytes} {a : α} (hlen : bytes.length < 2 ^ 64)
    (hstream : decodeStream S (bytes.length + 1) none init bytes = .ok st) (hfinish : finish st = .ok a)
    (rest : Bytes) : readRecord S init finish (writePrefixed bytes ++ rest) = .ok (a, rest) := by
  rw [readRecord, readPrefixed_write hlen hstream]
  simp only [hfinish]

lemma stable_readRecord (S : StreamSpec σ) (init : σ) (finish : σ → Except DecodeError α) :
    StableReader (readRecord S init finish) := by
  intro bs a rest more h
  unfold readRecord at h ⊢
  cases hfields : readPrefixed S init bs with
  | error e =>
    rw [hfields] at h
    cases h
  | ok p =>
    rw [hfields] at h
    rw [stable_readPrefixed S init bs p.1 p.2 more hfields]
    simp only at h ⊢
    cases hfinish : finish p.1 with
    | error e =>
      rw [hfinish] at h
      cases h
    | ok b =>
      rw [hfinish] at h
      cases h
      rfl

end Stable

/-! ### Streams that are cut off -/

/-- The bytes of records, each a type and a value. -/
def encodeStream (records : List (ℕ × Bytes)) : Bytes := records.flatMap fun r => record r.1 r.2

/-- Types and lengths that a size can hold. -/
def FitsSizes (r : ℕ × Bytes) : Prop := r.1 < 2 ^ 64 ∧ r.2.length < 2 ^ 64

section TornStream

variable {σ : Type} {S : StreamSpec σ} {last : Option ℕ} {st : σ} {fuel typ : ℕ} {value torn : Bytes}

lemma readBigSize_torn {n : ℕ} (hn : n < 2 ^ 64) (htorn : IsTorn torn (writeBigSize n)) :
    ∃ e, readBigSize torn = .error e := by
  refine stable_readBigSize.error_of_torn (a := n) ?_ htorn
  have hread := readBigSize_write hn []
  rwa [List.append_nil] at hread

/-- **A cut inside a record** is an error of its type, its length or its value. -/
lemma decodeStream_torn_record (hsize : FitsSizes (typ, value)) (htorn : IsTorn torn (record typ value))
    (hne : torn ≠ []) : ∃ e, decodeStream S fuel last st torn = .error e := by
  cases fuel with
  | zero => exact ⟨_, rfl⟩
  | succ fuel =>
    obtain ⟨b, bs, rfl⟩ := List.exists_cons_of_ne_nil hne
    rw [decodeStream]
    rcases htorn.append_cases with htyp | ⟨left, heq, hleft⟩
    · obtain ⟨e, he⟩ := readBigSize_torn hsize.1 htyp
      exact ⟨e, by simp only [he]⟩
    · rw [heq, readBigSize_write hsize.1]
      simp only
      by_cases horder : last.any (typ ≤ ·) = true
      · exact ⟨_, if_pos horder⟩
      by_cases hskips : skipsRequired S.required last (some typ) = true
      · exact ⟨_, (if_neg horder).trans (if_pos hskips)⟩
      rw [if_neg horder, if_neg hskips]
      rcases hleft.append_cases with hlen | ⟨rest, rfl, hvalue⟩
      · obtain ⟨e, he⟩ := readBigSize_torn hsize.2 hlen
        exact ⟨e, by simp only [he]⟩
      · rw [readBigSize_write hsize.2]
        simp only [hvalue.length_lt, if_true]
        cases S.decode typ with
        | none =>
          by_cases heven : typ % 2 = 0
          · exact ⟨_, if_pos heven⟩
          · exact ⟨_, if_neg heven⟩
        | some dec =>
          cases hdec : dec (rest.take value.length) st with
          | error e => exact ⟨e, by simp only [hdec]⟩
          | ok p => exact ⟨.shortRead, by simp only [hdec]⟩

lemma decodeStream_record_cases (S : StreamSpec σ) (last : Option ℕ) (st : σ) (fuel : ℕ)
    (hsize : FitsSizes (typ, value)) (rest : Bytes) :
    (∃ e, decodeStream S (fuel + 1) last st (record typ value ++ rest) = .error e) ∨
      ∃ st', decodeStream S (fuel + 1) last st (record typ value ++ rest) =
        decodeStream S fuel (some typ) st' rest := by
  obtain ⟨b, bs, hb⟩ := List.exists_cons_of_ne_nil
    (List.append_ne_nil_of_left_ne_nil (record_ne_nil typ value) rest)
  have hread : readBigSize (b :: bs) = .ok (typ, writeBigSize value.length ++ (value ++ rest)) := by
    rw [← hb, record, List.append_assoc, readBigSize_write hsize.1, List.append_assoc]
  have hlen : ¬ (value ++ rest).length < value.length := by simp
  rw [hb, decodeStream]
  simp only [hread, readBigSize_write hsize.2, List.take_left', List.drop_left', hlen, if_false]
  by_cases horder : last.any (typ ≤ ·) = true
  · exact Or.inl ⟨_, if_pos horder⟩
  by_cases hskips : skipsRequired S.required last (some typ) = true
  · exact Or.inl ⟨_, (if_neg horder).trans (if_pos hskips)⟩
  rw [if_neg horder, if_neg hskips]
  cases S.decode typ with
  | none =>
    by_cases heven : typ % 2 = 0
    · exact Or.inl ⟨_, if_pos heven⟩
    · exact Or.inr ⟨st, if_neg heven⟩
  | some dec =>
    cases hdec : dec value st with
    | error e => exact Or.inl ⟨e, by simp only [hdec]⟩
    | ok p =>
      simp only [hdec]
      by_cases hunread : p.2 ≠ []
      · exact Or.inl ⟨_, if_pos hunread⟩
      · exact Or.inr ⟨p.1, if_neg hunread⟩

lemma decodeStream_nil_error (hrequired : typ ∈ S.required) (hlast : last.all (· < typ)) :
    ∃ e, decodeStream S fuel last st [] = .error e := by
  cases fuel with
  | zero => exact ⟨_, rfl⟩
  | succ fuel =>
    have hskips : skipsRequired S.required last none = true :=
      List.any_eq_true.mpr ⟨typ, hrequired, by simpa using hlast⟩
    exact ⟨_, by rw [decodeStream, if_pos hskips]⟩

/-- **A stream that ends with a required field fails when it is cut off**, between two records too. -/
theorem decodeStream_torn {records : List (ℕ × Bytes)} (hrequired : typ ∈ S.required)
    (hbefore : ∀ r ∈ records, r.1 < typ) (hsizes : ∀ r ∈ records ++ [(typ, value)], FitsSizes r)
    (hlast : last.all (· < typ)) (htorn : IsTorn torn (encodeStream (records ++ [(typ, value)]))) :
    ∃ e, decodeStream S fuel last st torn = .error e := by
  induction records generalizing last st fuel torn with
  | nil =>
    rw [List.nil_append, encodeStream, List.flatMap_singleton] at htorn
    by_cases hnil : torn = []
    · rw [hnil]
      exact decodeStream_nil_error hrequired hlast
    · exact decodeStream_torn_record (hsizes _ (by simp)) htorn hnil
  | cons r records ih =>
    obtain ⟨hr, hrecords⟩ := List.forall_mem_cons.mp hbefore
    rw [List.cons_append] at hsizes htorn
    obtain ⟨hsize, hrest⟩ := List.forall_mem_cons.mp hsizes
    rw [encodeStream, List.flatMap_cons] at htorn
    rcases htorn.append_cases with hcut | ⟨left, rfl, hleft⟩
    · by_cases hnil : torn = []
      · rw [hnil]
        exact decodeStream_nil_error hrequired hlast
      · exact decodeStream_torn_record hsize hcut hnil
    · cases fuel with
      | zero => exact ⟨_, rfl⟩
      | succ fuel =>
        rcases decodeStream_record_cases S last st fuel hsize left with herror | ⟨st', hpass⟩
        · exact herror
        · rw [hpass]
          exact ih hrecords hrest (by simpa using hr) hleft

end TornStream

end LnNode.Lib.Wire
