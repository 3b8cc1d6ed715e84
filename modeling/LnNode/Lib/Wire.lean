import Mathlib.Tactic

/-!
# Byte codecs: fixed-width numbers, variable-length sizes, tagged records

A `Codec` is a writer and a reader that undoes it, whatever bytes follow. The codecs built here are
big-endian numbers, byte arrays of fixed length, options with a length prefix, and records written
as a length-prefixed stream of (type, length, value) triples with increasing types.

* `readBigSize_write`: a size that was written is read back, and only in its shortest form;
* `decodeStream_record`: one pass of the stream loop over a record that was written;
* `readPrefixed_write`: the length prefix hands the stream exactly its own bytes.
-/

namespace LnNode.Lib.Wire

abbrev Bytes := List UInt8

/-- Why a reader gave up. -/
inductive DecodeError where
  | shortRead
  | invalidValue
  | unknownRequiredFeature
  | unknownVersion
  deriving DecidableEq, Repr

/-- A reader: the value at the front of the bytes, and the bytes after it. -/
abbrev Reader (α : Type) := Bytes → Except DecodeError (α × Bytes)

/-! ### Big-endian numbers -/

def bytesBE : ℕ → ℕ → Bytes
  | 0, _ => []
  | k + 1, n => bytesBE k (n / 256) ++ [UInt8.ofNat (n % 256)]

def numBE (bs : Bytes) : ℕ := bs.foldl (fun acc b => acc * 256 + b.toNat) 0

@[simp] lemma bytesBE_length (k n : ℕ) : (bytesBE k n).length = k := by
  induction k generalizing n with
  | zero => rfl
  | succ k ih => simp [bytesBE, ih]

lemma numBE_snoc (bs : Bytes) (b : UInt8) : numBE (bs ++ [b]) = numBE bs * 256 + b.toNat := by
  simp [numBE]

lemma numBE_bytesBE (k n : ℕ) : numBE (bytesBE k n) = n % 256 ^ k := by
  induction k generalizing n with
  | zero => simp [bytesBE, numBE, Nat.mod_one]
  | succ k ih =>
    have hb : (UInt8.ofNat (n % 256)).toNat = n % 256 := by
      rw [UInt8.toNat_ofNat']; omega
    rw [bytesBE, numBE_snoc, ih, hb, pow_succ, mul_comm (256 ^ k), Nat.mod_mul]
    ring

/-! ### Taking a fixed number of bytes -/

/-- The first `k` bytes and the rest; `shortRead` when there are fewer. -/
def takeBytes (k : ℕ) : Reader Bytes := fun bs =>
  if bs.length < k then .error .shortRead else .ok (bs.take k, bs.drop k)

lemma takeBytes_append {k : ℕ} {xs : Bytes} (h : xs.length = k) (rest : Bytes) :
    takeBytes k (xs ++ rest) = .ok (xs, rest) := by
  subst h
  unfold takeBytes
  rw [if_neg (by simp), List.take_left, List.drop_left]

/-! ### Sizes of variable length -/

/-- A size below `2 ^ 64` in one, three, five or nine bytes. -/
def writeBigSize (n : ℕ) : Bytes :=
  if n < 0xFD then [UInt8.ofNat n]
  else if n < 0x10000 then 0xFD :: bytesBE 2 n
  else if n < 0x100000000 then 0xFE :: bytesBE 4 n
  else 0xFF :: bytesBE 8 n

/-- A size whose prefix promises `k` bytes; a value that has a shorter form is invalid. -/
def readWide (k least : ℕ) : Reader ℕ := fun bs =>
  match takeBytes k bs with
  | .error e => .error e
  | .ok (v, rest) => if numBE v < least then .error .invalidValue else .ok (numBE v, rest)

/-- The size at the front of the bytes, in its shortest form only. -/
def readBigSize : Reader ℕ
  | [] => .error .shortRead
  | b :: bs =>
    if b = 0xFF then readWide 8 0x100000000 bs
    else if b = 0xFE then readWide 4 0x10000 bs
    else if b = 0xFD then readWide 2 0xFD bs
    else .ok (b.toNat, bs)

lemma readWide_bytesBE {k least n : ℕ} (hn : n < 256 ^ k) (hl : least ≤ n) (rest : Bytes) :
    readWide k least (bytesBE k n ++ rest) = .ok (n, rest) := by
  have hv : numBE (bytesBE k n) = n := by rw [numBE_bytesBE, Nat.mod_eq_of_lt hn]
  unfold readWide
  rw [takeBytes_append (bytesBE_length k n)]
  simp only [hv]
  rw [if_neg (by omega)]

lemma readBigSize_two (bs : Bytes) : readBigSize (0xFD :: bs) = readWide 2 0xFD bs := by
  simp [readBigSize]

lemma readBigSize_four (bs : Bytes) : readBigSize (0xFE :: bs) = readWide 4 0x10000 bs := by
  simp [readBigSize]

lemma readBigSize_eight (bs : Bytes) : readBigSize (0xFF :: bs) = readWide 8 0x100000000 bs := by
  simp [readBigSize]

theorem readBigSize_write {n : ℕ} (hn : n < 2 ^ 64) (rest : Bytes) :
    readBigSize (writeBigSize n ++ rest) = .ok (n, rest) := by
  unfold writeBigSize
  split
  · rename_i h
    have hb : (UInt8.ofNat n).toNat = n := by rw [UInt8.toNat_ofNat']; omega
    have hne : ∀ c : UInt8, 0xFD ≤ c.toNat → UInt8.ofNat n ≠ c := by
      rintro c hc rfl
      omega
    simp only [List.cons_append, List.nil_append, readBigSize]
    rw [if_neg (hne _ (by decide)), if_neg (hne _ (by decide)), if_neg (hne _ (by decide)), hb]
  · split
    · rw [List.cons_append, readBigSize_two]
      exact readWide_bytesBE (k := 2) (by omega) (by omega) rest
    · split
      · rw [List.cons_append, readBigSize_four]
        exact readWide_bytesBE (k := 4) (by omega) (by omega) rest
      · rw [List.cons_append, readBigSize_eight]
        exact readWide_bytesBE (k := 8) (by omega) (by omega) rest

lemma writeBigSize_ne_nil (n : ℕ) : writeBigSize n ≠ [] := by
  unfold writeBigSize
  split_ifs <;> simp

lemma writeBigSize_length_le (n : ℕ) : (writeBigSize n).length ≤ 9 := by
  unfold writeBigSize
  split_ifs <;> simp

/-! ### Codecs -/

/-- A writer and a reader that undoes it, whatever bytes follow. -/
structure Codec (α : Type) where
  write : α → Bytes
  read : Reader α
  read_write : ∀ a rest, read (write a ++ rest) = .ok (a, rest)

namespace Codec

variable {α β : Type}

def bytes (k : ℕ) : Codec { bs : Bytes // bs.length = k } where
  write b := b.1
  read bs := if h : k ≤ bs.length then .ok (⟨bs.take k, by simp [h]⟩, bs.drop k)
    else .error .shortRead
  read_write := by
    rintro ⟨b, rfl⟩ rest
    simp

def u64 : Codec UInt64 where
  write n := bytesBE 8 n.toNat
  read bs :=
    match takeBytes 8 bs with
    | .error e => .error e
    | .ok (v, rest) => .ok (UInt64.ofNat (numBE v), rest)
  read_write := by
    intro n rest
    have hv : numBE (bytesBE 8 n.toNat) = n.toNat := by
      have := n.toNat_lt
      rw [numBE_bytesBE, Nat.mod_eq_of_lt (by omega)]
    simp only [takeBytes_append (bytesBE_length 8 n.toNat), hv, UInt64.ofNat_toNat]

def u8 : Codec UInt8 where
  write b := [b]
  read
    | [] => .error .shortRead
    | b :: bs => .ok (b, bs)
  read_write _ _ := rfl

def u16 : Codec UInt16 where
  write n := bytesBE 2 n.toNat
  read bs :=
    match takeBytes 2 bs with
    | .error e => .error e
    | .ok (v, rest) => .ok (UInt16.ofNat (numBE v), rest)
  read_write := by
    intro n rest
    have hv : numBE (bytesBE 2 n.toNat) = n.toNat := by
      have := n.toNat_lt
      rw [numBE_bytesBE, Nat.mod_eq_of_lt (by omega)]
    simp only [takeBytes_append (bytesBE_length 2 n.toNat), hv, UInt16.ofNat_toNat]

def pair (c : Codec α) (d : Codec β) : Codec (α × β) where
  write p := c.write p.1 ++ d.write p.2
  read bs :=
    match c.read bs with
    | .error e => .error e
    | .ok (a, bs') =>
      match d.read bs' with
      | .error e => .error e
      | .ok (b, rest) => .ok ((a, b), rest)
  read_write := by
    rintro ⟨a, b⟩ rest
    simp only [List.append_assoc, c.read_write, d.read_write]

/-- The codec of a type that wraps another. -/
def wrap (c : Codec α) (into : α → β) (out : β → α) (h : ∀ b, into (out b) = b) : Codec β where
  write b := c.write (out b)
  read bs :=
    match c.read bs with
    | .error e => .error e
    | .ok (a, rest) => .ok (into a, rest)
  read_write := by
    intro b rest
    simp only [c.read_write, h]

/-- The reader of an option: a zero size is `none`, and a size `n + 1` gives the value `n` bytes. -/
def readOption (read : Reader α) : Reader (Option α) := fun bs =>
  match readBigSize bs with
  | .error e => .error e
  | .ok (0, rest) => .ok (none, rest)
  | .ok (n + 1, rest) =>
    match read (rest.take n) with
    | .error e => .error e
    | .ok (a, unread) => .ok (some a, unread ++ rest.drop n)

/-- An option of a value whose encoding is shorter than `2 ^ 64 - 1` bytes. -/
def option (c : Codec α) (hlen : ∀ a, (c.write a).length + 1 < 2 ^ 64) : Codec (Option α) where
  write
    | none => writeBigSize 0
    | some a => writeBigSize ((c.write a).length + 1) ++ c.write a
  read := readOption c.read
  read_write := by
    intro a rest
    cases a with
    | none =>
      unfold readOption
      rw [readBigSize_write (by omega)]
    | some a =>
      have hr := c.read_write a []
      rw [List.append_nil] at hr
      unfold readOption
      simp only [List.append_assoc]
      rw [readBigSize_write (hlen a)]
      simp only [List.take_left', List.drop_left', hr, List.nil_append]

end Codec

/-! ### Records: streams of (type, length, value) -/

def record (typ : ℕ) (value : Bytes) : Bytes :=
  writeBigSize typ ++ (writeBigSize value.length ++ value)

/-- What a stream of records fills in: the types that must be present, and for each type the
reader of its value, which also stores it. -/
structure StreamSpec (σ : Type) where
  required : List ℕ
  decode : ℕ → Option (Bytes → σ → Except DecodeError (σ × Bytes))

/-- The reader of one value and the setter of its field. -/
def field {α σ : Type} (c : Codec α) (set : α → σ → σ) : Bytes → σ → Except DecodeError (σ × Bytes) :=
  fun bs st =>
    match c.read bs with
    | .error e => .error e
    | .ok (a, rest) => .ok (set a st, rest)

/-- A required type lies strictly between the last type seen and this one, or after it when there
is no next one. -/
def skipsRequired (required : List ℕ) (last next : Option ℕ) : Bool :=
  required.any fun r => (last.all (· < r)) && next.all (r < ·)

/-- The loop over the records of a stream. Types increase strictly, a required type is never passed
over, an unknown even type is an error and an unknown odd one is skipped; a stream may end only
between two records. -/
def decodeStream {σ : Type} (S : StreamSpec σ) : ℕ → Option ℕ → σ → Bytes → Except DecodeError σ
  | 0, _, _, _ => .error .shortRead
  | _ + 1, last, st, [] => if skipsRequired S.required last none then .error .invalidValue else .ok st
  | fuel + 1, last, st, b :: bs =>
    match readBigSize (b :: bs) with
    | .error e => .error e
    | .ok (typ, rest) =>
      if last.any (typ ≤ ·) then .error .invalidValue
      else if skipsRequired S.required last (some typ) then .error .invalidValue
      else
        match readBigSize rest with
        | .error e => .error e
        | .ok (len, rest) =>
          match S.decode typ with
          | some dec =>
            match dec (rest.take len) st with
            | .error e => .error e
            | .ok (st', unread) =>
              if rest.length < len then .error .shortRead
              else if unread ≠ [] then .error .invalidValue
              else decodeStream S fuel (some typ) st' (rest.drop len)
          | none =>
            if typ % 2 = 0 then .error .unknownRequiredFeature
            else if rest.length < len then .error .shortRead
            else decodeStream S fuel (some typ) st (rest.drop len)

/-- A length prefix before a stream of records. -/
def writePrefixed (stream : Bytes) : Bytes := writeBigSize stream.length ++ stream

/-- The stream behind a length prefix; all of its bytes must be there. Every pass of the loop takes
two bytes at least, so the length is fuel enough. -/
def readPrefixed {σ : Type} (S : StreamSpec σ) (init : σ) : Reader σ := fun bs =>
  match readBigSize bs with
  | .error e => .error e
  | .ok (len, rest) =>
    match decodeStream S (len + 1) none init (rest.take len) with
    | .error e => .error e
    | .ok st => if rest.length < len then .error .shortRead else .ok (st, rest.drop len)

section Stream

variable {α σ : Type} {S : StreamSpec σ} {last : Option ℕ} {st : σ}

lemma record_ne_nil (typ : ℕ) (value : Bytes) : record typ value ≠ [] := by
  simp [record, writeBigSize_ne_nil]

/-- **One pass of the loop** over a record that was written, of a type in order. -/
theorem decodeStream_record {c : Codec α} {set : α → σ → σ} {typ fuel : ℕ} (a : α) (rest : Bytes)
    (hdec : S.decode typ = some (field c set)) (htyp : typ < 2 ^ 64)
    (hlen : (c.write a).length < 2 ^ 64) (hlast : last.any (typ ≤ ·) = false)
    (hskip : skipsRequired S.required last (some typ) = false) :
    decodeStream S (fuel + 1) last st (record typ (c.write a) ++ rest) =
      decodeStream S fuel (some typ) (set a st) rest := by
  obtain ⟨b, bs, hb⟩ := List.exists_cons_of_ne_nil
    (List.append_ne_nil_of_left_ne_nil (record_ne_nil typ (c.write a)) rest)
  have hread : field c set (c.write a) st = .ok (set a st, []) := by
    have := c.read_write a []
    rw [List.append_nil] at this
    simp [field, this]
  have hsize : readBigSize (b :: bs) =
      .ok (typ, writeBigSize (c.write a).length ++ (c.write a ++ rest)) := by
    rw [← hb, record, List.append_assoc, readBigSize_write htyp, List.append_assoc]
  rw [hb, decodeStream]
  simp only [hsize, hlast, hskip, hdec, readBigSize_write hlen, List.take_left', List.drop_left',
    hread]
  simp

lemma decodeStream_nil {fuel : ℕ} (h : skipsRequired S.required last none = false) :
    decodeStream S (fuel + 1) last st [] = .ok st := by
  simp [decodeStream, h]

/-- **The length prefix hands the stream exactly its own bytes.** -/
theorem readPrefixed_write {init : σ} {stream : Bytes} (hlen : stream.length < 2 ^ 64)
    (h : decodeStream S (stream.length + 1) none init stream = .ok st) (rest : Bytes) :
    readPrefixed S init (writePrefixed stream ++ rest) = .ok (st, rest) := by
  unfold readPrefixed writePrefixed
  rw [List.append_assoc, readBigSize_write hlen]
  simp only [List.take_left', List.drop_left', h]
  simp

end Stream

/-! ### Enumerations -/

/-- The stream of a variant without fields: nothing is known and nothing required. -/
def noFields : StreamSpec Unit where
  required := []
  decode _ := none

/-- A variant is its number, and a prefixed stream of its fields, of which there are none. -/
def Codec.enum {α : Type} (id : α → UInt8) (ofId : UInt8 → Option α)
    (h : ∀ a, ofId (id a) = some a) : Codec α where
  write a := id a :: writePrefixed []
  read
    | [] => .error .shortRead
    | b :: bs =>
      match ofId b with
      | none => .error .unknownRequiredFeature
      | some a =>
        match readPrefixed noFields () bs with
        | .error e => .error e
        | .ok (_, rest) => .ok (a, rest)
  read_write := by
    intro a rest
    have hstream : decodeStream noFields (([] : Bytes).length + 1) none () [] = .ok () := rfl
    simp only [List.cons_append, h, readPrefixed_write (S := noFields) (by simp) hstream]

/-! ### Hexadecimal -/

def hexDigit (n : ℕ) : Char := "0123456789abcdef".toList.getD n '0'

/-- Two lower-case digits for every byte. -/
def hexEncode (bs : Bytes) : String :=
  String.ofList (bs.flatMap fun b => [hexDigit (b.toNat / 16), hexDigit (b.toNat % 16)])

lemma length_hexEncode (bs : Bytes) : (hexEncode bs).length = 2 * bs.length := by
  rw [hexEncode, String.length_ofList]
  induction bs with
  | nil => rfl
  | cons b bs ih =>
    rw [List.flatMap_cons, List.length_append, ih, List.length_cons]
    exact Nat.add_comm _ _

lemma hexDigit_inj : ∀ m < 16, ∀ n < 16, hexDigit m = hexDigit n → m = n := by
  decide

theorem hexEncode_injective : Function.Injective hexEncode := by
  intro xs ys h
  rw [hexEncode, hexEncode, String.ofList_inj] at h
  induction xs generalizing ys with
  | nil =>
    cases ys with
    | nil => rfl
    | cons y ys => simp at h
  | cons x xs ih =>
    cases ys with
    | nil => simp at h
    | cons y ys =>
      simp only [List.flatMap_cons, List.cons_append, List.nil_append, List.cons.injEq] at h
      obtain ⟨hhi, hlo, htl⟩ := h
      have hx := x.toNat_lt
      have hy := y.toNat_lt
      have h1 := hexDigit_inj _ (by omega) _ (by omega) hhi
      have h2 := hexDigit_inj _ (by omega) _ (by omega) hlo
      have hxy : x = y := UInt8.toNat_inj.mp (by omega)
      rw [hxy, ih htl]

end LnNode.Lib.Wire
