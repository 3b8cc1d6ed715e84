import Mathlib.Tactic
import Mathlib.Data.String.Basic

/-!
# JSON texts

Values, the compact text that a value is written as, and the parser that reads texts. An object's
fields are kept sorted by their keys; integers of 64 bits are kept as such; the texts of all other
numbers are a parameter.
-/

namespace LnNode.Lib.Json

/-! ### Values -/

/-- An integer that fits 64 bits, signed or not. -/
abbrev JsonInt := { n : ℤ // -2 ^ 63 ≤ n ∧ n < 2 ^ 64 }

inductive Value (F : Type) where
  | null
  | bool (b : Bool)
  | int (n : JsonInt)
  | float (x : F)
  | string (s : String)
  | array (vs : List (Value F))
  | object (fields : List (String × Value F))

/-- How numbers that are not kept as integers are written and read. -/
structure FloatText (F : Type) where
  print : F → List Char
  parse : List Char → Option F

variable {F : Type}

def insertField (k : String) (v : Value F) : List (String × Value F) → List (String × Value F)
  | [] => [(k, v)]
  | f :: fs =>
    if k < f.1 then (k, v) :: f :: fs
    else if k = f.1 then (k, v) :: fs
    else f :: insertField k v fs

def ofFields (fs : List (String × Value F)) : Value F :=
  .object (fs.foldl (fun sorted f => insertField f.1 f.2 sorted) [])

/-- A field of an object; what is not there is null. -/
def Value.get (key : String) : Value F → Value F
  | .object fields => (fields.lookup key).getD .null
  | _ => .null

lemma lookup_cons_eq (key : String) (f : String × Value F) (fs : List (String × Value F)) :
    (f :: fs).lookup key = if key = f.1 then some f.2 else fs.lookup key := by
  rw [List.lookup_cons]
  by_cases h : key = f.1
  · rw [if_pos h, beq_iff_eq.mpr h]
  · rw [if_neg h, beq_false_of_ne h]

lemma lookup_insertField (k key : String) (v : Value F) (fs : List (String × Value F)) :
    (insertField k v fs).lookup key = if key = k then some v else fs.lookup key := by
  induction fs with
  | nil => exact lookup_cons_eq key (k, v) []
  | cons f fs ih =>
    rw [insertField]
    by_cases hlt : k < f.1
    · rw [if_pos hlt]
      exact lookup_cons_eq key (k, v) (f :: fs)
    · rw [if_neg hlt]
      by_cases hsame : k = f.1
      · rw [if_pos hsame, lookup_cons_eq, lookup_cons_eq, ← hsame]
        by_cases hkey : key = k
        · rw [if_pos hkey, if_pos hkey]
        · rw [if_neg hkey, if_neg hkey, if_neg hkey]
      · rw [if_neg hsame, lookup_cons_eq, ih, lookup_cons_eq]
        by_cases hkey : key = k
        · rw [hkey, if_neg hsame, if_pos rfl, if_pos rfl]
        · rw [if_neg hkey, if_neg hkey]

def Value.asStr : Value F → Option String
  | .string s => some s
  | _ => none

theorem get_ofFields (key : String) (fs : List (String × Value F)) :
    (ofFields fs).get key = (fs.reverse.lookup key).getD .null := by
  have hlookup : (fs.foldl (fun sorted f => insertField f.1 f.2 sorted) []).lookup key =
      fs.reverse.lookup key := by
    induction fs using List.reverseRecOn with
    | nil => rfl
    | append_singleton fs f ih =>
      rw [List.foldl_append, List.foldl_cons, List.foldl_nil, lookup_insertField, ih,
        List.reverse_append, List.reverse_singleton, List.singleton_append, lookup_cons_eq]
  rw [ofFields, Value.get, hlookup]

@[simp] lemma asStr_string (s : String) : (.string s : Value F).asStr = some s := rfl

def Value.asU64 : Value F → Option UInt64
  | .int n => if 0 ≤ n.val then some (.ofNat n.val.toNat) else none
  | _ => none

def ofU64 (n : UInt64) : Value F :=
  .int ⟨n.toNat, by have := n.toNat_lt; omega⟩

@[simp] lemma asU64_ofU64 (n : UInt64) : (ofU64 n : Value F).asU64 = some n := by
  simp [ofU64, Value.asU64]

def ofOption {α : Type} (f : α → Value F) (a : Option α) : Value F := a.elim .null f

/-! ### Texts -/

def escapeChar (c : Char) : List Char :=
  if c = '"' then ['\\', '"']
  else if c = '\\' then ['\\', '\\']
  else if c = '\n' then ['\\', 'n']
  else if c = '\r' then ['\\', 'r']
  else if c = '\t' then ['\\', 't']
  else if c.toNat = 8 then ['\\', 'b']
  else if c.toNat = 12 then ['\\', 'f']
  else if c.toNat < 32 then
    ['\\', 'u', '0', '0', Nat.digitChar (c.toNat / 16), Nat.digitChar (c.toNat % 16)]
  else [c]

def printString (s : String) : List Char := '"' :: (s.toList.flatMap escapeChar ++ ['"'])

def printInt (n : ℤ) : List Char :=
  if n < 0 then '-' :: Nat.toDigits 10 n.natAbs else Nat.toDigits 10 n.natAbs

def commaSep : List (List Char) → List Char
  | [] => []
  | [text] => text
  | text :: texts => text ++ ',' :: commaSep texts

mutual

def print (T : FloatText F) : Value F → List Char
  | .null => "null".toList
  | .bool true => "true".toList
  | .bool false => "false".toList
  | .int n => printInt n
  | .float x => T.print x
  | .string s => printString s
  | .array vs => '[' :: (commaSep (printElems T vs) ++ [']'])
  | .object fields => '{' :: (commaSep (printFields T fields) ++ ['}'])

def printElems (T : FloatText F) : List (Value F) → List (List Char)
  | [] => []
  | v :: vs => print T v :: printElems T vs

def printFields (T : FloatText F) : List (String × Value F) → List (List Char)
  | [] => []
  | (k, v) :: fields => (printString k ++ ':' :: print T v) :: printFields T fields

end

/-! ### Reading -/

/-- A parser takes a text from the front and leaves the rest. -/
abbrev Parser (α : Type) := List Char → Option (α × List Char)

def isWs (c : Char) : Bool := c = ' ' || c = '\n' || c = '\t' || c = '\r'

def skipWs (cs : List Char) : List Char := cs.dropWhile isWs

def hexVal (c : Char) : Option ℕ :=
  if '0' ≤ c ∧ c ≤ '9' then some (c.toNat - 48)
  else if 'a' ≤ c ∧ c ≤ 'f' then some (c.toNat - 87)
  else if 'A' ≤ c ∧ c ≤ 'F' then some (c.toNat - 55)
  else none

def readHex4 : Parser ℕ
  | a :: b :: c :: d :: cs => do
    let a ← hexVal a
    let b ← hexVal b
    let c ← hexVal c
    let d ← hexVal d
    some (((a * 16 + b) * 16 + c) * 16 + d, cs)
  | _ => none

/-- The second half of a surrogate pair, with its escape. -/
def readTrail : Parser ℕ
  | b :: u :: cs => if b = '\\' ∧ u = 'u' then readHex4 cs else none
  | _ => none

/-- The code unit after an escape; a surrogate is one half of a pair. -/
def readUnicode : Parser Char := fun cs => do
  let (unit, cs) ← readHex4 cs
  if unit < 0xD800 ∨ 0xE000 ≤ unit then
    some (Char.ofNat unit, cs)
  else if unit < 0xDC00 then do
    let (trail, cs) ← readTrail cs
    if 0xDC00 ≤ trail ∧ trail < 0xE000 then
      some (Char.ofNat (0x10000 + (unit - 0xD800) * 0x400 + (trail - 0xDC00)), cs)
    else none
  else none

def readEscape : Parser Char
  | [] => none
  | c :: cs =>
    if c = 'u' then readUnicode cs
    else if c = '"' ∨ c = '\\' ∨ c = '/' then some (c, cs)
    else if c = 'n' then some ('\n', cs)
    else if c = 'r' then some ('\r', cs)
    else if c = 't' then some ('\t', cs)
    else if c = 'b' then some (Char.ofNat 8, cs)
    else if c = 'f' then some (Char.ofNat 12, cs)
    else none

def readChars : ℕ → Parser (List Char)
  | 0, _ => none
  | _ + 1, [] => none
  | n + 1, c :: cs =>
    if c = '"' then some ([], cs)
    else if c = '\\' then do
      let (c, cs) ← readEscape cs
      let (s, cs) ← readChars n cs
      some (c :: s, cs)
    else if c.toNat < 32 then none
    else do
      let (s, cs) ← readChars n cs
      some (c :: s, cs)

def readString : Parser String := fun cs =>
  (readChars cs.length cs).map fun s => (String.ofList s.1, s.2)

def natOf (digits : List Char) : Option ℕ :=
  if digits ≠ [] ∧ digits.all Char.isDigit ∧ (digits = ['0'] ∨ digits.head? ≠ some '0') then
    some (Nat.ofDigitChars 10 digits 0)
  else none

def positiveInt (n : ℕ) : Option JsonInt := if h : n < 2 ^ 64 then some ⟨n, by omega⟩ else none

/-- A negative zero is not kept as an integer. -/
def negativeInt (n : ℕ) : Option JsonInt :=
  if h : n ≠ 0 ∧ n ≤ 2 ^ 63 then some ⟨-n, by omega⟩ else none

/-- A number that is kept as an integer. -/
def intOf : List Char → Option JsonInt
  | '-' :: digits => (natOf digits).bind negativeInt
  | digits => (natOf digits).bind positiveInt

def isNumberChar (c : Char) : Bool := c.isDigit || c = '-' || c = '+' || c = '.' || c = 'e' || c = 'E'

def readNumber (T : FloatText F) : Parser (Value F) := fun cs =>
  let token := cs.takeWhile isNumberChar
  let rest := cs.dropWhile isNumberChar
  match intOf token with
  | some n => some (.int n, rest)
  | none => (T.parse token).map fun x => (.float x, rest)

def readWord (word : List Char) (v : Value F) : Parser (Value F) := fun cs =>
  (word.isPrefixOf? cs).map fun rest => (v, rest)

section Containers

variable {α : Type} (item : Parser α) (close : Char)

/-- The items of a container that is not empty, to its end. -/
def readItems : ℕ → Parser (List α)
  | 0, _ => none
  | n + 1, cs => do
    let (a, cs) ← item cs
    match skipWs cs with
    | [] => none
    | c :: cs =>
      if c = ',' then do
        let (as, cs) ← readItems n cs
        some (a :: as, cs)
      else if c = close then some ([a], cs)
      else none

def readContainer : Parser (List α) := fun cs =>
  match skipWs cs with
  | [] => none
  | c :: rest => if c = close then some ([], rest) else readItems item close cs.length cs

end Containers

def readField (value : Parser (Value F)) : Parser (String × Value F) := fun cs =>
  match skipWs cs with
  | [] => none
  | q :: cs =>
    if q = '"' then do
      let (k, cs) ← readString cs
      match skipWs cs with
      | [] => none
      | c :: cs => if c = ':' then (value cs).map fun v => ((k, v.1), v.2) else none
    else none

/-- A value whose containers are nested at most so deep. -/
def readValue (T : FloatText F) : ℕ → Parser (Value F)
  | depth, cs =>
    match skipWs cs with
    | [] => none
    | c :: cs =>
      if c = '"' then (readString cs).map fun s => (.string s.1, s.2)
      else if c = '[' then
        match depth with
        | 0 => none
        | depth + 1 => (readContainer (readValue T depth) ']' cs).map fun vs => (.array vs.1, vs.2)
      else if c = '{' then
        match depth with
        | 0 => none
        | depth + 1 =>
          (readContainer (readField (readValue T depth)) '}' cs).map fun fs => (ofFields fs.1, fs.2)
      else if isNumberChar c then readNumber T (c :: cs)
      else if c = 'n' then readWord "ull".toList .null cs
      else if c = 't' then readWord "rue".toList (.bool true) cs
      else if c = 'f' then readWord "alse".toList (.bool false) cs
      else none

def maxDepth : ℕ := 127

def parse (T : FloatText F) (cs : List Char) : Option (Value F) :=
  match readValue T maxDepth cs with
  | some (v, rest) => if skipWs rest = [] then some v else none
  | none => none

/-! ### Bytes -/

def toBytes (T : FloatText F) (v : Value F) : ByteArray := (String.ofList (print T v)).toUTF8

lemma toBytes_eq (T : FloatText F) (v : Value F) : toBytes T v = (print T v).utf8Encode := by
  rw [toBytes, String.toUTF8_eq_toByteArray, String.toByteArray_ofList]

def fromSlice (T : FloatText F) (bytes : ByteArray) : Option (Value F) :=
  bytes.utf8Decode?.bind fun cs => parse T cs.toList

end LnNode.Lib.Json
