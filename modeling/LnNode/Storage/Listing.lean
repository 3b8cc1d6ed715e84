import LnNode.Storage

/-!
# Listing what a namespace holds

The keys of a namespace come in the order in which the directory happens to be read, and each is read
and decoded. A listing of payments passes over a file that cannot be read, a listing of peers ends
with its error; a file that cannot be decoded ends both.

`Holds` says what map from ids to records a namespace holds. It is kept by writing and removing a
record, and by everything that is done to other namespaces.

* `Holds.list`: every record of the map is listed exactly once, and nothing else.
-/

namespace LnNode.Storage

open LnNode.Lib.Wire

/-! ### Keys -/

/-- The order in which a directory is read. -/
structure ReadDir where
  order : List String → List String
  perm : ∀ keys, (order keys).Perm keys

/-- A directory that is read in the order of its files. -/
def ReadDir.inOrder : ReadDir where
  order keys := keys
  perm := List.Perm.refl

def KvStore.list (fault : Fault) (dir : ReadDir) (store : KvStore)
    (primaryNamespace secondaryNamespace : String) : Except IoError (List String) :=
  match fault with
  | some e => .error e
  | none => .ok (dir.order ((store.keys.filter fun key =>
      key.primaryNamespace = primaryNamespace ∧ key.secondaryNamespace = secondaryNamespace).map
        StoreKey.key))

/-- The longest namespace or key a store takes. -/
def namespaceKeyMaxLen : ℕ := 120

/-- The characters of namespaces and keys. -/
def isNamespaceKeyChar (c : Char) : Bool := c.isAlphanum || c == '_' || c == '-'

def isValidNamespaceKey (s : String) : Bool :=
  decide (s.toList.length ≤ namespaceKeyMaxLen) && s.toList.all isNamespaceKeyChar

/-- The rules for the keys of a store. A namespace may be empty, but not the primary one alone. -/
def StoreKey.isValid (key : StoreKey) : Bool :=
  !key.key.isEmpty && !(key.primaryNamespace.isEmpty && !key.secondaryNamespace.isEmpty) &&
    isValidNamespaceKey key.primaryNamespace && isValidNamespaceKey key.secondaryNamespace &&
    isValidNamespaceKey key.key

/-! ### Records of a kind -/

/-- A kind of record: where it is kept and under which names, and its encoding. -/
structure RecordKind (ι α : Type) where
  primaryNamespace : String
  secondaryNamespace : String
  name : ι → String
  name_injective : Function.Injective name
  id : α → ι
  encode : α → Bytes
  read : Bytes → Except DecodeError α
  read_encode : ∀ a, read (encode a) = .ok a
  /-- The message for a file that cannot be decoded. -/
  undecodable : String
  /-- A listing passes over a file that cannot be read. -/
  skipsUnreadable : Bool

section Kinds

variable {ι α : Type}

def RecordKind.keyOf (kind : RecordKind ι α) (name : String) : StoreKey where
  primaryNamespace := kind.primaryNamespace
  secondaryNamespace := kind.secondaryNamespace
  key := name

/-- The key of a record. -/
def RecordKind.key (kind : RecordKind ι α) (id : ι) : StoreKey := kind.keyOf (kind.name id)

/-- The names in the namespace of the kind, in the order in which its directory is read. -/
def RecordKind.names (kind : RecordKind ι α) (dir : ReadDir) (store : KvStore) : List String :=
  dir.order ((store.keys.filter fun key => key.primaryNamespace = kind.primaryNamespace ∧
    key.secondaryNamespace = kind.secondaryNamespace).map StoreKey.key)

/-- The records under a list of names, in that order. -/
def readRecords (kind : RecordKind ι α) (readFault : String → Fault) (store : KvStore) :
    List String → Except IoError (List α)
  | [] => .ok []
  | name :: names =>
    match store.read (readFault name) (kind.keyOf name) with
    | .error e => if kind.skipsUnreadable then readRecords kind readFault store names else .error e
    | .ok data =>
      match kind.read data with
      | .error _ => .error (.invalidData kind.undecodable)
      | .ok a =>
        match readRecords kind readFault store names with
        | .error e => .error e
        | .ok records => .ok (a :: records)

def listRecords (kind : RecordKind ι α) (listFault : Fault) (readFault : String → Fault)
    (dir : ReadDir) (store : KvStore) : Except IoError (List α) :=
  match store.list listFault dir kind.primaryNamespace kind.secondaryNamespace with
  | .error e => .error e
  | .ok names => readRecords kind readFault store names

end Kinds

def paymentKind : RecordKind PaymentId Payment where
  primaryNamespace := paymentsPrimaryNamespace
  secondaryNamespace := paymentsSecondaryNamespace
  name id := hexEncode id.val.1
  name_injective := by
    rintro ⟨a, ha⟩ ⟨b, hb⟩ h
    have := hexEncode_injective h
    simpa using this
  id := Payment.paymentId
  encode := Payment.encode
  read := Payment.read
  read_encode := Payment.read_encode
  undecodable := "Could not deserialize payment"
  skipsUnreadable := true

def listPayments (listFault : Fault) (readFault : String → Fault) (dir : ReadDir) (store : KvStore) :
    Except IoError (List Payment) :=
  listRecords paymentKind listFault readFault dir store

def listPaymentsByStatus (listFault : Fault) (readFault : String → Fault) (dir : ReadDir)
    (store : KvStore) (status : PaymentStatus) : Except IoError (List Payment) :=
  match listPayments listFault readFault dir store with
  | .error e => .error e
  | .ok payments => .ok (payments.filter fun payment => payment.status = status)

/-! ### The map a namespace holds -/

/-- Every live record once, and nothing else. -/
structure ListsExactly {ι α : Type} (id : α → ι) (records : List α) (m : ι → Option α) : Prop where
  once : (records.map id).Nodup
  live : ∀ a, a ∈ records ↔ m (id a) = some a

/-- The namespace of the kind holds the map: under the names of ids there are their records, under no
other name is there anything, and every record is under its own id. -/
structure Holds {ι α : Type} (kind : RecordKind ι α) (store : KvStore) (m : ι → Option α) : Prop where
  lookup : ∀ id, store.lookup (kind.key id) = (m id).map kind.encode
  named : ∀ name, kind.keyOf name ∈ store → ∃ id, name = kind.name id
  own : ∀ id a, m id = some a → kind.id a = id

section Holds

variable {ι α : Type} {kind : RecordKind ι α} {store : KvStore} {m : ι → Option α} {dir : ReadDir}

lemma keyOf_injective : Function.Injective kind.keyOf := fun _ _ h => congrArg StoreKey.key h

lemma key_injective : Function.Injective kind.key := fun _ _ h =>
  kind.name_injective (keyOf_injective h)

lemma holds_empty : Holds kind ∅ fun _ => none where
  lookup _ := rfl
  named name hmem := absurd hmem (AList.notMem_empty _)
  own _ _ h := by cases h

theorem Holds.insert [DecidableEq ι] (h : Holds kind store m) (a : α) :
    Holds kind (store.insert (kind.key (kind.id a)) (kind.encode a))
      (Function.update m (kind.id a) (some a)) where
  lookup id := by
    by_cases hid : id = kind.id a
    · subst hid
      simp
    · rw [AList.lookup_insert_ne (fun heq => hid (key_injective heq)), h.lookup,
        Function.update_of_ne hid]
  named name hmem := by
    rcases (AList.mem_insert _).mp hmem with heq | hmem
    · exact ⟨kind.id a, keyOf_injective heq⟩
    · exact h.named name hmem
  own id b hb := by
    by_cases hid : id = kind.id a
    · subst hid
      simp only [Function.update_self, Option.some.injEq] at hb
      rw [hb]
    · rw [Function.update_of_ne hid] at hb
      exact h.own id b hb

theorem Holds.erase [DecidableEq ι] (h : Holds kind store m) (id : ι) :
    Holds kind (store.erase (kind.key id)) (Function.update m id none) where
  lookup j := by
    by_cases hj : j = id
    · subst hj
      simp
    · rw [AList.lookup_erase_ne (fun heq => hj (key_injective heq)), h.lookup,
        Function.update_of_ne hj]
  named name hmem := h.named name (AList.mem_erase.mp hmem).2
  own j b hb := by
    by_cases hj : j = id
    · subst hj
      simp at hb
    · rw [Function.update_of_ne hj] at hb
      exact h.own j b hb

theorem Holds.insert_other (h : Holds kind store m) {key : StoreKey} (data : Bytes)
    (hkey : ∀ name, kind.keyOf name ≠ key) : Holds kind (store.insert key data) m where
  lookup id := by rw [AList.lookup_insert_ne (show kind.key id ≠ key from hkey _), h.lookup]
  named name hmem := h.named name (((AList.mem_insert _).mp hmem).resolve_left (hkey name))
  own := h.own

theorem Holds.erase_other (h : Holds kind store m) {key : StoreKey}
    (hkey : ∀ name, kind.keyOf name ≠ key) : Holds kind (store.erase key) m where
  lookup id := by rw [AList.lookup_erase_ne (show kind.key id ≠ key from hkey _), h.lookup]
  named name hmem := h.named name (AList.mem_erase.mp hmem).2
  own := h.own

lemma Holds.readRecords (h : Holds kind store m) {names : List String}
    (hnames : ∀ name ∈ names, kind.keyOf name ∈ store) :
    ∃ records, readRecords kind (fun _ => none) store names = .ok records ∧
      (records.map fun a => kind.name (kind.id a)) = names ∧
      ∀ a ∈ records, m (kind.id a) = some a := by
  induction names with
  | nil => exact ⟨[], rfl, rfl, by simp⟩
  | cons name names ih =>
    obtain ⟨records, hread, hmap, hlive⟩ := ih fun n hn => hnames n (List.mem_cons_of_mem _ hn)
    have hmem := hnames name List.mem_cons_self
    obtain ⟨id, rfl⟩ := h.named name hmem
    have hlook := h.lookup id
    cases hm : m id with
    | none =>
      rw [hm] at hlook
      exact absurd hmem (AList.lookup_eq_none.mp hlook)
    | some a =>
      rw [hm] at hlook
      have hid := h.own id a hm
      refine ⟨a :: records, ?_, by rw [List.map_cons, hmap, hid], fun b hb => ?_⟩
      · have hfound : store.lookup (kind.keyOf (kind.name id)) = some (kind.encode a) := hlook
        simp only [Storage.readRecords, KvStore.read, hfound, kind.read_encode, hread]
      · rcases List.mem_cons.mp hb with rfl | hb
        · rw [hid, hm]
        · exact hlive b hb

lemma mem_names {name : String} : name ∈ kind.names dir store ↔ kind.keyOf name ∈ store := by
  rw [RecordKind.names, (dir.perm _).mem_iff]
  constructor
  · intro hname
    obtain ⟨key, hkey, rfl⟩ := List.mem_map.mp hname
    obtain ⟨hkey, hns⟩ := List.mem_filter.mp hkey
    obtain ⟨hprimary, hsecondary⟩ := of_decide_eq_true hns
    have heq : kind.keyOf key.key = key := by
      rw [RecordKind.keyOf, ← hprimary, ← hsecondary]
    rw [heq]
    exact AList.mem_keys.mp hkey
  · intro hin
    refine List.mem_map.mpr ⟨kind.keyOf name, List.mem_filter.mpr ⟨AList.mem_keys.mpr hin, ?_⟩, rfl⟩
    exact decide_eq_true ⟨rfl, rfl⟩

lemma nodup_names : (kind.names dir store).Nodup := by
  refine (dir.perm _).nodup_iff.mpr (List.Nodup.map_on ?_ (store.keys_nodup.filter _))
  rintro ⟨p, s, k⟩ hx ⟨p', s', k'⟩ hy hkey
  obtain ⟨hp, hs⟩ := of_decide_eq_true (List.mem_filter.mp hx).2
  obtain ⟨hp', hs'⟩ := of_decide_eq_true (List.mem_filter.mp hy).2
  rw [StoreKey.mk.injEq]
  exact ⟨hp.trans hp'.symm, hs.trans hs'.symm, hkey⟩

/-- **Every live record is listed exactly once, and nothing else.** -/
theorem Holds.list (h : Holds kind store m) (dir : ReadDir) :
    ∃ records, listRecords kind none (fun _ => none) dir store = .ok records ∧
      ListsExactly kind.id records m := by
  have hnodup : (kind.names dir store).Nodup := nodup_names
  obtain ⟨records, hread, hmap, hlive⟩ := h.readRecords fun name => mem_names.mp
  refine ⟨records, hread, ?_, fun a => ⟨hlive a, fun ha => ?_⟩⟩
  · rw [← hmap] at hnodup
    exact List.Nodup.of_map kind.name (by simpa [Function.comp_def] using hnodup)
  · have hlook := h.lookup (kind.id a)
    rw [ha] at hlook
    have hin : kind.key (kind.id a) ∈ store := by
      rw [← AList.lookup_isSome, hlook]
      rfl
    have hname : kind.name (kind.id a) ∈ kind.names dir store := mem_names.mpr hin
    rw [← hmap] at hname
    obtain ⟨b, hb, heq⟩ := List.mem_map.mp hname
    have hba : some b = some a := by
      rw [← hlive b hb, kind.name_injective heq, ha]
    rwa [← Option.some.inj hba]

end Holds

lemma ListsExactly.perm {ι α : Type} {id : α → ι} {records records' : List α} {m : ι → Option α}
    (h : ListsExactly id records m) (h' : ListsExactly id records' m) : records.Perm records' :=
  (List.perm_ext_iff_of_nodup h.once.of_map h'.once.of_map).mpr fun a =>
    (h.live a).trans (h'.live a).symm

end LnNode.Storage
