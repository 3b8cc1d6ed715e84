import LnNode.Node.Payments
import LnNode.Storage.Peers

/-!
# Whether reads hide records

A listing takes the names of a namespace and then reads one file after another. In between others may
remove records, and a read may fail. A read has three outcomes: bytes, the file is not there, and any
other error.

* `collect_of_skips`, `collect_of_strict`: what the two loops make of the outcomes;
* `reads_of_throughout`: what the read of a record finds that is there throughout;
* `hidesNothing_iff`: when each of the four ways of reading hides nothing.
-/

namespace LnNode.Node.HiddenRecords

open LnNode.Lib.Wire LnNode.Storage LnNode.Storage.Peers LnNode.Node.Payments

/-! ### A listing while others remove records -/

/-- An error of a read other than that the file is not there. -/
abbrev OtherError := { e : IoError // e ≠ .notFound }

/-- What happens while a listing runs. -/
structure Meanwhile where
  listFault : Option OtherError
  readFault : String → Option OtherError
  /-- What others remove just before the read of a name. -/
  removed : String → List StoreKey
  /-- What others remove after the last read. -/
  removedAfter : List StoreKey

def asFault (fault : Option OtherError) : Fault := fault.map Subtype.val

def removeAll (store : KvStore) (keys : List StoreKey) : KvStore :=
  keys.foldl (fun store key => store.erase key) store

section Listing

variable {ι α : Type} (kind : RecordKind ι α) (env : Meanwhile)

def reads : KvStore → List String → List (Except IoError Bytes)
  | _, [] => []
  | store, name :: names =>
    let store' := removeAll store (env.removed name)
    store'.read (asFault (env.readFault name)) (kind.keyOf name) :: reads store' names

def storeAfter : KvStore → List String → KvStore
  | store, [] => removeAll store env.removedAfter
  | store, name :: names => storeAfter (removeAll store (env.removed name)) names

/-- The loop over the outcomes, up to the first that ends it. -/
def collect : List (Except IoError Bytes) → Except IoError (List α)
  | [] => .ok []
  | .error e :: rest => if kind.skipsUnreadable then collect rest else .error e
  | .ok data :: rest =>
    match kind.read data with
    | .error _ => .error (.invalidData kind.undecodable)
    | .ok a =>
      match collect rest with
      | .error e => .error e
      | .ok records => .ok (a :: records)

def listMeanwhile (dir : ReadDir) (store : KvStore) : Except IoError (List α) :=
  match store.list (asFault env.listFault) dir kind.primaryNamespace kind.secondaryNamespace with
  | .error e => .error e
  | .ok names => collect kind (reads kind env store names)

end Listing

def listPayments (env : Meanwhile) (dir : ReadDir) (store : KvStore) : Except IoError (List Payment) :=
  listMeanwhile paymentKind env dir store

def listPaymentsByStatus (env : Meanwhile) (dir : ReadDir) (store : KvStore) (status : PaymentStatus) :
    Except IoError (List Payment) :=
  match listPayments env dir store with
  | .error e => .error e
  | .ok payments => .ok (payments.filter fun payment => payment.status = status)

def listPeers (env : Meanwhile) (dir : ReadDir) (store : KvStore) : Except IoError (List PeerInfo) :=
  listMeanwhile peerKind env dir store

/-! ### What is not to be hidden -/

section Hides

variable {ι α : Type} (kind : RecordKind ι α) (env : Meanwhile) (dir : ReadDir) (store : KvStore)

/-- A file that is there throughout the listing: nobody adds files, so it is there at the end. -/
def Throughout (name : String) (data : Bytes) : Prop :=
  (storeAfter env store (kind.names dir store)).lookup (kind.keyOf name) = some data

/-- A file may be of a record that is asked for: it is, or it cannot be decoded. -/
def MayBeWanted (wanted : α → Prop) (data : Bytes) : Prop := ∀ a, kind.read data = .ok a → wanted a

/-- A listing that is Ok has every record that is wanted and there throughout; it is an error if such a
record cannot be read or decoded, and not because a record was removed. -/
structure HidesNothing (wanted : α → Prop) (result : Except IoError (List α)) : Prop where
  complete : ∀ name data a records, Throughout kind env dir store name data →
    kind.read data = .ok a → wanted a → result = .ok records → a ∈ records
  reported : ∀ name data, Throughout kind env dir store name data → MayBeWanted kind wanted data →
    (env.readFault name).isSome ∨ (∃ err, kind.read data = .error err) → ∃ e, result = .error e
  tolerant : result ≠ .error .notFound

def givesRecord : Except IoError Bytes → Bool
  | .error _ => false
  | .ok data => (kind.read data).toOption.isSome

def firstFailure (outcomes : List (Except IoError Bytes)) : Option (Except IoError Bytes) :=
  outcomes.find? fun outcome => !givesRecord kind outcome

/-- A read that gives bytes of no record. -/
def Undecodable (outcome : Except IoError Bytes) : Prop :=
  ∃ data err, outcome = .ok data ∧ kind.read data = .error err

/-- The listing ends with an error anyway, or no record that is wanted and there throughout fails to be
read. -/
def ReadsWanted (wanted : α → Prop) : Prop :=
  (env.listFault.isSome ∨ ∃ outcome ∈ reads kind env store (kind.names dir store),
    Undecodable kind outcome) ∨
  ∀ name data, Throughout kind env dir store name data → MayBeWanted kind wanted data →
    env.readFault name = none

/-- The listing of names fails, or the first read that gives no record is not of one that was removed. -/
def NoneRemovedFirst : Prop :=
  env.listFault.isSome ∨
  firstFailure kind (reads kind env store (kind.names dir store)) ≠ some (.error .notFound)

end Hides

/-! ### What the loops make of the outcomes -/

section Collect

variable {ι α : Type} {kind : RecordKind ι α} {outcomes : List (Except IoError Bytes)}

/-- What a loop that goes through has collected. -/
def CollectsAll (kind : RecordKind ι α) (outcomes : List (Except IoError Bytes)) (records : List α) :
    Prop :=
  ∀ data a, .ok data ∈ outcomes → kind.read data = .ok a → a ∈ records

lemma CollectsAll.cons {data : Bytes} {a : α} {records : List α}
    (h : CollectsAll kind outcomes records) (hread : kind.read data = .ok a) :
    CollectsAll kind (.ok data :: outcomes) (a :: records) := by
  intro data' a' hmem hread'
  rcases List.mem_cons.mp hmem with heq | hmem
  · cases heq
    obtain rfl := Except.ok.inj (hread.symm.trans hread')
    exact List.mem_cons_self
  · exact List.mem_cons_of_mem _ (h data' a' hmem hread')

lemma CollectsAll.skip {e : IoError} {records : List α} (h : CollectsAll kind outcomes records) :
    CollectsAll kind (.error e :: outcomes) records := by
  intro data a hmem hread
  rcases List.mem_cons.mp hmem with heq | hmem
  · cases heq
  · exact h data a hmem hread

/-- **A loop that passes over errors** ends with one only over bytes of no record. -/
lemma collect_of_skips (hskips : kind.skipsUnreadable = true)
    (outcomes : List (Except IoError Bytes)) :
    (∃ outcome ∈ outcomes, Undecodable kind outcome) ∧
        collect kind outcomes = .error (.invalidData kind.undecodable) ∨
      (¬ ∃ outcome ∈ outcomes, Undecodable kind outcome) ∧
        ∃ records, collect kind outcomes = .ok records ∧ CollectsAll kind outcomes records := by
  induction outcomes with
  | nil => exact Or.inr ⟨by simp, [], rfl, by simp [CollectsAll]⟩
  | cons outcome rest ih =>
    rw [List.exists_mem_cons_iff]
    cases outcome with
    | error e =>
      have hnot : ¬ Undecodable kind (.error e) := by simp [Undecodable]
      rw [collect, if_pos hskips]
      rcases ih with ⟨hbad, hcollect⟩ | ⟨hnone, records, hcollect, hall⟩
      · exact Or.inl ⟨Or.inr hbad, hcollect⟩
      · exact Or.inr ⟨fun h => h.elim hnot hnone, records, hcollect, hall.skip⟩
    | ok data =>
      rw [collect]
      cases hread : kind.read data with
      | error err => exact Or.inl ⟨Or.inl ⟨data, err, rfl, hread⟩, rfl⟩
      | ok a =>
        have hnot : ¬ Undecodable kind (.ok data) := by
          rintro ⟨_, err, heq, herr⟩
          cases heq
          rw [hread] at herr
          cases herr
        rcases ih with ⟨hbad, hcollect⟩ | ⟨hnone, records, hcollect, hall⟩
        · exact Or.inl ⟨Or.inr hbad, by simp only [hcollect]⟩
        · refine Or.inr ⟨fun h => h.elim hnot hnone, a :: records, ?_, hall.cons hread⟩
          simp only [hcollect]

/-- The error that a read is reported as, if it gives no record. -/
def reportedAs (kind : RecordKind ι α) : Except IoError Bytes → IoError
  | .error e => e
  | .ok _ => .invalidData kind.undecodable

lemma firstFailure_cons (outcome : Except IoError Bytes) :
    firstFailure kind (outcome :: outcomes) =
      if givesRecord kind outcome then firstFailure kind outcomes else some outcome := by
  rw [firstFailure, List.find?_cons]
  cases givesRecord kind outcome <;> rfl

/-- **A loop that stops at errors** ends with the first read that gives no record. -/
lemma collect_of_strict (hstrict : kind.skipsUnreadable = false)
    (outcomes : List (Except IoError Bytes)) :
    match firstFailure kind outcomes with
    | some outcome => collect kind outcomes = .error (reportedAs kind outcome)
    | none => ∃ records, collect kind outcomes = .ok records ∧ CollectsAll kind outcomes records := by
  induction outcomes with
  | nil => exact ⟨[], rfl, by simp [CollectsAll]⟩
  | cons outcome rest ih =>
    rw [firstFailure_cons]
    cases outcome with
    | error e =>
      rw [collect, hstrict]
      rfl
    | ok data =>
      rw [collect]
      cases hread : kind.read data with
      | error err =>
        have hgives : givesRecord kind (.ok data) = false := by simp [givesRecord, hread, Except.toOption]
        rw [hgives]
        rfl
      | ok a =>
        have hgives : givesRecord kind (.ok data) = true := by simp [givesRecord, hread, Except.toOption]
        rw [hgives, if_pos rfl]
        revert ih
        cases firstFailure kind rest with
        | some outcome =>
          intro ih
          simp only [ih]
        | none =>
          rintro ⟨records, hcollect, hall⟩
          exact ⟨a :: records, by simp only [hcollect], hall.cons hread⟩

end Collect

/-! ### Files that are there throughout -/

section Throughout

variable {ι α : Type} {kind : RecordKind ι α} {env : Meanwhile} {dir : ReadDir} {store : KvStore}
  {name : String} {data : Bytes} {key : StoreKey}

lemma lookup_of_removeAll {keys : List StoreKey} (h : (removeAll store keys).lookup key = some data) :
    store.lookup key = some data := by
  induction keys generalizing store with
  | nil => exact h
  | cons gone keys ih =>
    have hlook : (store.erase gone).lookup key = some data := ih h
    by_cases heq : key = gone
    · rw [heq, AList.lookup_erase] at hlook
      cases hlook
    · rwa [AList.lookup_erase_ne heq] at hlook

lemma lookup_of_storeAfter {names : List String}
    (h : (storeAfter env store names).lookup key = some data) : store.lookup key = some data := by
  induction names generalizing store with
  | nil => exact lookup_of_removeAll h
  | cons name names ih => exact lookup_of_removeAll (ih h)

/-- What the read of a file gives that is there. -/
def outcomeOf (env : Meanwhile) (name : String) (data : Bytes) : Except IoError Bytes :=
  match env.readFault name with
  | some e => .error e.val
  | none => .ok data

lemma outcomeOf_mem_reads {names : List String} (hname : name ∈ names)
    (h : (storeAfter env store names).lookup (kind.keyOf name) = some data) :
    outcomeOf env name data ∈ reads kind env store names := by
  induction names generalizing store with
  | nil => cases hname
  | cons first names ih =>
    rw [reads]
    rcases List.mem_cons.mp hname with rfl | hname
    · refine List.mem_cons.mpr (Or.inl ?_)
      have hlook : (removeAll store (env.removed name)).lookup (kind.keyOf name) = some data :=
        lookup_of_storeAfter h
      unfold outcomeOf KvStore.read
      cases env.readFault name with
      | some e => rfl
      | none => simp only [asFault, Option.map_none, hlook]
    · exact List.mem_cons_of_mem _ (ih hname h)

/-- **What the read of a record finds** that is there throughout. -/
lemma reads_of_throughout (h : Throughout kind env dir store name data) :
    outcomeOf env name data ∈ reads kind env store (kind.names dir store) := by
  refine outcomeOf_mem_reads (mem_names.mpr ?_) h
  rw [← AList.lookup_isSome, lookup_of_storeAfter h]
  rfl

lemma outcomeOf_of_givesRecord (h : givesRecord kind (outcomeOf env name data) = true) :
    env.readFault name = none ∧ ∃ a, kind.read data = .ok a := by
  unfold outcomeOf givesRecord at h
  cases hfault : env.readFault name with
  | some e => simp [hfault] at h
  | none =>
    simp only [hfault] at h
    cases hread : kind.read data with
    | error err => simp [hread, Except.toOption] at h
    | ok a => exact ⟨rfl, a, rfl⟩

/-- With nothing removed and no other errors than its own, a listing is the listing of the store. -/
theorem listMeanwhile_quiet (kind : RecordKind ι α) (env : Meanwhile) (dir : ReadDir) (store : KvStore)
    (hquiet : ∀ name, env.removed name = []) :
    listMeanwhile kind env dir store =
      listRecords kind (asFault env.listFault) (fun name => asFault (env.readFault name)) dir store := by
  have hreads : ∀ names, collect kind (reads kind env store names) =
      readRecords kind (fun name => asFault (env.readFault name)) store names := by
    intro names
    induction names with
    | nil => rfl
    | cons name names ih =>
      have hcons : reads kind env store (name :: names) =
          store.read (asFault (env.readFault name)) (kind.keyOf name) :: reads kind env store names := by
        rw [reads, hquiet name]
        rfl
      rw [hcons, readRecords]
      cases store.read (asFault (env.readFault name)) (kind.keyOf name) with
      | error e => simp only [collect, ih]
      | ok data =>
        cases hread : kind.read data with
        | error err => simp only [collect, hread]
        | ok a =>
          cases hrest : readRecords kind (fun name => asFault (env.readFault name)) store names with
          | error e => simp only [collect, hread, ih, hrest]
          | ok records => simp only [collect, hread, ih, hrest]
  rw [listMeanwhile, listRecords]
  cases store.list (asFault env.listFault) dir kind.primaryNamespace kind.secondaryNamespace with
  | error e => rfl
  | ok names => exact hreads names

end Throughout

/-! ### The four ways of reading -/

section Main

variable {ι α : Type} {kind : RecordKind ι α} {env : Meanwhile} {dir : ReadDir} {store : KvStore}

lemma hidesNothing_of_listFault {wanted : α → Prop} {result : Except IoError (List α)} {e : OtherError}
    (hresult : result = .error e.val) : HidesNothing kind env dir store wanted result := by
  subst hresult
  refine ⟨?_, fun _ _ _ _ _ => ⟨e.val, rfl⟩, fun h => e.property (Except.error.inj h)⟩
  rintro _ _ _ _ _ _ _ ⟨⟩

lemma hidesNothing_of_skips (hskips : kind.skipsUnreadable = true) {wanted : α → Prop}
    [DecidablePred wanted] {result : Except IoError (List α)}
    (hresult : result = (listMeanwhile kind env dir store).map (List.filter wanted)) :
    HidesNothing kind env dir store wanted result ↔ ReadsWanted kind env dir store wanted := by
  rw [listMeanwhile] at hresult
  cases hfault : env.listFault with
  | some e =>
    rw [hfault] at hresult
    exact iff_of_true (hidesNothing_of_listFault hresult) (Or.inl (Or.inl (by simp [hfault])))
  | none =>
    rw [hfault] at hresult
    have hlist : result = (collect kind (reads kind env store (kind.names dir store))).map
        (List.filter wanted) := hresult
    rcases collect_of_skips hskips (reads kind env store (kind.names dir store)) with
      ⟨hbad, hcollect⟩ | ⟨hnone, records, hcollect, hall⟩
    · rw [hcollect] at hlist
      obtain rfl : result = .error (.invalidData kind.undecodable) := hlist
      refine iff_of_true ⟨?_, fun _ _ _ _ _ => ⟨_, rfl⟩, by simp⟩ (Or.inl (Or.inr hbad))
      rintro _ _ _ _ _ _ _ ⟨⟩
    · rw [hcollect] at hlist
      obtain rfl : result = .ok (records.filter wanted) := hlist
      constructor
      · intro h
        refine Or.inr fun name data hthere hwanted => ?_
        cases hread : env.readFault name with
        | none => rfl
        | some e =>
          obtain ⟨err, herr⟩ := h.reported name data hthere hwanted (Or.inl (by simp [hread]))
          cases herr
      · rintro ((hlist | hbad) | hread)
        · simp [hfault] at hlist
        · exact absurd hbad hnone
        · have hmem : ∀ name data, Throughout kind env dir store name data →
              MayBeWanted kind wanted data →
              .ok data ∈ reads kind env store (kind.names dir store) := by
            intro name data hthere hwanted
            have hmem := reads_of_throughout hthere
            rwa [outcomeOf, hread name data hthere hwanted] at hmem
          refine ⟨fun name data a records' hthere hdecode hwanted hok => ?_,
            fun name data hthere hwanted hfails => ?_, by simp⟩
          · cases hok
            have hmay : MayBeWanted kind wanted data := fun a' ha' => by
              obtain rfl := Except.ok.inj (hdecode.symm.trans ha')
              exact hwanted
            have ha := hall data a (hmem name data hthere hmay) hdecode
            exact List.mem_filter.mpr ⟨ha, decide_eq_true hwanted⟩
          · rcases hfails with hfails | ⟨err, hdecode⟩
            · simp [hread name data hthere hwanted] at hfails
            · exact absurd ⟨_, hmem name data hthere hwanted, data, err, rfl, hdecode⟩ hnone

lemma hidesNothing_of_strict (hstrict : kind.skipsUnreadable = false) :
    HidesNothing kind env dir store (fun _ => True) (listMeanwhile kind env dir store) ↔
      NoneRemovedFirst kind env dir store := by
  cases hfault : env.listFault with
  | some e =>
    refine iff_of_true (hidesNothing_of_listFault (e := e) ?_) (Or.inl (by simp [hfault]))
    rw [listMeanwhile, hfault]
    rfl
  | none =>
    have hlist : listMeanwhile kind env dir store =
        collect kind (reads kind env store (kind.names dir store)) := by
      rw [listMeanwhile, hfault]
      rfl
    have hcollect := collect_of_strict hstrict (reads kind env store (kind.names dir store))
    have hcond : NoneRemovedFirst kind env dir store ↔
        firstFailure kind (reads kind env store (kind.names dir store)) ≠ some (.error .notFound) := by
      simp [NoneRemovedFirst, hfault]
    rw [hlist, hcond]
    revert hcollect
    cases hfirst : firstFailure kind (reads kind env store (kind.names dir store)) with
    | some outcome =>
      intro hcollect
      rw [hcollect]
      have hnot : Except.error (reportedAs kind outcome) ≠ (.error .notFound : Except IoError (List α)) ↔
          some outcome ≠ some (.error .notFound) := by
        cases outcome with
        | error e => simp [reportedAs]
        | ok data => simp [reportedAs]
      refine ⟨fun h => hnot.mp h.tolerant, fun h => ⟨?_, fun _ _ _ _ _ => ⟨_, rfl⟩, hnot.mpr h⟩⟩
      rintro _ _ _ _ _ _ _ ⟨⟩
    | none =>
      rintro ⟨records, hcollect, hall⟩
      rw [hcollect]
      have hgives : ∀ outcome ∈ reads kind env store (kind.names dir store),
          givesRecord kind outcome = true := by
        simpa [firstFailure] using hfirst
      have hread : ∀ name data, Throughout kind env dir store name data →
          env.readFault name = none ∧ (∃ a, kind.read data = .ok a) ∧
            .ok data ∈ reads kind env store (kind.names dir store) := by
        intro name data hthere
        have hmem := reads_of_throughout hthere
        obtain ⟨hnone, hdecode⟩ := outcomeOf_of_givesRecord (hgives _ hmem)
        rw [outcomeOf, hnone] at hmem
        exact ⟨hnone, hdecode, hmem⟩
      refine iff_of_true ⟨fun name data a records' hthere hdecode _ hok => ?_,
        fun name data hthere _ hfails => ?_, by simp⟩ (by simp)
      · cases hok
        exact hall data a (hread name data hthere).2.2 hdecode
      · obtain ⟨hnone, ⟨a, hdecode⟩, -⟩ := hread name data hthere
        rcases hfails with hfails | ⟨err, herr⟩
        · simp [hnone] at hfails
        · rw [hdecode] at herr
          cases herr

/-- **When reads hide nothing.** For every store, every order in which a directory is read, all faults
and all removals meanwhile: listing payments, all of them or of one status, hides nothing exactly if it
fails anyway or reads every such record that is there; listing peers, exactly if no removed one is the
first that is missed; and getting a payment, exactly if its record is read and decoded. -/
theorem hidesNothing_iff (env : Meanwhile) (dir : ReadDir) (store : KvStore) :
    (HidesNothing paymentKind env dir store (fun _ => True) (listPayments env dir store) ↔
      ReadsWanted paymentKind env dir store fun _ => True) ∧
    (∀ status : PaymentStatus,
      HidesNothing paymentKind env dir store (fun payment => payment.status = status)
          (listPaymentsByStatus env dir store status) ↔
        ReadsWanted paymentKind env dir store fun payment => payment.status = status) ∧
    (HidesNothing peerKind env dir store (fun _ => True) (listPeers env dir store) ↔
      NoneRemovedFirst peerKind env dir store) ∧
    ∀ (fault : Option OtherError) (id : PaymentId),
      ((nodeGetPayment (asFault fault) store id = none → store.lookup (paymentKey id) = none) ↔
        ∀ data, store.lookup (paymentKey id) = some data →
          fault = none ∧ ∃ payment, Payment.read data = .ok payment) := by
  refine ⟨hidesNothing_of_skips rfl ?_, fun status => hidesNothing_of_skips rfl ?_,
    hidesNothing_of_strict rfl, fun fault id => ?_⟩
  · rw [listPayments]
    cases listMeanwhile paymentKind env dir store <;> simp [Except.map]
  · rw [listPaymentsByStatus, listPayments]
    cases listMeanwhile paymentKind env dir store <;> rfl
  · unfold nodeGetPayment getPayment KvStore.read
    cases fault with
    | some e => simp [asFault, Except.toOption, Option.eq_none_iff_forall_ne_some]
    | none =>
      cases hlook : store.lookup (paymentKey id) with
      | none => simp
      | some data =>
        cases hread : Payment.read data <;> simp [asFault, hread, Except.toOption]

end Main

/-! ### A read that fails, and a peer that is removed -/

/-- Every read fails, as it does with too many open files. -/
def tooManyFiles : OtherError := ⟨.other "too many open files", by simp⟩

def failingReads : Meanwhile where
  listFault := none
  readFault _ := some tooManyFiles
  removed _ := []
  removedAfter := []

def samplePeer : PeerInfo where
  nodeId := generatorKey
  address := .tcpIpV4 ⟨[127, 0, 0, 1], rfl⟩ 9735

def peerRemoved : Meanwhile where
  listFault := none
  readFault _ := none
  removed _ := [peerKind.key generatorKey]
  removedAfter := []

/-- **A payment is hidden** by a read that fails, from the listing and from `get_payment`; **a listing
of peers fails** because the peer was removed. -/
theorem not_hidesNothing_busy :
    let store := written ∅ pendingPayment
    let peers := (∅ : KvStore).insert (peerKind.key generatorKey) samplePeer.encode
    (listPayments failingReads .inOrder store = .ok [] ∧
      ¬ HidesNothing paymentKind failingReads .inOrder store (fun _ => True)
        (listPayments failingReads .inOrder store)) ∧
    (nodeGetPayment (asFault (some tooManyFiles)) store pendingPayment.paymentId = none ∧
      store.lookup (paymentKey pendingPayment.paymentId) ≠ none) ∧
    ¬ HidesNothing peerKind peerRemoved .inOrder peers (fun _ => True)
      (listPeers peerRemoved .inOrder peers) := by
  intro store peers
  have hlist : listPayments failingReads .inOrder store = .ok [] := rfl
  have hlook : store.lookup (paymentKey pendingPayment.paymentId) = some pendingPayment.encode :=
    AList.lookup_insert _
  refine ⟨⟨hlist, fun h => ?_⟩, ⟨rfl, by simp [hlook]⟩, fun h => ?_⟩
  · obtain ⟨e, herr⟩ := h.reported (hexEncode zeroBytes.1) _ hlook (fun _ _ => trivial) (Or.inl rfl)
    rw [hlist] at herr
    cases herr
  · refine h.tolerant ?_
    rfl

end LnNode.Node.HiddenRecords
