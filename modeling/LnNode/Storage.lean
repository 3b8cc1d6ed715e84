import Mathlib.Data.List.AList
import LnNode.Lib.Wire

/-!
# The node's payment store

`Payment` records, their length-prefixed TLV encoding, and the payment operations of `NodeStore`
over a key-value store of byte strings. Every operation takes the fault that the file system raises
during it, if any: a faulty read returns its error, a faulty write returns its error and leaves the
store as it was.

The interface of the module is `getPayment_written`: what a successful write leaves for the next
read. Nothing outside looks at the bytes.
-/

namespace LnNode.Storage

open LnNode.Lib.Wire

/-! ### Payment identifiers -/

abbrev Bytes32 := { bs : Bytes // bs.length = 32 }

structure PaymentId where
  val : Bytes32
  deriving DecidableEq

structure PaymentHash where
  val : Bytes32
  deriving DecidableEq

structure PaymentPreimage where
  val : Bytes32
  deriving DecidableEq

/-! ### Payment records -/

inductive PaymentDirection where
  | inbound
  | outbound
  deriving DecidableEq, Repr

inductive PaymentStatus where
  | pending
  | succeeded
  | failed
  deriving DecidableEq, Repr

structure Payment where
  paymentId : PaymentId
  paymentHash : PaymentHash
  paymentPreimage : Option PaymentPreimage
  direction : PaymentDirection
  amountMsat : Option UInt64
  feePaidMsat : Option UInt64
  status : PaymentStatus
  deriving DecidableEq

/-! ### The encoding -/

def PaymentDirection.id : PaymentDirection → UInt8
  | .inbound => 0
  | .outbound => 2

def PaymentDirection.ofId (b : UInt8) : Option PaymentDirection :=
  if b = 0 then some .inbound else if b = 2 then some .outbound else none

def PaymentStatus.id : PaymentStatus → UInt8
  | .pending => 0
  | .succeeded => 2
  | .failed => 4

def PaymentStatus.ofId (b : UInt8) : Option PaymentStatus :=
  if b = 0 then some .pending else if b = 2 then some .succeeded
  else if b = 4 then some .failed else none

def directionCodec : Codec PaymentDirection :=
  .enum PaymentDirection.id PaymentDirection.ofId fun d => by cases d <;> rfl

def statusCodec : Codec PaymentStatus :=
  .enum PaymentStatus.id PaymentStatus.ofId fun s => by cases s <;> rfl

def paymentIdCodec : Codec PaymentId := (Codec.bytes 32).wrap PaymentId.mk PaymentId.val fun _ => rfl

def paymentHashCodec : Codec PaymentHash :=
  (Codec.bytes 32).wrap PaymentHash.mk PaymentHash.val fun _ => rfl

def preimageCodec : Codec PaymentPreimage :=
  (Codec.bytes 32).wrap PaymentPreimage.mk PaymentPreimage.val fun _ => rfl

lemma preimageCodec_length (p : PaymentPreimage) : (preimageCodec.write p).length = 32 := p.val.2

def preimageOptCodec : Codec (Option PaymentPreimage) :=
  preimageCodec.option fun p => by rw [preimageCodec_length]; norm_num

def msatOptCodec : Codec (Option UInt64) :=
  Codec.u64.option fun n => by simp [Codec.u64]

/-- The fields of a record while its stream is read, none of them seen at first. -/
structure PaymentFields where
  paymentId : Option PaymentId := none
  paymentHash : Option PaymentHash := none
  paymentPreimage : Option (Option PaymentPreimage) := none
  direction : Option PaymentDirection := none
  amountMsat : Option (Option UInt64) := none
  feePaidMsat : Option (Option UInt64) := none
  status : Option PaymentStatus := none

/-- The types of a payment's fields, all of them required. -/
def paymentSpec : StreamSpec PaymentFields where
  required := [0, 2, 4, 6, 8, 10, 12]
  decode
    | 0 => some (field paymentIdCodec fun x st => { st with paymentId := some x })
    | 2 => some (field paymentHashCodec fun x st => { st with paymentHash := some x })
    | 4 => some (field preimageOptCodec fun x st => { st with paymentPreimage := some x })
    | 6 => some (field directionCodec fun x st => { st with direction := some x })
    | 8 => some (field msatOptCodec fun x st => { st with amountMsat := some x })
    | 10 => some (field msatOptCodec fun x st => { st with feePaidMsat := some x })
    | 12 => some (field statusCodec fun x st => { st with status := some x })
    | _ => none

def Payment.stream (p : Payment) : Bytes :=
  record 0 (paymentIdCodec.write p.paymentId) ++
  (record 2 (paymentHashCodec.write p.paymentHash) ++
  (record 4 (preimageOptCodec.write p.paymentPreimage) ++
  (record 6 (directionCodec.write p.direction) ++
  (record 8 (msatOptCodec.write p.amountMsat) ++
  (record 10 (msatOptCodec.write p.feePaidMsat) ++
  (record 12 (statusCodec.write p.status) ++ []))))))

def Payment.encode (p : Payment) : Bytes := writePrefixed p.stream

/-- The record of the fields that were read; a field that was not is an invalid value. -/
def PaymentFields.payment (st : PaymentFields) : Except DecodeError Payment :=
  match st.paymentId, st.paymentHash, st.paymentPreimage, st.direction, st.amountMsat,
    st.feePaidMsat, st.status with
  | some paymentId, some paymentHash, some paymentPreimage, some direction, some amountMsat,
    some feePaidMsat, some status =>
    .ok { paymentId, paymentHash, paymentPreimage, direction, amountMsat, feePaidMsat, status }
  | _, _, _, _, _, _, _ => .error .invalidValue

def Payment.read (bs : Bytes) : Except DecodeError Payment :=
  match readPrefixed paymentSpec {} bs with
  | .error e => .error e
  | .ok (st, _) => st.payment

/-! ### Reading back what was written -/

lemma paymentIdCodec_length (x : PaymentId) : (paymentIdCodec.write x).length = 32 := x.val.2

lemma paymentHashCodec_length (x : PaymentHash) : (paymentHashCodec.write x).length = 32 := x.val.2

lemma preimageOptCodec_length_le (x : Option PaymentPreimage) :
    (preimageOptCodec.write x).length ≤ 41 := by
  cases x with
  | none => exact (writeBigSize_length_le 0).trans (by norm_num)
  | some x =>
    have h := writeBigSize_length_le ((preimageCodec.write x).length + 1)
    have hx := preimageCodec_length x
    simp only [preimageOptCodec, Codec.option, List.length_append]
    omega

lemma msatOptCodec_length_le (x : Option UInt64) : (msatOptCodec.write x).length ≤ 17 := by
  cases x with
  | none => exact (writeBigSize_length_le 0).trans (by norm_num)
  | some x =>
    have h := writeBigSize_length_le ((Codec.u64.write x).length + 1)
    have hx : (Codec.u64.write x).length = 8 := by simp [Codec.u64]
    simp only [msatOptCodec, Codec.option, List.length_append]
    omega

lemma directionCodec_length_le (x : PaymentDirection) : (directionCodec.write x).length ≤ 10 := by
  have h := writeBigSize_length_le ([] : Bytes).length
  simp only [directionCodec, Codec.enum, writePrefixed, List.length_cons, List.length_append]
  simp only [List.length_nil] at h ⊢
  omega

lemma statusCodec_length_le (x : PaymentStatus) : (statusCodec.write x).length ≤ 10 := by
  have h := writeBigSize_length_le ([] : Bytes).length
  simp only [statusCodec, Codec.enum, writePrefixed, List.length_cons, List.length_append]
  simp only [List.length_nil] at h ⊢
  omega

lemma record_length_le (typ : ℕ) (value : Bytes) : (record typ value).length ≤ 18 + value.length := by
  have h1 := writeBigSize_length_le typ
  have h2 := writeBigSize_length_le value.length
  simp only [record, List.length_append]
  omega

lemma Payment.stream_length (p : Payment) : 7 ≤ p.stream.length ∧ p.stream.length < 2 ^ 64 := by
  have hpos : ∀ typ value, 1 ≤ (record typ value).length := fun typ value =>
    List.length_pos_iff.mpr (record_ne_nil typ value)
  have h0 := record_length_le 0 (paymentIdCodec.write p.paymentId)
  have h2 := record_length_le 2 (paymentHashCodec.write p.paymentHash)
  have h4 := record_length_le 4 (preimageOptCodec.write p.paymentPreimage)
  have h6 := record_length_le 6 (directionCodec.write p.direction)
  have h8 := record_length_le 8 (msatOptCodec.write p.amountMsat)
  have h10 := record_length_le 10 (msatOptCodec.write p.feePaidMsat)
  have h12 := record_length_le 12 (statusCodec.write p.status)
  rw [paymentIdCodec_length] at h0
  rw [paymentHashCodec_length] at h2
  have g4 := preimageOptCodec_length_le p.paymentPreimage
  have g6 := directionCodec_length_le p.direction
  have g8 := msatOptCodec_length_le p.amountMsat
  have g10 := msatOptCodec_length_le p.feePaidMsat
  have g12 := statusCodec_length_le p.status
  have p0 := hpos 0 (paymentIdCodec.write p.paymentId)
  have p2 := hpos 2 (paymentHashCodec.write p.paymentHash)
  have p4 := hpos 4 (preimageOptCodec.write p.paymentPreimage)
  have p6 := hpos 6 (directionCodec.write p.direction)
  have p8 := hpos 8 (msatOptCodec.write p.amountMsat)
  have p10 := hpos 10 (msatOptCodec.write p.feePaidMsat)
  have p12 := hpos 12 (statusCodec.write p.status)
  simp only [Payment.stream, List.length_append, List.length_nil]
  omega

/-- The fields of a record, all of them seen. -/
def Payment.fields (p : Payment) : PaymentFields where
  paymentId := some p.paymentId
  paymentHash := some p.paymentHash
  paymentPreimage := some p.paymentPreimage
  direction := some p.direction
  amountMsat := some p.amountMsat
  feePaidMsat := some p.feePaidMsat
  status := some p.status

lemma Payment.decode_stream (p : Payment) :
    decodeStream paymentSpec (p.stream.length + 1) none {} p.stream = .ok p.fields := by
  obtain ⟨h7, -⟩ := p.stream_length
  obtain ⟨fuel, hfuel⟩ : ∃ fuel, p.stream.length + 1 = fuel + 8 := ⟨p.stream.length - 7, by omega⟩
  have g4 := preimageOptCodec_length_le p.paymentPreimage
  have g6 := directionCodec_length_le p.direction
  have g8 := msatOptCodec_length_le p.amountMsat
  have g10 := msatOptCodec_length_le p.feePaidMsat
  have g12 := statusCodec_length_le p.status
  rw [hfuel, Payment.stream]
  rw [decodeStream_record _ _ rfl (by norm_num) (by rw [paymentIdCodec_length]; norm_num) rfl rfl]
  rw [decodeStream_record _ _ rfl (by norm_num) (by rw [paymentHashCodec_length]; norm_num) rfl rfl]
  rw [decodeStream_record _ _ rfl (by norm_num) (by omega) rfl rfl]
  rw [decodeStream_record _ _ rfl (by norm_num) (by omega) rfl rfl]
  rw [decodeStream_record _ _ rfl (by norm_num) (by omega) rfl rfl]
  rw [decodeStream_record _ _ rfl (by norm_num) (by omega) rfl rfl]
  rw [decodeStream_record _ _ rfl (by norm_num) (by omega) rfl rfl]
  rw [decodeStream_nil rfl]
  rfl

theorem Payment.read_encode (p : Payment) : Payment.read p.encode = .ok p := by
  have h := readPrefixed_write p.stream_length.2 p.decode_stream []
  rw [List.append_nil] at h
  rw [Payment.read, Payment.encode, h]
  rfl

lemma Payment.encode_injective : Function.Injective Payment.encode := by
  intro p q h
  have hq := q.read_encode
  rw [← h, p.read_encode] at hq
  exact Except.ok.inj hq

/-! ### The key-value store -/

structure StoreKey where
  primaryNamespace : String
  secondaryNamespace : String
  key : String
  deriving DecidableEq

/-- What the files of a key-value store hold. -/
abbrev KvStore := AList fun _ : StoreKey => Bytes

inductive IoError where
  | notFound
  | invalidData (message : String)
  | other (message : String)
  deriving DecidableEq, Repr

/-- The fault of one file operation, if it has one. -/
abbrev Fault := Option IoError

def KvStore.read (fault : Fault) (store : KvStore) (key : StoreKey) : Except IoError Bytes :=
  match fault with
  | some e => .error e
  | none =>
    match store.lookup key with
    | some data => .ok data
    | none => .error .notFound

def KvStore.write (fault : Fault) (store : KvStore) (key : StoreKey) (data : Bytes) :
    Except IoError KvStore :=
  match fault with
  | some e => .error e
  | none => .ok (store.insert key data)

/-- Removing a key that is not there succeeds. -/
def KvStore.remove (fault : Fault) (store : KvStore) (key : StoreKey) : Except IoError KvStore :=
  match fault with
  | some e => .error e
  | none => .ok (store.erase key)

/-! ### `NodeStore` -/

def paymentsPrimaryNamespace : String := "payments"

def paymentsSecondaryNamespace : String := ""

/-- The key of a payment: its id in hexadecimal. -/
def paymentKey (id : PaymentId) : StoreKey where
  primaryNamespace := paymentsPrimaryNamespace
  secondaryNamespace := paymentsSecondaryNamespace
  key := hexEncode id.val.1

def addPayment (fault : Fault) (store : KvStore) (payment : Payment) : Except IoError KvStore :=
  store.write fault (paymentKey payment.paymentId) payment.encode

def updatePayment (fault : Fault) (store : KvStore) (payment : Payment) : Except IoError KvStore :=
  addPayment fault store payment

def getPayment (fault : Fault) (store : KvStore) (paymentId : PaymentId) : Except IoError Payment :=
  match store.read fault (paymentKey paymentId) with
  | .error e => .error e
  | .ok data =>
    match Payment.read data with
    | .error _ => .error (.invalidData "Could not deserialize payment")
    | .ok payment => .ok payment

def removePayment (fault : Fault) (store : KvStore) (paymentId : PaymentId) :
    Except IoError KvStore :=
  store.remove fault (paymentKey paymentId)

/-! ### What a write leaves for the next read -/

theorem paymentKey_injective : Function.Injective paymentKey := by
  rintro ⟨a, ha⟩ ⟨b, hb⟩ h
  have := hexEncode_injective (congrArg StoreKey.key h)
  simpa using this

/-- The store after a successful write of a record. -/
def written (store : KvStore) (payment : Payment) : KvStore :=
  store.insert (paymentKey payment.paymentId) payment.encode

@[simp] lemma addPayment_ok (store : KvStore) (payment : Payment) :
    addPayment none store payment = .ok (written store payment) := rfl

@[simp] lemma addPayment_fault (e : IoError) (store : KvStore) (payment : Payment) :
    addPayment (some e) store payment = .error e := rfl

theorem getPayment_written (store : KvStore) (payment : Payment) (id : PaymentId) :
    getPayment none (written store payment) id =
      if id = payment.paymentId then .ok payment else getPayment none store id := by
  unfold getPayment written KvStore.read
  split_ifs with h
  · subst h
    simp only [AList.lookup_insert, Payment.read_encode]
  · have hk : paymentKey id ≠ paymentKey payment.paymentId := fun e => h (paymentKey_injective e)
    simp only [AList.lookup_insert_ne hk]

@[simp] lemma getPayment_written_self (store : KvStore) (payment : Payment) :
    getPayment none (written store payment) payment.paymentId = .ok payment := by
  rw [getPayment_written, if_pos rfl]

lemma getPayment_written_of_ne {store : KvStore} {payment : Payment} {id : PaymentId}
    (h : id ≠ payment.paymentId) :
    getPayment none (written store payment) id = getPayment none store id := by
  rw [getPayment_written, if_neg h]

lemma getPayment_none_of_ok {fault : Fault} {store : KvStore} {id : PaymentId} {payment : Payment}
    (hg : getPayment fault store id = .ok payment) : getPayment none store id = .ok payment := by
  cases fault with
  | none => exact hg
  | some err => cases hg

@[simp] lemma getPayment_empty (id : PaymentId) : getPayment none ∅ id = .error .notFound := rfl

/-! ### Records under their own ids -/

/-- Every record that is read is the record of the id it is read under. -/
def OwnKeyed (store : KvStore) : Prop :=
  ∀ id payment, getPayment none store id = .ok payment → payment.paymentId = id

section OwnKeyed

variable {store : KvStore}

lemma ownKeyed_empty : OwnKeyed ∅ := by
  intro id payment hg
  simp at hg

lemma OwnKeyed.written (h : OwnKeyed store) (payment : Payment) :
    OwnKeyed (written store payment) := by
  intro id later hg
  rw [getPayment_written] at hg
  split_ifs at hg with hid
  · cases hg
    exact hid.symm
  · exact h id later hg

lemma OwnKeyed.erase (h : OwnKeyed store) (key : StoreKey) : OwnKeyed (store.erase key) := by
  intro id payment hg
  refine h id payment ?_
  unfold getPayment KvStore.read at hg ⊢
  by_cases hk : paymentKey id = key
  · rw [hk, AList.lookup_erase] at hg
    cases hg
  · rwa [AList.lookup_erase_ne hk] at hg

end OwnKeyed

/-! ### A record -/

def zeroBytes : Bytes32 := ⟨List.replicate 32 0, rfl⟩

def oneBytes : Bytes32 := ⟨List.replicate 32 1, rfl⟩

/-- A pending outbound payment. -/
def pendingPayment : Payment where
  paymentId := ⟨zeroBytes⟩
  paymentHash := ⟨zeroBytes⟩
  paymentPreimage := none
  direction := .outbound
  amountMsat := some 1000
  feePaidMsat := none
  status := .pending

end LnNode.Storage
