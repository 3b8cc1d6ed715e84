import LnNode.Lib.Wire.Torn
import LnNode.Storage.Peers

/-!
# Whether torn records are detected

A file that was partly written holds a part from the front of a record's encoding.

* `tornDetected`: a record is read to the end of its encoding, and no record is read from a part of it;
* `Payment.stream_torn`, `Peers.PeerInfo.stream_torn`: the fields that are required see to that by themselves,
  since the last one is;
* `payment_torn`: so the store returns an error for such a file.
-/

namespace LnNode.Storage

open LnNode.Lib.Wire LnNode.Storage.Peers

/-! ### Readers that say what they leave -/

/-- `Readable::read` of a payment, with the bytes that it leaves. -/
def Payment.readFrom : Reader Payment := readRecord paymentSpec {} PaymentFields.payment

def Peers.PeerInfo.readFrom : Reader PeerInfo := readRecord peerSpec {} PeerFields.peer

lemma Payment.read_eq (bs : Bytes) : Payment.read bs = (Payment.readFrom bs).map Prod.fst := by
  rw [Payment.read, Payment.readFrom, map_fst_readRecord]
  cases readPrefixed paymentSpec {} bs <;> rfl

lemma Peers.PeerInfo.read_eq (bs : Bytes) : PeerInfo.read bs = (PeerInfo.readFrom bs).map Prod.fst := by
  rw [PeerInfo.read, PeerInfo.readFrom, map_fst_readRecord]
  cases readPrefixed peerSpec {} bs <;> rfl

/-! ### Torn records -/

lemma Payment.readFrom_encode (payment : Payment) (rest : Bytes) :
    Payment.readFrom (payment.encode ++ rest) = .ok (payment, rest) := by
  have hfields : payment.fields.payment = .ok payment := rfl
  exact readRecord_write payment.stream_length.2 payment.decode_stream hfields rest

lemma Peers.PeerInfo.readFrom_encode (peer : PeerInfo) (rest : Bytes) :
    PeerInfo.readFrom (peer.encode ++ rest) = .ok (peer, rest) := by
  have hfields : PeerFields.peer { nodeId := some peer.nodeId, address := some peer.address } =
      .ok peer := rfl
  exact readRecord_write peer.stream_length.2 peer.decode_stream hfields rest

lemma Payment.detectsTorn (payment : Payment) : DetectsTorn Payment.encode Payment.readFrom payment :=
  (stable_readRecord _ _ _).detectsTorn Payment.readFrom_encode payment

lemma Peers.PeerInfo.detectsTorn (peer : PeerInfo) :
    DetectsTorn PeerInfo.encode PeerInfo.readFrom peer :=
  (stable_readRecord _ _ _).detectsTorn PeerInfo.readFrom_encode peer

/-- **Torn records are detected.** For every payment and every peer: its encoding is read back and read
to the end, and of no part of it that was written is anything read. -/
theorem tornDetected :
    (∀ payment, DetectsTorn Payment.encode Payment.readFrom payment) ∧
      ∀ peer, DetectsTorn PeerInfo.encode PeerInfo.readFrom peer :=
  ⟨Payment.detectsTorn, PeerInfo.detectsTorn⟩

lemma Payment.read_torn {payment : Payment} {torn : Bytes} (htorn : IsTorn torn payment.encode) :
    ∃ e, Payment.read torn = .error e := by
  rw [Payment.read_eq]
  exact payment.detectsTorn.map_fst htorn

/-! ### Without the length -/

/-- The fields of a payment, with their types. -/
def Payment.records (p : Payment) : List (ℕ × Bytes) :=
  [(0, paymentIdCodec.write p.paymentId), (2, paymentHashCodec.write p.paymentHash),
    (4, preimageOptCodec.write p.paymentPreimage), (6, directionCodec.write p.direction),
    (8, msatOptCodec.write p.amountMsat), (10, msatOptCodec.write p.feePaidMsat)]

lemma Payment.stream_eq (p : Payment) :
    p.stream = encodeStream (p.records ++ [(12, statusCodec.write p.status)]) := by
  simp [Payment.stream, Payment.records, encodeStream]

theorem Payment.stream_torn (p : Payment) {torn : Bytes} (htorn : IsTorn torn p.stream) (fuel : ℕ)
    (st : PaymentFields) : ∃ e, decodeStream paymentSpec fuel none st torn = .error e := by
  rw [p.stream_eq] at htorn
  refine decodeStream_torn (by decide) (by simp [Payment.records]) (fun r hr => ?_) rfl htorn
  simp only [Payment.records, List.cons_append, List.nil_append, List.mem_cons, List.not_mem_nil,
    or_false] at hr
  rcases hr with rfl | rfl | rfl | rfl | rfl | rfl | rfl
  · exact ⟨by norm_num, by rw [paymentIdCodec_length]; norm_num⟩
  · exact ⟨by norm_num, by rw [paymentHashCodec_length]; norm_num⟩
  · exact ⟨by norm_num, (preimageOptCodec_length_le _).trans_lt (by norm_num)⟩
  · exact ⟨by norm_num, (directionCodec_length_le _).trans_lt (by norm_num)⟩
  · exact ⟨by norm_num, (msatOptCodec_length_le _).trans_lt (by norm_num)⟩
  · exact ⟨by norm_num, (msatOptCodec_length_le _).trans_lt (by norm_num)⟩
  · exact ⟨by norm_num, (statusCodec_length_le _).trans_lt (by norm_num)⟩

lemma Peers.PeerInfo.stream_eq (peer : PeerInfo) : peer.stream =
    encodeStream ([(0, publicKeyCodec.write peer.nodeId)] ++
      [(2, socketAddressCodec.write peer.address)]) := by
  simp [PeerInfo.stream, encodeStream]

theorem Peers.PeerInfo.stream_torn (peer : PeerInfo) {torn : Bytes} (htorn : IsTorn torn peer.stream)
    (fuel : ℕ) (st : PeerFields) : ∃ e, decodeStream peerSpec fuel none st torn = .error e := by
  rw [peer.stream_eq] at htorn
  refine decodeStream_torn (by decide) (by simp) (fun r hr => ?_) rfl htorn
  simp only [List.cons_append, List.nil_append, List.mem_cons, List.not_mem_nil, or_false] at hr
  rcases hr with rfl | rfl
  · exact ⟨by norm_num, by rw [publicKeyCodec_length]; norm_num⟩
  · exact ⟨by norm_num, (socketAddressCodec_length_le _).trans_lt (by norm_num)⟩

/-! ### Torn files -/

section Files

variable {ι α : Type} {store : KvStore} {data : Bytes} {name : String}
  {readFault : String → Fault}

lemma readRecords_undecodable {kind : RecordKind ι α} {names : List String} (hname : name ∈ names)
    (hfault : readFault name = none)
    (hdata : store.lookup (kind.keyOf name) = some data) (herror : ∃ e, kind.read data = .error e) :
    ∃ e, readRecords kind readFault store names = .error e := by
  induction names with
  | nil => cases hname
  | cons first names ih =>
    rw [readRecords]
    rcases List.mem_cons.mp hname with rfl | hname
    · obtain ⟨e, he⟩ := herror
      simp only [KvStore.read, hfault, hdata, he]
      exact ⟨_, rfl⟩
    · obtain ⟨e, he⟩ := ih hname
      cases store.read (readFault first) (kind.keyOf first) with
      | error err =>
        simp only [he]
        split_ifs
        · exact ⟨_, rfl⟩
        · exact ⟨_, rfl⟩
      | ok bytes =>
        simp only [he]
        cases kind.read bytes with
        | error err => exact ⟨_, rfl⟩
        | ok a => exact ⟨_, rfl⟩

/-- **No listing is Ok with a file that cannot be decoded.** -/
theorem listRecords_undecodable (kind : RecordKind ι α) (listFault : Fault) (dir : ReadDir)
    (hfault : readFault name = none) (hdata : store.lookup (kind.keyOf name) = some data)
    (herror : ∃ e, kind.read data = .error e) :
    ∃ e, listRecords kind listFault readFault dir store = .error e := by
  cases listFault with
  | some e => exact ⟨e, rfl⟩
  | none =>
    have hname : name ∈ kind.names dir store := by
      rw [mem_names, ← AList.lookup_isSome, hdata]
      rfl
    exact readRecords_undecodable hname hfault hdata herror

/-- **A torn file is no payment**, for the one who asks for it and for those who list all. -/
theorem payment_torn {payment : Payment} {id : PaymentId}
    (hdata : store.lookup (paymentKey id) = some data) (htorn : IsTorn data payment.encode) :
    getPayment none store id = .error (.invalidData "Could not deserialize payment") ∧
      ∀ listFault dir, readFault (hexEncode id.val.1) = none →
        ∃ e, listPayments listFault readFault dir store = .error e := by
  obtain ⟨e, hread⟩ := Payment.read_torn htorn
  refine ⟨by simp only [getPayment, KvStore.read, hdata, hread], fun listFault dir hfault => ?_⟩
  exact listRecords_undecodable paymentKind listFault dir hfault hdata ⟨e, hread⟩

/-- The first five bytes of a record. -/
theorem payment_torn_five :
    let store : KvStore :=
      AList.insert (paymentKey ⟨zeroBytes⟩) (pendingPayment.encode.take 5) (∅ : KvStore)
    getPayment none store ⟨zeroBytes⟩ = .error (.invalidData "Could not deserialize payment") ∧
      ∃ e, listPayments none (fun _ => none) .inOrder store = .error e := by
  intro store
  have htorn : IsTorn (pendingPayment.encode.take 5) pendingPayment.encode :=
    ⟨List.take_prefix _ _, fun h => absurd (congrArg List.length h) (by decide)⟩
  have hdata : store.lookup (paymentKey ⟨zeroBytes⟩) = some (pendingPayment.encode.take 5) :=
    AList.lookup_insert _
  refine ⟨(@payment_torn _ _ (fun _ => none) _ _ hdata htorn).1, ?_⟩
  exact (@payment_torn _ _ (fun _ => none) _ _ hdata htorn).2 none .inOrder rfl

end Files

end LnNode.Storage
