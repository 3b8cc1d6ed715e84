import LnNode.Storage.Listing

/-!
# The node's peer store

`PeerInfo` records, their encoding, and the peer operations of `NodeStore`. A record holds a public
key, of which only encodings of points of the curve are read, and an address of one of five kinds.

* `PeerInfo.read_encode`: a record that was encoded is read back.
-/

namespace LnNode.Storage.Peers

open LnNode.Lib.Wire

/-! ### Public keys -/

/-- The prime of the field of secp256k1. -/
def fieldPrime : ℕ := 2 ^ 256 - 2 ^ 32 - 977

/-- `a ^ n` modulo `m`, for an exponent of so many bits. -/
def powMod (m : ℕ) : ℕ → ℕ → ℕ → ℕ
  | 0, _, _ => 1
  | bits + 1, a, n =>
    let square := powMod m bits (a * a % m) (n / 2)
    if n % 2 = 1 then a * square % m else square

/-- The number is a square of the field, with the root that squaring confirms. -/
def isSquare (c : ℕ) : Bool :=
  let root := powMod fieldPrime 256 c ((fieldPrime + 1) / 4)
  root * root % fieldPrime == c

/-- A parity byte, and the coordinate of a point of the curve `y² = x³ + 7`. -/
def isCompressedPoint (bs : Bytes) : Bool :=
  match bs with
  | [] => false
  | parity :: coordinate =>
    let x := numBE coordinate
    (parity == 2 || parity == 3) && coordinate.length == 32 && decide (x < fieldPrime) &&
      isSquare ((x * x * x + 7) % fieldPrime)

/-- A public key is the 33 bytes it is serialized to. -/
abbrev PublicKey := { bs : Bytes // isCompressedPoint bs = true }

lemma PublicKey.length (key : PublicKey) : key.1.length = 33 := by
  obtain ⟨_ | ⟨parity, coordinate⟩, hvalid⟩ := key
  · cases hvalid
  · simp only [isCompressedPoint, Bool.and_eq_true, beq_iff_eq] at hvalid
    simp [hvalid.1.1.2]

def publicKeyCodec : Codec PublicKey where
  write key := key.1
  read bs :=
    match takeBytes 33 bs with
    | .error e => .error e
    | .ok (v, rest) =>
      if h : isCompressedPoint v = true then .ok (⟨v, h⟩, rest) else .error .invalidValue
  read_write := by
    intro key rest
    simp only [takeBytes_append key.length, key.2, dite_true]

/-! ### Addresses -/

/-- A letter, a digit, a dot, an underscore or a dash. -/
def isHostnameByte (b : UInt8) : Bool :=
  let c := Char.ofNat b.toNat
  c.isAlphanum || c == '.' || c == '_' || c == '-'

/-- Between 1 and 255 such bytes. -/
def isHostname (bs : Bytes) : Bool :=
  !bs.isEmpty && decide (bs.length ≤ 255) && bs.all isHostnameByte

abbrev Hostname := { bs : Bytes // isHostname bs = true }

inductive SocketAddress where
  | tcpIpV4 (addr : { bs : Bytes // bs.length = 4 }) (port : UInt16)
  | tcpIpV6 (addr : { bs : Bytes // bs.length = 16 }) (port : UInt16)
  | onionV2 (bytes : { bs : Bytes // bs.length = 12 })
  | onionV3 (ed25519Pubkey : Bytes32) (checksum : UInt16) (version : UInt8) (port : UInt16)
  | hostname (hostname : Hostname) (port : UInt16)
  deriving DecidableEq

lemma Hostname.length_le (hostname : Hostname) : hostname.1.length ≤ 255 := by
  have h := hostname.2
  simp only [isHostname, Bool.and_eq_true, decide_eq_true_eq] at h
  exact h.1.2

/-- A length byte and the bytes. -/
def hostnameCodec : Codec Hostname where
  write hostname := UInt8.ofNat hostname.1.length :: hostname.1
  read
    | [] => .error .shortRead
    | len :: bs =>
      match takeBytes len.toNat bs with
      | .error e => .error e
      | .ok (v, rest) => if h : isHostname v = true then .ok (⟨v, h⟩, rest) else .error .invalidValue
  read_write := by
    intro hostname rest
    have hlen : (UInt8.ofNat hostname.1.length).toNat = hostname.1.length := by
      have := hostname.length_le
      rw [UInt8.toNat_ofNat']
      omega
    simp only [List.cons_append, hlen, takeBytes_append rfl, hostname.2, dite_true]

def tcpIpV4Codec := (Codec.bytes 4).pair Codec.u16

def tcpIpV6Codec := (Codec.bytes 16).pair Codec.u16

def onionV3Codec := (Codec.bytes 32).pair (Codec.u16.pair (Codec.u8.pair Codec.u16))

def hostnamePortCodec := hostnameCodec.pair Codec.u16

/-- A reader of one kind of address. -/
def readKind {α : Type} (c : Codec α) (into : α → SocketAddress) : Reader SocketAddress := fun bs =>
  match c.read bs with
  | .error e => .error e
  | .ok (a, rest) => .ok (into a, rest)

lemma readKind_write {α : Type} (c : Codec α) (into : α → SocketAddress) (a : α) (rest : Bytes) :
    readKind c into (c.write a ++ rest) = .ok (into a, rest) := by
  simp only [readKind, c.read_write]

/-- The number of the kind, and what an address of the kind consists of. -/
def socketAddressCodec : Codec SocketAddress where
  write
    | .tcpIpV4 addr port => 1 :: tcpIpV4Codec.write (addr, port)
    | .tcpIpV6 addr port => 2 :: tcpIpV6Codec.write (addr, port)
    | .onionV2 bytes => 3 :: (Codec.bytes 12).write bytes
    | .onionV3 key checksum version port => 4 :: onionV3Codec.write (key, checksum, version, port)
    | .hostname hostname port => 5 :: hostnamePortCodec.write (hostname, port)
  read
    | [] => .error .shortRead
    | kind :: bs =>
      if kind = 1 then readKind tcpIpV4Codec (fun (addr, port) => .tcpIpV4 addr port) bs
      else if kind = 2 then readKind tcpIpV6Codec (fun (addr, port) => .tcpIpV6 addr port) bs
      else if kind = 3 then readKind (.bytes 12) .onionV2 bs
      else if kind = 4 then
        readKind onionV3Codec
          (fun (key, checksum, version, port) => .onionV3 key checksum version port) bs
      else if kind = 5 then
        readKind hostnamePortCodec (fun (hostname, port) => .hostname hostname port) bs
      else .error .unknownVersion
  read_write := by
    intro address rest
    cases address with
    | tcpIpV4 addr port => exact readKind_write tcpIpV4Codec _ (addr, port) rest
    | tcpIpV6 addr port => exact readKind_write tcpIpV6Codec _ (addr, port) rest
    | onionV2 bytes => exact readKind_write (.bytes 12) _ bytes rest
    | onionV3 key checksum version port =>
      exact readKind_write onionV3Codec _ (key, checksum, version, port) rest
    | hostname hostname port => exact readKind_write hostnamePortCodec _ (hostname, port) rest

lemma socketAddressCodec_length_le (address : SocketAddress) :
    (socketAddressCodec.write address).length ≤ 259 := by
  cases address with
  | hostname hostname port =>
    have := hostname.length_le
    simp only [socketAddressCodec, hostnamePortCodec, hostnameCodec, Codec.pair, Codec.u16,
      List.length_cons, List.length_append, bytesBE_length]
    omega
  | tcpIpV4 addr port =>
    simp [socketAddressCodec, tcpIpV4Codec, Codec.pair, Codec.bytes, Codec.u16, addr.2]
  | tcpIpV6 addr port =>
    simp [socketAddressCodec, tcpIpV6Codec, Codec.pair, Codec.bytes, Codec.u16, addr.2]
  | onionV2 bytes => simp [socketAddressCodec, Codec.bytes, bytes.2]
  | onionV3 key checksum version port =>
    simp [socketAddressCodec, onionV3Codec, Codec.pair, Codec.bytes, Codec.u16, Codec.u8, key.2]

/-! ### Peer records -/

structure PeerInfo where
  nodeId : PublicKey
  address : SocketAddress
  deriving DecidableEq

/-- The fields of a record while its stream is read. -/
structure PeerFields where
  nodeId : Option PublicKey := none
  address : Option SocketAddress := none

def peerSpec : StreamSpec PeerFields where
  required := [0, 2]
  decode
    | 0 => some (field publicKeyCodec fun x st => { st with nodeId := some x })
    | 2 => some (field socketAddressCodec fun x st => { st with address := some x })
    | _ => none

def PeerInfo.stream (peer : PeerInfo) : Bytes :=
  record 0 (publicKeyCodec.write peer.nodeId) ++
  (record 2 (socketAddressCodec.write peer.address) ++ [])

def PeerInfo.encode (peer : PeerInfo) : Bytes := writePrefixed peer.stream

/-- The record of the fields that were read; a field that was not is an invalid value. -/
def PeerFields.peer (st : PeerFields) : Except DecodeError PeerInfo :=
  match st.nodeId, st.address with
  | some nodeId, some address => .ok { nodeId, address }
  | _, _ => .error .invalidValue

def PeerInfo.read (bs : Bytes) : Except DecodeError PeerInfo :=
  match readPrefixed peerSpec {} bs with
  | .error e => .error e
  | .ok (st, _) => st.peer

lemma publicKeyCodec_length (key : PublicKey) : (publicKeyCodec.write key).length = 33 := key.length

lemma PeerInfo.stream_length (peer : PeerInfo) :
    2 ≤ peer.stream.length ∧ peer.stream.length < 2 ^ 64 := by
  have hpos : ∀ typ value, 1 ≤ (record typ value).length := fun typ value =>
    List.length_pos_iff.mpr (record_ne_nil typ value)
  have h0 := record_length_le 0 (publicKeyCodec.write peer.nodeId)
  have h2 := record_length_le 2 (socketAddressCodec.write peer.address)
  rw [publicKeyCodec_length] at h0
  have g2 := socketAddressCodec_length_le peer.address
  have p0 := hpos 0 (publicKeyCodec.write peer.nodeId)
  have p2 := hpos 2 (socketAddressCodec.write peer.address)
  simp only [PeerInfo.stream, List.length_append, List.length_nil]
  omega

lemma PeerInfo.decode_stream (peer : PeerInfo) :
    decodeStream peerSpec (peer.stream.length + 1) none {} peer.stream =
      .ok { nodeId := some peer.nodeId, address := some peer.address } := by
  obtain ⟨h2, -⟩ := peer.stream_length
  obtain ⟨fuel, hfuel⟩ : ∃ fuel, peer.stream.length + 1 = fuel + 3 :=
    ⟨peer.stream.length - 2, by omega⟩
  have g2 := socketAddressCodec_length_le peer.address
  rw [hfuel, PeerInfo.stream]
  rw [decodeStream_record _ _ rfl (by norm_num) (by rw [publicKeyCodec_length]; norm_num) rfl rfl]
  rw [decodeStream_record _ _ rfl (by norm_num) (by omega) rfl rfl]
  rw [decodeStream_nil rfl]

theorem PeerInfo.read_encode (peer : PeerInfo) : PeerInfo.read peer.encode = .ok peer := by
  have h := readPrefixed_write peer.stream_length.2 peer.decode_stream []
  rw [List.append_nil] at h
  rw [PeerInfo.read, PeerInfo.encode, h]
  rfl

lemma PeerInfo.encode_injective : Function.Injective PeerInfo.encode := by
  intro p q h
  have hq := q.read_encode
  rw [← h, p.read_encode] at hq
  exact Except.ok.inj hq

/-! ### `NodeStore` -/

def peersPrimaryNamespace : String := "peers"

def peersSecondaryNamespace : String := ""

def peerKind : RecordKind PublicKey PeerInfo where
  primaryNamespace := peersPrimaryNamespace
  secondaryNamespace := peersSecondaryNamespace
  name key := hexEncode key.1
  name_injective := by
    intro a b h
    exact Subtype.ext (hexEncode_injective h)
  id := PeerInfo.nodeId
  encode := PeerInfo.encode
  read := PeerInfo.read
  read_encode := PeerInfo.read_encode
  undecodable := "Could not deserialize peer info"
  skipsUnreadable := false

/-- The key of a peer: its public key in hexadecimal. -/
def peerKey (pubkey : PublicKey) : StoreKey where
  primaryNamespace := peersPrimaryNamespace
  secondaryNamespace := peersSecondaryNamespace
  key := hexEncode pubkey.1

def addPeer (fault : Fault) (store : KvStore) (peer : PeerInfo) : Except IoError KvStore :=
  store.write fault (peerKey peer.nodeId) peer.encode

def removePeer (fault : Fault) (store : KvStore) (pubkey : PublicKey) : Except IoError KvStore :=
  store.remove fault (peerKey pubkey)

def listPeers (listFault : Fault) (readFault : String → Fault) (dir : ReadDir) (store : KvStore) :
    Except IoError (List PeerInfo) :=
  listRecords peerKind listFault readFault dir store

/-! ### A peer -/

/-- The key of the generator of the curve. -/
def generatorKey : PublicKey :=
  ⟨2 :: bytesBE 32 0x79BE667EF9DCBBAC55A06295CE870B07029BFCDB2DCE28D959F2815B16F81798, by
    decide +kernel⟩

end LnNode.Storage.Peers
