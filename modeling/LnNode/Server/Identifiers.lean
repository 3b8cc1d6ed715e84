import LnNode.Server.Clients

/-!
# Whether identifiers in responses can be used

A client takes an identifier out of a response and puts it into a request as it is. The server writes
identifiers in three places: the id of a payment that it has sent, the id in the record of a payment,
and the ids of the channels in their list.

* `renders_eq`, `renders_injective`: what a client finds in each place, and that it tells identifiers apart;
* `serve_hex`, `serve_record`: what the server makes of it;
* `usable_iff`: all can be used but the id in the record of a payment.
-/

namespace LnNode.Server.Identifiers

open LnNode.Lib.Json LnNode.Lib.Wire LnNode.Storage LnNode.Server LnNode.Server.Exchange
  LnNode.Server.Clients LnNode.Lncli

/-! ### Hexadecimal -/

/-- A byte for every two digits, of either case. -/
def readHex : List Char → Option Bytes
  | [] => some []
  | [_] => none
  | hi :: lo :: digits => do
    let hi ← hexVal hi
    let lo ← hexVal lo
    let bs ← readHex digits
    some (UInt8.ofNat (16 * hi + lo) :: bs)

def hexDecode (text : String) : Option Bytes := readHex text.toList

lemma hexVal_hexDigit : ∀ n < 16, hexVal (hexDigit n) = some n := by
  decide

theorem hexDecode_hexEncode (bs : Bytes) : hexDecode (hexEncode bs) = some bs := by
  rw [hexDecode, hexEncode, String.toList_ofList]
  induction bs with
  | nil => rfl
  | cons b bs ih =>
    have hb := b.toNat_lt
    have hhi := hexVal_hexDigit (b.toNat / 16) (by omega)
    have hlo := hexVal_hexDigit (b.toNat % 16) (by omega)
    have hbyte : UInt8.ofNat (16 * (b.toNat / 16) + b.toNat % 16) = b := by
      rw [Nat.div_add_mod]
      exact UInt8.ofNat_toNat
    simp only [List.flatMap_cons, List.cons_append, List.nil_append, readHex, hhi, hlo, ih,
      Option.bind_eq_bind, Option.bind_some, hbyte]

/-! ### Identifiers in responses -/

/-- Where the server writes an identifier. -/
inductive Place where
  | sentPayment
  | paymentRecord
  | channelInfo
  deriving DecidableEq

section Places

variable {F Invoice SocketAddr : Type} (T : FloatText F) (node : NodeCalls F Invoice SocketAddr)

def Place.method : Place → String
  | .sentPayment => "send_payment"
  | .paymentRecord => "get_payment"
  | .channelInfo => "list_channels"

/-- The node has returned the identifier to the request, and the response has this value for it. -/
def Place.Holds (request response : Value F) (id : Bytes32) (v : Value F) : Place → Prop
  | .sentPayment =>
    (∃ text invoice, strParam request "invoice" = some text ∧ node.parseInvoice text = some invoice ∧
      node.payBolt11Invoice invoice none = .ok ⟨id⟩) ∧ response.get "payment_id" = v
  | .paymentRecord =>
    (∃ text bytes asked payment, strParam request "payment_id" = some text ∧
      node.hexDecode text = some bytes ∧ toBytes32 bytes = some asked ∧
      node.getPayment ⟨asked⟩ = some payment ∧ payment.paymentId = ⟨id⟩) ∧
    response.get "payment_id" = v
  | .channelInfo => ∃ (i : ℕ) (channel : ChannelInfo) (channels : List (Value F)),
    node.listChannels[i]? = some channel ∧ channel.channelId = id ∧
    response.get "channels" = .array channels ∧ channels[i]?.map (Value.get "channel_id") = some v

/-- A client parses a response of the server, and finds the value where the identifier is to be. -/
def Renders (place : Place) (id : Bytes32) (v : Value F) : Prop :=
  ∃ request response parsed, (request.get "method").asStr = some place.method ∧
    respond node request = some response ∧ fromSlice T (toBytes T response) = some parsed ∧
    place.Holds node request parsed id v

/-! ### Identifiers in requests -/

def Place.request (v : Value F) : Place → Value F
  | .sentPayment => paramsRequest "get_payment" [("payment_id", v)]
  | .paymentRecord => paramsRequest "get_payment" [("payment_id", v)]
  | .channelInfo => paramsRequest "close_channel" [("channel_id", v)]

/-- The response to a request for the payment or the channel. -/
def Place.reply (id : Bytes32) : Place → Value F
  | .channelInfo => replyJson (node.closeChannel id) (fun _ => resultJson "Channel closed")
      fun e => resultJson ("Could not close channel " ++ e)
  | _ =>
    match node.getPayment ⟨id⟩ with
    | some payment => serializePayment payment
    | none => resultJson "Payment not found"

/-- A client that sends the request, all of which is there when the server reads. -/
def userClient (place : Place) (v : Value F) (taken : ℕ) : Client F Invoice SocketAddr where
  sent := toBytes T (place.request v)
  arrival := .bytes (toBytes T (place.request v)).size
  taken := some taken
  node := { node with hexDecode := hexDecode }

/-- The value can be used as the identifier: whatever the node returns, the request is answered with
what it returns for that identifier. And no other identifier is rendered so. -/
structure Usable (Invoice SocketAddr : Type) (T : FloatText F) (place : Place) (id : Bytes32)
    (v : Value F) : Prop where
  accepted : ∀ (node : NodeCalls F Invoice SocketAddr) (taken : ℕ),
    serve T (userClient T node place v taken) = .answered (place.reply node id) taken
  distinct : ∀ (node : NodeCalls F Invoice SocketAddr) (place' : Place) (id' : Bytes32),
    Renders T node place' id' v → id' = id

end Places

/-! ### What a client finds -/

section Renders

variable {F Invoice SocketAddr : Type} {T : FloatText F} {node : NodeCalls F Invoice SocketAddr}
  {place place' : Place} {id id' : Bytes32} {v : Value F}

/-- A string of digits, or an array of numbers. -/
def Place.rendering (id : Bytes32) : Place → Value F
  | .sentPayment => .string (hexEncode id.val)
  | .paymentRecord => ofBytes id.val
  | .channelInfo => .string (hexEncode id.val)

lemma get_listChannels (node : NodeCalls F Invoice SocketAddr) :
    (listChannels node).get "channels" = .array (node.listChannels.map ChannelInfo.serialize) := by
  simp [listChannels, get_ofFields]

lemma get_serialize (channel : ChannelInfo) :
    (channel.serialize : Value F).get "channel_id" = .string (hexEncode channel.channelId.val) := by
  simp [ChannelInfo.serialize, get_ofFields, lookup_cons_eq]

lemma get_serializePayment (payment : Payment) :
    (serializePayment payment : Value F).get "payment_id" = ofBytes payment.paymentId.val.val := by
  simp [serializePayment, get_ofFields, lookup_cons_eq]

theorem renders_eq (h : Renders T node place id v) : v = place.rendering id := by
  obtain ⟨request, response, parsed, hmethod, hresponse, hparsed, hholds⟩ := h
  cases place with
  | sentPayment =>
    obtain ⟨⟨text, invoice, htext, hinvoice, hpay⟩, rfl⟩ := hholds
    have hsent : sendPayment node text = some response := by
      simpa [respond, hmethod, Place.method, htext] using hresponse
    rw [fromSlice_toBytes (isMessage_sendPayment node T hsent).wellFormed] at hparsed
    obtain rfl := Option.some.inj hparsed
    rw [sendPayment, hinvoice] at hsent
    obtain rfl := Option.some.inj hsent
    simp [hpay, replyJson, get_ofFields, Place.rendering]
  | paymentRecord =>
    obtain ⟨⟨text, bytes, asked, payment, htext, hbytes, hasked, hpayment, hid⟩, rfl⟩ := hholds
    have hgot : Server.getPayment node text = some response := by
      simpa [respond, hmethod, Place.method, htext] using hresponse
    rw [fromSlice_toBytes (isMessage_getPayment node T hgot).wellFormed] at hparsed
    obtain rfl := Option.some.inj hparsed
    have hrecord : Server.getPayment node text = some (serializePayment payment) := by
      simp [Server.getPayment, hbytes, hasked, hpayment]
    obtain rfl := Option.some.inj (hgot.symm.trans hrecord)
    rw [get_serializePayment, hid]
    rfl
  | channelInfo =>
    obtain ⟨i, channel, channels, hi, rfl, hchannels, hv⟩ := hholds
    have hlisted : listChannels node = response := by
      simpa [respond, hmethod, Place.method] using hresponse
    subst hlisted
    rw [fromSlice_toBytes (isMessage_listChannels node T).wellFormed] at hparsed
    obtain rfl := Option.some.inj hparsed
    rw [get_listChannels] at hchannels
    injection hchannels with hchannels
    rw [← hchannels, List.getElem?_map, hi, Option.map_some, Option.map_some, get_serialize] at hv
    exact (Option.some.inj hv).symm

lemma ofBytes_injective : Function.Injective (ofBytes : Bytes → Value F) := by
  intro xs ys h
  injection h with h
  refine List.map_injective_iff.mpr (fun a b hab => ?_) h
  injection hab with hab
  exact UInt8.toNat_inj.mp (by simpa using congrArg Subtype.val hab)

theorem renders_injective {node' : NodeCalls F Invoice SocketAddr} (h : Renders T node place id v)
    (h' : Renders T node' place' id' v) : id' = id := by
  have heq : (place'.rendering id' : Value F) = place.rendering id :=
    (renders_eq h').symm.trans (renders_eq h)
  have hhex : ∀ x y : Bytes32, (.string (hexEncode x.val) : Value F) = .string (hexEncode y.val) →
      x = y := by
    intro x y hxy
    injection hxy with hxy
    exact Subtype.ext (hexEncode_injective hxy)
  cases place <;> cases place' <;> simp only [Place.rendering] at heq
  · exact hhex _ _ heq
  · cases heq
  · exact hhex _ _ heq
  · cases heq
  · exact Subtype.ext (ofBytes_injective heq)
  · cases heq
  · exact hhex _ _ heq
  · cases heq
  · exact hhex _ _ heq

end Renders

/-! ### What the server makes of it -/

section Use

variable {F Invoice SocketAddr : Type} (T : FloatText F) (node : NodeCalls F Invoice SocketAddr)
  (taken : ℕ)

lemma isMessage_use (place place' : Place) (id : Bytes32) :
    IsMessage T (place'.request (place.rendering id : Value F)) := by
  cases place <;> cases place' <;> exact isMessage_paramsRequest (by simp [Place.rendering])

lemma size_hexRequest (place : Place) (id : Bytes32) :
    (toBytes T (place.request (.string (hexEncode id.val)) : Value F)).size ≤ requestBuffer := by
  have hhex : (printString (hexEncode id.val)).length ≤ 386 := by
    have hle := length_printString_le (hexEncode id.val)
    rwa [length_hexEncode, id.property] at hle
  have hlength : (print T (place.request (.string (hexEncode id.val)) : Value F)).length ≤ 552 := by
    have hnames : (printString "get_payment").length = 13 ∧ (printString "payment_id").length = 12 ∧
        (printString "close_channel").length = 15 ∧ (printString "channel_id").length = 12 := by decide
    cases place <;> rw [Place.request, length_paramsRequest, print] <;> omega
  have hsize := size_le_length T (place.request (.string (hexEncode id.val)) : Value F)
  rw [requestBuffer]
  omega

/-- What the server parses: the request, or nothing of one that its buffer does not hold. -/
lemma fromSlice_userClient {place : Place} {v : Value F} (hmessage : IsMessage T (place.request v)) :
    fromSlice T ((userClient T node place v taken).buffer (toBytes T (place.request v)).size) =
      if (toBytes T (place.request v)).size ≤ requestBuffer then some (place.request v) else none := by
  rw [Client.buffer, userClient]
  split_ifs with hsize
  · exact (fromSlice_extract_iff hmessage _).mpr (le_min (Nat.le_refl _) hsize)
  · refine fromSlice_cut hmessage ?_
    exact (Nat.min_le_right _ _).trans_lt (Nat.not_le.mp hsize)

theorem serve_hex (place : Place) (id : Bytes32) :
    serve T (userClient T node place (.string (hexEncode id.val)) taken) =
      .answered (place.reply node id) taken := by
  have hparsed := fromSlice_userClient T node taken (isMessage_use T .sentPayment place id)
  rw [Place.rendering, if_pos (size_hexRequest T place id)] at hparsed
  have hbytes : toBytes32 id.val = some id := dif_pos id.property
  rw [serve_of_parsed rfl hparsed rfl]
  cases place with
  | channelInfo =>
    simp [respond, userClient, Place.request, Place.reply, strParam, get_ofFields, closeChannel,
      hexDecode_hexEncode, hbytes]
  | _ =>
    simp only [respond, userClient, Place.request, Place.reply, strParam, method_paramsRequest,
      params_paramsRequest, Server.getPayment, Option.bind_eq_bind, Option.bind_some]
    simp [get_ofFields, hexDecode_hexEncode, hbytes]
    cases node.getPayment ⟨id⟩ <;> rfl

/-- **The bytes of a record** are no string, and the server panics. -/
theorem serve_record (place : Place) (id : Bytes32) :
    serve T (userClient T node place (ofBytes id.val) taken) = .panics := by
  have hparsed := fromSlice_userClient T node taken (isMessage_use T .paymentRecord place id)
  rw [Place.rendering] at hparsed
  by_cases hsize : (toBytes T (place.request (ofBytes id.val) : Value F)).size ≤ requestBuffer
  · rw [if_pos hsize] at hparsed
    have harray : (ofBytes id.val : Value F).asStr = none := rfl
    have hnone : respond (userClient T node place (ofBytes id.val) taken).node
        (place.request (ofBytes id.val)) = none := by
      cases place <;> simp [respond, Place.request, strParam, get_ofFields, harray]
    rw [serve_of_parsed rfl hparsed rfl, hnone]
  · rw [if_neg hsize] at hparsed
    have harrival : (userClient T node place (ofBytes id.val) taken).arrival =
      .bytes (toBytes T (place.request (ofBytes id.val))).size := rfl
    rw [serve, harrival]
    simp only [hparsed]

end Use

/-- **When an identifier in a response can be used.** For every identifier, every node that returns it
and every value that a client finds for it in a response: the value is accepted, as that identifier and
no other, exactly if it was not found in the record of a payment. -/
theorem usable_iff {F Invoice SocketAddr : Type} (T : FloatText F) (node : NodeCalls F Invoice SocketAddr)
    {place : Place} {id : Bytes32} {v : Value F} (h : Renders T node place id v) :
    Usable Invoice SocketAddr T place id v ↔ place ≠ .paymentRecord := by
  have hdistinct : ∀ (node' : NodeCalls F Invoice SocketAddr) (place' : Place) (id' : Bytes32),
      Renders T node' place' id' v → id' = id := fun _ _ _ h' => renders_injective h h'
  obtain rfl := renders_eq h
  constructor
  · rintro husable rfl
    have haccepted := husable.accepted node 0
    rw [Place.rendering, serve_record] at haccepted
    cases haccepted
  · intro hplace
    refine ⟨fun node' taken => ?_, hdistinct⟩
    cases place with
    | paymentRecord => exact absurd rfl hplace
    | sentPayment => exact serve_hex T node' taken .sentPayment id
    | channelInfo => exact serve_hex T node' taken .channelInfo id

/-! ### A node that returns one identifier -/

def onePayment (id : Bytes32) : Payment where
  paymentId := ⟨id⟩
  paymentHash := ⟨id⟩
  paymentPreimage := none
  direction := .outbound
  amountMsat := none
  feePaidMsat := none
  status := .pending

/-- It has paid every invoice under the identifier, which is also that of its channel. -/
def oneIdNode (id : Bytes32) : NodeCalls Amount Unit Unit :=
  { sampleNode 0 with
    hexDecode := hexDecode
    parseInvoice := fun _ => some ()
    payBolt11Invoice := fun _ _ => .ok ⟨id⟩
    listChannels := [{ sampleChannel with channelId := id }]
    getPayment := fun _ => some (onePayment id) }

lemma renders_oneIdNode (place : Place) (id : Bytes32) :
    Renders btcText (oneIdNode id) place id (place.rendering id) := by
  have hbytes : toBytes32 id.val = some id := dif_pos id.property
  cases place with
  | sentPayment =>
    have hresponse : respond (oneIdNode id) (paramsRequest "send_payment" [("invoice", .string "")]) =
        some (ofFields [("payment_id", .string (hexEncode id.val))]) := by
      simp [respond, strParam, get_ofFields, sendPayment, oneIdNode, replyJson]
    refine ⟨_, _, _, by simp [Place.method], hresponse,
      fromSlice_toBytes (isMessage_ofFields (by simp)).wellFormed, ⟨"", (), ?_, rfl, rfl⟩, ?_⟩
    · simp [strParam, get_ofFields]
    · simp [get_ofFields, Place.rendering]
  | paymentRecord =>
    have hresponse : respond (oneIdNode id)
        (paramsRequest "get_payment" [("payment_id", .string (hexEncode id.val))]) =
        some (serializePayment (onePayment id)) := by
      simp [respond, strParam, get_ofFields, Server.getPayment, oneIdNode, hexDecode_hexEncode, hbytes]
    refine ⟨_, _, _, by simp [Place.method], hresponse,
      fromSlice_toBytes (isMessage_ofFields (by simp)).wellFormed,
      ⟨hexEncode id.val, id.val, id, _, ?_, hexDecode_hexEncode id.val, hbytes, rfl, rfl⟩, ?_⟩
    · simp [strParam, get_ofFields]
    · rw [get_serializePayment]
      rfl
  | channelInfo =>
    have hresponse : respond (oneIdNode id) (bareRequest "list_channels") =
        some (listChannels (oneIdNode id)) := by
      simp [respond]
    refine ⟨_, _, _, by simp [Place.method], hresponse,
      fromSlice_toBytes (isMessage_listChannels _ _).wellFormed, 0, _, _, rfl, rfl,
      get_listChannels _, ?_⟩
    rw [List.getElem?_map]
    exact congrArg some (get_serialize _)

theorem usable_iff_at : Usable Unit Unit btcText .sentPayment zeroBytes (.string (hexEncode zeroBytes.val)) :=
  (usable_iff btcText (oneIdNode zeroBytes) (renders_oneIdNode .sentPayment zeroBytes)).mpr (by decide)

/-- **The id in the record of a payment stops the server** of a client that asks with it. -/
theorem not_usable_record :
    Renders btcText (oneIdNode zeroBytes) .paymentRecord zeroBytes (ofBytes zeroBytes.val) ∧
    serve btcText (userClient btcText (oneIdNode zeroBytes) .paymentRecord (ofBytes zeroBytes.val) 4096) =
      .panics ∧
    ¬ Usable Unit Unit btcText .paymentRecord zeroBytes (ofBytes zeroBytes.val) := by
  have hserve := serve_record btcText (oneIdNode zeroBytes) 4096 .paymentRecord zeroBytes
  refine ⟨renders_oneIdNode .paymentRecord zeroBytes, hserve, fun husable => ?_⟩
  have haccepted := husable.accepted (oneIdNode zeroBytes) 4096
  rw [hserve] at haccepted
  cases haccepted

end LnNode.Server.Identifiers
