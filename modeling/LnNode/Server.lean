import LnNode.Lib.Json.CutOff
import LnNode.Storage.Peers

/-!
# The Unix socket server

What `start_server` answers a request with: the match on the method, the parameters that each arm
reads, the calls of the node, and the JSON objects that are built of what these return.

* `isMessage_listChannels` and its siblings: every response is an object whose text is read back.

The node is a parameter, and so are the readers of the arguments, which are code outside the
repository. An `unwrap` that fails makes the task panic, which is `none` here.
-/

namespace LnNode.Server

open LnNode.Lib.Json LnNode.Lib.Wire LnNode.Storage LnNode.Storage.Peers

/-! ### What the node returns -/

/-- Sats, of which there are no more than this. -/
abbrev Amount := { sats : ℕ // sats ≤ 2100000000000000 }

structure Balance where
  onchainConfirmed : Amount
  onchainPending : UInt64
  lightning : UInt64

structure ChannelInfo where
  channelId : Bytes32
  counterparty : PublicKey
  /-- The outpoint as its `Display` writes it. -/
  fundingTxo : Option String
  shortChannelId : Option UInt64
  channelValueSat : UInt64
  localReserve : Option UInt64
  outboundCapacitySat : UInt64
  inboundCapacitySat : UInt64
  confirmationsRequired : Option UInt32
  isOutbound : Bool
  isChannelReady : Bool
  isUsable : Bool
  isAnnounced : Bool

/-- The node behind the server, and the readers of what comes as a string. -/
structure NodeCalls (F Invoice SocketAddr : Type) where
  nodeId : PublicKey
  newOnchainAddress : String
  balance : Balance
  toBtc : Amount → F
  parsePublicKey : String → Option PublicKey
  openChannel : PublicKey → UInt64 → UInt64 → Except String Unit
  listChannels : List ChannelInfo
  hexDecode : String → Option Bytes
  closeChannel : Bytes32 → Except String Unit
  parseInvoice : String → Option Invoice
  payBolt11Invoice : Invoice → Option UInt64 → Except String PaymentId
  /-- The invoice as its `Display` writes it. -/
  createBolt11Invoice : Option UInt64 → Except String String
  getPayment : PaymentId → Option Payment
  parseSocketAddr : String → Option SocketAddr
  connectToPeer : PublicKey → SocketAddr → Except String Unit

/-! ### JSON -/

section Serialize

variable {F : Type}

def ofU32 (n : UInt32) : Value F := .int ⟨n.toNat, by have := n.toNat_lt; omega⟩

def ofBytes (bs : Bytes) : Value F :=
  .array (bs.map fun b => .int ⟨b.toNat, by have := b.toNat_lt; omega⟩)

def ChannelInfo.serialize (channel : ChannelInfo) : Value F :=
  ofFields [
    ("channel_id", .string (hexEncode channel.channelId.val)),
    ("counterparty", .string (hexEncode channel.counterparty.val)),
    ("funding_txo", ofOption .string channel.fundingTxo),
    ("short_channel_id", ofOption ofU64 channel.shortChannelId),
    ("channel_value_sat", ofU64 channel.channelValueSat),
    ("local_reserve", ofOption ofU64 channel.localReserve),
    ("outbound_capacity_sat", ofU64 channel.outboundCapacitySat),
    ("inbound_capacity_sat", ofU64 channel.inboundCapacitySat),
    ("confirmations_required", ofOption ofU32 channel.confirmationsRequired),
    ("is_outbound", .bool channel.isOutbound),
    ("is_channel_ready", .bool channel.isChannelReady),
    ("is_usable", .bool channel.isUsable),
    ("is_announced", .bool channel.isAnnounced)]

def directionName : PaymentDirection → String
  | .inbound => "Inbound"
  | .outbound => "Outbound"

def statusName : PaymentStatus → String
  | .pending => "Pending"
  | .succeeded => "Succeeded"
  | .failed => "Failed"

def serializePayment (payment : Payment) : Value F :=
  ofFields [
    ("payment_id", ofBytes payment.paymentId.val.val),
    ("payment_hash", ofBytes payment.paymentHash.val.val),
    ("payment_preimage", ofOption (fun p => ofBytes p.val.val) payment.paymentPreimage),
    ("direction", .string (directionName payment.direction)),
    ("amount_msat", ofOption ofU64 payment.amountMsat),
    ("fee_paid_msat", ofOption ofU64 payment.feePaidMsat),
    ("status", .string (statusName payment.status))]

def resultJson (text : String) : Value F := ofFields [("result", .string text)]

/-- The JSON for what a call of the node returns. -/
def replyJson {α : Type} (result : Except String α) (ok : α → Value F) (error : String → Value F) :
    Value F :=
  match result with
  | .ok a => ok a
  | .error e => error e

end Serialize

/-! ### The arms -/

section Arms

variable {F Invoice SocketAddr : Type} (node : NodeCalls F Invoice SocketAddr)

def nodePubkey : Value F := resultJson (hexEncode node.nodeId.val)

def newAddress : Value F := resultJson node.newOnchainAddress

def balance : Value F :=
  ofFields [
    ("onchain", ofFields [
      ("confirmed", .float (node.toBtc node.balance.onchainConfirmed)),
      ("pending", ofU64 node.balance.onchainPending)]),
    ("lightning", ofU64 node.balance.lightning)]

def openChannel (pubkey : String) (amount : UInt64) : Option (Value F) := do
  let pubkey ← node.parsePublicKey pubkey
  some (replyJson (node.openChannel pubkey amount 0) (fun _ => resultJson "Channel opened")
    fun e => ofFields [("Error", .string e)])

def listChannels : Value F :=
  ofFields [("channels", .array (node.listChannels.map ChannelInfo.serialize))]

def toBytes32 (bs : Bytes) : Option Bytes32 := if h : bs.length = 32 then some ⟨bs, h⟩ else none

def closeChannel (channelId : String) : Option (Value F) := do
  let bytes ← node.hexDecode channelId
  let channelId ← toBytes32 bytes
  some (replyJson (node.closeChannel channelId) (fun _ => resultJson "Channel closed")
    fun e => resultJson ("Could not close channel " ++ e))

def sendPayment (invoice : String) : Option (Value F) := do
  let invoice ← node.parseInvoice invoice
  some (replyJson (node.payBolt11Invoice invoice none)
    (fun paymentId => ofFields [("payment_id", .string (hexEncode paymentId.val.val))])
    fun e => resultJson ("Could not make payment: " ++ e))

def receive (amountMsat : UInt64) : Option (Value F) :=
  match node.createBolt11Invoice (some amountMsat) with
  | .ok bolt11 => some (ofFields [("invoice", .string bolt11)])
  | .error _ => none

def getPayment (paymentId : String) : Option (Value F) := do
  let bytes ← node.hexDecode paymentId
  let paymentId ← toBytes32 bytes
  match node.getPayment ⟨paymentId⟩ with
  | some payment => some (serializePayment payment)
  | none => some (resultJson "Payment not found")

def connect (pubkey address : String) : Option (Value F) := do
  let pubkey ← node.parsePublicKey pubkey
  let address ← node.parseSocketAddr address
  some (replyJson (node.connectToPeer pubkey address) (fun _ => resultJson "Connected to peer")
    fun e => resultJson ("Could not connect to peer " ++ e))

def strParam (request : Value F) (name : String) : Option String :=
  ((request.get "params").get name).asStr

def u64Param (request : Value F) (name : String) : Option UInt64 :=
  ((request.get "params").get name).asU64

def respond (request : Value F) : Option (Value F) := do
  let method ← (request.get "method").asStr
  match method with
  | "node_pubkey" => some (nodePubkey node)
  | "new_address" => some (newAddress node)
  | "balance" => some (balance node)
  | "open_channel" =>
    let pubkey ← strParam request "pubkey"
    let amount ← u64Param request "amount"
    openChannel node pubkey amount
  | "list_channels" => some (listChannels node)
  | "close_channel" =>
    let channelId ← strParam request "channel_id"
    closeChannel node channelId
  | "send_payment" =>
    let invoice ← strParam request "invoice"
    sendPayment node invoice
  | "receive" =>
    let amountMsat ← u64Param request "amount"
    receive node amountMsat
  | "get_payment" =>
    let paymentId ← strParam request "payment_id"
    getPayment node paymentId
  | "connect" =>
    let pubkey ← strParam request "pubkey"
    let address ← strParam request "address"
    connect node pubkey address
  | _ => some (ofFields [("error", .string "Unknown method")])

/-! ### Every response is a message -/

section Messages

variable (T : FloatText F) {response : Value F}

lemma isMessage_resultJson (text : String) : IsMessage T (resultJson text) :=
  isMessage_ofFields (by simp)

lemma isMessage_balance {T : FloatText F}
    (h : T.ReadsBack (node.toBtc node.balance.onchainConfirmed)) : IsMessage T (balance node) := by
  have honchain : WellFormed T 126 (ofFields [
      ("confirmed", .float (node.toBtc node.balance.onchainConfirmed)),
      ("pending", ofU64 node.balance.onchainPending)]) :=
    wellFormed_ofFields (by simpa using wellFormed_float h)
  exact isMessage_ofFields (by simpa using honchain)

@[simp] lemma wellFormed_ofU32 (depth : ℕ) (n : UInt32) : WellFormed T depth (ofU32 n : Value F) :=
  wellFormed_int _

@[simp] lemma wellFormed_ofBytes (depth : ℕ) (bs : Bytes) :
    WellFormed T (depth + 1) (ofBytes bs : Value F) := by
  refine wellFormed_array fun v hv => ?_
  obtain ⟨b, -, rfl⟩ := List.mem_map.mp hv
  exact wellFormed_int _

lemma isMessage_listChannels : IsMessage T (listChannels node) := by
  have hchannel : ∀ channel : ChannelInfo, WellFormed T 125 (channel.serialize : Value F) := fun _ =>
    wellFormed_ofFields (by simp)
  have harray : WellFormed T 126 (.array (node.listChannels.map ChannelInfo.serialize) : Value F) := by
    refine wellFormed_array fun v hv => ?_
    obtain ⟨channel, -, rfl⟩ := List.mem_map.mp hv
    exact hchannel channel
  exact isMessage_ofFields (by simpa using harray)

lemma isMessage_replyJson {α : Type} {result : Except String α} {ok : α → Value F}
    {error : String → Value F} (hok : ∀ a, IsMessage T (ok a)) (herror : ∀ e, IsMessage T (error e)) :
    IsMessage T (replyJson result ok error) := by
  cases result with
  | ok a => exact hok a
  | error e => exact herror e

lemma isMessage_openChannel {pubkey : String} {amount : UInt64}
    (h : openChannel node pubkey amount = some response) : IsMessage T response := by
  obtain ⟨key, -, h⟩ := Option.bind_eq_some_iff.mp h
  cases h
  refine isMessage_replyJson T (fun _ => isMessage_resultJson T _) fun e => ?_
  exact isMessage_ofFields (by simp)

lemma isMessage_closeChannel {channelId : String} (h : closeChannel node channelId = some response) :
    IsMessage T response := by
  obtain ⟨bytes, -, h⟩ := Option.bind_eq_some_iff.mp h
  obtain ⟨id, -, h⟩ := Option.bind_eq_some_iff.mp h
  cases h
  exact isMessage_replyJson T (fun _ => isMessage_resultJson T _) fun _ => isMessage_resultJson T _

lemma isMessage_sendPayment {invoice : String} (h : sendPayment node invoice = some response) :
    IsMessage T response := by
  obtain ⟨parsed, -, h⟩ := Option.bind_eq_some_iff.mp h
  cases h
  refine isMessage_replyJson T (fun paymentId => ?_) fun _ => isMessage_resultJson T _
  exact isMessage_ofFields (by simp)

lemma isMessage_receive {amountMsat : UInt64} (h : receive node amountMsat = some response) :
    IsMessage T response := by
  rw [receive] at h
  cases hcall : node.createBolt11Invoice (some amountMsat) with
  | ok bolt11 =>
    simp only [hcall] at h
    cases h
    exact isMessage_ofFields (by simp)
  | error e =>
    simp only [hcall] at h
    cases h

lemma isMessage_getPayment {paymentId : String} (h : getPayment node paymentId = some response) :
    IsMessage T response := by
  obtain ⟨bytes, -, h⟩ := Option.bind_eq_some_iff.mp h
  obtain ⟨id, -, h⟩ := Option.bind_eq_some_iff.mp h
  cases hpayment : node.getPayment ⟨id⟩ with
  | none =>
    rw [hpayment] at h
    cases h
    exact isMessage_resultJson T _
  | some payment =>
    rw [hpayment] at h
    cases h
    exact isMessage_ofFields (by simp)

lemma isMessage_connect {pubkey address : String} (h : connect node pubkey address = some response) :
    IsMessage T response := by
  obtain ⟨key, -, h⟩ := Option.bind_eq_some_iff.mp h
  obtain ⟨addr, -, h⟩ := Option.bind_eq_some_iff.mp h
  cases h
  exact isMessage_replyJson T (fun _ => isMessage_resultJson T _) fun _ => isMessage_resultJson T _

end Messages

end Arms

end LnNode.Server
