import LnNode.Lib.Run
import LnNode.Server.Identifiers

/-!
# The channels of the node

What `Node` does with the channels of LDK: listing them, opening one, closing one, and counting them in
the balance. A call that opens or closes asks LDK twice, and LDK goes on in between: peers come and go,
channels are opened by others, get their final id, or are closed.

* `closes_listed`: a channel that a client was shown can be closed by the id it was shown with, as long as
  no other peer has one of that id;
* `lightning_of_listed`: the balance that a client is told is the sum over the channels it is shown.
-/

namespace LnNode.Node.Channels

open LnNode.Lib.Run LnNode.Lib.Json LnNode.Lib.Wire LnNode.Storage LnNode.Storage.Peers LnNode.Server
  LnNode.Server.Exchange LnNode.Server.Clients LnNode.Server.Identifiers LnNode.Lncli

/-! ### LDK -/

/-- The errors that are told apart, with their texts, and the others. -/
inductive ApiError where
  | apiMisuseError (err : String)
  | channelUnavailable (err : String)
  | other

structure ChannelDetails where
  channelId : Bytes32
  counterparty : PublicKey
  fundingTxo : Option String
  shortChannelId : Option UInt64
  channelValueSatoshis : UInt64
  unspendablePunishmentReserve : Option UInt64
  outboundCapacityMsat : UInt64
  inboundCapacityMsat : UInt64
  confirmationsRequired : Option UInt32
  isOutbound : Bool
  isChannelReady : Bool
  isUsable : Bool
  isAnnounced : Bool
  deriving DecidableEq

/-- LDK keeps its channels by peer and by id. -/
def ChannelDetails.key (channel : ChannelDetails) : PublicKey × Bytes32 :=
  (channel.counterparty, channel.channelId)

/-- The channels in the order they are listed, no two of one peer with one id, and the peers that are
connected. Channels of two peers may have one id. -/
structure ChannelManager where
  channels : List ChannelDetails
  nodup : (channels.map ChannelDetails.key).Nodup
  peers : List PublicKey

inductive LdkAction where
  | peerConnected (nodeId : PublicKey)
  | peerDisconnected (nodeId : PublicKey)
  | opened (channel : ChannelDetails)
  /-- A channel with other details, or, when it is funded, with its final id. -/
  | replaced (channelId : Bytes32) (channel : ChannelDetails)
  | closed (counterparty : PublicKey) (channelId : Bytes32)
  /-- The order in which they are listed is not fixed. -/
  | reordered (channels : List ChannelDetails)

def ChannelManager.without (m : ChannelManager) (key : PublicKey × Bytes32) : List ChannelDetails :=
  m.channels.filter fun channel => channel.key ≠ key

/-- LDK takes no second channel of a peer under one id. -/
def ChannelManager.withChannels (m : ChannelManager) (channels : List ChannelDetails) :
    Option ChannelManager :=
  if h : (channels.map ChannelDetails.key).Nodup then some { m with channels, nodup := h } else none

def ldkStep (m : ChannelManager) : LdkAction → Option ChannelManager
  | .peerConnected nodeId => some { m with peers := nodeId :: m.peers }
  | .peerDisconnected nodeId => some { m with peers := m.peers.filter (· ≠ nodeId) }
  | .opened channel => m.withChannels (channel :: m.channels)
  | .replaced channelId channel =>
    if ∃ old ∈ m.channels, old.key = (channel.counterparty, channelId) then
      m.withChannels (channel :: m.without (channel.counterparty, channelId))
    else none
  | .closed counterparty channelId => m.withChannels (m.without (counterparty, channelId))
  | .reordered channels => if channels.Perm m.channels then m.withChannels channels else none

def Listed (channelId : Bytes32) (m : ChannelManager) : Prop :=
  ∃ channel ∈ m.channels, channel.channelId = channelId

def OnePeer (channelId : Bytes32) (m : ChannelManager) : Prop :=
  ∀ channel ∈ m.channels, ∀ other ∈ m.channels, channel.channelId = channelId →
    other.channelId = channelId → channel.counterparty = other.counterparty

/-! ### The calls of the node -/

def channelInfoFrom (value : ChannelDetails) : ChannelInfo where
  channelId := value.channelId
  counterparty := value.counterparty
  fundingTxo := value.fundingTxo
  shortChannelId := value.shortChannelId
  channelValueSat := value.channelValueSatoshis
  localReserve := value.unspendablePunishmentReserve
  outboundCapacitySat := value.outboundCapacityMsat / 1000
  inboundCapacitySat := value.inboundCapacityMsat / 1000
  confirmationsRequired := value.confirmationsRequired
  isOutbound := value.isOutbound
  isChannelReady := value.isChannelReady
  isUsable := value.isUsable
  isAnnounced := value.isAnnounced

def listChannels (m : ChannelManager) : List ChannelInfo := m.channels.map channelInfoFrom

/-- What LDK answers to the calls that create and close a channel, in the state it is in then. -/
structure LdkCalls where
  createChannel : ChannelManager → PublicKey → UInt64 → UInt64 → Except ApiError Bytes32
  closeChannel : ChannelManager → Bytes32 → PublicKey → Except ApiError Unit

def openError : ApiError → String
  | .apiMisuseError err | .channelUnavailable err => "Could not open channel " ++ err
  | .other => "Could not open channel"

/-- The peers are those of one moment, and the channel is created at a later one. -/
def openChannel (ldk : LdkCalls) (m later : ChannelManager) (peerPubkey : PublicKey)
    (channelValueSats pushMsat : UInt64) : Except String Bytes32 :=
  if peerPubkey ∈ m.peers then
    (ldk.createChannel later peerPubkey channelValueSats pushMsat).mapError openError
  else .error ("Unable to open channel. Not connected to peer " ++ hexEncode peerPubkey.val)

def closeError : ApiError → String
  | .apiMisuseError err | .channelUnavailable err => "Could not close channel " ++ err
  | .other => "Could close channel"

/-- The channel is looked up in the list of one moment, and closed at a later one. -/
def closeChannel (ldk : LdkCalls) (m later : ChannelManager) (channelId : Bytes32) : Except String Unit :=
  match m.channels.find? fun channel => channel.channelId = channelId with
  | none => .error ("channel " ++ hexEncode channelId.val ++ " does not exist")
  | some channel => (ldk.closeChannel later channelId channel.counterparty).mapError closeError

/-- What BDK counts of the wallet's outputs, where the immature ones are left out. -/
structure OnchainBalance where
  confirmed : Amount
  trustedPending : UInt64
  untrustedPending : UInt64

def outboundCapacitySat (channel : ChannelDetails) : UInt64 := channel.outboundCapacityMsat / 1000

/-- Sums wrap around, as they do without overflow checks. -/
def wrappingSum (ns : List UInt64) : UInt64 := ns.foldl (fun sum n => sum + n) 0

def balance (onchain : OnchainBalance) (m : ChannelManager) : Balance where
  onchainConfirmed := onchain.confirmed
  onchainPending := onchain.untrustedPending + onchain.trustedPending
  lightning := wrappingSum (m.channels.map outboundCapacitySat)

section Server

variable {F Invoice SocketAddr : Type}

/-- The node behind the server, whose other calls do not concern the channels. -/
def channelNode (rest : NodeCalls F Invoice SocketAddr) (ldk : LdkCalls) (onchain : OnchainBalance)
    (m later : ChannelManager) : NodeCalls F Invoice SocketAddr :=
  { rest with
    balance := balance onchain m
    openChannel := fun pubkey amount pushMsat =>
      (openChannel ldk m later pubkey amount pushMsat).map fun _ => ()
    listChannels := listChannels m
    hexDecode := hexDecode
    closeChannel := closeChannel ldk m later }

end Server

/-! ### What LDK keeps -/

section Ldk

variable {m m' : ChannelManager} {a : LdkAction} {channel : ChannelDetails} {channelId : Bytes32}
  {counterparty : PublicKey} {channels : List ChannelDetails}

lemma channels_withChannels (h : m.withChannels channels = some m') : m'.channels = channels := by
  rw [ChannelManager.withChannels] at h
  split_ifs at h
  cases h
  rfl

/-- **One step of LDK** leaves the counterparty of a channel as it is, as long as there is a channel of
that id, and no other peer has one. -/
lemma counterparty_step (hs : ldkStep m a = some m') (h : channel ∈ m.channels)
    (hone : OnePeer channel.channelId m) (hlisted : Listed channel.channelId m')
    (hone' : OnePeer channel.channelId m') :
    ∃ channel' ∈ m'.channels, channel'.channelId = channel.channelId ∧
      channel'.counterparty = channel.counterparty := by
  cases a with
  | peerConnected | peerDisconnected =>
    cases hs
    exact ⟨channel, h, rfl, rfl⟩
  | opened fresh =>
    rw [channels_withChannels hs]
    exact ⟨channel, List.mem_cons_of_mem _ h, rfl, rfl⟩
  | replaced replacedId fresh =>
    rw [ldkStep] at hs
    split_ifs at hs with hold
    obtain ⟨channel', hmem', hid'⟩ := hlisted
    refine ⟨channel', hmem', hid', ?_⟩
    rw [channels_withChannels hs] at hmem'
    rcases List.mem_cons.mp hmem' with rfl | hrest
    · by_cases hkept : channel.key = (channel'.counterparty, replacedId)
      · exact (congrArg Prod.fst hkept).symm
      · have hmem : channel ∈ m'.channels := by
          rw [channels_withChannels hs]
          exact List.mem_cons_of_mem _ (List.mem_filter.mpr ⟨h, by simpa using hkept⟩)
        exact hone' channel' (by rw [channels_withChannels hs]; exact List.mem_cons_self) channel hmem
          hid' rfl
    · exact hone channel' (List.mem_of_mem_filter hrest) channel h hid' rfl
  | closed counterparty closedId =>
    obtain ⟨channel', hmem', hid'⟩ := hlisted
    refine ⟨channel', hmem', hid', ?_⟩
    rw [channels_withChannels hs] at hmem'
    exact hone channel' (List.mem_of_mem_filter hmem') channel h hid' rfl
  | reordered channels =>
    rw [ldkStep] at hs
    split_ifs at hs with hperm
    rw [channels_withChannels hs]
    exact ⟨channel, hperm.mem_iff.mpr h, rfl, rfl⟩

lemma counterparty_run {as : List LdkAction} (hr : run ldkStep m as = some m')
    (hkept : Always ldkStep (fun m => Listed channelId m ∧ OnePeer channelId m) m as)
    (h : ∃ channel ∈ m.channels, channel.channelId = channelId ∧ channel.counterparty = counterparty) :
    ∃ channel ∈ m'.channels, channel.channelId = channelId ∧ channel.counterparty = counterparty := by
  induction as generalizing m with
  | nil =>
    cases hr
    exact h
  | cons a as ih =>
    rw [run_cons, Option.bind_eq_some_iff] at hr
    obtain ⟨next, hs, hr⟩ := hr
    obtain ⟨channel, hmem, rfl, rfl⟩ := h
    obtain ⟨hlisted, hone⟩ := (hkept.2 next hs).head
    exact ih hr (hkept.2 next hs) (counterparty_step hs hmem hkept.1.2 hlisted hone)

/-! ### Closing a channel -/

lemma closeChannel_first (ldk : LdkCalls) (later : ChannelManager)
    (h : (m.channels.find? fun other => other.channelId = channelId) = some channel) :
    closeChannel ldk m later channelId =
      (ldk.closeChannel later channelId channel.counterparty).mapError closeError := by
  rw [closeChannel, h]

lemma find_onePeer (hone : OnePeer channelId m) (h : channel ∈ m.channels)
    (hid : channel.channelId = channelId) :
    ∃ first, (m.channels.find? fun other => other.channelId = channelId) = some first ∧
      first.counterparty = channel.counterparty := by
  cases hfind : m.channels.find? fun other => other.channelId = channelId with
  | none => exact absurd (decide_eq_true hid) (List.find?_eq_none.mp hfind channel h)
  | some first =>
    exact ⟨first, rfl, hone first (List.mem_of_find?_eq_some hfind) channel h
      (by simpa using List.find?_some hfind) hid⟩

lemma closeChannel_unlisted (ldk : LdkCalls) (later : ChannelManager) (h : ¬ Listed channelId m) :
    closeChannel ldk m later channelId =
      .error ("channel " ++ hexEncode channelId.val ++ " does not exist") := by
  have hnone : (m.channels.find? fun channel => channel.channelId = channelId) = none := by
    rw [List.find?_eq_none]
    intro channel hmem
    simpa using fun hid => h ⟨channel, hmem, hid⟩
  rw [closeChannel, hnone]

end Ldk

/-! ### What a client is shown -/

section Client

variable {F Invoice SocketAddr : Type} (T : FloatText F) (node : NodeCalls F Invoice SocketAddr)

/-- A client parses the response to `list_channels`, and finds a channel with these two values. -/
def ShowsChannel (channelId counterparty : Value F) : Prop :=
  ∃ parsed channels channel, fromSlice T (toBytes T (Server.listChannels node)) = some parsed ∧
    parsed.get "channels" = .array channels ∧ channel ∈ channels ∧
    channel.get "channel_id" = channelId ∧ channel.get "counterparty" = counterparty

/-- The response to a request to close a channel, by what LDK answers. -/
def closeReply (answer : Except ApiError Unit) : Value F :=
  replyJson (answer.mapError closeError) (fun _ => resultJson "Channel closed")
    fun e => resultJson ("Could not close channel " ++ e)

def noChannelReply (channelId : Bytes32) : Value F :=
  resultJson ("Could not close channel channel " ++ hexEncode channelId.val ++ " does not exist")

variable {T} {rest : NodeCalls F Invoice SocketAddr} {ldk : LdkCalls} {onchain : OnchainBalance}
  {m later : ChannelManager} {v w : Value F}

@[simp] lemma channelNode_balance :
    (channelNode rest ldk onchain m later).balance = balance onchain m := rfl

@[simp] lemma channelNode_listChannels :
    (channelNode rest ldk onchain m later).listChannels = listChannels m := rfl

@[simp] lemma channelNode_closeChannel :
    (channelNode rest ldk onchain m later).closeChannel = closeChannel ldk m later := rfl

lemma get_counterparty (channel : ChannelInfo) :
    (channel.serialize : Value F).get "counterparty" = .string (hexEncode channel.counterparty.val) := by
  simp [ChannelInfo.serialize, get_ofFields, lookup_cons_eq]

lemma get_outboundCapacity (channel : ChannelInfo) :
    (channel.serialize : Value F).get "outbound_capacity_sat" = ofU64 channel.outboundCapacitySat := by
  simp [ChannelInfo.serialize, get_ofFields, lookup_cons_eq]

lemma showsChannel_channelNode (h : ShowsChannel T (channelNode rest ldk onchain m later) v w) :
    ∃ channel ∈ m.channels, v = .string (hexEncode channel.channelId.val) ∧
      w = .string (hexEncode channel.counterparty.val) := by
  obtain ⟨parsed, channels, element, hparsed, hchannels, hmem, rfl, rfl⟩ := h
  rw [fromSlice_toBytes (isMessage_listChannels _ T).wellFormed] at hparsed
  obtain rfl := Option.some.inj hparsed
  rw [get_listChannels] at hchannels
  injection hchannels with hchannels
  rw [← hchannels] at hmem
  obtain ⟨info, hinfo, rfl⟩ := List.mem_map.mp hmem
  obtain ⟨channel, hchannel, rfl⟩ := List.mem_map.mp hinfo
  exact ⟨channel, hchannel, get_serialize _, get_counterparty _⟩

end Client

/-! ### Two channels -/

def sampleDetails (isChannelReady : Bool) : ChannelDetails where
  channelId := zeroBytes
  counterparty := generatorKey
  fundingTxo := none
  shortChannelId := none
  channelValueSatoshis := 100000
  unspendablePunishmentReserve := none
  outboundCapacityMsat := 50000999
  inboundCapacityMsat := 50000000
  confirmationsRequired := none
  isOutbound := true
  isChannelReady := isChannelReady
  isUsable := isChannelReady
  isAnnounced := false

def otherDetails : ChannelDetails :=
  { sampleDetails true with channelId := oneBytes, outboundCapacityMsat := 1500 }

def oneChannel : ChannelManager where
  channels := [sampleDetails false]
  nodup := List.nodup_singleton _
  peers := [generatorKey]

def twoChannels : ChannelManager where
  channels := [otherDetails, sampleDetails true]
  nodup := by decide
  peers := [generatorKey]

def willing : LdkCalls where
  createChannel _ _ _ _ := .ok zeroBytes
  closeChannel _ _ _ := .ok ()

def noFunds : OnchainBalance where
  confirmed := (sampleNode 0).balance.onchainConfirmed
  trustedPending := 0
  untrustedPending := 0

def sampleChannelNode (m : ChannelManager) : NodeCalls Amount Unit Unit :=
  channelNode (sampleNode 0) willing noFunds m m

/-! ### Closing what was shown -/

/-- **A channel that was shown can be closed.** For every channel that a client finds in a response to
`list_channels`, every run of LDK up to the moment the node lists the channels again, and whatever LDK
has become when it is told to close the channel: the request with the id as it was shown is answered with
what LDK answers for that id and the peer of the first channel of that id in the list. That is the
counterparty that was shown, if there was always a channel of that id and no two peers had one. If there
is none when the node lists the channels, LDK is not called and the response says so. -/
theorem closes_listed {F Invoice SocketAddr : Type} (T : FloatText F)
    (rest : NodeCalls F Invoice SocketAddr) (ldk : LdkCalls) (onchain : OnchainBalance)
    {m m' : ChannelManager} (later : ChannelManager) {as : List LdkAction} {v w : Value F} (taken : ℕ)
    (hshown : ShowsChannel T (channelNode rest ldk onchain m m) v w)
    (hr : run ldkStep m as = some m') :
    ∃ (channelId : Bytes32) (counterparty : PublicKey), v = .string (hexEncode channelId.val) ∧
      w = .string (hexEncode counterparty.val) ∧
      (Always ldkStep (fun m => Listed channelId m ∧ OnePeer channelId m) m as →
        serve T (userClient T (channelNode rest ldk onchain m' later) .channelInfo v taken) =
          .answered (closeReply (ldk.closeChannel later channelId counterparty)) taken) ∧
      (∀ first, (m'.channels.find? fun channel => channel.channelId = channelId) = some first →
        serve T (userClient T (channelNode rest ldk onchain m' later) .channelInfo v taken) =
          .answered (closeReply (ldk.closeChannel later channelId first.counterparty)) taken) ∧
      (¬ Listed channelId m' →
        serve T (userClient T (channelNode rest ldk onchain m' later) .channelInfo v taken) =
          .answered (noChannelReply channelId) taken) := by
  obtain ⟨channel, hmem, rfl, rfl⟩ := showsChannel_channelNode hshown
  have hfirst : ∀ first,
      (m'.channels.find? fun other => other.channelId = channel.channelId) = some first →
      serve T (userClient T (channelNode rest ldk onchain m' later) .channelInfo
          (.string (hexEncode channel.channelId.val)) taken) =
        .answered (closeReply (ldk.closeChannel later channel.channelId first.counterparty)) taken := by
    intro first hfind
    rw [serve_hex, Place.reply, channelNode_closeChannel, closeChannel_first ldk later hfind]
    rfl
  refine ⟨channel.channelId, channel.counterparty, rfl, rfl, fun hkept => ?_, hfirst, fun hgone => ?_⟩
  · obtain ⟨channel', hmem', hid, hcounterparty⟩ :=
      counterparty_run hr hkept ⟨channel, hmem, rfl, rfl⟩
    obtain ⟨first, hfind, hpeer⟩ := find_onePeer (hkept.last hr).2 hmem' hid
    rw [hfirst first hfind, hpeer, hcounterparty]
  · have hclose := closeChannel_unlisted ldk later hgone
    rw [serve_hex, Place.reply, channelNode_closeChannel, hclose]
    simp only [replyJson, noChannelReply, ← String.append_assoc]
    rfl

/-- Another channel is opened, the one that was shown becomes ready, and the list has them in another
order. -/
theorem closes_listed_ready :
    serve btcText (userClient btcText
        (channelNode (sampleNode 0) willing noFunds twoChannels twoChannels) .channelInfo
        (.string (hexEncode zeroBytes.val)) 4096) = .answered (closeReply (.ok ())) 4096 := by
  have hshown : ShowsChannel btcText (sampleChannelNode oneChannel)
      (.string (hexEncode zeroBytes.val)) (.string (hexEncode generatorKey.val)) :=
    ⟨_, _, _, fromSlice_toBytes (isMessage_listChannels _ _).wellFormed, get_listChannels _,
      List.mem_singleton_self _, get_serialize _, get_counterparty _⟩
  have hr : run ldkStep oneChannel [.opened otherDetails, .replaced zeroBytes (sampleDetails true),
      .reordered [otherDetails, sampleDetails true]] = some twoChannels := by
    rfl
  obtain ⟨channelId, counterparty, hid, -, hclosed, -⟩ := closes_listed btcText (sampleNode 0) willing
    noFunds twoChannels 4096 hshown hr
  obtain rfl : zeroBytes = channelId := Subtype.ext (hexEncode_injective (Value.string.inj hid))
  have hsample : ∀ m : ChannelManager, (∃ channel ∈ m.channels, channel.channelId = zeroBytes) →
      (∀ channel ∈ m.channels, channel.counterparty = generatorKey) →
      Listed zeroBytes m ∧ OnePeer zeroBytes m := fun m hlisted hpeer =>
    ⟨hlisted, fun channel hmem other hmem' _ _ => (hpeer channel hmem).trans (hpeer other hmem').symm⟩
  refine hclosed ⟨hsample _ (by decide) (by decide), fun m hs => ?_⟩
  cases hs
  refine ⟨hsample _ (by decide) (by decide), fun m hs => ?_⟩
  cases hs
  refine ⟨hsample _ (by decide) (by decide), fun m hs => ?_⟩
  cases hs
  exact hsample _ (by decide) (by decide)

/-! ### The balance -/

lemma toNat_foldl_add {ns : List UInt64} {sum : UInt64}
    (h : sum.toNat + (ns.map UInt64.toNat).sum < 2 ^ 64) :
    (ns.foldl (fun sum n => sum + n) sum).toNat = sum.toNat + (ns.map UInt64.toNat).sum := by
  induction ns generalizing sum with
  | nil => rfl
  | cons n ns ih =>
    rw [List.map_cons, List.sum_cons] at h ⊢
    have hsum : (sum + n).toNat = sum.toNat + n.toNat := by
      rw [UInt64.toNat_add, Nat.mod_eq_of_lt (by omega)]
    rw [List.foldl_cons, ih (by omega), hsum]
    omega

lemma toNat_wrappingSum {ns : List UInt64} (h : (ns.map UInt64.toNat).sum < 2 ^ 64) :
    (wrappingSum ns).toNat = (ns.map UInt64.toNat).sum := by
  have hzero : (0 : UInt64).toNat = 0 := rfl
  rw [wrappingSum, toNat_foldl_add (by omega), hzero, Nat.zero_add]

lemma toNat_outboundCapacitySat (channel : ChannelDetails) :
    (outboundCapacitySat channel).toNat = channel.outboundCapacityMsat.toNat / 1000 :=
  UInt64.toNat_div _ _

def sumSats (channels : List ChannelDetails) : ℕ :=
  ((channels.map outboundCapacitySat).map UInt64.toNat).sum

def sumMsats (channels : List ChannelDetails) : ℕ :=
  (channels.map fun channel => channel.outboundCapacityMsat.toNat).sum

/-- Each channel is rounded down to whole sats on its own. -/
lemma sumSats_bounds (channels : List ChannelDetails) :
    sumSats channels * 1000 ≤ sumMsats channels ∧
      sumMsats channels ≤ sumSats channels * 1000 + 999 * channels.length := by
  induction channels with
  | nil => exact ⟨le_rfl, le_rfl⟩
  | cons channel channels ih =>
    have hsats : sumSats (channel :: channels) =
        channel.outboundCapacityMsat.toNat / 1000 + sumSats channels := by
      simp only [sumSats, List.map_cons, List.sum_cons, toNat_outboundCapacitySat]
    have hmsats : sumMsats (channel :: channels) =
        channel.outboundCapacityMsat.toNat + sumMsats channels := rfl
    have hle := Nat.div_mul_le_self channel.outboundCapacityMsat.toNat 1000
    have hlt := Nat.lt_div_mul_add (a := channel.outboundCapacityMsat.toNat) (b := 1000) (by decide)
    rw [hsats, hmsats, List.length_cons, Nat.add_mul]
    constructor
    · exact Nat.add_le_add hle ih.1
    · linarith [ih.2]

/-- **The balance is the sum over the channels.** A client that asks for both finds for `lightning` the
sum of what it finds for `outbound_capacity_sat`. As long as the capacities fit in 64 bits, this is less
than what can be sent by at most 999 msat for each channel. -/
theorem lightning_of_listed {F Invoice SocketAddr : Type} (T : FloatText F)
    (rest : NodeCalls F Invoice SocketAddr) (ldk : LdkCalls) (onchain : OnchainBalance)
    (m later : ChannelManager) {told shown : Value F}
    (hfloat : T.ReadsBack (rest.toBtc onchain.confirmed))
    (htold : fromSlice T (toBytes T (Server.balance (channelNode rest ldk onchain m later))) = some told)
    (hshown : fromSlice T (toBytes T (Server.listChannels (channelNode rest ldk onchain m later))) =
      some shown) :
    ∃ (channels : List (Value F)) (capacities : List UInt64), shown.get "channels" = .array channels ∧
      (channels.map fun channel => (channel.get "outbound_capacity_sat").asU64) = capacities.map some ∧
      (told.get "lightning").asU64 = some (wrappingSum capacities) ∧
      (sumMsats m.channels < 2 ^ 64 →
        (wrappingSum capacities).toNat * 1000 ≤ sumMsats m.channels ∧
        sumMsats m.channels ≤ (wrappingSum capacities).toNat * 1000 + 999 * m.channels.length) := by
  have hmessage := isMessage_balance (channelNode rest ldk onchain m later) (T := T) hfloat
  rw [fromSlice_toBytes hmessage.wellFormed] at htold
  obtain rfl := Option.some.inj htold
  rw [fromSlice_toBytes (isMessage_listChannels _ T).wellFormed] at hshown
  obtain rfl := Option.some.inj hshown
  refine ⟨_, m.channels.map outboundCapacitySat, get_listChannels _, ?_, ?_, fun hfits => ?_⟩
  · rw [channelNode_listChannels, listChannels]
    simp only [List.map_map]
    refine List.map_congr_left fun channel _ => ?_
    simp only [Function.comp_apply, get_outboundCapacity, asU64_ofU64]
    rfl
  · simp [Server.balance, get_ofFields, balance]
  · have hbounds := sumSats_bounds m.channels
    have hsum : (wrappingSum (m.channels.map outboundCapacitySat)).toNat = sumSats m.channels := by
      refine toNat_wrappingSum (lt_of_le_of_lt ?_ hfits)
      exact (Nat.le_mul_of_pos_right _ (by decide)).trans hbounds.1
    rw [hsum]
    exact hbounds

theorem lightning_of_listed_two :
    ∃ (channels : List (Value Amount)) (capacities : List UInt64),
      (Server.listChannels (sampleChannelNode twoChannels)).get "channels" = .array channels ∧
      (channels.map fun channel => (channel.get "outbound_capacity_sat").asU64) = capacities.map some ∧
      ((Server.balance (sampleChannelNode twoChannels)).get "lightning").asU64 =
        some (wrappingSum capacities) ∧
      (wrappingSum capacities).toNat * 1000 ≤ 50002499 ∧
      50002499 ≤ (wrappingSum capacities).toNat * 1000 + 1998 := by
  have hfloat : btcText.ReadsBack ((sampleNode 0).toBtc noFunds.confirmed) := btcText_readsBack _
  obtain ⟨channels, capacities, hchannels, hcapacities, hlightning, hbounds⟩ :=
    lightning_of_listed btcText (sampleNode 0) willing noFunds twoChannels twoChannels hfloat
      (fromSlice_toBytes (isMessage_balance (sampleChannelNode twoChannels) hfloat).wellFormed)
      (fromSlice_toBytes (isMessage_listChannels (sampleChannelNode twoChannels) _).wellFormed)
  exact ⟨channels, capacities, hchannels, hcapacities, hlightning, hbounds (by decide)⟩

end LnNode.Node.Channels
