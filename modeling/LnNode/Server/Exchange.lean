import LnNode.Lib.Json.Length
import LnNode.Lib.Run
import LnNode.Lncli

/-!
# Whether whole messages are exchanged

One connection of `lncli` with the server. `lncli` writes its request in as many writes as it takes;
the server reads once, as soon as something has arrived, and tries to write its response once, and
ignores how much of it was taken; `lncli` reads once, as soon as something has arrived.

* `WholeMessages.step_iff`: what the two reads must find;
* `wholeMessages_iff`: both sides see whole messages exactly when both reads find them whole;
* `lt_size_listChannels`: twelve channels are too many for the response to be read.
-/

namespace LnNode.Server.Exchange

open LnNode.Lib.Run LnNode.Lib.Json LnNode.Lib.Wire LnNode.Storage LnNode.Storage.Peers
  LnNode.Server LnNode.Lncli

/-! ### One connection -/

structure Connection (F : Type) where
  /-- How much of the request `lncli` has written. -/
  sent : ℕ
  /-- What the server has parsed, `none` when that fails. -/
  parsed : Option (Option (Value F))
  /-- How much of the response was taken from the server. -/
  accepted : Option ℕ
  /-- What `lncli` has parsed. -/
  received : Option (Option (Value F))

def connected {F : Type} : Connection F where
  sent := 0
  parsed := none
  accepted := none
  received := none

/-- Each with the number of bytes that the socket takes or has. -/
inductive Action where
  | lncliWrites (n : ℕ)
  | serverReads (n : ℕ)
  | serverWrites (n : ℕ)
  | lncliReads (n : ℕ)

def requestBuffer : ℕ := 4096

section Machine

variable {F Invoice SocketAddr : Type} (T : FloatText F) (node : NodeCalls F Invoice SocketAddr)
  (command : Command) (request : Value F)

/-- The response, once the server has parsed a request. -/
def Connection.response (s : Connection F) : Option (Value F) :=
  match s.parsed with
  | some (some parsed) => respond node parsed
  | _ => none

def exchangeStep (s : Connection F) : Action → Option (Connection F)
  | .lncliWrites n =>
    if 0 < n ∧ s.sent < (toBytes T request).size then
      some { s with sent := min (s.sent + n) (toBytes T request).size }
    else none
  | .serverReads n =>
    if 0 < n ∧ 0 < s.sent ∧ s.parsed.isNone then
      let buffer := (toBytes T request).extract 0 (min (min n s.sent) requestBuffer)
      some { s with parsed := some (fromSlice T buffer) }
    else none
  | .serverWrites n =>
    match s.response node with
    | none => none
    | some response =>
      if 0 < n ∧ s.accepted.isNone then
        some { s with accepted := some (min n (toBytes T response).size) }
      else none
  | .lncliReads n =>
    if 0 < n ∧ s.sent = (toBytes T request).size ∧ s.received.isNone then
      match s.response node, s.accepted with
      | some response, some accepted =>
        let buffer := (toBytes T response).extract 0 (min (min n accepted) command.buffer)
        some { s with received := some (fromSlice T buffer) }
      | some _, none => none
      -- the server has panicked, and its end is closed
      | none, _ =>
        if s.parsed.isSome then some { s with received := some (fromSlice T ByteArray.empty) } else none
    else none

/-- The server parses what `lncli` has serialised, and `lncli` what the server has built for it. -/
structure WholeMessages (overflowChecks : Bool) (s : Connection F) : Prop where
  parsed : ∀ parsed, s.parsed = some parsed → parsed = some request
  received : ∀ received, s.received = some received →
    received = command.answer node overflowChecks

/-- Each read finds all of the message, and its buffer holds it. -/
def ReadsWhole (overflowChecks : Bool) (s : Connection F) : Action → Prop
  | .serverReads n => (toBytes T request).size ≤ min (min n s.sent) requestBuffer
  | .lncliReads n => ∀ response accepted, command.answer node overflowChecks = some response →
    s.accepted = some accepted → (toBytes T response).size ≤ min (min n accepted) command.buffer
  | _ => True

end Machine

/-! ### What the reads must find -/

section Steps

variable {F Invoice SocketAddr : Type} {T : FloatText F} {node : NodeCalls F Invoice SocketAddr}
  {command : Command} {request : Value F} {overflowChecks : Bool} {s s' : Connection F} {a : Action}

lemma fromSlice_empty : fromSlice T ByteArray.empty = none := by
  rw [fromSlice, ByteArray.utf8Decode?_empty]
  rfl

lemma WholeMessages.response_eq (h : WholeMessages node command request overflowChecks s)
    (hrequest : command.request overflowChecks = some request) {response : Value F}
    (hresponse : s.response node = some response) :
    command.answer node overflowChecks = some response := by
  cases hparsed : s.parsed with
  | none => simp [Connection.response, hparsed] at hresponse
  | some parsed =>
    obtain rfl := h.parsed parsed hparsed
    rw [← respond_request node hrequest]
    simpa [Connection.response, hparsed] using hresponse

/-- A server that has parsed a request and builds no response is one that the command makes panic. -/
lemma WholeMessages.answer_eq_none (h : WholeMessages node command request overflowChecks s)
    (hrequest : command.request overflowChecks = some request) (hparsed : s.parsed.isSome)
    (hresponse : s.response node = none) : command.answer node overflowChecks = none := by
  obtain ⟨parsed, hparsed⟩ := Option.isSome_iff_exists.mp hparsed
  obtain rfl := h.parsed parsed hparsed
  rw [← respond_request node hrequest]
  simpa [Connection.response, hparsed] using hresponse

/-- **The server's read** parses the request exactly when it finds all of it. -/
lemma WholeMessages.serverReads_iff (h : WholeMessages node command request overflowChecks s)
    (hrequest : command.request overflowChecks = some request) {n : ℕ}
    (hs : exchangeStep T node command request s (.serverReads n) = some s') :
    WholeMessages node command request overflowChecks s' ↔
      ReadsWhole T node command request overflowChecks s (.serverReads n) := by
  rw [exchangeStep] at hs
  split_ifs at hs
  cases hs
  rw [ReadsWhole, ← fromSlice_extract_iff (isMessage_request T hrequest)]
  constructor
  · intro h'
    exact h'.parsed _ rfl
  · intro hread
    exact ⟨fun _ hparsed => (Option.some.inj hparsed).symm.trans hread, h.received⟩

lemma WholeMessages.lncliReads_iff (h : WholeMessages node command request overflowChecks s)
    (hbtc : ∀ amount, T.ReadsBack (node.toBtc amount))
    (hrequest : command.request overflowChecks = some request) {n : ℕ}
    (hs : exchangeStep T node command request s (.lncliReads n) = some s') :
    WholeMessages node command request overflowChecks s' ↔
      ReadsWhole T node command request overflowChecks s (.lncliReads n) := by
  rw [exchangeStep] at hs
  by_cases hready : 0 < n ∧ s.sent = (toBytes T request).size ∧ s.received.isNone
  swap
  · rw [if_neg hready] at hs
    cases hs
  rw [if_pos hready] at hs
  cases hresponse : s.response node with
  | none =>
    simp only [hresponse] at hs
    split_ifs at hs with hparsed
    cases hs
    have hnone := h.answer_eq_none hrequest hparsed hresponse
    refine iff_of_true ⟨h.parsed, fun received hreceived => ?_⟩ ?_
    · rw [hnone, ← Option.some.inj hreceived, fromSlice_empty]
    · intro response accepted hanswer
      rw [hnone] at hanswer
      cases hanswer
  | some response =>
    cases haccepted : s.accepted with
    | none =>
      simp only [hresponse, haccepted] at hs
      cases hs
    | some accepted =>
      simp only [hresponse, haccepted] at hs
      cases hs
      have hanswer := h.response_eq hrequest hresponse
      have hread := fromSlice_extract_iff (isMessage_answer node hbtc hanswer)
        (min (min n accepted) command.buffer)
      constructor
      · intro h' response' accepted' hanswer' haccepted'
        obtain rfl := Option.some.inj (hanswer.symm.trans hanswer')
        obtain rfl := Option.some.inj (haccepted.symm.trans haccepted')
        exact hread.mp ((h'.received _ rfl).trans hanswer)
      · intro hwhole
        refine ⟨h.parsed, fun received hreceived => ?_⟩
        rw [hanswer, ← Option.some.inj hreceived]
        exact hread.mpr (hwhole response accepted hanswer haccepted)

/-- **One step** from whole messages leads to whole messages exactly when its read finds one. -/
lemma WholeMessages.step_iff (h : WholeMessages node command request overflowChecks s)
    (hbtc : ∀ amount, T.ReadsBack (node.toBtc amount))
    (hrequest : command.request overflowChecks = some request)
    (hs : exchangeStep T node command request s a = some s') :
    WholeMessages node command request overflowChecks s' ↔
      ReadsWhole T node command request overflowChecks s a := by
  cases a with
  | lncliWrites n =>
    rw [exchangeStep] at hs
    split_ifs at hs
    cases hs
    exact iff_of_true ⟨h.parsed, h.received⟩ trivial
  | serverReads n => exact h.serverReads_iff hrequest hs
  | serverWrites n =>
    rw [exchangeStep] at hs
    cases hresponse : s.response node with
    | none =>
      simp only [hresponse] at hs
      cases hs
    | some response =>
      simp only [hresponse] at hs
      split_ifs at hs
      cases hs
      exact iff_of_true ⟨h.parsed, h.received⟩ trivial
  | lncliReads n => exact h.lncliReads_iff hbtc hrequest hs

end Steps

/-- **When whole messages are exchanged.** For every command, node and floating-point text, and every
way the socket splits what is written: the server handles the method and the parameters of the request
that is sent; and both sides parse what the other has serialised exactly when the one read of each finds
all of it and its buffer holds it. -/
theorem wholeMessages_iff {F Invoice SocketAddr : Type} (T : FloatText F)
    (node : NodeCalls F Invoice SocketAddr) (hbtc : ∀ amount, T.ReadsBack (node.toBtc amount))
    (overflowChecks : Bool) (command : Command) (request : Value F)
    (hrequest : command.request overflowChecks = some request) (as : List Action) :
    respond node request = command.answer node overflowChecks ∧
    (Always (exchangeStep T node command request)
        (WholeMessages node command request overflowChecks) connected as ↔
      StepsMeet (exchangeStep T node command request)
        (ReadsWhole T node command request overflowChecks) connected as) := by
  refine ⟨respond_request node hrequest, ?_⟩
  have hstart : WholeMessages node command request overflowChecks connected := by
    constructor
    · rintro _ ⟨⟩
    · rintro _ ⟨⟩
  exact always_iff_stepsMeet hstart (fun _ h => h)
    (fun _ _ _ h hok hs => (h.step_iff hbtc hrequest hs).mpr hok)
    (fun _ _ _ h hs h' => (h.step_iff hbtc hrequest hs).mp h')

/-! ### Too many channels -/

section Channels

variable {F Invoice SocketAddr : Type} (T : FloatText F)

lemma length_print_hex (bs : Bytes) :
    2 * bs.length + 2 ≤ (print T (.string (hexEncode bs) : Value F)).length := by
  have hle := length_le_printString (hexEncode bs)
  rwa [length_hexEncode] at hle

lemma length_serialize (channel : ChannelInfo) :
    363 ≤ (print T (channel.serialize : Value F)).length := by
  have hid := length_print_hex (F := F) T channel.channelId.val
  have hpeer := length_print_hex (F := F) T channel.counterparty.val
  rw [channel.channelId.property] at hid
  rw [PublicKey.length] at hpeer
  refine le_trans ?_ (sum_le_length_ofFields T (by simp))
  simp only [List.map_cons, List.map_nil, List.sum_cons, List.sum_nil, fieldLength]
  simp only [← String.length_toList, String.reduceToList, List.length_cons, List.length_nil]
  omega

theorem lt_size_listChannels (node : NodeCalls F Invoice SocketAddr)
    (h : 12 ≤ node.listChannels.length) : bufferSize < (toBytes T (listChannels node)).size := by
  have hchannels : node.listChannels.length • 363 ≤
      ((node.listChannels.map ChannelInfo.serialize).map fun v : Value F => (print T v).length).sum := by
    rw [List.map_map, ← List.length_map]
    refine List.card_nsmul_le_sum _ _ fun n hn => ?_
    obtain ⟨channel, -, rfl⟩ := List.mem_map.mp hn
    exact length_serialize T channel
  have harray := sum_le_length_array T (node.listChannels.map ChannelInfo.serialize)
  have hnodup : ([("channels", (.array (node.listChannels.map ChannelInfo.serialize) : Value F))].map
      Prod.fst).Nodup := by simp
  have hobject := sum_le_length_ofFields T hnodup
  have hbytes := length_le_size T (listChannels node)
  simp only [List.map_singleton, List.sum_singleton, fieldLength] at hobject
  rw [smul_eq_mul] at hchannels
  rw [bufferSize]
  rw [listChannels] at hbytes ⊢
  omega

end Channels

/-! ### A node with some channels -/

/-- Amounts as a number of sats times `1e-8`. -/
def btcText : FloatText Amount where
  print amount := Nat.toDigits 10 amount.val ++ ['e', '-', '8']
  parse token := do
    let sats ← natOf (token.take (token.length - 3))
    if h : sats ≤ 2100000000000000 ∧ token.drop (token.length - 3) = ['e', '-', '8'] then
      some ⟨sats, h.1⟩
    else none

lemma btcText_readsBack (amount : Amount) : btcText.ReadsBack amount := by
  have hdigit : ∀ c ∈ Nat.toDigits 10 amount.val, c.isDigit := fun c hc => isDigit_of_mem_toDigits hc
  have hlength : (btcText.print amount).length - 3 = (Nat.toDigits 10 amount.val).length := by
    simp [btcText]
  refine ⟨by simp [btcText], fun c hc => ?_, ?_, ?_⟩
  · rcases List.mem_append.mp hc with hc | hc
    · simp [isNumberChar, hdigit c hc]
    · have hcases : c = 'e' ∨ c = '-' ∨ c = '8' := by simpa using hc
      rcases hcases with rfl | rfl | rfl <;> decide
  · have hhead : (btcText.print amount).head? ≠ some '-' := by
      rw [btcText, List.head?_append_of_ne_nil _ Nat.toDigits_ne_nil]
      intro h
      exact absurd (hdigit _ (List.mem_of_mem_head? h)) (by decide)
    have hnat : natOf (btcText.print amount) = none := by
      refine if_neg fun h => ?_
      have he := List.all_eq_true.mp h.2.1 'e' (by simp [btcText])
      exact absurd he (by decide)
    rw [intOf_of_head hhead, hnat, Option.bind_none]
  · have htake : (btcText.print amount).take ((btcText.print amount).length - 3) =
        Nat.toDigits 10 amount.val := by
      rw [hlength]
      exact List.take_left
    have hdrop : (btcText.print amount).drop ((btcText.print amount).length - 3) = ['e', '-', '8'] := by
      rw [hlength]
      exact List.drop_left
    show ((natOf _).bind fun sats => _) = _
    rw [htake, natOf_toDigits, Option.bind_some]
    exact dif_pos ⟨amount.property, hdrop⟩

def sampleChannel : ChannelInfo where
  channelId := zeroBytes
  counterparty := generatorKey
  fundingTxo := none
  shortChannelId := none
  channelValueSat := 100000
  localReserve := none
  outboundCapacitySat := 50000
  inboundCapacitySat := 50000
  confirmationsRequired := none
  isOutbound := true
  isChannelReady := false
  isUsable := false
  isAnnounced := false

def sampleNode (channels : ℕ) : NodeCalls Amount Unit Unit where
  nodeId := generatorKey
  newOnchainAddress := ""
  balance := { onchainConfirmed := ⟨0, Nat.zero_le _⟩, onchainPending := 0, lightning := 0 }
  toBtc := id
  parsePublicKey _ := none
  openChannel _ _ _ := .error ""
  listChannels := List.replicate channels sampleChannel
  hexDecode _ := none
  closeChannel _ := .error ""
  parseInvoice _ := none
  payBolt11Invoice _ _ := .error ""
  createBolt11Invoice _ := .error ""
  getPayment _ := none
  parseSocketAddr _ := none
  connectToPeer _ _ := .error ""

def unsplit : List Action := [.lncliWrites 4096, .serverReads 4096, .serverWrites 65536, .lncliReads 4096]

def listRequest : Value Amount := bareRequest "list_channels"

lemma size_listRequest : (toBytes btcText listRequest).size = 26 := by
  have htext : print btcText listRequest = "\x7b\"method\":\"list_channels\"\x7d".toList := by
    simp [listRequest, bareRequest, ofFields, insertField, print, printFields, commaSep, printString,
      escapeChar]
  rw [toBytes, htext, String.ofList_toList]
  rfl

lemma size_noChannels : (toBytes btcText (listChannels (sampleNode 0))).size = 15 := by
  have htext : print btcText (listChannels (sampleNode 0)) = "\x7b\"channels\":[]\x7d".toList := by
    simp [listChannels, sampleNode, ofFields, insertField, print, printElems, printFields, commaSep,
      printString, escapeChar]
  rw [toBytes, htext, String.ofList_toList]
  rfl

lemma respond_listRequest (node : NodeCalls Amount Unit Unit) :
    respond node listRequest = some (listChannels node) := by
  simp [respond, listRequest]

def answeredList (node : NodeCalls Amount Unit Unit) : Connection Amount where
  sent := 26
  parsed := some (some listRequest)
  accepted := some (min 65536 (toBytes btcText (listChannels node)).size)
  received := none

section Unsplit

variable (node : NodeCalls Amount Unit Unit)

lemma lncliWrites_listRequest :
    exchangeStep btcText node .listChannels listRequest connected (.lncliWrites 4096) =
      some { connected with sent := 26 } := by
  simp [exchangeStep, size_listRequest, connected]

lemma serverReads_listRequest :
    exchangeStep btcText node .listChannels listRequest { connected with sent := 26 }
        (.serverReads 4096) =
      some { connected with sent := 26, parsed := some (some listRequest) } := by
  have hmessage : IsMessage btcText listRequest := isMessage_ofFields (by simp)
  have hread : fromSlice btcText
      ((toBytes btcText listRequest).extract 0 (min (min 4096 26) requestBuffer)) = some listRequest :=
    (fromSlice_extract_iff hmessage _).mpr (by rw [size_listRequest]; decide)
  rw [exchangeStep, if_pos ⟨by decide, by decide, rfl⟩]
  simp only [hread]

lemma serverWrites_listRequest :
    exchangeStep btcText node .listChannels listRequest
        { connected with sent := 26, parsed := some (some listRequest) } (.serverWrites 65536) =
      some (answeredList node) := by
  simp [exchangeStep, Connection.response, respond_listRequest, connected, answeredList]

lemma lncliReads_listRequest :
    exchangeStep btcText node .listChannels listRequest (answeredList node) (.lncliReads 4096) =
      some { answeredList node with
        received := some (fromSlice btcText ((toBytes btcText (listChannels node)).extract 0
          (min (min 4096 (min 65536 (toBytes btcText (listChannels node)).size))
            Command.listChannels.buffer))) } := by
  rw [exchangeStep, if_pos ⟨by decide, size_listRequest.symm, rfl⟩]
  simp only [Connection.response, answeredList, respond_listRequest]

lemma run_unsplit :
    run (exchangeStep btcText node .listChannels listRequest) connected unsplit =
      some { answeredList node with
        received := some (fromSlice btcText ((toBytes btcText (listChannels node)).extract 0
          (min (min 4096 (min 65536 (toBytes btcText (listChannels node)).size))
            Command.listChannels.buffer))) } :=
  run_of_step (lncliWrites_listRequest node) (run_of_step (serverReads_listRequest node)
    (run_of_step (serverWrites_listRequest node) (run_of_step (lncliReads_listRequest node) rfl)))

end Unsplit

/-- Without a channel both sides read all. -/
theorem wholeMessages_iff_at :
    respond (sampleNode 0) listRequest = Command.listChannels.answer (sampleNode 0) true ∧
      Always (exchangeStep btcText (sampleNode 0) .listChannels listRequest)
        (WholeMessages (sampleNode 0) .listChannels listRequest true) connected unsplit := by
  obtain ⟨hrespond, hiff⟩ := wholeMessages_iff btcText (sampleNode 0) btcText_readsBack true
    .listChannels listRequest rfl unsplit
  refine ⟨hrespond, hiff.mpr (.cons (lncliWrites_listRequest _) trivial
    (.cons (serverReads_listRequest _) ?_ (.cons (serverWrites_listRequest _) trivial
      (.cons (lncliReads_listRequest _) ?_ trivial))))⟩
  · rw [ReadsWhole, size_listRequest]
    decide
  · rintro response accepted hanswer haccepted
    cases hanswer
    cases haccepted
    rw [size_noChannels]
    decide

/-- **With twelve channels** the response is cut off, however the socket behaves. -/
theorem not_wholeMessages_manyChannels :
    ∃ s, run (exchangeStep btcText (sampleNode 12) .listChannels listRequest) connected unsplit = some s ∧
      s.received = some none ∧
      ¬ Always (exchangeStep btcText (sampleNode 12) .listChannels listRequest)
        (WholeMessages (sampleNode 12) .listChannels listRequest true) connected unsplit := by
  have hsize := lt_size_listChannels btcText (sampleNode 12) (by decide)
  have hcut : fromSlice btcText ((toBytes btcText (listChannels (sampleNode 12))).extract 0
      (min (min 4096 (min 65536 (toBytes btcText (listChannels (sampleNode 12))).size))
        Command.listChannels.buffer)) = none := by
    refine fromSlice_cut (isMessage_listChannels _ btcText) ?_
    exact (Nat.min_le_right _ _).trans_lt hsize
  have hr := run_unsplit (sampleNode 12)
  rw [hcut] at hr
  refine ⟨_, hr, rfl, fun h => ?_⟩
  have hreceived := (h.last hr).received none rfl
  cases hreceived

end LnNode.Server.Exchange
