import LnNode.Server

/-!
# The command line client

The commands of `lncli`, the request that each serialises, and the buffer that its response is read
into.

* `respond_request`: the server handles every method and parameter that is sent.
-/

namespace LnNode.Lncli

open LnNode.Lib.Json LnNode.Server

inductive Command where
  | nodePubkey
  | newAddress
  | balance
  | openChannel (pubkey : String) (amount : UInt64)
  | listChannels
  | closeChannel (channelId : String)
  | sendPayment (invoice : String)
  | receive (amount : UInt64)
  | connect (pubkey address : String)

/-! ### Requests -/

section Requests

variable {F : Type}

def bareRequest (method : String) : Value F := ofFields [("method", .string method)]

def paramsRequest (method : String) (params : List (String × Value F)) : Value F :=
  ofFields [("method", .string method), ("params", ofFields params)]

/-- `amount * 1000`, which panics on overflow where overflows are checked and wraps elsewhere. -/
def amountMsat (overflowChecks : Bool) (amount : UInt64) : Option UInt64 :=
  if overflowChecks ∧ 2 ^ 64 ≤ amount.toNat * 1000 then none else some (amount * 1000)

def Command.request (overflowChecks : Bool) : Command → Option (Value F)
  | .nodePubkey => some (bareRequest "node_pubkey")
  | .newAddress => some (bareRequest "new_address")
  | .balance => some (bareRequest "balance")
  | .openChannel pubkey amount =>
    some (paramsRequest "open_channel" [("pubkey", .string pubkey), ("amount", ofU64 amount)])
  | .listChannels => some (bareRequest "list_channels")
  | .closeChannel channelId =>
    some (paramsRequest "close_channel" [("channel_id", .string channelId)])
  | .sendPayment invoice => some (paramsRequest "send_payment" [("invoice", .string invoice)])
  | .receive amount => (amountMsat overflowChecks amount).map fun msat =>
    paramsRequest "receive" [("amount", ofU64 msat)]
  | .connect pubkey address =>
    some (paramsRequest "connect" [("pubkey", .string pubkey), ("address", .string address)])

def bufferSize : ℕ := 4096

def Command.buffer : Command → ℕ
  | .nodePubkey => 1024
  | .newAddress => 1024
  | .balance => 1024
  | _ => bufferSize

end Requests

/-! ### What the commands stand for -/

lemma isMessage_paramsRequest {T : FloatText F} {method : String} {params : List (String × Value F)}
    (h : ∀ f ∈ params, WellFormed T 125 f.2) : IsMessage T (paramsRequest method params) :=
  isMessage_ofFields (by simpa using wellFormed_ofFields h)

lemma length_paramsRequest (T : FloatText F) (method name : String) (v : Value F) :
    (print T (paramsRequest method [(name, v)])).length =
      24 + (printString method).length + (printString name).length + (print T v).length := by
  have hlt : ¬ ("params" : String) < "method" := by decide
  have hfields : paramsRequest method [(name, v)] =
      .object [("method", .string method), ("params", .object [(name, v)])] := by
    simp only [paramsRequest, ofFields, List.foldl_cons, List.foldl_nil, insertField, if_neg hlt,
      String.reduceEq, if_false]
  have hmethod : (printString "method").length = 8 := by decide
  have hparams : (printString "params").length = 8 := by decide
  rw [hfields]
  simp only [print, printFields, commaSep, List.length_cons, List.length_append, List.length_nil,
    hmethod, hparams]
  omega

lemma isMessage_request (T : FloatText F) {overflowChecks : Bool} {command : Command}
    {request : Value F} (h : command.request overflowChecks = some request) : IsMessage T request := by
  cases command with
  | openChannel pubkey amount =>
    cases h
    exact isMessage_paramsRequest (by simp)
  | closeChannel channelId =>
    cases h
    exact isMessage_paramsRequest (by simp)
  | sendPayment invoice =>
    cases h
    exact isMessage_paramsRequest (by simp)
  | receive amount =>
    obtain ⟨msat, -, rfl⟩ := Option.map_eq_some_iff.mp h
    exact isMessage_paramsRequest (by simp)
  | connect pubkey address =>
    cases h
    exact isMessage_paramsRequest (by simp)
  | _ =>
    cases h
    exact isMessage_ofFields (by simp)

section Answers

variable {F Invoice SocketAddr : Type} (node : NodeCalls F Invoice SocketAddr)

/-- What the server builds when the node is called with the arguments of the command. -/
def Command.answer (overflowChecks : Bool) : Command → Option (Value F)
  | .nodePubkey => some (Server.nodePubkey node)
  | .newAddress => some (Server.newAddress node)
  | .balance => some (Server.balance node)
  | .openChannel pubkey amount => Server.openChannel node pubkey amount
  | .listChannels => some (Server.listChannels node)
  | .closeChannel channelId => Server.closeChannel node channelId
  | .sendPayment invoice => Server.sendPayment node invoice
  | .receive amount => (amountMsat overflowChecks amount).bind (Server.receive node)
  | .connect pubkey address => Server.connect node pubkey address

section Lookups

variable (method : String) (params : List (String × Value F))

@[simp] lemma method_bareRequest :
    ((bareRequest method : Value F).get "method").asStr = some method := by
  simp [bareRequest, get_ofFields]

@[simp] lemma method_paramsRequest :
    ((paramsRequest method params).get "method").asStr = some method := by
  simp [paramsRequest, get_ofFields, lookup_cons_eq]

@[simp] lemma params_paramsRequest : (paramsRequest method params).get "params" = ofFields params := by
  simp [paramsRequest, get_ofFields]

end Lookups

/-- **Every method and parameter is handled**: the server calls what the command stands for, with the
arguments it was given. -/
theorem respond_request {overflowChecks : Bool} {command : Command} {request : Value F}
    (h : command.request overflowChecks = some request) :
    respond node request = command.answer node overflowChecks := by
  cases command with
  | nodePubkey =>
    cases h
    simp [respond, Command.answer]
  | newAddress =>
    cases h
    simp [respond, Command.answer]
  | balance =>
    cases h
    simp [respond, Command.answer]
  | openChannel pubkey amount =>
    cases h
    simp [respond, Command.answer, strParam, u64Param, get_ofFields, lookup_cons_eq]
  | listChannels =>
    cases h
    simp [respond, Command.answer]
  | closeChannel channelId =>
    cases h
    simp [respond, Command.answer, strParam, get_ofFields, lookup_cons_eq]
  | sendPayment invoice =>
    cases h
    simp [respond, Command.answer, strParam, get_ofFields, lookup_cons_eq]
  | receive amount =>
    obtain ⟨msat, hmsat, rfl⟩ := Option.map_eq_some_iff.mp h
    simp [respond, Command.answer, hmsat, u64Param, get_ofFields]
  | connect pubkey address =>
    cases h
    simp [respond, Command.answer, strParam, get_ofFields, lookup_cons_eq]

lemma isMessage_answer {T : FloatText F} (hbtc : ∀ amount, T.ReadsBack (node.toBtc amount))
    {overflowChecks : Bool} {command : Command} {response : Value F}
    (h : command.answer node overflowChecks = some response) : IsMessage T response := by
  cases command with
  | nodePubkey =>
    cases h
    exact isMessage_resultJson T _
  | newAddress =>
    cases h
    exact isMessage_resultJson T _
  | balance =>
    cases h
    exact isMessage_balance node (hbtc _)
  | openChannel pubkey amount => exact isMessage_openChannel node T h
  | listChannels =>
    cases h
    exact isMessage_listChannels node T
  | closeChannel channelId => exact isMessage_closeChannel node T h
  | sendPayment invoice => exact isMessage_sendPayment node T h
  | receive amount =>
    obtain ⟨msat, -, h⟩ := Option.bind_eq_some_iff.mp h
    exact isMessage_receive node T h
  | connect pubkey address => exact isMessage_connect node T h

end Answers

end LnNode.Lncli
