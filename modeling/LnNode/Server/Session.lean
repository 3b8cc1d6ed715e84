import LnNode.Node.Records
import LnNode.Server.Identifiers

/-!
# The server over the node's payments

The server takes one request after another, while LDK's events are handled and the process may crash. A
request to pay is cut where the node is: between LDK, which takes the payment, and the write of its
record. The response is written last, and the client may be gone by then.

* `reads_records`: with nothing in between, a request is answered as the node's calls answer it;
* `always_keepsPromises`: an id or an invoice that a client has got is that of a record, and the id can
  be used to ask for it;
* `always_stopsClean`: a request that makes the server panic has done nothing, or is done and only its
  response is not written.
-/

namespace LnNode.Server.Session

open LnNode.Storage LnNode.Lib.Wire LnNode.Lib.Json LnNode.Lib.Run LnNode.Lib.Attempts
  LnNode.Node.Payments LnNode.Node.SentAmount LnNode.Node.Records LnNode.Server
  LnNode.Server.Identifiers LnNode.Lncli

/-! ### The machine -/

/-- What a request meets: the node's calls that are not about payments, LDK's answers, the faults of the
store, and the texts of errors and invoices. The text of an invoice is parsed to the invoice. -/
structure World (F SocketAddr : Type) (parseInvoice : String → Option Bolt11Invoice) where
  calls : NodeCalls F Bolt11Invoice SocketAddr
  refusal : Option RetryableSendFailure
  created : Option UInt64 → Except SignOrCreationError PaymentHash
  readFault : Fault
  writeFault : Fault
  errorText : ApiError → String
  invoiceText : Bolt11Invoice → String
  parses : ∀ invoice, parseInvoice (invoiceText invoice) = some invoice

/-- The task of the server: it waits for a client, is between the two halves of a call to pay, has a
response to write, or has panicked. -/
inductive Task (F SocketAddr : Type) (parseInvoice : String → Option Bolt11Invoice) where
  | ready
  | paying (w : World F SocketAddr parseInvoice) (request : Value F) (paymentId : PaymentId)
  | replying (response : Value F)
  | stopped

/-- The node, its server, and the responses that were written so far. -/
structure ServingNode (F SocketAddr : Type) (parseInvoice : String → Option Bolt11Invoice) where
  node : PaymentsNode
  task : Task F SocketAddr parseInvoice
  answered : List (Value F)

inductive Action (F SocketAddr : Type) (parseInvoice : String → Option Bolt11Invoice) where
  /-- The server reads the bytes of a client, unless that fails. -/
  | reads (w : World F SocketAddr parseInvoice) (buffer : Option ByteArray)
  /-- The record of the payment is written. -/
  | records
  /-- So many bytes of the response are taken, `none` for an error. -/
  | writes (taken : Option ℕ)
  /-- A step of LDK or of the handling of its events. -/
  | background (a : Node.SentAmount.Action)
  | crash (acknowledged : ℕ)

/-- The steps that are not taken by calls of the server. -/
def isBackground : Node.SentAmount.Action → Bool
  | .payments (.resolve _ _ _) | .payments (.forget _) | .payments .take | .payments .write
  | .takeFails _ | .writeFails _ => true
  | .payments (.pay _ _ _) | .payments (.record _) | .payments (.crash _) | .createBolt11Invoice _ _ _
  | .recordFails _ => false

section Machine

variable {F SocketAddr : Type} {parseInvoice : String → Option Bolt11Invoice}

/-- The node as the server sees it. -/
def World.nodeCalls (w : World F SocketAddr parseInvoice) (node : PaymentsNode) :
    NodeCalls F Bolt11Invoice SocketAddr :=
  { w.calls with
    parseInvoice
    payBolt11Invoice := fun invoice amountMsat =>
      (payBolt11Invoice w.refusal w.writeFault node.ldk node.store invoice amountMsat).2.2.mapError
        w.errorText
    createBolt11Invoice := fun amountMsat =>
      ((createBolt11Invoice w.writeFault (w.created amountMsat) node.store amountMsat).2.map
        w.invoiceText).mapError w.errorText
    getPayment := nodeGetPayment w.readFault node.store }

/-- The response once the call to pay has returned. -/
def World.paid (w : World F SocketAddr parseInvoice) (request : Value F)
    (result : Except ApiError PaymentId) : Option (Value F) :=
  respond { w.calls with
    parseInvoice, payBolt11Invoice := fun _ _ => result.mapError w.errorText } request

/-- The server goes on with a response, or has panicked. -/
def Task.ofResponse : Option (Value F) → Task F SocketAddr parseInvoice
  | some response => .replying response
  | none => .stopped

variable (parseInvoice)

/-- The invoice that a request asks to pay. -/
def invoiceToPay (request : Value F) : Option Bolt11Invoice :=
  if (request.get "method").asStr = some "send_payment" then
    (strParam request "invoice").bind parseInvoice
  else none

/-- The amount that a request asks an invoice for. -/
def amountToReceive (request : Value F) : Option UInt64 :=
  if (request.get "method").asStr = some "receive" then u64Param request "amount" else none

variable {parseInvoice} (T : FloatText F)

/-- The arm of a request, to its response or to the write of the record of a payment. -/
def ServingNode.take (s : ServingNode F SocketAddr parseInvoice) (w : World F SocketAddr parseInvoice)
    (request : Value F) : Option (ServingNode F SocketAddr parseInvoice) :=
  match invoiceToPay parseInvoice request, amountToReceive request with
  | some invoice, _ =>
    (nodeStep s.node (.payments (.pay w.refusal invoice none))).map fun node =>
      match sendBolt11Payment w.refusal s.node.ldk invoice none with
      | .ok _ => { s with node, task := .paying w request invoice.paymentId }
      | .error e => { s with node, task := .ofResponse (w.paid request (.error e)) }
  | none, some amountMsat =>
    (nodeStep s.node (.createBolt11Invoice w.writeFault (w.created (some amountMsat))
      (some amountMsat))).map fun node =>
        { s with node, task := .ofResponse (respond (w.nodeCalls s.node) request) }
  | none, none => some { s with task := .ofResponse (respond (w.nodeCalls s.node) request) }

def sessionStep (s : ServingNode F SocketAddr parseInvoice) :
    Action F SocketAddr parseInvoice → Option (ServingNode F SocketAddr parseInvoice)
  | .reads w buffer =>
    match s.task with
    | .ready =>
      match buffer.bind (fromSlice T) with
      | none => some { s with task := .stopped }
      | some request => s.take w request
    | _ => none
  | .records =>
    match s.task with
    | .paying w request paymentId =>
      match w.writeFault with
      | none => (nodeStep s.node (.payments (.record 0))).map fun node =>
          { s with node, task := .ofResponse (w.paid request (.ok paymentId)) }
      | some err => (nodeStep s.node (.recordFails 0)).map fun node =>
          { s with node, task := .ofResponse (w.paid request (.error (.io err))) }
    | _ => none
  | .writes taken =>
    match s.task with
    | .replying response =>
      match taken with
      | some _ => some { s with task := .ready, answered := s.answered ++ [response] }
      | none => some { s with task := .stopped }
    | _ => none
  | .background a =>
    if isBackground a then (nodeStep s.node a).map fun node => { s with node } else none
  | .crash acknowledged =>
    (nodeStep s.node (.payments (.crash acknowledged))).map fun node =>
      { s with node, task := .ready }

end Machine

/-- A node that has paid nothing, with a server that waits for its first client. -/
def firstStart {F SocketAddr : Type} {parseInvoice : String → Option Bolt11Invoice} :
    ServingNode F SocketAddr parseInvoice where
  node := noPayments
  task := .ready
  answered := []

/-! ### What the responses give away -/

section Responses

variable {F SocketAddr : Type} {node : NodeCalls F Bolt11Invoice SocketAddr} {request response : Value F}

/-- The response to a request to pay. -/
def paidReply (result : Except String PaymentId) : Value F :=
  replyJson result (fun paymentId => ofFields [("payment_id", .string (hexEncode paymentId.val.val))])
    fun e => resultJson ("Could not make payment: " ++ e)

/-- The response has no id of a payment and no invoice to read. -/
def GivesNothing (response : Value F) : Prop :=
  (response.get "payment_id").asStr = none ∧ (response.get "invoice").asStr = none

lemma invoiceToPay_eq_some {parseInvoice : String → Option Bolt11Invoice} {invoice : Bolt11Invoice}
    (h : invoiceToPay parseInvoice request = some invoice) :
    (request.get "method").asStr = some "send_payment" ∧
      ∃ text, strParam request "invoice" = some text ∧ parseInvoice text = some invoice := by
  unfold invoiceToPay at h
  split_ifs at h with hmethod
  exact ⟨hmethod, Option.bind_eq_some_iff.mp h⟩

lemma amountToReceive_eq_some {amountMsat : UInt64} (h : amountToReceive request = some amountMsat) :
    (request.get "method").asStr = some "receive" ∧ u64Param request "amount" = some amountMsat := by
  unfold amountToReceive at h
  split_ifs at h with hmethod
  exact ⟨hmethod, h⟩

lemma respond_pay {invoice : Bolt11Invoice} (h : invoiceToPay node.parseInvoice request = some invoice) :
    respond node request = some (paidReply (node.payBolt11Invoice invoice none)) := by
  obtain ⟨hmethod, text, htext, hparse⟩ := invoiceToPay_eq_some h
  simp [respond, hmethod, htext, sendPayment, hparse, paidReply]

lemma respond_receive {amountMsat : UInt64} (h : amountToReceive request = some amountMsat) :
    respond node request = receive node amountMsat := by
  obtain ⟨hmethod, hamount⟩ := amountToReceive_eq_some h
  simp [respond, hmethod, hamount]

lemma givesNothing_resultJson (text : String) : GivesNothing (resultJson text : Value F) := by
  simp [GivesNothing, resultJson, get_ofFields, lookup_cons_eq, Value.asStr]

lemma givesNothing_replyJson {α : Type} {result : Except String α} {ok : α → Value F}
    {error : String → Value F} (hok : ∀ a, GivesNothing (ok a)) (herror : ∀ e, GivesNothing (error e)) :
    GivesNothing (replyJson result ok error) := by
  cases result with
  | ok a => exact hok a
  | error e => exact herror e

/-- **The responses**: that to a request to pay, that with an invoice, or one that gives nothing away. -/
theorem respond_cases (h : respond node request = some response) :
    (∃ invoice, invoiceToPay node.parseInvoice request = some invoice ∧
      response = paidReply (node.payBolt11Invoice invoice none)) ∨
    (∃ amountMsat text, amountToReceive request = some amountMsat ∧
      node.createBolt11Invoice (some amountMsat) = .ok text ∧
      response = ofFields [("invoice", .string text)]) ∨
    GivesNothing response := by
  cases hmethod : (request.get "method").asStr with
  | none => simp [respond, hmethod] at h
  | some method =>
    simp only [respond, hmethod, Option.bind_eq_bind, Option.bind_some] at h
    split at h
    · cases h
      exact Or.inr (Or.inr (givesNothing_resultJson _))
    · cases h
      exact Or.inr (Or.inr (givesNothing_resultJson _))
    · cases h
      refine Or.inr (Or.inr ?_)
      simp [GivesNothing, balance, get_ofFields, lookup_cons_eq, Value.asStr]
    · obtain ⟨pubkey, -, h⟩ := Option.bind_eq_some_iff.mp h
      obtain ⟨amount, -, h⟩ := Option.bind_eq_some_iff.mp h
      obtain ⟨key, -, h⟩ := Option.bind_eq_some_iff.mp h
      cases h
      refine Or.inr (Or.inr (givesNothing_replyJson (fun _ => givesNothing_resultJson _) fun e => ?_))
      simp [GivesNothing, get_ofFields, lookup_cons_eq, Value.asStr]
    · cases h
      refine Or.inr (Or.inr ?_)
      simp [GivesNothing, listChannels, get_ofFields, lookup_cons_eq, Value.asStr]
    · obtain ⟨text, -, h⟩ := Option.bind_eq_some_iff.mp h
      obtain ⟨bytes, -, h⟩ := Option.bind_eq_some_iff.mp h
      obtain ⟨id, -, h⟩ := Option.bind_eq_some_iff.mp h
      cases h
      exact Or.inr (Or.inr (givesNothing_replyJson (fun _ => givesNothing_resultJson _)
        fun _ => givesNothing_resultJson _))
    · obtain ⟨text, htext, h⟩ := Option.bind_eq_some_iff.mp h
      obtain ⟨invoice, hinvoice, h⟩ := Option.bind_eq_some_iff.mp h
      cases h
      refine Or.inl ⟨invoice, ?_, rfl⟩
      rw [invoiceToPay, if_pos hmethod, htext]
      exact hinvoice
    · obtain ⟨amountMsat, hamount, h⟩ := Option.bind_eq_some_iff.mp h
      rw [receive] at h
      cases hcall : node.createBolt11Invoice (some amountMsat) with
      | error e =>
        simp only [hcall] at h
        cases h
      | ok text =>
        simp only [hcall] at h
        cases h
        exact Or.inr (Or.inl ⟨amountMsat, text, by rw [amountToReceive, if_pos hmethod, hamount], hcall,
          rfl⟩)
    · obtain ⟨text, -, h⟩ := Option.bind_eq_some_iff.mp h
      obtain ⟨bytes, -, h⟩ := Option.bind_eq_some_iff.mp h
      obtain ⟨id, -, h⟩ := Option.bind_eq_some_iff.mp h
      cases hpayment : node.getPayment ⟨id⟩ with
      | none =>
        rw [hpayment] at h
        cases h
        exact Or.inr (Or.inr (givesNothing_resultJson _))
      | some payment =>
        rw [hpayment] at h
        cases h
        -- the id in a record is an array
        refine Or.inr (Or.inr ?_)
        simp [GivesNothing, serializePayment, get_ofFields, lookup_cons_eq, Value.asStr, ofBytes]
    · obtain ⟨pubkey, -, h⟩ := Option.bind_eq_some_iff.mp h
      obtain ⟨address, -, h⟩ := Option.bind_eq_some_iff.mp h
      obtain ⟨key, -, h⟩ := Option.bind_eq_some_iff.mp h
      obtain ⟨addr, -, h⟩ := Option.bind_eq_some_iff.mp h
      cases h
      exact Or.inr (Or.inr (givesNothing_replyJson (fun _ => givesNothing_resultJson _)
        fun _ => givesNothing_resultJson _))
    · cases h
      refine Or.inr (Or.inr ?_)
      simp [GivesNothing, get_ofFields, lookup_cons_eq, Value.asStr]

end Responses

/-! ### With nothing in between -/

section Unsplit

variable {F SocketAddr : Type} {parseInvoice : String → Option Bolt11Invoice} {T : FloatText F}
  {s s' s'' : ServingNode F SocketAddr parseInvoice} {w : World F SocketAddr parseInvoice}
  {request : Value F} {buffer : Option ByteArray} {invoice : Bolt11Invoice}

lemma paid_eq (h : invoiceToPay parseInvoice request = some invoice)
    (result : Except ApiError PaymentId) :
    w.paid request result = some (paidReply (result.mapError w.errorText)) := by
  rw [World.paid]
  exact respond_pay h

/-- The read of a request to pay: LDK refuses the payment, or takes it. -/
lemma reads_pay_cases (hbuffer : buffer.bind (fromSlice T) = some request)
    (hinvoice : invoiceToPay parseInvoice request = some invoice)
    (hs : sessionStep T s (.reads w buffer) = some s') :
    (∃ e, sendBolt11Payment w.refusal s.node.ldk invoice none = .error e ∧
      s' = { s with task := .replying (paidReply (.error (w.errorText e))) }) ∨
    ∃ ldk' payment, sendBolt11Payment w.refusal s.node.ldk invoice none = .ok (ldk', payment) ∧
      s' = { s with
        node := { s.node with
          ldk := ldk'
          calls := s.node.calls ++ [{ payment, attempt := ldk'.attempts payment.paymentId }] }
        task := .paying w request invoice.paymentId } := by
  rw [sessionStep] at hs
  split at hs
  swap
  · cases hs
  simp only [hbuffer, ServingNode.take, hinvoice, nodeStep, paymentsStep] at hs
  cases hsend : sendBolt11Payment w.refusal s.node.ldk invoice none with
  | error e =>
    simp only [hsend, Option.map_some, Option.some.injEq, paid_eq hinvoice, Task.ofResponse] at hs
    exact Or.inl ⟨e, rfl, hs.symm⟩
  | ok taken =>
    obtain ⟨ldk', payment⟩ := taken
    simp only [hsend, Option.map_some, Option.some.injEq] at hs
    exact Or.inr ⟨ldk', payment, rfl, hs.symm⟩

lemma records_cases (hs : sessionStep T s .records = some s') :
    ∃ w request paymentId, s.task = .paying w request paymentId ∧
      ((∃ call, w.writeFault = none ∧ s.node.calls[0]? = some call ∧ s' = { s with
          node := { s.node with
            store := written s.node.store call.payment, calls := s.node.calls.eraseIdx 0 }
          task := .ofResponse (w.paid request (.ok paymentId)) }) ∨
        ∃ err, w.writeFault = some err ∧ s' = { s with
          node := { s.node with calls := s.node.calls.eraseIdx 0 }
          task := .ofResponse (w.paid request (.error (.io err))) }) := by
  rw [sessionStep] at hs
  split at hs
  swap
  · cases hs
  rename_i w request paymentId htask
  refine ⟨w, request, paymentId, htask, ?_⟩
  cases hfault : w.writeFault with
  | none =>
    simp only [hfault, nodeStep] at hs
    obtain ⟨node, hnode, rfl⟩ := Option.map_eq_some_iff.mp hs
    obtain ⟨call, hcall, rfl⟩ := record_cases hnode
    exact Or.inl ⟨call, rfl, hcall, rfl⟩
  | some err =>
    simp only [hfault, nodeStep] at hs
    obtain ⟨node, hnode, rfl⟩ := Option.map_eq_some_iff.mp hs
    split at hnode
    · cases hnode
    · cases hnode
      exact Or.inr ⟨err, rfl, rfl⟩

/-- The server goes on to its response. -/
def ServingNode.finish (T : FloatText F) (s : ServingNode F SocketAddr parseInvoice) :
    Option (ServingNode F SocketAddr parseInvoice) :=
  match s.task with
  | .paying _ _ _ => sessionStep T s .records
  | _ => some s

/-- **With nothing in between**, a request to pay does what the call to pay does, and is answered as the
node of that moment answers it. -/
theorem reads_records (hcalls : s.node.calls = []) (hbuffer : buffer.bind (fromSlice T) = some request)
    (hinvoice : invoiceToPay parseInvoice request = some invoice)
    (hs : sessionStep T s (.reads w buffer) = some s') (hs' : s'.finish T = some s'') :
    ∃ response, respond (w.nodeCalls s.node) request = some response ∧
      s'' = { s with
        node := { s.node with
          ldk := (payBolt11Invoice w.refusal w.writeFault s.node.ldk s.node.store invoice none).1
          store := (payBolt11Invoice w.refusal w.writeFault s.node.ldk s.node.store invoice none).2.1 }
        task := .replying response } := by
  refine ⟨paidReply ((payBolt11Invoice w.refusal w.writeFault s.node.ldk s.node.store invoice
    none).2.2.mapError w.errorText), respond_pay hinvoice, ?_⟩
  rcases reads_pay_cases hbuffer hinvoice hs with ⟨e, hsend, rfl⟩ | ⟨ldk', payment, hsend, rfl⟩
  · have hpaid : payBolt11Invoice w.refusal w.writeFault s.node.ldk s.node.store invoice none =
        (s.node.ldk, s.node.store, .error e) := by
      simp only [payBolt11Invoice, hsend]
    rw [hpaid]
    exact (Option.some.inj hs').symm
  · rw [ServingNode.finish] at hs'
    obtain ⟨w', request', paymentId, hpaying, hcases⟩ := records_cases hs'
    cases hpaying
    rcases hcases with ⟨call, hfault, hcall, rfl⟩ | ⟨err, hfault, rfl⟩
    · simp only [hcalls, List.nil_append, List.getElem?_cons_zero, Option.some.injEq] at hcall
      subst hcall
      have hpaid : payBolt11Invoice w.refusal w.writeFault s.node.ldk s.node.store invoice none =
          (ldk', written s.node.store payment, .ok invoice.paymentId) := by
        simp only [payBolt11Invoice, hsend, hfault, addPayment_ok]
      rw [hpaid, paid_eq hinvoice]
      simp [hcalls, Task.ofResponse]
    · have hpaid : payBolt11Invoice w.refusal w.writeFault s.node.ldk s.node.store invoice none =
          (ldk', s.node.store, .error (.io err)) := by
        simp only [payBolt11Invoice, hsend, hfault, addPayment_fault]
      rw [hpaid, paid_eq hinvoice]
      simp [hcalls, Task.ofResponse]

end Unsplit

/-! ### What every step keeps -/

section Invariant

variable {F SocketAddr : Type} {parseInvoice : String → Option Bolt11Invoice} {T : FloatText F}
  {node node' : PaymentsNode} {s s' : ServingNode F SocketAddr parseInvoice}
  {w : World F SocketAddr parseInvoice} {request response : Value F}
  {a : Action F SocketAddr parseInvoice}

/-- Whatever the response gives away is that of a record. -/
structure Kept (parseInvoice : String → Option Bolt11Invoice) (node : PaymentsNode)
    (response : Value F) : Prop where
  paymentId : ∀ text, (response.get "payment_id").asStr = some text →
    ∃ id : PaymentId, text = hexEncode id.val.val ∧ HasRecord id node
  invoice : ∀ text, (response.get "invoice").asStr = some text →
    ∃ invoice, parseInvoice text = some invoice ∧ HasRecord invoice.paymentId node

/-- The only call between its halves is the one that the server is at. -/
def InCall (calls : List PayCall) : Task F SocketAddr parseInvoice → Prop
  | .paying _ request paymentId => ∃ call invoice, calls = [call] ∧
      call.payment.paymentId = paymentId ∧ invoiceToPay parseInvoice request = some invoice
  | _ => calls = []

structure Invariant (s : ServingNode F SocketAddr parseInvoice) : Prop where
  records : Node.Records.Invariant s.node
  calls : InCall s.node.calls s.task
  replying : ∀ response, s.task = .replying response → Kept parseInvoice s.node response
  answered : ∀ response ∈ s.answered, Kept parseInvoice s.node response

lemma GivesNothing.kept (h : GivesNothing response) : Kept parseInvoice node response := by
  constructor
  · intro text htext
    rw [h.1] at htext
    cases htext
  · intro text htext
    rw [h.2] at htext
    cases htext

lemma Kept.mono (h : Kept parseInvoice node response)
    (hrecords : ∀ id, HasRecord id node → HasRecord id node') : Kept parseInvoice node' response := by
  constructor
  · intro text htext
    obtain ⟨id, hid, hrecord⟩ := h.paymentId text htext
    exact ⟨id, hid, hrecords id hrecord⟩
  · intro text htext
    obtain ⟨invoice, hinvoice, hrecord⟩ := h.invoice text htext
    exact ⟨invoice, hinvoice, hrecords _ hrecord⟩

lemma kept_paidError (e : String) : Kept parseInvoice node (paidReply (.error e) : Value F) :=
  (givesNothing_resultJson _).kept

lemma kept_paidReply {result : Except String PaymentId}
    (h : ∀ id, result = .ok id → HasRecord id node) :
    Kept parseInvoice node (paidReply result : Value F) := by
  cases result with
  | error e => exact kept_paidError e
  | ok id =>
    constructor
    · intro text htext
      have hhex : hexEncode id.val.val = text := by
        simpa [paidReply, replyJson, get_ofFields] using htext
      exact ⟨id, hhex.symm, h id rfl⟩
    · intro text htext
      simp [paidReply, replyJson, get_ofFields, lookup_cons_eq, Value.asStr] at htext

lemma kept_invoice {text : String} {invoice : Bolt11Invoice}
    (hparse : parseInvoice text = some invoice) (h : HasRecord invoice.paymentId node) :
    Kept parseInvoice node (ofFields [("invoice", .string text)] : Value F) := by
  constructor
  · intro other hother
    simp [get_ofFields, lookup_cons_eq, Value.asStr] at hother
  · intro other hother
    have heq : text = other := by simpa [get_ofFields] using hother
    exact ⟨invoice, heq ▸ hparse, h⟩

lemma Kept.step {b : Node.SentAmount.Action} (h : Kept parseInvoice node response)
    (hs : nodeStep node b = some node') : Kept parseInvoice node' response :=
  h.mono fun _ hrecord => hrecord.step hs

lemma calls_background {b : Node.SentAmount.Action} (hb : isBackground b = true)
    (hs : nodeStep node b = some node') : node'.calls = node.calls := by
  match b with
  | .payments (.resolve paymentId result untrack) =>
    obtain ⟨ldk', -, rfl⟩ := resolve_cases hs
    rfl
  | .payments (.forget paymentId) =>
    obtain ⟨ldk', -, rfl⟩ := forget_cases hs
    rfl
  | .payments .take =>
    obtain ⟨e, rest, -, -, rfl⟩ := take_cases hs
    rfl
  | .payments .write =>
    obtain ⟨e, step, -, ⟨payment, -, rfl⟩ | ⟨-, rfl⟩ | ⟨-, rfl⟩⟩ := write_cases hs
    · rfl
    · rfl
    · rfl
  | .takeFails err =>
    rw [nodeStep] at hs
    split at hs
    · obtain rfl := Option.some.inj hs
      rfl
    · cases hs
  | .writeFails err =>
    rw [nodeStep] at hs
    split at hs
    · rename_i e step hback
      cases step with
      | panic | done | update payment =>
        obtain rfl := Option.some.inj hs
        rfl
    · cases hs
  | .payments (.pay _ _ _) | .payments (.record _) | .payments (.crash _) | .createBolt11Invoice _ _ _
  | .recordFails _ => cases hb

lemma Invariant.reply (h : Invariant s) (hrecords : Node.Records.Invariant node')
    (hcalls : node'.calls = []) (hkeeps : ∀ id, HasRecord id s.node → HasRecord id node')
    {r : Option (Value F)} (hr : ∀ response, r = some response → Kept parseInvoice node' response) :
    Invariant ({ s with node := node', task := .ofResponse r } :
      ServingNode F SocketAddr parseInvoice) := by
  refine ⟨hrecords, ?_, fun response htask => hr response ?_,
    fun response hmem => (h.answered response hmem).mono hkeeps⟩
  · cases r <;> exact hcalls
  · cases r with
    | none => cases htask
    | some response' =>
      cases htask
      rfl

lemma kept_receive {amountMsat : UInt64} (hamount : amountToReceive request = some amountMsat)
    (hs : nodeStep node (.createBolt11Invoice w.writeFault (w.created (some amountMsat))
      (some amountMsat)) = some node')
    (hresponse : respond (w.nodeCalls node) request = some response) :
    Kept parseInvoice node' response := by
  obtain rfl := Option.some.inj hs
  rw [respond_receive hamount, receive] at hresponse
  simp only [World.nodeCalls] at hresponse
  rcases hcreated : w.created (some amountMsat) with (_ | ce) | paymentHash
  · simp [createBolt11Invoice, hcreated, Except.map, Except.mapError] at hresponse
  · simp [createBolt11Invoice, hcreated, Except.map, Except.mapError] at hresponse
  · cases hfault : w.writeFault with
    | some err => simp [createBolt11Invoice, hcreated, hfault, Except.map, Except.mapError] at hresponse
    | none =>
      simp only [createBolt11Invoice, hcreated, hfault, addPayment_ok, Except.map, Except.mapError,
        Option.some.injEq] at hresponse
      subst hresponse
      refine kept_invoice (w.parses _) ⟨inboundPayment paymentHash (some amountMsat), ?_⟩
      exact getPayment_written_self node.store (inboundPayment paymentHash (some amountMsat))

/-- **The arm of a request.** -/
lemma Invariant.reads {buffer : Option ByteArray} (h : Invariant s)
    (hs : sessionStep T s (.reads w buffer) = some s') : Invariant s' := by
  have hready : s.task = .ready := by
    rw [sessionStep] at hs
    split at hs
    · assumption
    · cases hs
  have hcalls : s.node.calls = [] := by
    have hin := h.calls
    rw [hready] at hin
    exact hin
  cases hbuffer : buffer.bind (fromSlice T) with
  | none =>
    simp only [sessionStep, hready, hbuffer] at hs
    cases hs
    exact ⟨h.records, hcalls, by rintro response ⟨⟩, h.answered⟩
  | some request =>
    cases hinvoice : invoiceToPay parseInvoice request with
    | some invoice =>
      rcases reads_pay_cases hbuffer hinvoice hs with ⟨e, -, rfl⟩ | ⟨ldk', payment, hsend, rfl⟩
      · exact h.reply h.records hcalls (fun _ hrecord => hrecord) (r := some _) fun response heq => by
          cases heq
          exact kept_paidError _
      · obtain ⟨haccept, amount, rfl⟩ := sendBolt11Payment_ok hsend
        have hstep : nodeStep s.node (.payments (.pay w.refusal invoice none)) = some { s.node with
            ldk := ldk'
            calls := s.node.calls ++ [{ payment := outboundPayment invoice amount
                                        attempt := ldk'.attempts invoice.paymentId }] } := by
          rw [nodeStep, paymentsStep, hsend]
          rfl
        refine ⟨h.records.step hstep, ⟨_, invoice, by simp only [hcalls, List.nil_append]; rfl, rfl,
          hinvoice⟩, by rintro response ⟨⟩, fun response hmem => (h.answered response hmem).step hstep⟩
    | none =>
      cases hamount : amountToReceive request with
      | some amountMsat =>
        simp only [sessionStep, hready, hbuffer, ServingNode.take, hinvoice, hamount] at hs
        obtain ⟨node', hnode, rfl⟩ := Option.map_eq_some_iff.mp hs
        have hcalls' : node'.calls = [] := by
          obtain rfl := Option.some.inj hnode
          exact hcalls
        exact h.reply (h.records.step hnode) hcalls' (fun _ hrecord => hrecord.step hnode)
          fun response hresponse => kept_receive hamount hnode hresponse
      | none =>
        simp only [sessionStep, hready, hbuffer, ServingNode.take, hinvoice, hamount] at hs
        cases hs
        refine h.reply h.records hcalls (fun _ hrecord => hrecord) fun response hresponse => ?_
        rcases respond_cases hresponse with ⟨invoice, hinvoice', -⟩ | ⟨amountMsat, text, hamount', -⟩ |
          hnothing
        · rw [World.nodeCalls, hinvoice] at hinvoice'
          cases hinvoice'
        · rw [hamount] at hamount'
          cases hamount'
        · exact hnothing.kept

lemma Invariant.finishes (h : Invariant s) (hs : sessionStep T s .records = some s') :
    Invariant s' := by
  obtain ⟨w, request, paymentId, htask, hcases⟩ := records_cases hs
  have hin := h.calls
  rw [htask] at hin
  obtain ⟨call, invoice, hcalls, rfl, hinvoice⟩ := hin
  rcases hcases with ⟨call', -, hcall, rfl⟩ | ⟨err, -, rfl⟩
  · simp only [hcalls, List.getElem?_cons_zero, Option.some.injEq] at hcall
    subst hcall
    have hstep : nodeStep s.node (.payments (.record 0)) = some { s.node with
        store := written s.node.store call.payment, calls := s.node.calls.eraseIdx 0 } := by
      simp [nodeStep, paymentsStep, hcalls]
    refine h.reply (h.records.step hstep) (by simp [hcalls]) (fun _ hrecord => hrecord.step hstep)
      fun response hresponse => ?_
    rw [paid_eq hinvoice] at hresponse
    obtain rfl := Option.some.inj hresponse
    refine kept_paidReply fun id hid => ?_
    cases hid
    exact ⟨call.payment, getPayment_written_self _ _⟩
  · have hstep : nodeStep s.node (.recordFails 0) = some { s.node with
        calls := s.node.calls.eraseIdx 0 } := by
      simp [nodeStep, hcalls]
    refine h.reply (h.records.step hstep) (by simp [hcalls]) (fun _ hrecord => hrecord.step hstep)
      fun response hresponse => ?_
    rw [paid_eq hinvoice] at hresponse
    obtain rfl := Option.some.inj hresponse
    exact kept_paidError _

theorem Invariant.step (h : Invariant s) (hs : sessionStep T s a = some s') : Invariant s' := by
  cases a with
  | reads w buffer => exact h.reads hs
  | records => exact h.finishes hs
  | writes taken =>
    rw [sessionStep] at hs
    split at hs
    swap
    · cases hs
    rename_i response htask
    have hin := h.calls
    rw [htask] at hin
    cases taken with
    | some taken =>
      cases hs
      refine ⟨h.records, hin, by rintro response ⟨⟩, fun response' hmem => ?_⟩
      rcases List.mem_append.mp hmem with hmem | hmem
      · exact h.answered response' hmem
      · rw [List.mem_singleton.mp hmem]
        exact h.replying response htask
    | none =>
      cases hs
      exact ⟨h.records, hin, by rintro response ⟨⟩, h.answered⟩
  | background b =>
    rw [sessionStep] at hs
    split_ifs at hs with hb
    obtain ⟨node', hnode, rfl⟩ := Option.map_eq_some_iff.mp hs
    refine ⟨h.records.step hnode, ?_, fun response htask => (h.replying response htask).step hnode,
      fun response hmem => (h.answered response hmem).step hnode⟩
    have hin := h.calls
    rwa [← calls_background hb hnode] at hin
  | crash acknowledged =>
    rw [sessionStep] at hs
    obtain ⟨node', hnode, rfl⟩ := Option.map_eq_some_iff.mp hs
    refine ⟨h.records.step hnode, ?_, by rintro response ⟨⟩,
      fun response hmem => (h.answered response hmem).step hnode⟩
    obtain rfl := crash_cases hnode
    rfl

end Invariant

lemma invariant_firstStart {F SocketAddr : Type} {parseInvoice : String → Option Bolt11Invoice} :
    Invariant (firstStart : ServingNode F SocketAddr parseInvoice) :=
  ⟨invariant_noPayments, rfl, by rintro response ⟨⟩, by simp [firstStart]⟩

/-! ### What clients can do with what they were given -/

section Promises

variable {F SocketAddr : Type} {parseInvoice : String → Option Bolt11Invoice} (T : FloatText F)

/-- Whoever asks for the payment with this id, when the store can be read, gets a record with the id,
which is truthful. -/
def Finds (s : ServingNode F SocketAddr parseInvoice) (text : String) : Prop :=
  ∀ w : World F SocketAddr parseInvoice, w.readFault = none → w.calls.hexDecode = hexDecode →
    ∃ payment,
      respond (w.nodeCalls s.node) (paramsRequest "get_payment" [("payment_id", .string text)]) =
        some (serializePayment payment) ∧
      hexEncode payment.paymentId.val.val = text ∧ Truthful s.node.ldk payment.paymentId payment

/-- The ids of payments and the invoices that clients were given can be asked for. -/
structure KeepsPromises (s : ServingNode F SocketAddr parseInvoice) : Prop where
  paymentId : ∀ response ∈ s.answered, ∀ text, (response.get "payment_id").asStr = some text →
    Finds s text
  invoice : ∀ response ∈ s.answered, ∀ text, (response.get "invoice").asStr = some text →
    ∃ invoice, parseInvoice text = some invoice ∧ Finds s (hexEncode invoice.paymentId.val.val)

variable {s s' : ServingNode F SocketAddr parseInvoice}

lemma Invariant.finds (h : Invariant s) {id : PaymentId} (hrecord : HasRecord id s.node) :
    Finds s (hexEncode id.val.val) := by
  intro w hfault hdecode
  obtain ⟨payment, hget⟩ := hrecord
  have htruthful := h.records.stored id payment hget
  have hid := htruthful.paymentId
  refine ⟨payment, ?_, by rw [hid], by rw [hid]; exact htruthful⟩
  have hbytes : toBytes32 id.val.val = some id.val := dif_pos id.val.property
  have hnode : (w.nodeCalls s.node).getPayment ⟨id.val⟩ = some payment := by
    simp only [World.nodeCalls, nodeGetPayment, hfault, hget]
    rfl
  have hdecoded : (w.nodeCalls s.node).hexDecode (hexEncode id.val.val) = some id.val.val := by
    simp only [World.nodeCalls, hdecode, hexDecode_hexEncode]
  simp only [respond, strParam, method_paramsRequest, params_paramsRequest, Server.getPayment,
    Option.bind_eq_bind, Option.bind_some]
  simp [get_ofFields, hdecoded, hbytes, hnode]

lemma Invariant.keepsPromises (h : Invariant s) : KeepsPromises s := by
  constructor
  · intro response hmem text htext
    obtain ⟨id, rfl, hrecord⟩ := (h.answered response hmem).paymentId text htext
    exact h.finds hrecord
  · intro response hmem text htext
    obtain ⟨invoice, hparse, hrecord⟩ := (h.answered response hmem).invoice text htext
    exact ⟨invoice, hparse, h.finds hrecord⟩

/-- **What clients were given stays good**, through all requests, events, faults and crashes. -/
theorem always_keepsPromises (as : List (Action F SocketAddr parseInvoice)) :
    Always (sessionStep T) KeepsPromises firstStart as :=
  (always_of_keeps invariant_firstStart fun _ _ _ h hs => h.step hs).imp fun _ h => h.keepsPromises

/-! ### A server that stops -/

/-- The steps while a request is in progress: no other is read, and the process goes on. -/
def Action.inRequest : Action F SocketAddr parseInvoice → Bool
  | .reads _ _ | .crash _ => false
  | .records | .writes _ | .background _ => true

/-- A request during which the server panics has done nothing to LDK's payments and to the store, or its
response was ready, and only its write failed. -/
def StopsClean (as : List (Action F SocketAddr parseInvoice)) : Prop :=
  ∀ pre w buffer during post s s' t, as = pre ++ .reads w buffer :: (during ++ post) →
    run (sessionStep T) firstStart pre = some s → sessionStep T s (.reads w buffer) = some s' →
    (∀ a ∈ during, a.inRequest) → run (sessionStep T) s' during = some t → t.task = .stopped →
      (s'.task = .stopped ∧ s'.node = s.node) ∨
      ∃ before after u response, during = before ++ .writes none :: after ∧
        run (sessionStep T) s' before = some u ∧ u.task = .replying response ∧
        Kept parseInvoice u.node response

variable {T} {request : Value F} {w : World F SocketAddr parseInvoice} {node' : PaymentsNode}

lemma receive_stopped {amountMsat : UInt64} (hamount : amountToReceive request = some amountMsat)
    (hs : nodeStep s.node (.createBolt11Invoice w.writeFault (w.created (some amountMsat))
      (some amountMsat)) = some node')
    (hnone : respond (w.nodeCalls s.node) request = none) : node' = s.node := by
  obtain rfl := Option.some.inj hs
  rw [respond_receive hamount, receive] at hnone
  simp only [World.nodeCalls] at hnone
  rcases hcreated : w.created (some amountMsat) with (_ | ce) | paymentHash
  · rfl
  · rfl
  · cases hfault : w.writeFault with
    | some err => rfl
    | none => simp [createBolt11Invoice, hcreated, hfault, Except.map, Except.mapError] at hnone

lemma eq_none_of_ofResponse {r : Option (Value F)}
    (h : (Task.ofResponse r : Task F SocketAddr parseInvoice) = .stopped) : r = none := by
  cases r with
  | none => rfl
  | some response => cases h

lemma paid_not_stopped {invoice : Bolt11Invoice} (h : invoiceToPay parseInvoice request = some invoice)
    (result : Except ApiError PaymentId) :
    (Task.ofResponse (w.paid request result) : Task F SocketAddr parseInvoice) ≠ .stopped := by
  rw [paid_eq h]
  rintro ⟨⟩

/-- A request at which the server panics before there is a response has done nothing. -/
lemma Invariant.reads_stopped {buffer : Option ByteArray}
    (hs : sessionStep T s (.reads w buffer) = some s') (hstop : s'.task = .stopped) :
    s'.node = s.node := by
  have hready : s.task = .ready := by
    rw [sessionStep] at hs
    split at hs
    · assumption
    · cases hs
  cases hbuffer : buffer.bind (fromSlice T) with
  | none =>
    simp only [sessionStep, hready, hbuffer] at hs
    cases hs
    rfl
  | some request =>
    cases hinvoice : invoiceToPay parseInvoice request with
    | some invoice =>
      rcases reads_pay_cases hbuffer hinvoice hs with ⟨e, -, rfl⟩ | ⟨ldk', payment, -, rfl⟩
      · cases hstop
      · cases hstop
    | none =>
      cases hamount : amountToReceive request with
      | some amountMsat =>
        simp only [sessionStep, hready, hbuffer, ServingNode.take, hinvoice, hamount] at hs
        obtain ⟨node', hnode, rfl⟩ := Option.map_eq_some_iff.mp hs
        exact receive_stopped hamount hnode (eq_none_of_ofResponse hstop)
      | none =>
        simp only [sessionStep, hready, hbuffer, ServingNode.take, hinvoice, hamount] at hs
        cases hs
        rfl

/-- **Past its read, a request can only stop the server at the write of its response.** -/
lemma Invariant.step_stopped {a : Action F SocketAddr parseInvoice} (h : Invariant s)
    (ha : a.inRequest) (hs : sessionStep T s a = some s') (hlive : s.task ≠ .stopped)
    (hstop : s'.task = .stopped) : a = .writes none ∧ ∃ response, s.task = .replying response := by
  cases a with
  | reads w buffer => cases ha
  | crash acknowledged => cases ha
  | records =>
    obtain ⟨w, request, paymentId, htask, hcases⟩ := records_cases hs
    have hin := h.calls
    rw [htask] at hin
    obtain ⟨call, invoice, -, -, hinvoice⟩ := hin
    rcases hcases with ⟨call', -, -, rfl⟩ | ⟨err, -, rfl⟩
    · exact absurd hstop (paid_not_stopped hinvoice _)
    · exact absurd hstop (paid_not_stopped hinvoice _)
  | writes taken =>
    rw [sessionStep] at hs
    split at hs
    swap
    · cases hs
    rename_i response htask
    cases taken with
    | some taken =>
      cases hs
      cases hstop
    | none => exact ⟨rfl, response, htask⟩
  | background b =>
    rw [sessionStep] at hs
    split_ifs at hs
    obtain ⟨node', -, rfl⟩ := Option.map_eq_some_iff.mp hs
    exact absurd hstop hlive

lemma Invariant.stopped_during {during : List (Action F SocketAddr parseInvoice)}
    {t : ServingNode F SocketAddr parseInvoice} (h : Invariant s) (hlive : s.task ≠ .stopped)
    (hduring : ∀ a ∈ during, a.inRequest) (hr : run (sessionStep T) s during = some t)
    (hstop : t.task = .stopped) :
    ∃ before after u response, during = before ++ .writes none :: after ∧
      run (sessionStep T) s before = some u ∧ u.task = .replying response ∧
      Kept parseInvoice u.node response := by
  induction during generalizing s with
  | nil =>
    cases hr
    exact absurd hstop hlive
  | cons a during ih =>
    rw [run_cons, Option.bind_eq_some_iff] at hr
    obtain ⟨s', hs, hr⟩ := hr
    by_cases hstopped : s'.task = .stopped
    · obtain ⟨rfl, response, htask⟩ := h.step_stopped (hduring a List.mem_cons_self) hs hlive hstopped
      exact ⟨[], during, s, response, rfl, rfl, htask, h.replying response htask⟩
    · obtain ⟨before, after, u, response, rfl, hbefore, htask, hkept⟩ :=
        ih (h.step hs) hstopped (fun b hb => hduring b (List.mem_cons_of_mem _ hb)) hr
      refine ⟨a :: before, after, u, response, rfl, ?_, htask, hkept⟩
      rw [run_cons, hs]
      exact hbefore

/-- **A request that stops the server** has done nothing, or is done and only its answer is lost: in
every run, with whatever happens in the background while it is in progress. -/
theorem always_stopsClean (as : List (Action F SocketAddr parseInvoice)) : StopsClean T as := by
  rintro pre w buffer during post s s' t - hpre hs hduring hr hstop
  have h : Invariant s := run_keeps invariant_firstStart (fun _ _ _ hI hs => hI.step hs) hpre
  by_cases hstopped : s'.task = .stopped
  · exact Or.inl ⟨hstopped, Invariant.reads_stopped hs hstopped⟩
  · exact Or.inr ((h.step hs).stopped_during hstopped hduring hr hstop)

end Promises

/-! ### A node with one invoice to pay -/

/-- Invoices, written as their hash and their amount. -/
def invoiceCodec : Codec Bolt11Invoice :=
  (paymentHashCodec.pair msatOptCodec).wrap (fun p => ⟨p.1, p.2⟩)
    (fun invoice => (invoice.paymentHash, invoice.amountMilliSatoshis)) fun _ => rfl

def invoiceText (invoice : Bolt11Invoice) : String := hexEncode (invoiceCodec.write invoice)

def parseText (text : String) : Option Bolt11Invoice :=
  (hexDecode text).bind fun bytes => (invoiceCodec.read bytes).toOption.map Prod.fst

lemma parseText_invoiceText (invoice : Bolt11Invoice) :
    parseText (invoiceText invoice) = some invoice := by
  have hread := invoiceCodec.read_write invoice []
  rw [List.append_nil] at hread
  simp only [parseText, invoiceText, hexDecode_hexEncode, Option.bind_some, hread, Except.toOption,
    Option.map_some]

/-- LDK takes every payment, makes every invoice with the same hash, and nothing fails. -/
def sampleWorld : World Amount Unit parseText where
  calls := { Exchange.sampleNode 0 with
    hexDecode := hexDecode
    parseInvoice := parseText
    payBolt11Invoice := fun _ _ => .error "" }
  refusal := none
  created _ := .ok ⟨oneBytes⟩
  readFault := none
  writeFault := none
  errorText _ := ""
  invoiceText := invoiceText
  parses := parseText_invoiceText

/-- A client asks to pay, with the hash of zeros. -/
def payRequest : Value Amount :=
  paramsRequest "send_payment" [("invoice", .string (invoiceText zeroInvoice))]

/-- A client asks for an invoice of 5,000 msat. -/
def receiveRequest : Value Amount := paramsRequest "receive" [("amount", ofU64 5000)]

/-- The invoice it gets. -/
def madeInvoice : Bolt11Invoice where
  paymentHash := ⟨oneBytes⟩
  amountMilliSatoshis := some 5000

def reads (request : Value Amount) : Action Amount Unit parseText :=
  .reads sampleWorld (some (toBytes Exchange.btcText request))

/-- The payment is made and goes through; an invoice is made; the process crashes before the event of
the payment is handled, which happens after it. -/
def givesBoth : List (Action Amount Unit parseText) :=
  [reads payRequest, .records, .writes (some 4096), reads receiveRequest, .writes (some 4096),
    .background (.payments (.resolve zeroInvoice.paymentId zeroSent false)), .crash 0,
    .background (.payments .take), .background (.payments .write)]

lemma fromSlice_payRequest :
    fromSlice Exchange.btcText (toBytes Exchange.btcText payRequest) = some payRequest :=
  fromSlice_toBytes (isMessage_paramsRequest (by simp)).wellFormed

lemma fromSlice_receiveRequest :
    fromSlice Exchange.btcText (toBytes Exchange.btcText receiveRequest) = some receiveRequest :=
  fromSlice_toBytes (isMessage_paramsRequest (by simp)).wellFormed

lemma invoiceToPay_payRequest : invoiceToPay parseText payRequest = some zeroInvoice := by
  simp [invoiceToPay, payRequest, strParam, get_ofFields, parseText_invoiceText]

lemma invoiceToPay_receiveRequest : invoiceToPay parseText receiveRequest = none := by
  simp [invoiceToPay, receiveRequest]

lemma amountToReceive_receiveRequest : amountToReceive receiveRequest = some 5000 := by
  simp [amountToReceive, receiveRequest, u64Param, get_ofFields]

lemma respond_receiveRequest (node : PaymentsNode) :
    respond (sampleWorld.nodeCalls node) receiveRequest =
      some (ofFields [("invoice", .string (invoiceText madeInvoice))]) := by
  rw [respond_receive amountToReceive_receiveRequest]
  rfl

section Sample

variable {s : ServingNode Amount Unit parseText} {node : PaymentsNode}

lemma sessionStep_payRequest {sent : OutboundPayments × Payment} (htask : s.task = .ready)
    (hsend : sendBolt11Payment none s.node.ldk zeroInvoice none = .ok sent)
    (hnode : nodeStep s.node (.payments (.pay none zeroInvoice none)) = some node) :
    sessionStep Exchange.btcText s (reads payRequest) =
      some { s with node, task := .paying sampleWorld payRequest zeroInvoice.paymentId } := by
  have hrefusal : sampleWorld.refusal = none := rfl
  simp only [sessionStep, reads, htask, Option.bind_some, fromSlice_payRequest, ServingNode.take,
    invoiceToPay_payRequest, hrefusal, hsend, hnode, Option.map_some]

lemma sessionStep_records {id : PaymentId} (htask : s.task = .paying sampleWorld payRequest id)
    (hnode : nodeStep s.node (.payments (.record 0)) = some node) :
    sessionStep Exchange.btcText s .records =
      some { s with node, task := .replying (paidReply (.ok id)) } := by
  have hfault : sampleWorld.writeFault = none := rfl
  simp only [sessionStep, htask, hfault, hnode, Option.map_some, paid_eq invoiceToPay_payRequest]
  rfl

lemma sessionStep_receiveRequest (htask : s.task = .ready) :
    sessionStep Exchange.btcText s (reads receiveRequest) =
      some { s with
        node := { s.node with store := written s.node.store (inboundPayment ⟨oneBytes⟩ (some 5000)) }
        task := .replying (ofFields [("invoice", .string (invoiceText madeInvoice))]) } := by
  simp only [sessionStep, reads, htask, Option.bind_some, fromSlice_receiveRequest,
    ServingNode.take, invoiceToPay_receiveRequest, amountToReceive_receiveRequest,
    respond_receiveRequest]
  rfl

end Sample

theorem always_keepsPromises_both :
    ∃ s, run (sessionStep Exchange.btcText) firstStart givesBoth = some s ∧
      s.answered = [paidReply (.ok zeroInvoice.paymentId),
        ofFields [("invoice", .string (invoiceText madeInvoice))]] ∧
      Finds s (hexEncode zeroBytes.val) ∧ Finds s (hexEncode oneBytes.val) := by
  have hrun : ∃ s, run (sessionStep Exchange.btcText) firstStart givesBoth = some s ∧
      s.answered = [paidReply (.ok zeroInvoice.paymentId),
        ofFields [("invoice", .string (invoiceText madeInvoice))]] :=
    ⟨_, run_of_step (sessionStep_payRequest rfl rfl rfl) (run_of_step (sessionStep_records rfl rfl)
      (run_of_step rfl (run_of_step (sessionStep_receiveRequest rfl) rfl))), rfl⟩
  obtain ⟨s, hr, hanswered⟩ := hrun
  have hkeeps := (always_keepsPromises Exchange.btcText givesBoth).last hr
  refine ⟨s, hr, hanswered, hkeeps.paymentId (paidReply (.ok zeroInvoice.paymentId)) ?_ _ ?_, ?_⟩
  · simp [hanswered]
  · simp [paidReply, replyJson, get_ofFields, zeroInvoice, Bolt11Invoice.paymentId]
  · obtain ⟨invoice, hparse, hfinds⟩ := hkeeps.invoice
      (ofFields [("invoice", .string (invoiceText madeInvoice))]) (by simp [hanswered])
      (invoiceText madeInvoice) (by simp [get_ofFields])
    rw [parseText_invoiceText] at hparse
    cases hparse
    exact hfinds

theorem always_stopsClean_unwritten :
    ∃ t, run (sessionStep Exchange.btcText) firstStart [reads payRequest, .records, .writes none] =
        some t ∧ t.task = .stopped ∧ HasRecord zeroInvoice.paymentId t.node := by
  obtain ⟨s', u, t, hreads, hrecords, hwrites, hpaying, hreply, hstop, hsame⟩ :
      ∃ s' u t, sessionStep Exchange.btcText firstStart (reads payRequest) = some s' ∧
        sessionStep Exchange.btcText s' .records = some u ∧
        sessionStep Exchange.btcText u (.writes none) = some t ∧ s'.task ≠ .stopped ∧
        u.task = .replying (paidReply (.ok zeroInvoice.paymentId)) ∧ t.task = .stopped ∧
        t.node = u.node :=
    ⟨_, _, _, sessionStep_payRequest rfl rfl rfl, sessionStep_records rfl rfl, rfl, by rintro ⟨⟩, rfl,
      rfl, rfl⟩
  refine ⟨t, run_of_step hreads (run_of_step hrecords (run_of_step hwrites rfl)), hstop, ?_⟩
  rcases always_stopsClean (T := Exchange.btcText) [reads payRequest, .records, .writes none] [] _ _
    [.records, .writes none] [] firstStart s' t rfl rfl hreads (by decide)
    (run_of_step hrecords (run_of_step hwrites rfl)) hstop with
    ⟨hstopped, -⟩ | ⟨before, after, u', response, hduring, hbefore, htask, hkept⟩
  · exact absurd hstopped hpaying
  rcases before with _ | ⟨a, _ | ⟨b, before⟩⟩
  · cases hduring
  · obtain ⟨rfl, -⟩ := List.cons.inj hduring
    obtain rfl : u = u' := Option.some.inj ((run_of_step hrecords rfl).symm.trans hbefore)
    cases hreply.symm.trans htask
    obtain ⟨id, hid, hrecord⟩ := hkept.paymentId (hexEncode zeroBytes.val) (by
      simp [paidReply, replyJson, get_ofFields, zeroInvoice, Bolt11Invoice.paymentId])
    obtain rfl : zeroInvoice.paymentId = id :=
      congrArg PaymentId.mk (Subtype.ext (hexEncode_injective hid))
    exact hsame ▸ hrecord
  · simp at hduring

end LnNode.Server.Session
