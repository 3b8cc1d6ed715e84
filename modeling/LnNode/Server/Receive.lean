import LnNode.Node.Payments
import LnNode.Server.Clients

/-!
# Whether an invoice is for the amount asked

`lncli receive` multiplies an amount of sats by 1000 and sends the product, the server hands it to the
node and unwraps what the node returns, and the node records what it was handed. LDK makes no invoice
for more than the money supply.

* `serve_receive`: what the server answers, by what the node returns;
* `answersReceive_iff`: the requests that get the invoice they ask for, or an error;
* `not_answersReceive_of_supply_lt`: none does above the money supply.
-/

namespace LnNode.Server.Receive

open LnNode.Lib.Json LnNode.Lib.Wire LnNode.Storage LnNode.Server LnNode.Server.Exchange
  LnNode.Server.Clients LnNode.Lncli LnNode.Node.Payments

/-! ### One request, from end to end -/

/-- The node's part: LDK's answer to each amount, the store and its fault, and how invoices and errors
are written. The text of an invoice tells what it is. -/
structure Issuer where
  created : Option UInt64 → Except SignOrCreationError PaymentHash
  store : KvStore
  fault : Fault
  invoiceText : Bolt11Invoice → String
  errorText : ApiError → String
  invoiceText_injective : Function.Injective invoiceText

/-- `Node::create_bolt11_invoice`, with the store it leaves. -/
def Issuer.createBolt11Invoice (n : Issuer) (amountMsat : Option UInt64) :
    KvStore × Except ApiError Bolt11Invoice :=
  Node.Payments.createBolt11Invoice n.fault (n.created amountMsat) n.store amountMsat

section Request

variable {F Invoice SocketAddr : Type} (T : FloatText F) (node : NodeCalls F Invoice SocketAddr)
  (n : Issuer)

/-- The node as the server sees it. -/
def Issuer.nodeCalls : NodeCalls F Invoice SocketAddr :=
  { node with
    createBolt11Invoice := fun amountMsat =>
      match (n.createBolt11Invoice amountMsat).2 with
      | .ok invoice => .ok (n.invoiceText invoice)
      | .error e => .error (n.errorText e) }

/-- The store after a request for an invoice. -/
def Issuer.storeAfter (parsed : Option (Value F)) : KvStore :=
  match parsed.bind fun request => u64Param request "amount" with
  | some amountMsat => (n.createBolt11Invoice (some amountMsat)).1
  | none => n.store

/-- What the request comes to for the server, what `lncli` parses, and the store. -/
structure Outcome (F : Type) where
  served : Served F
  received : Option (Value F)
  store : KvStore

/-- `lncli receive` connects, and all it writes is there when the server reads. The socket takes so much
of the response. -/
def receiveClient (request : Value F) (taken : ℕ) : Client F Invoice SocketAddr where
  sent := toBytes T request
  arrival := .bytes (toBytes T request).size
  taken := some taken
  node := n.nodeCalls node

/-- `lncli receive`, and the server. Where overflows are checked, the client may panic. -/
def lncliReceive (overflowChecks : Bool) (amount : UInt64) (taken : ℕ) : Option (Outcome F) :=
  match (Command.receive amount).request overflowChecks with
  | none => none
  | some request =>
    let client := receiveClient T node n request taken
    let served := serve T client
    some {
      served
      received := match served with
        | .answered response taken =>
          fromSlice T ((toBytes T response).extract 0 (min taken (Command.receive amount).buffer))
        | _ => none
      store := n.storeAfter (fromSlice T (client.buffer (toBytes T request).size)) }

end Request

/-! ### What is to come of it -/

/-- So many msat are 1000 times so many sats, as natural numbers. -/
def IsForAmount (amount : UInt64) (msat : Option UInt64) : Prop :=
  ∃ m, msat = some m ∧ m.toNat = 1000 * amount.toNat

section Property

variable {F : Type} (n : Issuer)

def Outcome.Shows (o : Outcome F) (invoice : Bolt11Invoice) : Prop :=
  ∃ response, o.received = some response ∧
    (response.get "invoice").asStr = some (n.invoiceText invoice)

/-- The server goes on; `lncli` gets an error, or an invoice for the amount whose record is for the
amount too; and it gets no invoice for another amount. -/
structure AnswersReceive (amount : UInt64) (o : Outcome F) : Prop where
  serves : ∃ response taken, o.served = .answered response taken
  answer : (∃ response, o.received = some response ∧ IsError response) ∨
    ∃ invoice, o.Shows n invoice ∧ IsForAmount amount invoice.amountMilliSatoshis ∧
      ∃ payment, Storage.getPayment none o.store invoice.paymentId = .ok payment ∧
        payment.direction = .inbound ∧ IsForAmount amount payment.amountMsat
  noOther : ∀ invoice, o.Shows n invoice → IsForAmount amount invoice.amountMilliSatoshis

def invoiceResponse (text : String) : Value F := ofFields [("invoice", .string text)]

end Property

/-! ### What the server answers -/

section Serve

variable {F Invoice SocketAddr : Type} (T : FloatText F) (node : NodeCalls F Invoice SocketAddr)
  (n : Issuer)

/-- The request of a release build: the product wraps. -/
def receiveRequest (amount : UInt64) : Value F :=
  paramsRequest "receive" [("amount", ofU64 (amount * 1000))]

lemma request_receive (amount : UInt64) :
    (Command.receive amount).request false = some (receiveRequest amount : Value F) := by
  simp [Command.request, amountMsat, receiveRequest]

lemma size_receiveRequest (amount : UInt64) :
    (toBytes T (receiveRequest amount : Value F)).size ≤ requestBuffer := by
  have hdigits : (print T (ofU64 (amount * 1000) : Value F)).length ≤ 20 := by
    have hlt := (amount * 1000).toNat_lt
    have hneg : ¬ ((amount * 1000).toNat : ℤ) < 0 := by omega
    rw [ofU64, print, printInt, if_neg hneg, Int.natAbs_natCast]
    exact Nat.toDigits_length _ _ _ (by decide) (by omega)
  have hlength : (print T (receiveRequest amount : Value F)).length =
      24 + 9 + 8 + (print T (ofU64 (amount * 1000) : Value F)).length :=
    length_paramsRequest T "receive" "amount" _
  have hsize := size_le_length T (receiveRequest amount : Value F)
  rw [requestBuffer]
  omega

lemma fromSlice_receiveClient (amount : UInt64) (taken : ℕ) :
    fromSlice T ((receiveClient T node n (receiveRequest amount) taken).buffer
      (toBytes T (receiveRequest amount : Value F)).size) = some (receiveRequest amount) := by
  have hmessage := isMessage_request T (request_receive amount)
  rw [Client.buffer, receiveClient, fromSlice_extract_iff hmessage]
  exact le_min (Nat.le_refl _) (size_receiveRequest T amount)

lemma respond_receive (amount : UInt64) :
    respond (n.nodeCalls node) (receiveRequest amount) =
      match (n.createBolt11Invoice (some (amount * 1000))).2 with
      | .ok invoice => some (invoiceResponse (n.invoiceText invoice))
      | .error _ => none := by
  rw [respond_request (n.nodeCalls node) (request_receive amount)]
  simp only [Command.answer, amountMsat, Bool.false_eq_true, false_and, if_false, Option.bind_some,
    Server.receive, Issuer.nodeCalls]
  cases (n.createBolt11Invoice (some (amount * 1000))).2 with
  | error e => rfl
  | ok invoice => rfl

theorem serve_receive (amount : UInt64) (taken : ℕ) :
    serve T (receiveClient T node n (receiveRequest amount) taken) =
      match (n.createBolt11Invoice (some (amount * 1000))).2 with
      | .ok invoice => .answered (invoiceResponse (n.invoiceText invoice)) taken
      | .error _ => .panics := by
  have hnode : (receiveClient T node n (receiveRequest amount) taken).node = n.nodeCalls node := rfl
  rw [serve_of_parsed rfl (fromSlice_receiveClient T node n amount taken) rfl, hnode,
    respond_receive]
  cases (n.createBolt11Invoice (some (amount * 1000))).2 with
  | error e => rfl
  | ok invoice => rfl

lemma createBolt11Invoice_cases (msat : Option UInt64) :
    ((∃ e, (n.createBolt11Invoice msat).2 = .error e) ∧
      ¬ (n.fault = none ∧ ∃ paymentHash, n.created msat = .ok paymentHash)) ∨
    (n.fault = none ∧ ∃ paymentHash, n.created msat = .ok paymentHash ∧
      n.createBolt11Invoice msat = (written n.store (inboundPayment paymentHash msat),
        .ok { paymentHash, amountMilliSatoshis := msat })) := by
  unfold Issuer.createBolt11Invoice Node.Payments.createBolt11Invoice
  cases hcreated : n.created msat with
  | error e =>
    left
    refine ⟨?_, by simp⟩
    cases e with
    | signError => exact ⟨_, rfl⟩
    | creationError ce => exact ⟨_, rfl⟩
  | ok paymentHash =>
    cases hfault : n.fault with
    | some e =>
      left
      exact ⟨⟨_, rfl⟩, by simp⟩
    | none =>
      right
      exact ⟨rfl, paymentHash, rfl, rfl⟩

lemma storeAfter_receive (amount : UInt64) :
    n.storeAfter (some (receiveRequest amount : Value F)) =
      (n.createBolt11Invoice (some (amount * 1000))).1 := by
  have hparam : u64Param (receiveRequest amount : Value F) "amount" = some (amount * 1000) := by
    simp [u64Param, receiveRequest, get_ofFields]
  simp only [Issuer.storeAfter, Option.bind_some, hparam]

lemma lncliReceive_error {amount : UInt64} {e : ApiError} (taken : ℕ)
    (h : (n.createBolt11Invoice (some (amount * 1000))).2 = .error e) :
    lncliReceive T node n false amount taken =
      some { served := .panics, received := none
             store := (n.createBolt11Invoice (some (amount * 1000))).1 } := by
  have hserve := serve_receive T node n amount taken
  simp only [h] at hserve
  simp only [lncliReceive, request_receive, hserve, fromSlice_receiveClient, storeAfter_receive]

lemma isMessage_invoiceResponse (text : String) : IsMessage T (invoiceResponse text) :=
  isMessage_ofFields (by simp)

/-- The response with the text of an invoice is taken by the socket and fits `lncli`'s buffer. -/
def Fits (text : String) (taken : ℕ) : Prop :=
  (toBytes T (invoiceResponse text : Value F)).size ≤ min taken bufferSize

instance (text : String) (taken : ℕ) : Decidable (Fits T text taken) :=
  inferInstanceAs (Decidable (_ ≤ _))

lemma fromSlice_invoiceResponse (text : String) (taken : ℕ) :
    fromSlice T ((toBytes T (invoiceResponse text)).extract 0 (min taken bufferSize)) =
      if Fits T text taken then some (invoiceResponse text) else none := by
  have hmessage := isMessage_invoiceResponse T text
  split_ifs with hsize
  · exact (fromSlice_extract_iff hmessage _).mpr hsize
  · exact fromSlice_cut hmessage (Nat.not_le.mp hsize)

/-- The outcome of a request that the node makes an invoice for. -/
def Issuer.issued (amountMsat : UInt64) (paymentHash : PaymentHash) (taken : ℕ) : Outcome F :=
  let text := n.invoiceText ⟨paymentHash, some amountMsat⟩
  { served := .answered (invoiceResponse text) taken
    received := if Fits T text taken then some (invoiceResponse text) else none
    store := written n.store (inboundPayment paymentHash (some amountMsat)) }

lemma lncliReceive_ok {amount : UInt64} {paymentHash : PaymentHash} (taken : ℕ)
    (h : n.createBolt11Invoice (some (amount * 1000)) =
      (written n.store (inboundPayment paymentHash (some (amount * 1000))),
        .ok ⟨paymentHash, some (amount * 1000)⟩)) :
    lncliReceive T node n false amount taken = some (n.issued T (amount * 1000) paymentHash taken) := by
  have hserve := serve_receive T node n amount taken
  have hbuffer : (Command.receive amount).buffer = bufferSize := rfl
  simp only [h] at hserve
  simp only [lncliReceive, request_receive, hserve, fromSlice_receiveClient, storeAfter_receive,
    hbuffer, fromSlice_invoiceResponse, h, Issuer.issued]

end Serve

/-! ### The requests that get what they ask for -/

section Answers

variable {F Invoice SocketAddr : Type} (T : FloatText F) (node : NodeCalls F Invoice SocketAddr)
  (n : Issuer)

/-- The product is for the amount exactly when it does not wrap. -/
lemma isForAmount_mul (amount : UInt64) :
    IsForAmount amount (some (amount * 1000)) ↔ amount.toNat * 1000 < 2 ^ 64 := by
  have hmul : (amount * 1000).toNat = amount.toNat * 1000 % 2 ^ 64 := UInt64.toNat_mul _ _
  have hiff : IsForAmount amount (some (amount * 1000)) ↔
      (amount * 1000).toNat = 1000 * amount.toNat := by
    constructor
    · rintro ⟨m, hm, heq⟩
      obtain rfl := Option.some.inj hm
      exact heq
    · exact fun heq => ⟨_, rfl, heq⟩
  rw [hiff, hmul]
  omega

lemma get_invoiceResponse (text : String) :
    ((invoiceResponse text : Value F).get "invoice").asStr = some text := by
  simp [invoiceResponse, get_ofFields]

lemma not_answersReceive_panics (amount : UInt64) (received : Option (Value F)) (store : KvStore) :
    ¬ AnswersReceive n amount { served := .panics, received, store } := by
  rintro ⟨⟨response, taken, hserved⟩, -, -⟩
  cases hserved

lemma shows_issued {msat : UInt64} {taken : ℕ} {paymentHash : PaymentHash} {invoice : Bolt11Invoice} :
    (n.issued T msat paymentHash taken).Shows n invoice ↔
      Fits T (n.invoiceText ⟨paymentHash, some msat⟩) taken ∧ invoice = ⟨paymentHash, some msat⟩ := by
  rw [Outcome.Shows, Issuer.issued]
  split_ifs with hfits
  · simp only [Option.some.injEq, exists_eq_left', get_invoiceResponse, hfits, true_and]
    exact ⟨fun h => (n.invoiceText_injective h).symm, fun h => by rw [h]⟩
  · simp [hfits]

/-- What an invoice for the product is worth to the client. -/
lemma answersReceive_issued (amount : UInt64) (taken : ℕ) (paymentHash : PaymentHash) :
    AnswersReceive n amount (n.issued T (amount * 1000) paymentHash taken) ↔
      amount.toNat * 1000 < 2 ^ 64 ∧
        Fits T (n.invoiceText ⟨paymentHash, some (amount * 1000)⟩) taken := by
  rw [← isForAmount_mul]
  constructor
  · rintro ⟨-, hanswer, hother⟩
    by_cases hfits : Fits T (n.invoiceText ⟨paymentHash, some (amount * 1000)⟩) taken
    · exact ⟨hother _ ((shows_issued T n).mpr ⟨hfits, rfl⟩), hfits⟩
    · -- a response that is cut off is neither an error nor an invoice
      rcases hanswer with ⟨response, hread, -⟩ | ⟨invoice, hshows, -⟩
      · rw [Issuer.issued, if_neg hfits] at hread
        cases hread
      · exact absurd ((shows_issued T n).mp hshows).1 hfits
  · rintro ⟨hfor, hfits⟩
    have hshows := (shows_issued T n).mpr ⟨hfits, rfl⟩
    have hrecord := getPayment_written_self n.store
      (inboundPayment paymentHash (some (amount * 1000)))
    refine ⟨⟨_, _, rfl⟩, Or.inr ⟨_, hshows, hfor, _, hrecord, rfl, hfor⟩, fun invoice hinvoice => ?_⟩
    obtain ⟨-, rfl⟩ := (shows_issued T n).mp hinvoice
    exact hfor

/-- LDK makes the invoice, the store takes its record, and the response is taken and read whole. -/
def Issues (amountMsat : UInt64) (taken : ℕ) : Prop :=
  n.fault = none ∧ ∃ paymentHash, n.created (some amountMsat) = .ok paymentHash ∧
    Fits T (n.invoiceText { paymentHash, amountMilliSatoshis := some amountMsat }) taken

/-- **When an invoice is for the amount asked.** For every amount, every answer of LDK, every store and
its fault and every socket: the server goes on, and the client gets an invoice whose record and whose
amount are 1000 times the number it gave, or an error, exactly when the product does not wrap, LDK makes
the invoice, the store takes its record and the response is read whole. -/
theorem answersReceive_iff (amount : UInt64) (taken : ℕ) :
    ∃ o, lncliReceive T node n false amount taken = some o ∧
      (AnswersReceive n amount o ↔
        amount.toNat * 1000 < 2 ^ 64 ∧ Issues T n (amount * 1000) taken) := by
  rcases createBolt11Invoice_cases n (some (amount * 1000)) with
    ⟨⟨e, he⟩, hnot⟩ | ⟨hfault, paymentHash, hcreated, hcreate⟩
  · refine ⟨_, lncliReceive_error T node n taken he, fun h => ?_, fun h => ?_⟩
    · exact absurd h (not_answersReceive_panics n amount _ _)
    · obtain ⟨hfault, paymentHash, hcreated, -⟩ := h.2
      exact absurd ⟨hfault, paymentHash, hcreated⟩ hnot
  · refine ⟨_, lncliReceive_ok T node n taken hcreate, ?_⟩
    rw [answersReceive_issued]
    refine and_congr_right fun _ => ⟨fun hsize => ⟨hfault, paymentHash, hcreated, hsize⟩, ?_⟩
    rintro ⟨-, paymentHash', hcreated', hsize⟩
    obtain rfl : paymentHash = paymentHash' := Except.ok.inj (hcreated.symm.trans hcreated')
    exact hsize

/-! ### The money supply -/

/-- All the msat there are. -/
def maxValueMsat : ℕ := 21000000 * 100000000 * 1000

/-- LDK makes no invoice above the money supply. -/
def RejectsAboveSupply (created : Option UInt64 → Except SignOrCreationError PaymentHash) : Prop :=
  ∀ m : UInt64, maxValueMsat < m.toNat → ∃ e, created (some m) = .error e

/-- **Above the money supply no request gets what it asks for**, not even an error. -/
theorem not_answersReceive_of_supply_lt (hldk : RejectsAboveSupply n.created) {amount : UInt64}
    (hmax : maxValueMsat < 1000 * amount.toNat) (taken : ℕ) {o : Outcome F}
    (ho : lncliReceive T node n false amount taken = some o) : ¬ AnswersReceive n amount o := by
  rcases createBolt11Invoice_cases n (some (amount * 1000)) with
    ⟨⟨e, he⟩, -⟩ | ⟨-, paymentHash, hcreated, hcreate⟩
  · obtain rfl := Option.some.inj (ho.symm.trans (lncliReceive_error T node n taken he))
    exact not_answersReceive_panics n amount _ _
  · -- LDK has made the invoice, so that the product has wrapped
    have hmul : (amount * 1000).toNat = amount.toNat * 1000 % 2 ^ 64 := UInt64.toNat_mul _ _
    have hsmall : ¬ maxValueMsat < (amount * 1000).toNat := by
      intro hlarge
      obtain ⟨e, he⟩ := hldk (amount * 1000) hlarge
      cases hcreated.symm.trans he
    obtain rfl := Option.some.inj (ho.symm.trans (lncliReceive_ok T node n taken hcreate))
    rw [answersReceive_issued]
    rintro ⟨hwraps, -⟩
    omega

end Answers

/-! ### Two amounts above it -/

/-- Invoices are written as the bytes of their records, and LDK makes them up to the money supply. -/
def sampleIssuer : Issuer where
  created
    | some m => if maxValueMsat < m.toNat then .error (.creationError "InvalidAmount")
        else .ok ⟨zeroBytes⟩
    | none => .ok ⟨zeroBytes⟩
  store := ∅
  fault := none
  invoiceText invoice :=
    hexEncode (inboundPayment invoice.paymentHash invoice.amountMilliSatoshis).encode
  errorText _ := ""
  invoiceText_injective := by
    rintro ⟨hash, msat⟩ ⟨hash', msat'⟩ h
    have hrecord := Payment.encode_injective (hexEncode_injective h)
    simp only [inboundPayment, Payment.mk.injEq] at hrecord
    rw [hrecord.2.1, hrecord.2.2.2.2.1]

lemma created_sampleIssuer (m : UInt64) : sampleIssuer.created (some m) =
    if maxValueMsat < m.toNat then .error (.creationError "InvalidAmount") else .ok ⟨zeroBytes⟩ := rfl

lemma rejectsAboveSupply_sampleIssuer : RejectsAboveSupply sampleIssuer.created :=
  fun _ hm => ⟨_, if_pos hm⟩

/-- **The product wraps and an invoice for 384 msat is recorded, and an amount that LDK rejects stops the
server.** -/
theorem not_answersReceive_wraps :
    (∃ o, lncliReceive btcText (sampleNode 1) sampleIssuer false 18446744073709552 65536 = some o ∧
      Storage.getPayment none o.store ⟨zeroBytes⟩ = .ok (inboundPayment ⟨zeroBytes⟩ (some 384)) ∧
      ¬ AnswersReceive sampleIssuer 18446744073709552 o) ∧
    ∃ o, lncliReceive btcText (sampleNode 1) sampleIssuer false 2100000000000001 65536 = some o ∧
      o.served = .panics ∧ ¬ AnswersReceive sampleIssuer 2100000000000001 o := by
  constructor
  · have hcreate : sampleIssuer.createBolt11Invoice (some (18446744073709552 * 1000)) =
        (written sampleIssuer.store (inboundPayment ⟨zeroBytes⟩ (some (18446744073709552 * 1000))),
          .ok ⟨⟨zeroBytes⟩, some (18446744073709552 * 1000)⟩) := by
      rw [Issuer.createBolt11Invoice, created_sampleIssuer, if_neg (by decide)]
      rfl
    have hok := lncliReceive_ok btcText (sampleNode 1) sampleIssuer 65536 hcreate
    refine ⟨_, hok, ?_, ?_⟩
    · exact getPayment_written_self _ (inboundPayment _ _)
    · exact not_answersReceive_of_supply_lt _ _ _ rejectsAboveSupply_sampleIssuer (by decide) _ hok
  · have hcreate : (sampleIssuer.createBolt11Invoice (some (2100000000000001 * 1000))).2 =
      .error (.message "could not create invoice InvalidAmount") := by
      rw [Issuer.createBolt11Invoice, created_sampleIssuer, if_pos (by decide)]
      rfl
    have herror := lncliReceive_error btcText (sampleNode 1) sampleIssuer 65536 hcreate
    refine ⟨_, herror, rfl, ?_⟩
    exact not_answersReceive_of_supply_lt _ _ _ rejectsAboveSupply_sampleIssuer (by decide) _ herror

end LnNode.Server.Receive
