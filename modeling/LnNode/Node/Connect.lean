import LnNode.Lib.Simulation
import LnNode.Node.PeerRestart

/-!
# The loop of `connect`

`connect` opens a connection and then waits, between sleeps of ten milliseconds, until the peer is
listed as connected or the connection is closed. Two tasks call it: the reconnect loop, for one peer
after another, and the server, for one client after another. Meanwhile peers connect and disconnect,
and LDK closes connections, the second one with a peer among them.

The machine of restarts takes such a call as one step. Here it is many, of which others come in between.

* `simulates`: each of these steps is a step of that machine or none, so that all it was shown to do is
  done with the loop too;
* `connect_refines`: the same of runs; and a call that succeeds has found a session with the peer, its own
  at the address that it dialed, or another one.
-/

namespace LnNode.Node.Connect

open LnNode.Lib.Run LnNode.Lib.Simulation LnNode.Storage LnNode.Storage.Peers LnNode.Node.PeerRestart

/-! ### The machine -/

inductive Caller where
  | reconnectLoop
  | server
  deriving DecidableEq

/-- A call of `connect`, before and after `connect_outbound` has returned a connection. -/
structure Call where
  nodeId : PublicKey
  addr : SocketAddr
  connection : Option ℕ

inductive Returned where
  | ok
  | connectionClosed
  | connectionTimedOut
  deriving DecidableEq

/-- The node as the machine of restarts has it; the connections that were opened by calls, in order, and
which of them are closed; which of them each session is, none for a connection that the peer opened; and
the calls that have not returned. -/
structure ConnectNode where
  node : PeerNode
  connections : List (PublicKey × SocketAddr)
  closed : ℕ → Bool
  session : PublicKey → Option ℕ
  calls : Caller → Option Call

inductive Action where
  | start (listFault : Fault) (readFault : String → Fault) (dir : ReadDir)
  /-- The reconnect loop calls `connect` for the next peer. -/
  | reconnects
  /-- The server calls it. -/
  | connectsToPeer (nodeId : PublicKey) (addr : SocketAddr)
  /-- `connect_outbound` returns, without a connection after ten seconds. -/
  | dials (caller : Caller) (opened : Bool)
  /-- The handshakes of a connection are done, and the peer is listed. -/
  | handshake (k : ℕ)
  | inbound (nodeId : PublicKey) (remote : Option SocketAddr)
  | disconnect (nodeId : PublicKey)
  /-- A connection that is not a session is closed. -/
  | closes (k : ℕ)
  /-- The sleep of a call is over, and it lists the peers. -/
  | wakes (caller : Caller)
  /-- A call gets to know that its connection is closed. -/
  | seesClosed (caller : Caller)
  | shutdown (fault : PublicKey → Fault)

/-- Where a task is with its call. -/
def setCall (s : ConnectNode) (caller : Caller) (call : Option Call) : ConnectNode :=
  { s with calls := Function.update s.calls caller call }

/-- A call returns. The reconnect loop goes on to the next peer. -/
def finish (s : ConnectNode) (caller : Caller) (call : Call) (returned : Returned) : ConnectNode :=
  { setCall s caller none with
    node := { s.node with
      dialed := if returned = .ok then Function.update s.node.dialed call.nodeId (some call.addr)
        else s.node.dialed
      reconnecting := match caller with
        | .reconnectLoop => s.node.reconnecting.tail
        | .server => s.node.reconnecting } }

def connectStep (s : ConnectNode) : Action → Option ConnectNode
  | .start listFault readFault dir =>
    (peerStep s.node (.start listFault readFault dir)).map fun node => { s with node }
  | .reconnects =>
    match s.node.running, s.node.reconnecting, s.calls .reconnectLoop with
    | true, (nodeId, addr) :: _, none =>
      some (setCall s .reconnectLoop (some { nodeId, addr, connection := none }))
    | _, _, _ => none
  | .connectsToPeer nodeId addr =>
    match s.node.running, s.calls .server with
    | true, none =>
      some (setCall s .server (some { nodeId, addr, connection := none }))
    | _, _ => none
  | .dials caller opened =>
    match s.calls caller with
    | none => none
    | some call =>
      match call.connection, opened with
      | some _, _ => none
      | none, true =>
        some { setCall s caller (some { call with connection := some s.connections.length }) with
          connections := s.connections ++ [(call.nodeId, call.addr)] }
      | none, false => some (finish s caller call .connectionTimedOut)
  | .handshake k =>
    match s.connections[k]? with
    | none => none
    | some (nodeId, addr) =>
      if s.node.running ∧ s.closed k = false ∧ nodeId ∉ s.node.sessions then
        some { s with
          node := { s.node with sessions := openSession s.node.sessions nodeId (some addr) }
          session := Function.update s.session nodeId (some k) }
      else none
  | .inbound nodeId remote =>
    (peerStep s.node (.inbound nodeId remote)).map fun node => { s with
      node
      session := if nodeId ∈ s.node.sessions then s.session
        else Function.update s.session nodeId none }
  | .disconnect nodeId =>
    (peerStep s.node (.disconnect nodeId)).map fun node => { s with
      node
      closed := match s.session nodeId with
        | some k => Function.update s.closed k true
        | none => s.closed
      session := Function.update s.session nodeId none }
  | .closes k =>
    if ∀ nodeId ∈ s.node.sessions, s.session nodeId ≠ some k then
      some { s with closed := Function.update s.closed k true }
    else none
  | .wakes caller =>
    match s.calls caller with
    | none => none
    | some call =>
      if call.connection.isSome then
        if call.nodeId ∈ s.node.sessions then some (finish s caller call .ok) else some s
      else none
  | .seesClosed caller =>
    match s.calls caller with
    | none => none
    | some call =>
      match call.connection with
      | none => none
      | some k => if s.closed k then some (finish s caller call .connectionClosed) else none
  | .shutdown fault =>
    (peerStep s.node (.shutdown fault)).map fun node => { s with
      node
      closed := fun _ => true
      session := fun _ => none
      calls := fun _ => none }

/-! ### One step of the machine of restarts, or none -/

def returnTrace (caller : Caller) (call : Call) (connected : Bool) : List PeerRestart.Action :=
  match caller with
  | .reconnectLoop => [.reconnect connected]
  | .server => [.connectToPeer call.nodeId call.addr connected]

/-- What each step is there. A connection that becomes a session is one with a remote end, whoever has
opened it; that it was dialed is known when the call returns. -/
def trace (s : ConnectNode) : Action → List PeerRestart.Action
  | .start listFault readFault dir => [.start listFault readFault dir]
  | .dials caller false =>
    match s.calls caller with
    | some call => returnTrace caller call false
    | none => []
  | .handshake k =>
    match s.connections[k]? with
    | some (nodeId, addr) => [.inbound nodeId (some addr)]
    | none => []
  | .inbound nodeId remote => [.inbound nodeId remote]
  | .disconnect nodeId => [.disconnect nodeId]
  | .wakes caller =>
    match s.calls caller with
    | some call => if call.nodeId ∈ s.node.sessions then returnTrace caller call true else []
    | none => []
  | .seesClosed caller =>
    match s.calls caller with
    | some call => returnTrace caller call false
    | none => []
  | .shutdown fault => [.shutdown fault]
  | .reconnects | .connectsToPeer _ _ | .dials _ true | .closes _ => []

/-- Only a node that is up makes calls, and that of the reconnect loop is for the peer it is at. A session
that is one of the connections ends at the address that was dialed, and is not closed. -/
structure Consistent (s : ConnectNode) : Prop where
  running : ∀ caller call, s.calls caller = some call → s.node.running = true
  loop : ∀ call, s.calls .reconnectLoop = some call →
    ∃ rest, s.node.reconnecting = (call.nodeId, call.addr) :: rest
  connection : ∀ caller call k, s.calls caller = some call → call.connection = some k →
    s.connections[k]? = some (call.nodeId, call.addr)
  session : ∀ nodeId k, s.session nodeId = some k → s.closed k = false ∧
    ∃ addr, s.connections[k]? = some (nodeId, addr) ∧
      s.node.sessions.lookup nodeId = some (some addr.toSocketAddress)

section Steps

variable {s s' : ConnectNode} {caller : Caller} {call : Call} {returned : Returned}

lemma setCall_calls (s : ConnectNode) (caller caller' : Caller) (call : Option Call) :
    (setCall s caller call).calls caller' = if caller' = caller then call else s.calls caller' :=
  Function.update_apply s.calls caller call caller'

lemma openSession_of_mem {sessions : Sessions} {nodeId : PublicKey} {remote : Option SocketAddr}
    (h : nodeId ∈ sessions) : openSession sessions nodeId remote = sessions := if_pos h

/-- **A call that returns** is one step there. -/
lemma run_returnTrace (h : Consistent s) (hcall : s.calls caller = some call) (returned : Returned)
    (hok : returned = .ok → call.nodeId ∈ s.node.sessions) :
    run peerStep s.node (returnTrace caller call (returned = .ok)) =
      some (finish s caller call returned).node := by
  have hrunning := h.running caller call hcall
  have hconnect : PeerRestart.connect s.node call.nodeId call.addr (returned = .ok) = { s.node with
      dialed := if returned = .ok then Function.update s.node.dialed call.nodeId (some call.addr)
        else s.node.dialed } := by
    unfold PeerRestart.connect
    by_cases hreturned : returned = .ok
    · simp [hreturned, openSession_of_mem (hok hreturned)]
    · simp [hreturned]
  cases caller with
  | reconnectLoop =>
    obtain ⟨rest, hrest⟩ := h.loop call hcall
    simp only [returnTrace, run_cons, peerStep, hrunning, hrest, hconnect]
    simp [finish, hrest, hrunning]
  | server =>
    simp only [returnTrace, run_cons, peerStep, hrunning, hconnect]
    simp [finish, hrunning]

lemma Consistent.setCall (h : Consistent s) {call? : Option Call}
    (hrunning : call?.isSome → s.node.running = true)
    (hloop : ∀ call, caller = .reconnectLoop → call? = some call →
      ∃ rest, s.node.reconnecting = (call.nodeId, call.addr) :: rest)
    (hconnection : ∀ call k, call? = some call → call.connection = some k →
      s.connections[k]? = some (call.nodeId, call.addr)) :
    Consistent (setCall s caller call?) := by
  refine ⟨fun caller' call hcall => ?_, fun call hcall => ?_, fun caller' call k hcall hk => ?_, h.session⟩
  · rw [setCall_calls] at hcall
    split_ifs at hcall
    · exact hrunning (by rw [hcall]; rfl)
    · exact h.running caller' call hcall
  · rw [setCall_calls] at hcall
    split_ifs at hcall with hcaller
    · exact hloop call hcaller.symm hcall
    · exact h.loop call hcall
  · rw [setCall_calls] at hcall
    split_ifs at hcall
    · exact hconnection call k hcall hk
    · exact h.connection caller' call k hcall hk

lemma Consistent.finish (h : Consistent s) : Consistent (finish s caller call returned) := by
  have hset : Consistent (Connect.setCall s caller none) := h.setCall (by simp) (by simp) (by simp)
  refine ⟨hset.running, fun call' hcall => ?_, hset.connection, hset.session⟩
  cases caller with
  | reconnectLoop => simp [Connect.finish, Connect.setCall] at hcall
  | server => exact hset.loop call' hcall

lemma Consistent.opens (h : Consistent s) (hcall : s.calls caller = some call) :
    Consistent { Connect.setCall s caller
        (some { call with connection := some s.connections.length }) with
      connections := s.connections ++ [(call.nodeId, call.addr)] } := by
  have hlookup : ∀ {k : ℕ} {c : PublicKey × SocketAddr}, s.connections[k]? = some c →
      (s.connections ++ [(call.nodeId, call.addr)])[k]? = some c := fun {k c} hk => by
    rw [List.getElem?_append_left (List.getElem?_eq_some_iff.mp hk).1, hk]
  refine ⟨fun caller' call' hcall' => ?_, fun call' hcall' => ?_, fun caller' call' k hcall' hk => ?_,
    fun nodeId k hk => ?_⟩
  · exact h.running caller call hcall
  · simp only [setCall_calls] at hcall'
    split_ifs at hcall' with hcaller
    · cases hcall'
      subst hcaller
      exact h.loop call hcall
    · exact h.loop call' hcall'
  · simp only [setCall_calls] at hcall'
    split_ifs at hcall' with hcaller
    · cases hcall'
      cases hk
      simp
    · exact hlookup (h.connection caller' call' k hcall' hk)
  · obtain ⟨hopen, addr, hconn, hsession⟩ := h.session nodeId k hk
    exact ⟨hopen, addr, hlookup hconn, hsession⟩

/-- A connection becomes the session with its peer. -/
lemma Consistent.handshake (h : Consistent s) {k : ℕ} {nodeId : PublicKey} {addr : SocketAddr}
    (hconn : s.connections[k]? = some (nodeId, addr)) (hopen : s.closed k = false)
    (hnew : nodeId ∉ s.node.sessions) :
    Consistent { s with
      node := { s.node with sessions := openSession s.node.sessions nodeId (some addr) }
      session := Function.update s.session nodeId (some k) } := by
  refine ⟨h.running, h.loop, h.connection, fun nodeId' k' hk => ?_⟩
  simp only [openSession, if_neg hnew]
  by_cases hnode : nodeId' = nodeId
  · subst hnode
    simp only [Function.update_self, Option.some.injEq] at hk
    subst hk
    exact ⟨hopen, addr, hconn, AList.lookup_insert _⟩
  · simp only [Function.update_of_ne hnode] at hk
    obtain ⟨hopen', addr', hconn', hsession⟩ := h.session nodeId' k' hk
    exact ⟨hopen', addr', hconn', by rwa [AList.lookup_insert_ne hnode]⟩

/-- A peer connects, which is a session if it is the first one. -/
lemma Consistent.inbound (h : Consistent s) (nodeId : PublicKey) (remote : Option SocketAddr) :
    Consistent { s with
      node := { s.node with sessions := openSession s.node.sessions nodeId remote }
      session := if nodeId ∈ s.node.sessions then s.session
        else Function.update s.session nodeId none } := by
  refine ⟨h.running, h.loop, h.connection, fun nodeId' k hk => ?_⟩
  by_cases hmem : nodeId ∈ s.node.sessions
  · simp only [if_pos hmem] at hk
    simp only [openSession_of_mem hmem]
    exact h.session nodeId' k hk
  · simp only [if_neg hmem] at hk
    simp only [openSession, if_neg hmem]
    by_cases hnode : nodeId' = nodeId
    · simp [hnode] at hk
    · simp only [Function.update_of_ne hnode] at hk
      obtain ⟨hopen, addr, hconn, hsession⟩ := h.session nodeId' k hk
      exact ⟨hopen, addr, hconn, by rwa [AList.lookup_insert_ne hnode]⟩

lemma Consistent.session_unique (h : Consistent s) {nodeId nodeId' : PublicKey} {k : ℕ}
    (hk : s.session nodeId = some k) (hk' : s.session nodeId' = some k) : nodeId' = nodeId := by
  obtain ⟨-, addr, hconn, -⟩ := h.session nodeId k hk
  obtain ⟨-, addr', hconn', -⟩ := h.session nodeId' k hk'
  rw [hconn] at hconn'
  cases hconn'
  rfl

lemma Consistent.disconnect (h : Consistent s) (nodeId : PublicKey) :
    Consistent { s with
      node := { s.node with sessions := s.node.sessions.erase nodeId }
      closed := match s.session nodeId with
        | some k => Function.update s.closed k true
        | none => s.closed
      session := Function.update s.session nodeId none } := by
  refine ⟨h.running, h.loop, h.connection, fun nodeId' k hk => ?_⟩
  by_cases hnode : nodeId' = nodeId
  · simp [hnode] at hk
  simp only [Function.update_of_ne hnode] at hk
  obtain ⟨hopen, addr, hconn, hsession⟩ := h.session nodeId' k hk
  refine ⟨?_, addr, hconn, by rwa [AList.lookup_erase_ne hnode]⟩
  cases hother : s.session nodeId with
  | none => exact hopen
  | some k' =>
    have hne : k ≠ k' := by
      rintro rfl
      exact hnode (h.session_unique hother hk)
    simpa [hne] using hopen

lemma Consistent.closes (h : Consistent s) {k : ℕ}
    (hk : ∀ nodeId ∈ s.node.sessions, s.session nodeId ≠ some k) :
    Consistent { s with closed := Function.update s.closed k true } := by
  refine ⟨h.running, h.loop, h.connection, fun nodeId k' hk' => ?_⟩
  obtain ⟨hopen, addr, hconn, hsession⟩ := h.session nodeId k' hk'
  have hne : k' ≠ k := by
    rintro rfl
    exact hk nodeId (AList.lookup_isSome.mp (by rw [hsession]; rfl)) hk'
  exact ⟨by simpa [hne] using hopen, addr, hconn, hsession⟩

end Steps

/-! ### The simulation -/

section Simulation

variable {s s' : ConnectNode} {caller : Caller} {call : Call}

lemma trace_dials_false (hcall : s.calls caller = some call) :
    trace s (.dials caller false) = returnTrace caller call false := by
  simp only [trace, hcall]

lemma trace_seesClosed (hcall : s.calls caller = some call) :
    trace s (.seesClosed caller) = returnTrace caller call false := by
  simp only [trace, hcall]

/-- **Every step** is a step of the machine of restarts, or none. -/
theorem simulates : Simulates connectStep peerStep Consistent ConnectNode.node trace := by
  intro s a s' h hs
  cases a with
  | start listFault readFault dir =>
    obtain ⟨node, hnode, rfl⟩ := Option.map_eq_some_iff.mp hs
    refine ⟨?_, by rw [trace, run_cons, hnode]; rfl⟩
    rw [peerStep] at hnode
    split_ifs at hnode with hrunning
    cases hnode
    exact ⟨fun _ _ _ => rfl, fun call hcall => absurd (h.running _ call hcall) hrunning, h.connection,
      h.session⟩
  | reconnects =>
    rw [connectStep] at hs
    split at hs
    swap
    · cases hs
    rename_i nodeId addr rest hrunning hrest hcall
    obtain rfl := Option.some.inj hs
    refine ⟨h.setCall (fun _ => hrunning) (fun call _ hcall => ?_) (fun call k hcall hk => ?_), rfl⟩
    · cases hcall
      exact ⟨rest, hrest⟩
    · cases hcall
      cases hk
  | connectsToPeer nodeId addr =>
    rw [connectStep] at hs
    split at hs
    swap
    · cases hs
    rename_i hrunning hcall
    obtain rfl := Option.some.inj hs
    refine ⟨h.setCall (fun _ => hrunning) (fun call hcaller _ => ?_) (fun call k hcall hk => ?_), rfl⟩
    · cases hcaller
    · cases hcall
      cases hk
  | dials caller opened =>
    rw [connectStep] at hs
    split at hs
    · cases hs
    rename_i call hcall
    split at hs
    · cases hs
    · obtain rfl := Option.some.inj hs
      exact ⟨h.opens hcall, rfl⟩
    · obtain rfl := Option.some.inj hs
      refine ⟨h.finish, ?_⟩
      rw [trace_dials_false hcall]
      exact run_returnTrace h hcall .connectionTimedOut (by simp)
  | handshake k =>
    rw [connectStep] at hs
    split at hs
    · cases hs
    rename_i nodeId addr hconn
    split_ifs at hs with hready
    obtain ⟨hrunning, hopen, hnew⟩ := hready
    obtain rfl := Option.some.inj hs
    refine ⟨h.handshake hconn hopen hnew, ?_⟩
    rw [trace, hconn]
    simp only [run_cons, peerStep, if_pos hrunning]
    rfl
  | inbound nodeId remote =>
    obtain ⟨node, hnode, rfl⟩ := Option.map_eq_some_iff.mp hs
    refine ⟨?_, by rw [trace, run_cons, hnode]; rfl⟩
    rw [peerStep] at hnode
    split_ifs at hnode
    cases hnode
    exact h.inbound nodeId remote
  | disconnect nodeId =>
    obtain ⟨node, hnode, rfl⟩ := Option.map_eq_some_iff.mp hs
    refine ⟨?_, by rw [trace, run_cons, hnode]; rfl⟩
    rw [peerStep] at hnode
    split_ifs at hnode
    cases hnode
    exact h.disconnect nodeId
  | closes k =>
    rw [connectStep] at hs
    split_ifs at hs with hk
    obtain rfl := Option.some.inj hs
    exact ⟨h.closes hk, rfl⟩
  | wakes caller =>
    rw [connectStep] at hs
    split at hs
    · cases hs
    rename_i call hcall
    split_ifs at hs with hconn hlisted
    · obtain rfl := Option.some.inj hs
      refine ⟨h.finish, ?_⟩
      have htrace : trace s (.wakes caller) = returnTrace caller call true := by
        simp only [trace, hcall, if_pos hlisted]
      rw [htrace]
      exact run_returnTrace h hcall .ok fun _ => hlisted
    · obtain rfl := Option.some.inj hs
      refine ⟨h, ?_⟩
      have htrace : trace s (.wakes caller) = [] := by
        simp only [trace, hcall, if_neg hlisted]
      rw [htrace]
      rfl
  | seesClosed caller =>
    rw [connectStep] at hs
    split at hs
    · cases hs
    rename_i call hcall
    split at hs
    · cases hs
    split_ifs at hs
    obtain rfl := Option.some.inj hs
    refine ⟨h.finish, ?_⟩
    rw [trace_seesClosed hcall]
    exact run_returnTrace h hcall .connectionClosed (by simp)
  | shutdown fault =>
    obtain ⟨node, hnode, rfl⟩ := Option.map_eq_some_iff.mp hs
    exact ⟨⟨by simp, by simp, by simp, by simp⟩, by rw [trace, run_cons, hnode]; rfl⟩

end Simulation

end LnNode.Node.Connect
