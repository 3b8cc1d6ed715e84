import LnNode.Lib.Run
import LnNode.Storage.Peers

/-!
# Whether the address of a peer survives restarts

A start dials the peers in the store, one after another in the background. A peer is connected by one
session, ours or one that it has opened; at an orderly shutdown the remote end of every session is
written to the store.

`Saved` is the invariant: while the node is down, every peer that was dialed has a record with the
address that was dialed last.

* `savePeers_holds`: what a shutdown leaves in the store;
* `dialedSurvives_iff`: which shutdowns leave the addresses that were dialed, and that nothing else
  is needed.
-/

namespace LnNode.Node.PeerRestart

open LnNode.Lib.Run LnNode.Storage LnNode.Storage.Peers

/-! ### Addresses and connections -/

inductive SocketAddr where
  | v4 (addr : { bs : Lib.Wire.Bytes // bs.length = 4 }) (port : UInt16)
  | v6 (addr : { bs : Lib.Wire.Bytes // bs.length = 16 }) (port : UInt16)
  deriving DecidableEq

def SocketAddr.toSocketAddress : SocketAddr → SocketAddress
  | .v4 addr port => .tcpIpV4 addr port
  | .v6 addr port => .tcpIpV6 addr port

def dialable : SocketAddress → Option SocketAddr
  | .tcpIpV4 addr port => some (.v4 addr port)
  | .tcpIpV6 addr port => some (.v6 addr port)
  | _ => none

@[simp] lemma dialable_toSocketAddress (addr : SocketAddr) :
    dialable addr.toSocketAddress = some addr := by
  cases addr <;> rfl

lemma eq_toSocketAddress_of_dialable {address : SocketAddress} {addr : SocketAddr}
    (h : dialable address = some addr) : address = addr.toSocketAddress := by
  cases address with
  | tcpIpV4 a port =>
    cases h
    rfl
  | tcpIpV6 a port =>
    cases h
    rfl
  | _ => cases h

/-- The connected peers, each with the remote end of its session if it is known. -/
abbrev Sessions := AList fun _ : PublicKey => Option SocketAddress

/-- LDK's peer manager: a second session with a peer that is connected is closed. -/
def openSession (sessions : Sessions) (nodeId : PublicKey) (remote : Option SocketAddr) : Sessions :=
  if nodeId ∈ sessions then sessions
  else sessions.insert nodeId (remote.map SocketAddr.toSocketAddress)

def reconnectTargets (peers : List PeerInfo) : List (PublicKey × SocketAddr) :=
  peers.filterMap fun peer => (dialable peer.address).map (peer.nodeId, ·)

/-- What the reconnect loop goes through; when the peers cannot be listed, it ends. -/
def reconnectLoop (listFault : Fault) (readFault : String → Fault) (dir : ReadDir) (store : KvStore) :
    List (PublicKey × SocketAddr) :=
  match listPeers listFault readFault dir store with
  | .error _ => []
  | .ok peers => reconnectTargets peers

/-- Peers are written to disk before shutdown. One without an address, or whose write fails, is passed
over. -/
def savePeers (fault : PublicKey → Fault) (store : KvStore) :
    List (Σ _ : PublicKey, Option SocketAddress) → KvStore
  | [] => store
  | ⟨_, none⟩ :: peers => savePeers fault store peers
  | ⟨nodeId, some address⟩ :: peers =>
    match addPeer (fault nodeId) store { nodeId, address } with
    | .error _ => savePeers fault store peers
    | .ok store' => savePeers fault store' peers

/-! ### The machine -/

/-- The node, up or down; the sessions, what the reconnect loop has still to dial, the store, and the
address of the last outbound connection to each peer that was successful. -/
structure PeerNode where
  running : Bool
  sessions : Sessions
  reconnecting : List (PublicKey × SocketAddr)
  store : KvStore
  dialed : PublicKey → Option SocketAddr

def neverStarted : PeerNode where
  running := false
  sessions := ∅
  reconnecting := []
  store := ∅
  dialed _ := none

inductive Action where
  | start (listFault : Fault) (readFault : String → Fault) (dir : ReadDir)
  /-- The reconnect loop dials the next peer. -/
  | reconnect (connected : Bool)
  | connectToPeer (nodeId : PublicKey) (addr : SocketAddr) (connected : Bool)
  /-- A peer connects from the remote end of an accepted socket. -/
  | inbound (nodeId : PublicKey) (remote : Option SocketAddr)
  | disconnect (nodeId : PublicKey)
  | shutdown (fault : PublicKey → Fault)

/-- `connect`: successful when the peer is listed as connected. -/
def connect (s : PeerNode) (nodeId : PublicKey) (addr : SocketAddr) (connected : Bool) : PeerNode :=
  if connected then
    { s with
      sessions := openSession s.sessions nodeId (some addr)
      dialed := Function.update s.dialed nodeId (some addr) }
  else s

def peerStep (s : PeerNode) : Action → Option PeerNode
  | .start listFault readFault dir =>
    if s.running then none
    else some { s with
      running := true
      reconnecting := reconnectLoop listFault readFault dir s.store }
  | .reconnect connected =>
    match s.running, s.reconnecting with
    | true, (nodeId, addr) :: rest =>
      some { connect s nodeId addr connected with reconnecting := rest }
    | _, _ => none
  | .connectToPeer nodeId addr connected =>
    if s.running then some (connect s nodeId addr connected) else none
  | .inbound nodeId remote =>
    if s.running then some { s with sessions := openSession s.sessions nodeId remote } else none
  | .disconnect nodeId =>
    if s.running then some { s with sessions := s.sessions.erase nodeId } else none
  | .shutdown fault =>
    if s.running then
      some { s with
        running := false
        sessions := ∅
        reconnecting := []
        store := savePeers fault s.store s.sessions.entries }
    else none

/-! ### What is to survive -/

def OneRecord (store : KvStore) (nodeId : PublicKey) (addr : SocketAddr) : Prop :=
  ∀ dir, ∃ peers, listPeers none (fun _ => none) dir store = .ok peers ∧
    peers.filter (fun peer => peer.nodeId = nodeId) = [⟨nodeId, addr.toSocketAddress⟩]

/-- A shutdown leaves one record of every connected peer that was dialed, with the address that was
dialed last; and a start dials every peer that was dialed once, with that address. -/
def DialedSurvives (s : PeerNode) : Action → Prop
  | .shutdown fault => ∀ s', peerStep s (.shutdown fault) = some s' → ∀ nodeId addr,
      s.dialed nodeId = some addr → nodeId ∈ s.sessions → OneRecord s'.store nodeId addr
  | .start listFault readFault dir => ∀ nodeId addr, s.dialed nodeId = some addr →
      (reconnectLoop listFault readFault dir s.store).filter (fun peer => peer.1 = nodeId) =
        [(nodeId, addr)]
  | _ => True

def Recorded (store : KvStore) (nodeId : PublicKey) (addr : SocketAddr) : Prop :=
  store.lookup (peerKey nodeId) =
    some (PeerInfo.encode { nodeId, address := addr.toSocketAddress })

/-- At a shutdown, the session of every peer that was dialed ends at the address that was dialed last
and is written; without a session, an address or a write the record is there already. -/
def SavesDialed (s : PeerNode) (fault : PublicKey → Fault) : Prop :=
  ∀ nodeId addr, s.dialed nodeId = some addr →
    match s.sessions.lookup nodeId with
    | some (some address) =>
      if (fault nodeId).isNone then address = addr.toSocketAddress
      else Recorded s.store nodeId addr
    | _ => Recorded s.store nodeId addr

/-- A shutdown saves what was dialed, and a start can list and read the peers. -/
def KeepsAddresses (s : PeerNode) : Action → Prop
  | .shutdown fault => SavesDialed s fault
  | .start listFault readFault _ => listFault = none ∧ ∀ name, readFault name = none
  | _ => True

/-! ### The store as a map of peers -/

/-- The map after the sessions are written. -/
def savedMap (fault : PublicKey → Fault) (m : PublicKey → Option PeerInfo)
    (peers : List (Σ _ : PublicKey, Option SocketAddress)) : PublicKey → Option PeerInfo := fun nodeId =>
  match peers.dlookup nodeId with
  | some (some address) => if (fault nodeId).isNone then some { nodeId, address } else m nodeId
  | _ => m nodeId

section Maps

variable {fault : PublicKey → Fault} {store : KvStore} {m : PublicKey → Option PeerInfo}
  {peers : List (Σ _ : PublicKey, Option SocketAddress)} {nodeId : PublicKey} {addr : SocketAddr}

lemma savedMap_cons_of_ne {k : PublicKey} {remote : Option SocketAddress} (h : nodeId ≠ k) :
    savedMap fault m (⟨k, remote⟩ :: peers) nodeId = savedMap fault m peers nodeId := by
  rw [savedMap, savedMap, List.dlookup_cons_ne _ _ h]

lemma savedMap_of_notMem (h : nodeId ∉ peers.keys) : savedMap fault m peers nodeId = m nodeId := by
  rw [savedMap, List.dlookup_eq_none.mpr h]

theorem savePeers_holds (fault : PublicKey → Fault) (h : Holds peerKind store m) (hnodup : peers.NodupKeys) :
    Holds peerKind (savePeers fault store peers) (savedMap fault m peers) := by
  induction peers generalizing store m with
  | nil => exact h
  | cons peer peers ih =>
    obtain ⟨k, remote⟩ := peer
    obtain ⟨hk, hrest⟩ := List.nodupKeys_cons.mp hnodup
    -- the map of the rest has nothing to say of `k`, which occurs once
    have hskip : ∀ m', (∀ n, n ≠ k → m' n = m n) →
        m' k = savedMap fault m (⟨k, remote⟩ :: peers) k →
        savedMap fault m' peers = savedMap fault m (⟨k, remote⟩ :: peers) := by
      intro m' hne hself
      funext n
      by_cases hn : n = k
      · subst hn
        rw [savedMap_of_notMem hk, hself]
      · rw [savedMap_cons_of_ne hn]
        simp only [savedMap, hne n hn]
    cases remote with
    | none =>
      rw [← hskip m (fun _ _ => rfl) (by simp [savedMap])]
      exact ih h hrest
    | some address =>
      rw [savePeers]
      cases hfault : fault k with
      | some e =>
        rw [← hskip m (fun _ _ => rfl) (by simp [savedMap, hfault])]
        exact ih h hrest
      | none =>
        rw [← hskip (Function.update m k (some ⟨k, address⟩)) (fun n hn => Function.update_of_ne hn _ _)
          (by simp [savedMap, hfault])]
        exact ih (h.insert ⟨k, address⟩) hrest

lemma recorded_iff (h : Holds peerKind store m) :
    Recorded store nodeId addr ↔ m nodeId = some { nodeId, address := addr.toSocketAddress } := by
  have hlook : store.lookup (peerKey nodeId) = (m nodeId).map PeerInfo.encode := h.lookup nodeId
  rw [Recorded, hlook, Option.map_eq_some_iff]
  constructor
  · rintro ⟨peer, hm, henc⟩
    rw [hm, PeerInfo.encode_injective henc]
  · intro hm
    exact ⟨_, hm, rfl⟩

lemma filter_peers {records : List PeerInfo} (h : Holds peerKind store m)
    (hlist : ListsExactly PeerInfo.nodeId records m) (nodeId : PublicKey) :
    records.filter (fun peer => peer.nodeId = nodeId) = (m nodeId).toList := by
  cases hm : m nodeId with
  | none =>
    rw [Option.toList_none, List.filter_eq_nil_iff]
    intro peer hpeer heq
    have hlive := (hlist.live peer).mp hpeer
    rw [of_decide_eq_true heq, hm] at hlive
    cases hlive
  | some peer =>
    have hid : peer.nodeId = nodeId := h.own nodeId peer hm
    refine List.perm_singleton.mp
      ((List.perm_ext_iff_of_nodup (hlist.once.of_map.filter _) (List.nodup_singleton _)).mpr ?_)
    intro other
    rw [List.mem_filter, decide_eq_true_eq, List.mem_singleton]
    constructor
    · rintro ⟨hother, heq⟩
      have hlive := (hlist.live other).mp hother
      rw [heq, hm] at hlive
      exact (Option.some.inj hlive).symm
    · rintro rfl
      exact ⟨(hlist.live other).mpr (by rw [hid, hm]), hid⟩

lemma oneRecord_iff (h : Holds peerKind store m) :
    OneRecord store nodeId addr ↔ m nodeId = some { nodeId, address := addr.toSocketAddress } := by
  constructor
  · intro hone
    obtain ⟨records, hlist, hfilter⟩ := hone .inOrder
    obtain ⟨records', hlist', hexact⟩ := h.list .inOrder
    obtain rfl : records = records' := Except.ok.inj (hlist.symm.trans hlist')
    rw [filter_peers h hexact] at hfilter
    cases hm : m nodeId with
    | none => simp [hm] at hfilter
    | some peer => simpa [hm] using hfilter
  · intro hm dir
    obtain ⟨records, hlist, hexact⟩ := h.list dir
    refine ⟨records, hlist, ?_⟩
    rw [filter_peers h hexact, hm]
    rfl

lemma filter_reconnectTargets (records : List PeerInfo) (nodeId : PublicKey) :
    (reconnectTargets records).filter (fun peer => peer.1 = nodeId) =
      reconnectTargets (records.filter fun peer => peer.nodeId = nodeId) := by
  induction records with
  | nil => rfl
  | cons peer records ih =>
    unfold reconnectTargets at ih ⊢
    by_cases hid : peer.nodeId = nodeId
    · cases hd : dialable peer.address with
      | none => simpa [hid, hd] using ih
      | some target => simpa [hid, hd] using ih
    · cases hd : dialable peer.address with
      | none => simpa [hid, hd] using ih
      | some target => simpa [hid, hd] using ih

lemma reconnectLoop_iff (h : Holds peerKind store m) (dir : ReadDir) :
    (reconnectLoop none (fun _ => none) dir store).filter (fun peer => peer.1 = nodeId) =
        [(nodeId, addr)] ↔
      m nodeId = some { nodeId, address := addr.toSocketAddress } := by
  obtain ⟨records, hlist, hexact⟩ := h.list dir
  have hloop : reconnectLoop none (fun _ => none) dir store = reconnectTargets records := by
    rw [reconnectLoop, listPeers, hlist]
  rw [hloop, filter_reconnectTargets, filter_peers h hexact]
  cases hm : m nodeId with
  | none => simp [reconnectTargets]
  | some peer =>
    obtain ⟨peerId, address⟩ := peer
    obtain rfl : peerId = nodeId := h.own nodeId _ hm
    constructor
    · intro htargets
      cases hd : dialable address with
      | none => simp [reconnectTargets, hd] at htargets
      | some target =>
        obtain rfl : target = addr := by simpa [reconnectTargets, hd] using htargets
        rw [eq_toSocketAddress_of_dialable hd]
    · intro heq
      cases heq
      simp [reconnectTargets]

end Maps

/-! ### What every step keeps -/

structure Saved (s : PeerNode) : Prop where
  holds : ∃ m, Holds peerKind s.store m
  saved : s.running = false → ∀ nodeId addr, s.dialed nodeId = some addr →
    Recorded s.store nodeId addr

section Steps

variable {s s' : PeerNode} {fault : PublicKey → Fault} {m : PublicKey → Option PeerInfo}

lemma saved_neverStarted : Saved neverStarted where
  holds := ⟨_, holds_empty⟩
  saved _ nodeId addr h := by cases h

/-- What is asked of a shutdown is what the map says afterwards. -/
lemma savesDialed_iff (h : Holds peerKind s.store m) :
    SavesDialed s fault ↔ ∀ nodeId addr, s.dialed nodeId = some addr →
      savedMap fault m s.sessions.entries nodeId =
        some { nodeId, address := addr.toSocketAddress } := by
  refine forall₂_congr fun nodeId addr => imp_congr_right fun _ => ?_
  rw [savedMap, show s.sessions.entries.dlookup nodeId = s.sessions.lookup nodeId from rfl]
  rcases s.sessions.lookup nodeId with _ | _ | address
  · exact recorded_iff h
  · exact recorded_iff h
  · cases hfault : (fault nodeId).isNone with
    | true => simp
    | false => simpa using recorded_iff h

lemma Saved.of_running (h : Saved s) (hrunning : s'.running = true) (hstore : s'.store = s.store) :
    Saved s' where
  holds := hstore ▸ h.holds
  saved hdown := absurd (hrunning.symm.trans hdown) (by simp)

@[simp] lemma connect_running (nodeId : PublicKey) (addr : SocketAddr) (connected : Bool) :
    (connect s nodeId addr connected).running = s.running := by
  cases connected <;> rfl

@[simp] lemma connect_store (nodeId : PublicKey) (addr : SocketAddr) (connected : Bool) :
    (connect s nodeId addr connected).store = s.store := by
  cases connected <;> rfl

theorem Saved.step {a : Action} (h : Saved s) (hok : KeepsAddresses s a)
    (hs : peerStep s a = some s') : Saved s' ∧ DialedSurvives s a := by
  obtain ⟨m, hm⟩ := h.holds
  cases a with
  | start listFault readFault dir =>
    rw [peerStep] at hs
    split_ifs at hs with hrunning
    cases hs
    refine ⟨h.of_running rfl rfl, fun nodeId addr hdialed => ?_⟩
    obtain ⟨rfl, hread⟩ := hok
    obtain rfl : readFault = fun _ => none := funext hread
    have hrec := h.saved (by simpa using hrunning) nodeId addr hdialed
    exact (reconnectLoop_iff hm dir).mpr ((recorded_iff hm).mp hrec)
  | reconnect connected =>
    rw [peerStep] at hs
    split at hs
    · rename_i nodeId addr rest hrunning hrest
      cases hs
      exact ⟨h.of_running (by simpa using hrunning) (by simp), trivial⟩
    · cases hs
  | connectToPeer nodeId addr connected =>
    rw [peerStep] at hs
    split_ifs at hs with hrunning
    cases hs
    exact ⟨h.of_running (by simpa using hrunning) (by simp), trivial⟩
  | inbound nodeId remote =>
    rw [peerStep] at hs
    split_ifs at hs with hrunning
    cases hs
    exact ⟨h.of_running hrunning rfl, trivial⟩
  | disconnect nodeId =>
    rw [peerStep] at hs
    split_ifs at hs with hrunning
    cases hs
    exact ⟨h.of_running hrunning rfl, trivial⟩
  | shutdown fault =>
    have hsaved := (savesDialed_iff hm).mp hok
    have hafter := savePeers_holds fault hm s.sessions.nodupKeys
    refine ⟨?_, fun s'' hs'' nodeId addr hdialed _ => ?_⟩
    · rw [peerStep] at hs
      split_ifs at hs with hrunning
      cases hs
      exact ⟨⟨_, hafter⟩, fun _ nodeId addr hdialed =>
        (recorded_iff hafter).mpr (hsaved nodeId addr hdialed)⟩
    · rw [peerStep] at hs''
      split_ifs at hs'' with hrunning
      cases hs''
      exact (oneRecord_iff hafter).mpr (hsaved nodeId addr hdialed)

lemma holds_of_run {as : List Action} (hr : run peerStep neverStarted as = some s) :
    ∃ m, Holds peerKind s.store m := by
  refine run_keeps (I := fun s => ∃ m, Holds peerKind s.store m) ⟨_, holds_empty⟩ ?_ hr
  rintro t a t' ⟨m, hm⟩ hs
  cases a with
  | shutdown fault =>
    rw [peerStep] at hs
    split_ifs at hs
    cases hs
    exact ⟨_, savePeers_holds fault hm t.sessions.nodupKeys⟩
  | reconnect connected =>
    rw [peerStep] at hs
    split at hs
    · cases hs
      exact ⟨m, by simpa using hm⟩
    · cases hs
  | connectToPeer nodeId addr connected =>
    rw [peerStep] at hs
    split_ifs at hs
    cases hs
    exact ⟨m, by simpa using hm⟩
  | _ =>
    rw [peerStep] at hs
    split_ifs at hs
    cases hs
    exact ⟨m, hm⟩

/-- **A shutdown and the start after it** leave what was dialed, exactly when the shutdown saves it. -/
theorem restart_iff (hm : Holds peerKind s.store m) (hrunning : s.running = true) (dir : ReadDir) :
    (DialedSurvives s (.shutdown fault) ∧ ∀ s', peerStep s (.shutdown fault) = some s' →
      DialedSurvives s' (.start none (fun _ => none) dir)) ↔ SavesDialed s fault := by
  have hafter := savePeers_holds fault hm s.sessions.nodupKeys
  have hdown : peerStep s (.shutdown fault) = some { s with
      running := false
      sessions := ∅
      reconnecting := []
      store := savePeers fault s.store s.sessions.entries } := by
    rw [peerStep, if_pos hrunning]
  rw [savesDialed_iff hm]
  constructor
  · rintro ⟨-, hstart⟩ nodeId addr hdialed
    exact (reconnectLoop_iff hafter dir).mp (hstart _ hdown nodeId addr hdialed)
  · intro hsaved
    refine ⟨fun s' hs nodeId addr hdialed _ => ?_, fun s' hs nodeId addr hdialed => ?_⟩
    · obtain rfl := Option.some.inj (hdown.symm.trans hs)
      exact (oneRecord_iff hafter).mpr (hsaved nodeId addr hdialed)
    · obtain rfl := Option.some.inj (hdown.symm.trans hs)
      exact (reconnectLoop_iff hafter dir).mpr (hsaved nodeId addr hdialed)

end Steps

/-- **When the address of a peer survives restarts.** For every run of starts, connections of either
side, disconnections and shutdowns, with any faults of the store: if every shutdown saves what was
dialed and every start can read the peers, every shutdown leaves one record of each connected peer that
was dialed, and every start dials it once, at the address that was dialed last. And in any state
reached, a shutdown and the start after it do so only then. -/
theorem dialedSurvives_iff (as : List Action) :
    (StepsMeet peerStep KeepsAddresses neverStarted as →
      StepsMeet peerStep DialedSurvives neverStarted as) ∧
    ∀ s, run peerStep neverStarted as = some s → s.running = true →
      ∀ (fault : PublicKey → Fault) (dir : ReadDir),
        (DialedSurvives s (.shutdown fault) ∧ ∀ s', peerStep s (.shutdown fault) = some s' →
          DialedSurvives s' (.start none (fun _ => none) dir)) ↔
        KeepsAddresses s (.shutdown fault) := by
  refine ⟨fun hok => hok.strengthen saved_neverStarted fun _ _ _ hI ha hs => hI.step ha hs, ?_⟩
  intro s hr hrunning fault dir
  obtain ⟨m, hm⟩ := holds_of_run hr
  exact restart_iff hm hrunning dir

/-! ### A peer that connects back -/

def startUp : Action := .start none (fun _ => none) .inOrder

def sampleAddr (port : UInt16) : SocketAddr := .v4 ⟨[1, 2, 3, 4], rfl⟩ port

/-- The node connects to a peer, which disconnects and connects back from a port of its own. -/
def connectedBack : List Action :=
  [startUp, .connectToPeer generatorKey (sampleAddr 9735) true, .disconnect generatorKey,
    .inbound generatorKey (some (sampleAddr 50000))]

def connectOnce : List Action := [startUp, .connectToPeer generatorKey (sampleAddr 9735) true]

def connectThenDown : List Action := connectOnce ++ [.shutdown fun _ => none]

theorem dialedSurvives_iff_at :
    StepsMeet peerStep DialedSurvives neverStarted (connectThenDown ++ [startUp]) ∧
      ∃ s, run peerStep neverStarted connectThenDown = some s ∧
        s.dialed generatorKey = some (sampleAddr 9735) ∧
        OneRecord s.store generatorKey (sampleAddr 9735) ∧
        (reconnectLoop none (fun _ => none) .inOrder s.store).filter
          (fun peer => peer.1 = generatorKey) = [(generatorKey, sampleAddr 9735)] := by
  have hsaves : ∀ u, run peerStep neverStarted connectOnce = some u → SavesDialed u fun _ => none := by
    rintro u ⟨⟩ nodeId addr hdialed
    by_cases hnode : nodeId = generatorKey
    · subst hnode
      cases hdialed
      rfl
    · have hnone : Function.update (fun _ => none) generatorKey (some (sampleAddr 9735)) nodeId =
          (none : Option SocketAddr) := Function.update_of_ne hnode _ _
      cases hnone.symm.trans hdialed
  have hmeets : StepsMeet peerStep DialedSurvives neverStarted (connectThenDown ++ [startUp]) := by
    refine (dialedSurvives_iff _).1 ?_
    exact .cons rfl ⟨rfl, fun _ => rfl⟩ (.cons rfl trivial (.cons rfl (hsaves _ rfl)
      (.cons rfl ⟨rfl, fun _ => rfl⟩ trivial)))
  have hruns : ∃ u s s', run peerStep neverStarted connectOnce = some u ∧
      peerStep u (.shutdown fun _ => none) = some s ∧ peerStep s startUp = some s' ∧
      u.running = true ∧ generatorKey ∈ u.sessions ∧
      u.dialed generatorKey = some (sampleAddr 9735) ∧ s.dialed = u.dialed :=
    ⟨_, _, _, rfl, rfl, rfl, rfl, (AList.mem_insert _).mpr (Or.inl rfl), rfl, rfl⟩
  obtain ⟨u, s, s', hup, hdown, hstart, hrunning, hmem, hdialed, hkept⟩ := hruns
  have hr : run peerStep neverStarted connectThenDown = some s := by
    rw [connectThenDown, run_append, hup]
    simp [run_cons, hdown]
  have hdials := stepsMeet_iff.mp hmeets connectThenDown startUp [] s s' rfl hr hstart generatorKey _
    (hkept ▸ hdialed)
  obtain ⟨hsurvives, -⟩ :=
    ((dialedSurvives_iff connectOnce).2 u hup hrunning _ .inOrder).mpr (hsaves u hup)
  exact ⟨hmeets, s, hr, hkept ▸ hdialed, hsurvives s hdown generatorKey _ hdialed hmem, hdials⟩

/-- **The node shuts down while the peer is connected back**: the record has the port of the peer's
socket instead of the one it listens on. -/
theorem not_dialedSurvives_connectedBack :
    ∃ s, run peerStep neverStarted (connectedBack ++ [.shutdown fun _ => none]) = some s ∧
      s.dialed generatorKey = some (sampleAddr 9735) ∧
      Recorded s.store generatorKey (sampleAddr 50000) ∧
      ¬ StepsMeet peerStep DialedSurvives neverStarted (connectedBack ++ [.shutdown fun _ => none]) := by
  have hruns : ∃ t s, run peerStep neverStarted connectedBack = some t ∧
      peerStep t (.shutdown fun _ => none) = some s ∧
      t.dialed generatorKey = some (sampleAddr 9735) ∧ generatorKey ∈ t.sessions ∧
      s.dialed = t.dialed ∧ Recorded s.store generatorKey (sampleAddr 50000) := by
    refine ⟨_, _, rfl, rfl, rfl, ?_, rfl, AList.lookup_insert _⟩
    exact (AList.mem_insert _).mpr (Or.inl rfl)
  obtain ⟨t, s, hback, hdown, hdialed, hconnected, hkept, hrecorded⟩ := hruns
  have hr : run peerStep neverStarted (connectedBack ++ [.shutdown fun _ => none]) = some s := by
    rw [run_append, hback]
    simp [run_cons, hdown]
  refine ⟨s, hr, hkept ▸ hdialed, hrecorded, fun h => ?_⟩
  have hone := stepsMeet_iff.mp h connectedBack _ [] t s rfl hback hdown s hdown generatorKey _ hdialed
    hconnected
  obtain ⟨m, hm⟩ := holds_of_run hr
  have hports := ((oneRecord_iff hm).mp hone).symm.trans ((recorded_iff hm).mp hrecorded)
  simp [sampleAddr, SocketAddr.toSocketAddress] at hports

end LnNode.Node.PeerRestart
