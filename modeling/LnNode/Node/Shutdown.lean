import LnNode.Node.PeerRestart

/-!
# Whether a shutdown saves the peers

`Node::start` waits for the signal, tells the background processor over a channel to stop, waits until
that has ended, writes the connected peers to the store one after another and disconnects them. The
receivers of the channel belong to the sleeper of the processor, and are dropped when it ends.

* `Orderly.step`: what every step keeps, as long as the processor does not end too early;
* `returned_of_goesOn`: `start` returns after as many steps as there are peers, and one;
* `listed_of_run`: the peers that are written are those connected when `start` lists them;
* `shutsDown_iff`: in which runs every shutdown saves the peers;
* `shutdown_refines`: what is in the store afterwards.
-/

namespace LnNode.Node.Shutdown

open LnNode.Lib.Run LnNode.Storage LnNode.Storage.Peers LnNode.Node.PeerRestart

/-! ### The two tasks -/

/-- The task of the background processor: at work, in its sleeper, told by that to stop, or over. -/
inductive Processor where
  | working
  | sleeping
  | stopping
  | ended (result : Except IoError Unit)

/-- The receivers of the stop channel: the one of the sleeper, and its clone during a sleep. -/
def Processor.receivers : Processor → ℕ
  | .working => 1
  | .sleeping => 2
  | .stopping => 1
  | .ended _ => 0

inductive ProcessorAction where
  | sleeps
  /-- A sleep is over, or cut short by the stop. -/
  | wakes (stop : Bool)
  | ends (result : Except IoError Unit)

def Processor.step (stopped : Bool) : Processor → ProcessorAction → Option Processor
  | .working, .sleeps => some .sleeping
  | .sleeping, .wakes stop => if stop && !stopped then none else some (if stop then .stopping else .working)
  | .working, .ends result => some (.ended result)
  | .stopping, .ends result => some (.ended result)
  | _, _ => none

/-- Connected peers with the remote ends of their sessions. -/
abbrev PeerList := List (Σ _ : PublicKey, Option SocketAddress)

/-- Where `start` is, from its wait for the signal on. -/
inductive Main where
  | awaitsSignal
  | awaitsProcessor
  | saves (peers : PeerList)
  | returned
  | panicked

inductive Call where
  | addPeer (peer : PeerInfo)
  | disconnectAllPeers

structure Tasks where
  signalled : Bool
  /-- The stop was sent. -/
  stopped : Bool
  processor : Processor
  main : Main
  sessions : Sessions
  store : KvStore
  /-- The peers that were connected when `start` listed them. -/
  listed : PeerList
  calls : List Call

/-- The processor has been spawned, and `start` waits. -/
def launched (sessions : Sessions) (store : KvStore) : Tasks where
  signalled := false
  stopped := false
  processor := .working
  main := .awaitsSignal
  sessions := sessions
  store := store
  listed := []
  calls := []

inductive Action where
  | signal
  | processor (act : ProcessorAction)
  | openSession (nodeId : PublicKey) (remote : Option SocketAddr)
  | disconnect (nodeId : PublicKey)
  /-- `start` goes on; the fault is that of its write. -/
  | goesOn (fault : Fault)

/-- The loop over the peers, and what follows it. -/
def saveStep (s : Tasks) (fault : Fault) : PeerList → Tasks
  | [] => { s with
      sessions := ∅
      calls := s.calls ++ [.disconnectAllPeers]
      main := .returned }
  | ⟨_, none⟩ :: peers => { s with main := .saves peers }
  | ⟨nodeId, some address⟩ :: peers => { s with
      store := match addPeer fault s.store { nodeId, address } with
        | .ok store => store
        | .error _ => s.store
      calls := s.calls ++ [.addPeer { nodeId, address }]
      main := .saves peers }

def mainStep (s : Tasks) (fault : Fault) : Option Tasks :=
  match s.main with
  | .awaitsSignal =>
    if s.signalled then
      -- without receivers `send` is an error
      if s.processor.receivers = 0 then some { s with main := .panicked }
      else some { s with stopped := true, main := .awaitsProcessor }
    else none
  | .awaitsProcessor =>
    match s.processor with
    -- its result is ignored
    | .ended _ => some { s with listed := s.sessions.entries, main := .saves s.sessions.entries }
    | _ => none
  | .saves peers => some (saveStep s fault peers)
  | .returned => none
  | .panicked => none

def taskStep (s : Tasks) : Action → Option Tasks
  | .signal => some { s with signalled := true }
  | .processor act =>
    (s.processor.step s.stopped act).map fun processor => { s with processor }
  | .openSession nodeId remote =>
    some { s with sessions := PeerRestart.openSession s.sessions nodeId remote }
  | .disconnect nodeId => some { s with sessions := s.sessions.erase nodeId }
  | .goesOn fault => mainStep s fault

/-! ### What a shutdown is to do -/

def saveCalls (peers : PeerList) : List Call :=
  peers.filterMap fun peer => peer.2.map fun address => .addPeer ⟨peer.1, address⟩

/-- The next step of `start` can be taken and is no panic, or `start` waits for a processor that was told
to stop. -/
def Proceeds (s : Tasks) : Prop :=
  (∀ fault, ∃ s', mainStep s fault = some s' ∧ s'.main ≠ .panicked) ∨
    s.main = .awaitsProcessor ∧ s.stopped = true ∧ s.processor.receivers ≠ 0

/-- Once shutdown is signalled `start` proceeds until it returns, and then it has tried to store every
peer with an address and has disconnected all. -/
structure ShutsDown (s : Tasks) : Prop where
  noPanic : s.main ≠ .panicked
  proceeds : s.signalled = true → s.main = .returned ∨ Proceeds s
  returned : s.main = .returned → s.calls = saveCalls s.listed ++ [.disconnectAllPeers]

/-- There is no signal after the end of the processor, and no end between the signal and the stop. -/
def EndsInTime (s : Tasks) : Action → Prop
  | .signal => s.main = .awaitsSignal → s.processor.receivers ≠ 0
  | .processor (.ends _) => ¬ (s.main = .awaitsSignal ∧ s.signalled = true)
  | _ => True

/-! ### What every step keeps -/

/-- What holds by where `start` is. -/
def Orderly (s : Tasks) : Prop :=
  match s.main with
  | .awaitsSignal => s.calls = [] ∧ (s.signalled = true → s.processor.receivers ≠ 0)
  | .awaitsProcessor => s.calls = [] ∧ s.stopped = true
  | .saves peers => s.calls ++ saveCalls peers = saveCalls s.listed
  | .returned => s.calls = saveCalls s.listed ++ [.disconnectAllPeers]
  | .panicked => False

def Action.isGoesOn : Action → Bool
  | .goesOn _ => true
  | _ => false

/-- What only `start` changes. -/
structure KeepsMain (s s' : Tasks) : Prop where
  main : s'.main = s.main
  stopped : s'.stopped = s.stopped
  store : s'.store = s.store
  listed : s'.listed = s.listed
  calls : s'.calls = s.calls

section Steps

variable {s s' : Tasks} {a : Action} {fault : Fault} {peers : PeerList}

lemma Processor.step_receivers {stopped : Bool} {processor processor' : Processor} {act : ProcessorAction}
    (hs : processor.step stopped act = some processor') :
    processor.receivers ≠ 0 ∧ (processor'.receivers = 0 ↔ ∃ result, act = .ends result) := by
  cases act with
  | sleeps =>
    cases processor <;> cases hs
    exact ⟨by decide, by simp [Processor.receivers]⟩
  | wakes stop =>
    cases processor with
    | sleeping =>
      rw [Processor.step] at hs
      split_ifs at hs <;> cases hs <;> exact ⟨by decide, by simp [Processor.receivers]⟩
    | _ => cases hs
  | ends result =>
    cases processor <;> cases hs <;> exact ⟨by decide, by simp [Processor.receivers]⟩

lemma taskStep_other (ha : a.isGoesOn = false) (hs : taskStep s a = some s') : KeepsMain s s' := by
  cases a with
  | goesOn fault => cases ha
  | processor act =>
    obtain ⟨processor, -, rfl⟩ := Option.map_eq_some_iff.mp hs
    exact ⟨rfl, rfl, rfl, rfl, rfl⟩
  | _ =>
    cases hs
    exact ⟨rfl, rfl, rfl, rfl, rfl⟩

/-- **Every step** is one of `start`, or of a task that leaves alone what only `start` changes. -/
lemma taskStep_cases (hs : taskStep s a = some s') :
    (∃ fault, a = .goesOn fault ∧ mainStep s fault = some s') ∨ a.isGoesOn = false ∧ KeepsMain s s' := by
  cases ha : a.isGoesOn with
  | false => exact Or.inr ⟨rfl, taskStep_other ha hs⟩
  | true =>
    cases a with
    | goesOn fault => exact Or.inl ⟨fault, rfl, hs⟩
    | _ => cases ha

lemma orderly_launched (sessions : Sessions) (store : KvStore) : Orderly (launched sessions store) :=
  ⟨rfl, fun h => by cases h⟩

lemma receivers_of_other (ha : a.isGoesOn = false) (hok : EndsInTime s a) (hs : taskStep s a = some s')
    (hmain : s.main = .awaitsSignal) (h : s.signalled = true → s.processor.receivers ≠ 0) :
    s'.signalled = true → s'.processor.receivers ≠ 0 := by
  cases a with
  | goesOn fault => cases ha
  | signal =>
    cases hs
    exact fun _ => hok hmain
  | processor act =>
    obtain ⟨processor, hprocessor, rfl⟩ := Option.map_eq_some_iff.mp hs
    intro hsignalled hover
    obtain ⟨result, rfl⟩ := (Processor.step_receivers hprocessor).2.mp hover
    exact hok ⟨hmain, hsignalled⟩
  | _ =>
    cases hs
    exact h

lemma Orderly.other (h : Orderly s) (hok : EndsInTime s a) (ha : a.isGoesOn = false)
    (hkeeps : KeepsMain s s') (hs : taskStep s a = some s') : Orderly s' := by
  unfold Orderly at h ⊢
  rw [hkeeps.main, hkeeps.calls, hkeeps.listed, hkeeps.stopped]
  cases hmain : s.main with
  | awaitsSignal =>
    simp only [hmain] at h ⊢
    exact ⟨h.1, receivers_of_other ha hok hs hmain h.2⟩
  | panicked => simp only [hmain] at h
  | _ =>
    simp only [hmain] at h ⊢
    exact h

lemma saveCalls_cons (nodeId : PublicKey) (remote : Option SocketAddress) (peers : PeerList) :
    saveCalls (⟨nodeId, remote⟩ :: peers) =
      (remote.map fun address => Call.addPeer ⟨nodeId, address⟩).toList ++ saveCalls peers := by
  cases remote <;> rfl

lemma Orderly.mainStep (h : Orderly s) (hs : mainStep s fault = some s') : Orderly s' := by
  cases hmain : s.main with
  | awaitsSignal =>
    simp only [Orderly, hmain] at h
    simp only [Shutdown.mainStep, hmain] at hs
    split_ifs at hs with hsignalled hover
    · exact absurd hover (h.2 hsignalled)
    · cases hs
      exact ⟨h.1, rfl⟩
  | awaitsProcessor =>
    simp only [Orderly, hmain] at h
    cases hprocessor : s.processor <;> simp only [Shutdown.mainStep, hmain, hprocessor] at hs <;> cases hs
    show s.calls ++ saveCalls s.sessions.entries = saveCalls s.sessions.entries
    rw [h.1, List.nil_append]
  | saves peers =>
    simp only [Orderly, hmain] at h
    simp only [Shutdown.mainStep, hmain] at hs
    obtain rfl := Option.some.inj hs
    rcases peers with _ | ⟨⟨nodeId, _ | address⟩, peers⟩
    · show s.calls ++ [.disconnectAllPeers] = saveCalls s.listed ++ [.disconnectAllPeers]
      rw [← h]
      simp [saveCalls]
    · exact h
    · show s.calls ++ [.addPeer ⟨nodeId, address⟩] ++ saveCalls peers = saveCalls s.listed
      rw [← h, saveCalls_cons, List.append_assoc]
      rfl
  | returned =>
    simp only [Shutdown.mainStep, hmain] at hs
    cases hs
  | panicked =>
    simp only [Shutdown.mainStep, hmain] at hs
    cases hs

theorem Orderly.step (h : Orderly s) (hok : EndsInTime s a) (hs : taskStep s a = some s') : Orderly s' := by
  rcases taskStep_cases hs with ⟨fault, rfl, hmain⟩ | ⟨hother, hkeeps⟩
  · exact h.mainStep hmain
  · exact h.other hok hother hkeeps hs

lemma Processor.receivers_eq_zero {processor : Processor} :
    processor.receivers = 0 ↔ ∃ result, processor = .ended result := by
  cases processor <;> simp [Processor.receivers]

/-- `start` never waits for what does not come. -/
lemma Orderly.proceeds (h : Orderly s) (hsignalled : s.signalled = true) (hreturned : s.main ≠ .returned) :
    Proceeds s := by
  cases hmain : s.main with
  | awaitsSignal =>
    simp only [Orderly, hmain] at h
    refine Or.inl fun fault => ⟨{ s with stopped := true, main := .awaitsProcessor }, ?_, by simp⟩
    simp only [Shutdown.mainStep, hmain, if_pos hsignalled, if_neg (h.2 hsignalled)]
  | awaitsProcessor =>
    simp only [Orderly, hmain] at h
    by_cases hover : s.processor.receivers = 0
    · obtain ⟨result, hended⟩ := Processor.receivers_eq_zero.mp hover
      refine Or.inl fun fault =>
        ⟨{ s with listed := s.sessions.entries, main := .saves s.sessions.entries }, ?_, by simp⟩
      simp only [Shutdown.mainStep, hmain, hended]
    · exact Or.inr ⟨hmain, h.2, hover⟩
  | saves peers =>
    refine Or.inl fun fault => ⟨saveStep s fault peers, by simp only [Shutdown.mainStep, hmain], ?_⟩
    rcases peers with _ | ⟨⟨nodeId, _ | address⟩, peers⟩ <;> simp [saveStep]
  | returned => exact absurd hmain hreturned
  | panicked => simp only [Orderly, hmain] at h

lemma Orderly.shutsDown (h : Orderly s) : ShutsDown s where
  noPanic hmain := by simp only [Orderly, hmain] at h
  proceeds hsignalled := or_iff_not_imp_left.mpr (h.proceeds hsignalled)
  returned hmain := by simpa only [Orderly, hmain] using h

/-- A signal without receivers leaves `start` nothing but a panic. -/
lemma not_shutsDown_of_over (hsignalled : s.signalled = true) (hmain : s.main = .awaitsSignal)
    (hover : s.processor.receivers = 0) : ¬ ShutsDown s := by
  intro h
  rcases h.proceeds hsignalled with hreturned | hgoes | ⟨hwaits, -⟩
  · cases hmain.symm.trans hreturned
  · obtain ⟨s', hs, hpanic⟩ := hgoes none
    simp only [mainStep, hmain, if_pos hsignalled, if_pos hover] at hs
    cases hs
    exact hpanic rfl
  · cases hmain.symm.trans hwaits

lemma endsInTime_of_shutsDown (hs : taskStep s a = some s') (h : ShutsDown s') : EndsInTime s a := by
  cases a with
  | signal =>
    cases hs
    exact fun hmain hover => absurd h (not_shutsDown_of_over rfl hmain hover)
  | processor act =>
    cases act with
    | ends result =>
      obtain ⟨processor, hprocessor, rfl⟩ := Option.map_eq_some_iff.mp hs
      rintro ⟨hmain, hsignalled⟩
      have hover := (Processor.step_receivers hprocessor).2.mpr ⟨result, rfl⟩
      exact absurd h (not_shutsDown_of_over hsignalled hmain hover)
    | _ => trivial
  | _ => trivial

end Steps

/-! ### The end of `start` -/

section Runs

variable {s t : Tasks} {as : List Action} {peers : PeerList}

lemma returned_stays (hmain : s.main = .returned) (hr : run taskStep s as = some t) :
    t.main = .returned ∧ t.store = s.store := by
  refine run_keeps (I := fun s' => s'.main = .returned ∧ s'.store = s.store) ⟨hmain, rfl⟩ ?_ hr
  rintro s' a s'' ⟨hreturned, hstore⟩ hs
  rcases taskStep_cases hs with ⟨fault, -, hstep⟩ | ⟨-, hkeeps⟩
  · simp [mainStep, hreturned] at hstep
  · exact ⟨hkeeps.main.trans hreturned, hkeeps.store.trans hstore⟩

/-- **`start` returns** once it has taken a step for every peer, and one more, whatever the other tasks do
in between and whatever becomes of its writes. -/
theorem returned_of_goesOn (hmain : s.main = .saves peers) (hr : run taskStep s as = some t)
    (hsteps : peers.length < as.countP Action.isGoesOn) : t.main = .returned := by
  induction as generalizing s peers with
  | nil => simp at hsteps
  | cons a as ih =>
    rw [run_cons] at hr
    obtain ⟨s', hs, hr⟩ := Option.bind_eq_some_iff.mp hr
    rcases taskStep_cases hs with ⟨fault, rfl, hstep⟩ | ⟨hother, hkeeps⟩
    · rw [List.countP_cons_of_pos rfl] at hsteps
      simp only [mainStep, hmain] at hstep
      obtain rfl := Option.some.inj hstep
      rcases peers with _ | ⟨⟨nodeId, remote⟩, peers⟩
      · exact (returned_stays rfl hr).1
      · have hnext : (saveStep s fault (⟨nodeId, remote⟩ :: peers)).main = .saves peers := by
          cases remote <;> rfl
        exact ih hnext hr (Nat.lt_of_succ_lt_succ hsteps)
    · rw [List.countP_cons_of_neg (by simp [hother])] at hsteps
      exact ih (hkeeps.main.trans hmain) hr hsteps

def HasListed (s : Tasks) : Prop := (∃ peers, s.main = .saves peers) ∨ s.main = .returned

/-- Only the step that lists the peers changes the list, to the sessions of that moment. -/
lemma listed_step {a : Action} {s' : Tasks} (hs : taskStep s a = some s') (hlisted : HasListed s') :
    (HasListed s ∧ s'.listed = s.listed) ∨
      ∃ fault, a = .goesOn fault ∧ s.main = .awaitsProcessor ∧ s'.listed = s.sessions.entries := by
  rcases taskStep_cases hs with ⟨fault, rfl, hstep⟩ | ⟨-, hkeeps⟩
  · cases hmain : s.main with
    | awaitsSignal =>
      simp only [mainStep, hmain] at hstep
      split_ifs at hstep <;> cases hstep <;> simp [HasListed] at hlisted
    | awaitsProcessor =>
      simp only [mainStep, hmain] at hstep
      split at hstep <;> cases hstep
      exact Or.inr ⟨fault, rfl, rfl, rfl⟩
    | saves peers =>
      simp only [mainStep, hmain] at hstep
      cases hstep
      refine Or.inl ⟨Or.inl ⟨peers, hmain⟩, ?_⟩
      rcases peers with _ | ⟨⟨nodeId, _ | address⟩, peers⟩ <;> rfl
    | returned | panicked => simp [mainStep, hmain] at hstep
  · refine Or.inl ⟨?_, hkeeps.listed⟩
    rwa [HasListed, hkeeps.main] at hlisted

/-- **The peers that are written** are those that were connected when `start` listed them. -/
theorem listed_of_run {sessions : Sessions} {store : KvStore}
    (hr : run taskStep (launched sessions store) as = some t) (hlisted : HasListed t) :
    ∃ pre fault post u, as = pre ++ .goesOn fault :: post ∧
      run taskStep (launched sessions store) pre = some u ∧ u.main = .awaitsProcessor ∧
      t.listed = u.sessions.entries := by
  induction as using List.reverseRecOn generalizing t with
  | nil =>
    cases hr
    simp [HasListed, launched] at hlisted
  | append_singleton as a ih =>
    rw [run_append, Option.bind_eq_some_iff] at hr
    obtain ⟨s, hs, hlast⟩ := hr
    rw [run_cons, Option.bind_eq_some_iff] at hlast
    obtain ⟨s', hstep, hend⟩ := hlast
    obtain rfl : s' = t := Option.some.inj hend
    rcases listed_step hstep hlisted with ⟨hbefore, hsame⟩ | ⟨fault, rfl, hmain, hentries⟩
    · obtain ⟨pre, fault, post, u, rfl, hpre, hmain, hentries⟩ := ih hs hbefore
      exact ⟨pre, fault, post ++ [a], u, by simp, hpre, hmain, hsame.trans hentries⟩
    · exact ⟨as, fault, [], s, rfl, hs, hmain, hentries⟩

/-- The writes of `start` have the faults of their peers. -/
def WritesWith (fault : PublicKey → Fault) (s : Tasks) (a : Action) : Prop :=
  ∀ f nodeId remote peers, a = .goesOn f → s.main = .saves (⟨nodeId, remote⟩ :: peers) → f = fault nodeId

theorem store_of_saves {fault : PublicKey → Fault} (hmain : s.main = .saves peers)
    (hwrites : StepsMeet taskStep (WritesWith fault) s as) (hr : run taskStep s as = some t)
    (hreturned : t.main = .returned) : t.store = savePeers fault s.store peers := by
  induction as generalizing s peers with
  | nil =>
    obtain rfl := Option.some.inj hr
    cases hmain.symm.trans hreturned
  | cons a as ih =>
    rw [run_cons] at hr
    obtain ⟨s', hs, hr⟩ := Option.bind_eq_some_iff.mp hr
    obtain ⟨hwrite, hrest⟩ := hwrites s' hs
    rcases taskStep_cases hs with ⟨f, rfl, hstep⟩ | ⟨-, hkeeps⟩
    · simp only [mainStep, hmain] at hstep
      obtain rfl := Option.some.inj hstep
      rcases peers with _ | ⟨⟨nodeId, _ | address⟩, peers⟩
      · exact (returned_stays rfl hr).2
      · rw [ih rfl hrest hr, savePeers, saveStep]
      · obtain rfl := hwrite f nodeId _ peers rfl hmain
        rw [ih rfl hrest hr, savePeers, saveStep]
        cases addPeer (fault nodeId) s.store { nodeId, address } <;> rfl
    · rw [← hkeeps.store]
      exact ih (hkeeps.main.trans hmain) hrest hr

/-- **The shutdown of a node that is up**, in one step there, is what `start` does from the end of the
processor on: the peers that are connected then are written. -/
theorem shutdown_refines {fault : PublicKey → Fault} {f : Fault} {result : Except IoError Unit}
    {up down : PeerNode} (hsessions : up.sessions = s.sessions) (hstore : up.store = s.store)
    (hmain : s.main = .awaitsProcessor) (hended : s.processor = .ended result)
    (hwrites : StepsMeet taskStep (WritesWith fault) s (.goesOn f :: as))
    (hr : run taskStep s (.goesOn f :: as) = some t) (hreturned : t.main = .returned)
    (hdown : peerStep up (.shutdown fault) = some down) : t.store = down.store := by
  rw [run_cons] at hr
  obtain ⟨s', hs, hr⟩ := Option.bind_eq_some_iff.mp hr
  obtain ⟨-, hrest⟩ := hwrites s' hs
  simp only [taskStep, mainStep, hmain, hended] at hs
  obtain rfl := Option.some.inj hs
  rw [peerStep] at hdown
  split_ifs at hdown
  obtain rfl := Option.some.inj hdown
  rw [store_of_saves rfl hrest hr hreturned, hsessions, hstore]

end Runs

/-- **When a shutdown saves the peers.** For every order of the signal and the end of the processor, with
any result, every way the other tasks go on, all sessions and all faults of the writes: once shutdown is
signalled, `start` proceeds to its return without a panic, after which it has tried to store every peer
with an address and has disconnected all, exactly if there is no signal after the end of the processor and
no end between the signal and the stop. And its loop over the peers ends. -/
theorem shutsDown_iff (sessions : Sessions) (store : KvStore) (as : List Action) :
    (Always taskStep ShutsDown (launched sessions store) as ↔
      StepsMeet taskStep EndsInTime (launched sessions store) as) ∧
    ∀ s t peers bs, run taskStep (launched sessions store) as = some s → s.main = .saves peers →
      run taskStep s bs = some t → peers.length < bs.countP Action.isGoesOn → t.main = .returned := by
  refine ⟨?_, fun s t peers bs _ hmain hr hsteps => returned_of_goesOn hmain hr hsteps⟩
  exact always_iff_stepsMeet (orderly_launched sessions store) (fun _ h => h.shutsDown)
    (fun _ _ _ h hok hs => h.step hok hs) fun _ _ _ _ hs h => endsInTime_of_shutsDown hs h

/-! ### A processor that ends early -/

def onePeer : Sessions := PeerRestart.openSession ∅ generatorKey (some (sampleAddr 9735))

/-- The processor is told to stop in its sleep, and the one peer is written. -/
def usualOrder : List Action :=
  [.processor .sleeps, .signal, .goesOn none, .processor (.wakes true), .processor (.ends (.ok ())),
    .goesOn none, .goesOn none, .goesOn none]

theorem shutsDown_iff_at :
    Always taskStep ShutsDown (launched onePeer ∅) usualOrder ∧
      ∃ s, run taskStep (launched onePeer ∅) usualOrder = some s ∧ s.main = .returned ∧
        s.store = savePeers (fun _ => none) ∅ onePeer.entries := by
  refine ⟨(shutsDown_iff onePeer ∅ usualOrder).1.mpr ?_, _, rfl, rfl, rfl⟩
  refine .cons rfl trivial (.cons rfl (fun _ => by decide) (.cons rfl trivial (.cons rfl trivial
    (.cons rfl ?_ (.cons rfl trivial (.cons rfl trivial (.cons rfl trivial trivial)))))))
  rintro ⟨hmain, -⟩
  cases hmain

def processorEnded : Tasks where
  signalled := true
  stopped := true
  processor := .ended (.ok ())
  main := .awaitsProcessor
  sessions := onePeer
  store := ∅
  listed := []
  calls := []

def upNode : PeerNode := { neverStarted with running := true, sessions := onePeer }

theorem shutdown_refines_usual :
    run taskStep (launched onePeer ∅) (usualOrder.take 5) = some processorEnded ∧
      ∃ t down, run taskStep processorEnded (usualOrder.drop 5) = some t ∧
        peerStep upNode (.shutdown fun _ => none) = some down ∧ t.store = down.store := by
  refine ⟨rfl, _, _, rfl, rfl, ?_⟩
  have hwrites : StepsMeet taskStep (WritesWith fun _ => none) processorEnded (usualOrder.drop 5) :=
    .cons rfl (by rintro f nodeId remote peers ⟨⟩ -; rfl) (.cons rfl
      (by rintro f nodeId remote peers ⟨⟩ -; rfl) (.cons rfl
        (by rintro f nodeId remote peers ⟨⟩ -; rfl) trivial))
  have hsessions : upNode.sessions = processorEnded.sessions := rfl
  exact shutdown_refines hsessions rfl rfl rfl hwrites rfl rfl rfl

/-- **The processor ends with an error, and then shutdown is signalled**: `start` panics, and the peer
that is connected is neither written nor disconnected. -/
theorem not_shutsDown_early :
    let early : List Action := [.processor (.ends (.error (.other "persist"))), .signal, .goesOn none]
    (∃ s, run taskStep (launched onePeer ∅) early = some s ∧ s.main = .panicked ∧ s.calls = [] ∧
      s.sessions = onePeer ∧ s.store = ∅) ∧
    ¬ Always taskStep ShutsDown (launched onePeer ∅) early := by
  intro early
  refine ⟨⟨_, rfl, rfl, rfl, rfl, rfl⟩, fun halways => ?_⟩
  exact (halways.last rfl).noPanic rfl

end LnNode.Node.Shutdown
