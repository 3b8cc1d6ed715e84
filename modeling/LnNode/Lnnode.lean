import LnNode.Lib.LockFile

/-!
# The processes of `lnnode`

`main` builds a node, binds the socket of the server, runs the two, waits for ctrl-c, for the end of the
node, and removes the socket file. A file that is there makes the bind of another process fail, and only
the last line of `main` removes it. Nothing waits for the task of the server, whose end is left out.

* `alwaysSingle`: one process at most has the socket, however many are launched side by side;
* `alwaysFree_iff`: a process can bind while no other has the socket, exactly as long as each that had it
  has come to its last line;
* `stuckAfterPanic`: a node that panics, at any time, keeps every later process from starting.
-/

namespace LnNode.Lnnode

open LnNode.Lib.Run LnNode.Lib.LockFile

/-! ### One process -/

/-- The task that runs `Node::start`, and unwraps what it returns. -/
inductive NodeTask where
  | running
  | returned
  | panicked
  deriving DecidableEq, Repr

/-- How the process ends: `main` returns, with an error or without, or panics, or it is killed. -/
inductive Exit where
  | ok
  | error
  | panicked
  | killed
  deriving DecidableEq, Repr

/-- Where `main` is: before its socket is bound, at the wait for ctrl-c, at that for the node (which was
told to shut down or not), at the removal of the socket file, or at its end. -/
inductive Phase where
  | starts
  | waits (node : NodeTask)
  | awaitsNode (signalled : Bool) (node : NodeTask)
  | removesSocket
  | ended (exit : Exit)
  deriving DecidableEq, Repr

inductive Event where
  /-- The config cannot be read, or the node cannot be built. -/
  | fails
  /-- `UnixSocketServer::new`, with another error than that the file exists or without. -/
  | binds (ok : Bool)
  /-- The signal, or an error of the wait for it. -/
  | ctrlC (received : Bool)
  /-- `start` returns an error or panics. -/
  | nodePanics
  /-- `start` returns, after the shutdown that it waits for. -/
  | nodeReturns
  /-- `node_handle.await?`. -/
  | joins
  | removes (ok : Bool)
  | killed
  deriving DecidableEq, Repr

/-- A step of a process, by whether the socket file is there. -/
def phaseStep (file : Bool) : Phase → Event → Option (Phase × Bool)
  | .starts, .fails => some (.ended .error, file)
  | .starts, .binds ok =>
    if ok && !file then some (.waits .running, true) else some (.ended .panicked, file)
  | .waits node, .ctrlC received => some (.awaitsNode received node, file)
  | .waits .running, .nodePanics => some (.waits .panicked, file)
  | .awaitsNode signalled .running, .nodePanics => some (.awaitsNode signalled .panicked, file)
  | .awaitsNode true .running, .nodeReturns => some (.awaitsNode true .returned, file)
  | .awaitsNode _ .returned, .joins => some (.removesSocket, file)
  -- the error of the join leaves `main` before the socket file is removed
  | .awaitsNode _ .panicked, .joins => some (.ended .error, file)
  | .removesSocket, .removes ok =>
    if ok && file then some (.ended .ok, false) else some (.ended .panicked, file)
  | .ended _, _ => none
  | _, .killed => some (.ended .killed, file)
  | _, _ => none

def Phase.holdsSocket : Phase → Bool
  | .starts | .ended _ => false
  | .waits _ | .awaitsNode _ _ | .removesSocket => true

theorem phaseStep_change {file file' : Bool} {p p' : Phase} {e : Event}
    (hs : phaseStep file p e = some (p', file')) (hfile : p.holdsSocket = true → file = true) :
    Change p.holdsSocket p'.holdsSocket file file' := by
  cases p with
  | starts =>
    cases e with
    | fails =>
      cases hs
      exact .none rfl rfl rfl
    | binds ok =>
      rw [phaseStep] at hs
      split_ifs at hs with hbind
      · cases hs
        rw [Bool.and_eq_true, Bool.not_eq_true'] at hbind
        exact .takes rfl rfl hbind.2 rfl
      · cases hs
        exact .none rfl rfl rfl
    | killed =>
      cases hs
      exact .none rfl rfl rfl
    | _ => cases hs
  | waits node =>
    cases e with
    | ctrlC received =>
      cases node <;> cases hs <;> exact .keeps rfl rfl rfl
    | nodePanics =>
      cases node with
      | running =>
        cases hs
        exact .keeps rfl rfl rfl
      | _ => cases hs
    | killed =>
      cases node <;> cases hs <;> exact .leaves rfl rfl rfl
    | _ => cases node <;> cases hs
  | awaitsNode signalled node =>
    cases e with
    | nodePanics =>
      cases signalled <;> cases node <;> cases hs <;> exact .keeps rfl rfl rfl
    | nodeReturns =>
      cases signalled <;> cases node <;> cases hs <;> exact .keeps rfl rfl rfl
    | joins =>
      cases signalled <;> cases node <;> cases hs <;>
        first | exact .keeps rfl rfl rfl | exact .leaves rfl rfl rfl
    | killed =>
      cases signalled <;> cases node <;> cases hs <;> exact .leaves rfl rfl rfl
    | _ => cases signalled <;> cases node <;> cases hs
  | removesSocket =>
    cases e with
    | removes ok =>
      rw [phaseStep] at hs
      split_ifs at hs with hremove
      · cases hs
        exact .releases rfl rfl rfl
      · cases hs
        exact .leaves rfl rfl rfl
    | killed =>
      cases hs
      exact .leaves rfl rfl rfl
    | _ => cases hs
  | ended exit => cases hs

def lnnode : Program Phase Event where
  launched := .starts
  step := phaseStep
  holds := Phase.holdsSocket
  holds_launched := rfl
  change _ _ _ _ _ := phaseStep_change

/-! ### All processes -/

abbrev Processes := System Phase

abbrev processesStep : Processes → Action Event → Option Processes := systemStep lnnode

/-- A process that has the socket is not killed, its node has not panicked when it is joined, and the
file can be removed. -/
def EndsOrderly (s : Processes) : Action Event → Prop
  | .process i .killed => ¬ Holds lnnode s i
  | .process i .joins => ∀ signalled, s.processes[i]? ≠ some (.awaitsNode signalled .panicked)
  | .process i (.removes ok) => s.processes[i]? = some .removesSocket → ok = true
  | _ => True

section Steps

variable {s s' : Processes} {a : Action Event} {i : ℕ}

lemma removes_iff (h : Single lnnode s) (hs : processesStep s a = some s') :
    Removes lnnode s a ↔ EndsOrderly s a := by
  cases a with
  | launch => rfl
  | process i e =>
    obtain ⟨p, p', file', hp, hstep, rfl⟩ := process_cases hs
    have hremoves : Removes lnnode s (.process i e) ↔
        (p.holdsSocket = true → p'.holdsSocket = false → file' = false) := by
      constructor
      · intro hok hb ha
        exact hok p p' file' hp hstep hb ha
      · intro hok q q' file'' hq hstep' hb ha
        rw [hp] at hq
        cases hq
        rw [hstep] at hstep'
        cases hstep'
        exact hok hb ha
    have hfile : p.holdsSocket = true → s.file = true := fun hb => h.file i ⟨p, hp, hb⟩
    have hholds : Holds lnnode s i ↔ p.holdsSocket = true := by
      constructor
      · rintro ⟨q, hq, hb⟩
        rw [hp] at hq
        cases hq
        exact hb
      · exact fun hb => ⟨p, hp, hb⟩
    rw [hremoves]
    have hstep' : phaseStep s.file p e = some (p', file') := hstep
    cases e with
    | killed =>
      rw [EndsOrderly, hholds]
      cases p with
      | ended exit => cases hstep'
      | starts => simp [Phase.holdsSocket]
      | waits node =>
        cases node <;> cases hstep' <;> simp [Phase.holdsSocket, hfile rfl]
      | awaitsNode signalled node =>
        cases signalled <;> cases node <;> cases hstep' <;> simp [Phase.holdsSocket, hfile rfl]
      | removesSocket =>
        cases hstep'
        simp [Phase.holdsSocket, hfile rfl]
    | joins =>
      rw [EndsOrderly, hp]
      cases p with
      | awaitsNode signalled node =>
        cases signalled <;> cases node <;> cases hstep' <;> simp [Phase.holdsSocket, hfile rfl]
      | waits node => cases node <;> cases hstep'
      | _ => cases hstep'
    | removes ok =>
      rw [EndsOrderly, hp]
      cases p with
      | removesSocket =>
        rw [phaseStep, hfile rfl, Bool.and_true] at hstep'
        cases ok <;> cases hstep' <;> simp [Phase.holdsSocket]
      | waits node => cases node <;> cases hstep'
      | awaitsNode signalled node => cases signalled <;> cases node <;> cases hstep'
      | _ => cases hstep'
    | _ =>
      refine iff_of_true (fun hb ha => ?_) trivial
      cases p with
      | waits node => cases node <;> cases hstep' <;> cases ha
      | awaitsNode signalled node => cases signalled <;> cases node <;> cases hstep' <;> cases ha
      | starts => cases hb
      | removesSocket => cases hstep'
      | ended exit => cases hb

end Steps

/-- **At most one process has the socket**, for all launches and all steps of all processes in any order,
and while one has it, the file is there that makes the bind of another fail. -/
theorem alwaysSingle (as : List (Action Event)) :
    Always processesStep (Single lnnode) noProcess as := always_single lnnode as

/-- **When a process can bind.** The socket is free whenever no process has it, exactly if no process that
has it is killed, is joined with a node that has panicked, or fails to remove the file; and once it is not
free, no process ever gets it. -/
theorem alwaysFree_iff (as : List (Action Event)) :
    (Always processesStep (Free lnnode) noProcess as ↔
      StepsMeet processesStep EndsOrderly noProcess as) ∧
    Stable processesStep (Stuck lnnode) noProcess as := by
  refine ⟨?_, stable_stuck lnnode noProcess as⟩
  rw [always_free_iff]
  have hsingle : StepsMeet processesStep (fun _ _ => True) noProcess as :=
    stepsMeet_iff.mpr fun _ _ _ _ _ _ _ _ => trivial
  have hsame : StepsMeet processesStep (fun s a => Removes lnnode s a ↔ EndsOrderly s a) noProcess as :=
    hsingle.strengthen (single_noProcess lnnode) fun s a s' h _ hs => ⟨h.step hs, removes_iff h hs⟩
  constructor
  · intro h
    exact (h.and hsame).imp fun s a hok => hok.2.mp hok.1
  · intro h
    exact (h.and hsame).imp fun s a hok => hok.2.mpr hok.1

/-! ### A node that panics -/

def NodePanicked (s : Processes) (i : ℕ) : Prop :=
  s.processes[i]? = some (.waits .panicked) ∨
    ∃ signalled, s.processes[i]? = some (.awaitsNode signalled .panicked)

/-- It has panicked, or its process has ended and left the file. -/
def Doomed (i : ℕ) (s : Processes) : Prop := Single lnnode s ∧ (NodePanicked s i ∨ Stuck lnnode s)

section Panic

variable {s s' : Processes} {a : Action Event} {i : ℕ}

lemma NodePanicked.holds (h : NodePanicked s i) : Holds lnnode s i := by
  rcases h with h | ⟨signalled, h⟩
  · exact ⟨_, h, rfl⟩
  · exact ⟨_, h, rfl⟩

/-- A step of the process itself: its node has still panicked, or it ends. -/
lemma NodePanicked.process {e : Event} {p' : Phase} {file' : Bool} {p : Phase}
    (h : NodePanicked s i) (hp : s.processes[i]? = some p)
    (hs : phaseStep s.file p e = some (p', file')) :
    file' = s.file ∧ (p' = .waits .panicked ∨ (∃ signalled, p' = .awaitsNode signalled .panicked) ∨
      p'.holdsSocket = false) := by
  rcases h with h | ⟨signalled, h⟩
  · rw [hp] at h
    cases h
    cases e <;> cases hs <;> simp [Phase.holdsSocket]
  · rw [hp] at h
    cases h
    cases signalled <;> cases e <;> cases hs <;> simp [Phase.holdsSocket]

lemma Doomed.step (h : Doomed i s) (hs : processesStep s a = some s') : Doomed i s' := by
  obtain ⟨hsingle, hpanicked | hstuck⟩ := h
  swap
  · exact ⟨hsingle.step hs, Or.inr (hstuck.step hs)⟩
  refine ⟨hsingle.step hs, ?_⟩
  cases a with
  | launch =>
    obtain rfl := Option.some.inj hs
    have hkeeps : ∀ p, s.processes[i]? = some p →
        (s.processes ++ [lnnode.launched])[i]? = some p := fun p hp => by
      rw [List.getElem?_append_left (List.getElem?_eq_some_iff.mp hp).1, hp]
    rcases hpanicked with hp | ⟨signalled, hp⟩
    · exact Or.inl (Or.inl (hkeeps _ hp))
    · exact Or.inl (Or.inr ⟨signalled, hkeeps _ hp⟩)
  | process j e =>
    obtain ⟨p, p', file', hp, hstep, rfl⟩ := process_cases hs
    by_cases hj : j = i
    · subst hj
      have hlt := (List.getElem?_eq_some_iff.mp hp).1
      obtain ⟨rfl, hp' | ⟨signalled, hp'⟩ | hp'⟩ := hpanicked.process hp hstep
      · left; left
        rw [List.getElem?_set_self hlt, hp']
      · left; right
        exact ⟨signalled, by rw [List.getElem?_set_self hlt, hp']⟩
      · right
        refine ⟨fun k hk => ?_, hsingle.file j hpanicked.holds⟩
        rw [holds_set hp] at hk
        split_ifs at hk with hne
        · exact absurd (hp'.symm.trans hk) (by simp)
        · exact hne (hsingle.unique k j hk hpanicked.holds)
    · left
      have hkeeps : ∀ q, s.processes[i]? = some q → (s.processes.set j p')[i]? = some q := fun q hq => by
        rw [List.getElem?_set_ne hj, hq]
      rcases hpanicked with hq | ⟨signalled, hq⟩
      · exact Or.inl (hkeeps _ hq)
      · exact Or.inr ⟨signalled, hkeeps _ hq⟩

end Panic

/-- **After the panic of a node** its process goes on until ctrl-c, and once it has ended, however it
ends, no process can bind the socket any more. -/
theorem stuckAfterPanic {as bs : List (Action Event)} {s : Processes} {i : ℕ}
    (hr : run processesStep noProcess as = some s) (hpanicked : NodePanicked s i) :
    Always processesStep (fun s => NodePanicked s i ∨ Stuck lnnode s) s bs := by
  have hsingle : Single lnnode s := run_keeps (single_noProcess lnnode) (fun _ _ _ h hs => h.step hs) hr
  exact (always_of_keeps (I := Doomed i) ⟨hsingle, Or.inl hpanicked⟩ fun _ _ _ h hs => h.step hs).imp
    fun _ h => h.2

def panicsEarly : List (Action Event) :=
  [.launch, .process 0 (.binds true), .process 0 .nodePanics]

theorem stuckAfterPanic_at : Always processesStep (fun s => NodePanicked s 0 ∨ Stuck lnnode s)
    { file := true, processes := [.waits .panicked] }
    [.process 0 (.ctrlC true), .process 0 .joins, .launch, .process 1 (.binds true)] := by
  have hr : run processesStep noProcess panicsEarly =
      some { file := true, processes := [.waits .panicked] } := rfl
  exact stuckAfterPanic hr (Or.inl rfl)

end LnNode.Lnnode
