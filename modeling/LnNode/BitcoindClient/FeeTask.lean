import LnNode.BitcoindClient.FeeEstimates
import LnNode.Lib.Simulation

/-!
# The task that updates the fee estimates

`update_fee_estimates` runs one round at once, and then a `select!` over a sleep of five minutes and the
shutdown signal decides between a further round and the end of the task. A round is not interrupted: the
signal may come at any moment, and is looked at only between two rounds.

* `simulates`: the task does to the cache what the turns of its loop do;
* `follows_rounds`: these turns are whole rounds, and a part of one;
* `ends_after_cancel`: after the signal the task takes at most nine more steps, and is never stuck.
-/

namespace LnNode.BitcoindClient.FeeTask

open LnNode.Lib.Run LnNode.Lib.Refresh LnNode.Lib.Simulation LnNode.BitcoindClient.FeeEstimates

/-! ### The task -/

/-- In a round, with the targets that are still to be asked for, in the `select!`, or over. -/
inductive Phase where
  | updating (rest : List ConfirmationTarget)
  | selecting (elapsed : Bool)
  | ended
  deriving DecidableEq

structure Task where
  cache : FeeCache
  cancelled : Bool
  phase : Phase

inductive Action where
  | fetched (answer : SmartFee)
  | sleepElapses
  | cancel
  /-- The `select!` is polled, and looks at one of its two branches first. -/
  | polls (sleepFirst : Bool)

/-- The signal may have come before the task is spawned. -/
def spawned (cancelled : Bool) : Task where
  cache := .new
  cancelled := cancelled
  phase := .updating confTargets

/-- What follows a turn of the loop. After the last one the `select!` is polled at once, when its sleep
has only begun. -/
def afterTurn (cancelled : Bool) : List ConfirmationTarget → Phase
  | [] => if cancelled then .ended else .selecting false
  | target :: rest => .updating (target :: rest)

def taskStep (s : Task) : Action → Option Task
  | .fetched answer =>
    match s.phase with
    | .updating (target :: rest) => some { s with
        cache := updateFee s.cache target answer
        phase := afterTurn s.cancelled rest }
    | _ => none
  | .sleepElapses =>
    match s.phase with
    | .selecting _ => some { s with phase := .selecting true }
    | _ => none
  | .cancel => some { s with cancelled := true }
  | .polls sleepFirst =>
    match s.phase with
    | .selecting elapsed =>
      if elapsed && (sleepFirst || !s.cancelled) then some { s with phase := .updating confTargets }
      else if s.cancelled then some { s with phase := .ended }
      else none
    | _ => none

def Action.answer? : Action → Option SmartFee
  | .fetched answer => some answer
  | _ => none

/-! ### The turns of its loop -/

def turn (s : Task) : Action → List (ConfirmationTarget × SmartFee)
  | .fetched answer =>
    match s.phase with
    | .updating (target :: _) => [(target, answer)]
    | _ => []
  | _ => []

/-- The turns so far are whole rounds and a part of one, and what is left of that is what the task is
still to ask for. -/
def Turns (turns : List (ConfirmationTarget × SmartFee)) (phase : Phase) : Prop :=
  ∃ (rounds : List Answers) (answers : Answers) (p rest : List ConfirmationTarget),
    turns = rounds.flatMap fetches ++ sweep p answers ∧ p ++ rest = confTargets ∧
      match phase with
      | .updating left => left = rest ∧ left ≠ []
      | _ => p = []

section Steps

variable {s s' : Task} {a : Action} {answer : SmartFee} {target : ConfirmationTarget}
  {rest : List ConfirmationTarget} {turns : List (ConfirmationTarget × SmartFee)}

lemma taskStep_fetched (hs : taskStep s (.fetched answer) = some s') :
    ∃ target rest, s.phase = .updating (target :: rest) ∧
      s' = { s with cache := updateFee s.cache target answer, phase := afterTurn s.cancelled rest } := by
  rw [taskStep] at hs
  split at hs
  · rename_i target rest hphase
    exact ⟨target, rest, hphase, (Option.some.inj hs).symm⟩
  · cases hs

lemma taskStep_sleepElapses (hs : taskStep s .sleepElapses = some s') :
    ∃ elapsed, s.phase = .selecting elapsed ∧ s' = { s with phase := .selecting true } := by
  rw [taskStep] at hs
  split at hs
  · rename_i elapsed hphase
    exact ⟨elapsed, hphase, (Option.some.inj hs).symm⟩
  · cases hs

lemma taskStep_polls {sleepFirst : Bool} (hs : taskStep s (.polls sleepFirst) = some s') :
    ∃ elapsed, s.phase = .selecting elapsed ∧
      (s' = { s with phase := .updating confTargets } ∨ s' = { s with phase := .ended }) := by
  rw [taskStep] at hs
  split at hs
  · rename_i elapsed hphase
    split_ifs at hs
    · exact ⟨elapsed, hphase, Or.inl (Option.some.inj hs).symm⟩
    · exact ⟨elapsed, hphase, Or.inr (Option.some.inj hs).symm⟩
  · cases hs

/-- **Each step** is a turn of the loop, or leaves the cache as it is. -/
theorem simulates : Simulates taskStep fetchStep (fun _ => True) Task.cache turn := by
  intro s a s' _ hs
  refine ⟨trivial, ?_⟩
  cases a with
  | fetched answer =>
    obtain ⟨target, rest, hphase, rfl⟩ := taskStep_fetched hs
    simp only [turn, hphase]
    rfl
  | sleepElapses =>
    obtain ⟨-, -, rfl⟩ := taskStep_sleepElapses hs
    rfl
  | cancel =>
    cases hs
    rfl
  | polls sleepFirst =>
    obtain ⟨-, -, rfl | rfl⟩ := taskStep_polls hs <;> rfl

/-! ### Whole rounds -/

lemma nodup_confTargets : confTargets.Nodup := by decide

lemma sweep_concat {p : List ConfirmationTarget} {answers : Answers} (h : target ∉ p) :
    sweep (p ++ [target]) (Function.update answers target answer) =
      sweep p answers ++ [(target, answer)] := by
  have hsame : sweep p (Function.update answers target answer) = sweep p answers := by
    refine List.map_congr_left fun t ht => ?_
    have hne : t ≠ target := fun heq => h (heq ▸ ht)
    rw [Function.update_of_ne hne]
  rw [sweep, List.map_append, ← sweep, hsame, List.map_singleton, Function.update_self]

lemma Turns.concat (h : Turns turns (.updating (target :: rest))) (cancelled : Bool) :
    Turns (turns ++ [(target, answer)]) (afterTurn cancelled rest) := by
  obtain ⟨rounds, answers, p, left, rfl, hparts, hleft⟩ := h
  obtain ⟨rfl, -⟩ : target :: rest = left ∧ target :: rest ≠ [] := hleft
  have hnotMem : target ∉ p := by
    have hnodup := hparts ▸ nodup_confTargets
    exact fun hp => (List.nodup_append.mp hnodup).2.2 target hp target List.mem_cons_self rfl
  have hsweep : sweep (p ++ [target]) (Function.update answers target answer) =
      sweep p answers ++ [(target, answer)] := sweep_concat hnotMem
  cases rest with
  | nil =>
    refine ⟨rounds ++ [Function.update answers target answer], answers, [], confTargets, ?_, rfl, ?_⟩
    · rw [List.flatMap_append, List.flatMap_singleton, List.append_assoc, ← hsweep, hparts]
      simp [sweep, fetches]
    · cases cancelled <;> rfl
  | cons next rest =>
    refine ⟨rounds, Function.update answers target answer, p ++ [target], next :: rest, ?_, ?_,
      rfl, List.cons_ne_nil _ _⟩
    · rw [hsweep, List.append_assoc]
    · rw [← hparts, List.append_assoc]
      rfl

lemma Turns.next {elapsed : Bool} (h : Turns turns (.selecting elapsed)) :
    Turns turns (.updating confTargets) ∧ Turns turns .ended ∧
      ∀ elapsed, Turns turns (.selecting elapsed) := by
  obtain ⟨rounds, answers, p, rest, rfl, hparts, hp⟩ := h
  obtain rfl : p = [] := hp
  exact ⟨⟨rounds, answers, [], rest, rfl, hparts, hparts.symm, by decide⟩,
    ⟨rounds, answers, [], rest, rfl, hparts, rfl⟩, fun _ => ⟨rounds, answers, [], rest, rfl, hparts, rfl⟩⟩

/-- **One step** keeps the turns in rounds. -/
lemma Turns.step (h : Turns turns s.phase) (hs : taskStep s a = some s') :
    Turns (turns ++ turn s a) s'.phase := by
  cases a with
  | fetched answer =>
    obtain ⟨target, rest, hphase, rfl⟩ := taskStep_fetched hs
    rw [hphase] at h
    simp only [turn, hphase]
    exact h.concat s.cancelled
  | sleepElapses =>
    obtain ⟨elapsed, hphase, rfl⟩ := taskStep_sleepElapses hs
    rw [hphase] at h
    simpa only [turn, List.append_nil] using h.next.2.2 true
  | cancel =>
    cases hs
    simpa only [turn, List.append_nil] using h
  | polls sleepFirst =>
    obtain ⟨elapsed, hphase, rfl | rfl⟩ := taskStep_polls hs
    · rw [hphase] at h
      simpa only [turn, List.append_nil] using h.next.1
    · rw [hphase] at h
      simpa only [turn, List.append_nil] using h.next.2.1

lemma turns_run {as : List Action} {t : Task} (h : Turns turns s.phase)
    (hr : run taskStep s as = some t) : Turns (turns ++ traces taskStep turn s as) t.phase := by
  induction as generalizing s turns with
  | nil =>
    cases hr
    rw [traces, List.append_nil]
    exact h
  | cons a as ih =>
    rw [run_cons, Option.bind_eq_some_iff] at hr
    obtain ⟨s', hs, hr⟩ := hr
    rw [traces_cons hs, ← List.append_assoc]
    exact ih (h.step hs) hr

lemma answers_turn (hs : taskStep s a = some s') : (turn s a).map Prod.snd = a.answer?.toList := by
  cases a with
  | fetched answer =>
    obtain ⟨target, rest, hphase, -⟩ := taskStep_fetched hs
    simp [turn, hphase, Action.answer?]
  | sleepElapses | cancel | polls sleepFirst => rfl

/-- **The turns of a run** are about the answers that were fetched in it, in their order. -/
lemma answers_traces {as : List Action} {t : Task} (hr : run taskStep s as = some t) :
    (traces taskStep turn s as).map Prod.snd = as.filterMap Action.answer? := by
  induction as generalizing s with
  | nil => rfl
  | cons a as ih =>
    rw [run_cons, Option.bind_eq_some_iff] at hr
    obtain ⟨s', hs, hr⟩ := hr
    rw [traces_cons hs, List.map_append, answers_turn hs, ih hr, List.filterMap_cons]
    cases a.answer? <;> rfl

lemma turns_spawned (cancelled : Bool) : Turns [] (spawned cancelled).phase :=
  ⟨[], fun _ => .response none, [], confTargets, rfl, rfl, rfl, by decide⟩

/-! ### After the signal -/

def Action.isFetched : Action → Bool
  | .fetched _ => true
  | _ => false

def Action.isOwn : Action → Bool
  | .fetched _ => true
  | .polls _ => true
  | _ => false

/-- What the task still asks for once the signal has come. -/
def Phase.fetchesLeft : Phase → ℕ
  | .updating rest => rest.length
  | .selecting _ => confTargets.length
  | .ended => 0

/-- The steps it still takes: before a further round there is a poll. -/
def Phase.stepsLeft : Phase → ℕ
  | .updating rest => rest.length
  | .selecting _ => confTargets.length + 1
  | .ended => 0

lemma cancelled_step (hc : s.cancelled = true) (hs : taskStep s a = some s') : s'.cancelled = true := by
  cases a with
  | fetched answer =>
    obtain ⟨-, -, -, rfl⟩ := taskStep_fetched hs
    exact hc
  | sleepElapses =>
    obtain ⟨-, -, rfl⟩ := taskStep_sleepElapses hs
    exact hc
  | cancel =>
    cases hs
    rfl
  | polls sleepFirst =>
    obtain ⟨-, -, rfl | rfl⟩ := taskStep_polls hs
    · exact hc
    · exact hc

/-- **One step after the signal**: a round is not begun again without a poll. -/
lemma left_step (hc : s.cancelled = true) (hs : taskStep s a = some s') :
    s'.phase.fetchesLeft + (if a.isFetched then 1 else 0) ≤ s.phase.fetchesLeft ∧
      s'.phase.stepsLeft + (if a.isOwn then 1 else 0) ≤ s.phase.stepsLeft := by
  cases a with
  | fetched answer =>
    obtain ⟨target, rest, hphase, rfl⟩ := taskStep_fetched hs
    rw [hphase]
    cases rest with
    | nil => simp [afterTurn, hc, Action.isFetched, Action.isOwn, Phase.fetchesLeft, Phase.stepsLeft]
    | cons next rest =>
      simp [afterTurn, Action.isFetched, Action.isOwn, Phase.fetchesLeft, Phase.stepsLeft]
  | sleepElapses =>
    obtain ⟨elapsed, hphase, rfl⟩ := taskStep_sleepElapses hs
    rw [hphase]
    exact ⟨le_rfl, le_rfl⟩
  | cancel =>
    cases hs
    exact ⟨le_rfl, le_rfl⟩
  | polls sleepFirst =>
    obtain ⟨elapsed, hphase, rfl | rfl⟩ := taskStep_polls hs
    · rw [hphase]
      exact ⟨le_rfl, le_rfl⟩
    · rw [hphase]
      exact ⟨Nat.zero_le _, Nat.le_add_left 1 _⟩

/-- A task that is not over can take a step of its own once the signal has come. -/
lemma exists_own_step (hc : s.cancelled = true) (hturns : Turns turns s.phase) (hne : s.phase ≠ .ended) :
    ∃ a s', a.isOwn = true ∧ taskStep s a = some s' := by
  cases hphase : s.phase with
  | ended => exact absurd hphase hne
  | selecting elapsed =>
    refine ⟨.polls false, { s with phase := .ended }, rfl, ?_⟩
    rw [taskStep, hphase]
    simp [hc]
  | updating left =>
    rw [hphase] at hturns
    obtain ⟨-, -, -, rest, -, -, -, hleft⟩ := hturns
    obtain ⟨target, rest, rfl⟩ := List.exists_cons_of_ne_nil hleft
    refine ⟨.fetched (.response none), { s with
      cache := updateFee s.cache target (.response none)
      phase := afterTurn s.cancelled rest }, rfl, ?_⟩
    rw [taskStep, hphase]

end Steps

def failingRound : List Action := List.replicate 8 (.fetched (.callFailed "connection refused"))

/-- **The task runs whole rounds.** In every run, whenever the signal comes and whichever branch the
`select!` takes: the answers that were fetched are those of some rounds and of a part of a further one,
with the targets in their order and each with one answer; the cache is what these leave; and every target
has a value of 253 at least. -/
theorem follows_rounds (cancelled : Bool) (as : List Action) {t : Task}
    (hr : run taskStep (spawned cancelled) as = some t) :
    (∃ (rounds : List Answers) (answers : Answers) (p : List ConfirmationTarget), p <+: confTargets ∧
      (rounds.flatMap fetches ++ sweep p answers).map Prod.snd = as.filterMap Action.answer? ∧
      run fetchStep FeeCache.new (rounds.flatMap fetches ++ sweep p answers) = some t.cache ∧
      ((∀ rest, t.phase ≠ .updating rest) → p = [])) ∧ HasFloor t.cache := by
  have hrun := (simulates.run trivial hr).2
  have hanswers := answers_traces hr
  obtain ⟨rounds, answers, p, rest, hturns, hparts, hphase⟩ := turns_run (turns_spawned cancelled) hr
  rw [List.nil_append] at hturns
  rw [hturns] at hrun hanswers
  have hfloor : Always taskStep (fun s => HasFloor s.cache) (spawned cancelled) as :=
    simulates.always trivial fun fetches _ h => (always_floor fetches).last h
  refine ⟨⟨rounds, answers, p, ⟨rest, hparts⟩, hanswers, hrun, fun hbetween => ?_⟩, hfloor.last hr⟩
  cases hp : t.phase with
  | updating left => exact absurd hp (hbetween left)
  | selecting elapsed | ended =>
    rw [hp] at hphase
    exact hphase

lemma length_rounds (rounds : List Answers) :
    (rounds.flatMap fetches).length = 8 * rounds.length := by
  induction rounds with
  | nil => rfl
  | cons answers rounds ih =>
    have hfetches : (fetches answers).length = 8 := by simp [fetches, confTargets]
    rw [List.flatMap_cons, List.length_append, ih, hfetches, List.length_cons]
    omega

/-- Nine answers are those of one round and of the first target of the next. -/
theorem follows_rounds_two :
    ∃ t, run taskStep (spawned false)
        (failingRound ++ [.sleepElapses, .polls true, .fetched (.response (some 1000))]) = some t ∧
      t.cache.getEstSatPer1000Weight .maximumFeeEstimate = 3500 ∧ HasFloor t.cache ∧
      ∃ (round answers : Answers) (target : ConfirmationTarget),
        run fetchStep FeeCache.new (fetches round ++ sweep [target] answers) = some t.cache := by
  obtain ⟨⟨rounds, answers, p, hp, hanswers, hrun, -⟩, hfloor⟩ := follows_rounds false
    (failingRound ++ [.sleepElapses, .polls true, .fetched (.response (some 1000))]) rfl
  have hlength := congrArg List.length hanswers
  rw [List.length_map, List.length_append, length_rounds] at hlength
  have hsweep : (sweep p answers).length = p.length := by simp [sweep]
  have hnine : 8 * rounds.length + p.length = 9 := hsweep ▸ hlength
  have hle : p.length ≤ 8 := hp.length_le
  obtain ⟨round, rfl⟩ := List.length_eq_one_iff.mp (show rounds.length = 1 by omega)
  obtain ⟨target, rfl⟩ := List.length_eq_one_iff.mp (show p.length = 1 by omega)
  exact ⟨_, rfl, by decide, hfloor, round, answers, target, by simpa using hrun⟩

/-- **The signal ends the task.** From any state that is reached when the signal has come, in every run
that follows: the task asks for at most eight more fees and takes at most nine steps of its own, and as
long as it is not over it can take one. -/
theorem ends_after_cancel (cancelled : Bool) (as bs : List Action) {s t : Task}
    (hr : run taskStep (spawned cancelled) as = some s) (hc : s.cancelled = true)
    (hr' : run taskStep s bs = some t) :
    bs.countP Action.isFetched ≤ 8 ∧ bs.countP Action.isOwn ≤ 9 ∧
      (t.phase = .ended ∨ ∃ a t', a.isOwn = true ∧ taskStep t a = some t') := by
  have hturns := turns_run (turns_spawned cancelled) hr
  have hbounds : s.phase.fetchesLeft ≤ 8 ∧ s.phase.stepsLeft ≤ 9 := by
    obtain ⟨-, -, p, rest, -, hparts, hphase⟩ := hturns
    have hlength : p.length + rest.length = 8 := by
      rw [← List.length_append, hparts]
      rfl
    cases hp : s.phase with
    | ended => decide
    | selecting elapsed => exact ⟨le_rfl, le_rfl⟩
    | updating left =>
      rw [hp] at hphase
      obtain ⟨rfl, -⟩ : left = rest ∧ left ≠ [] := hphase
      simp only [Phase.fetchesLeft, Phase.stepsLeft]
      omega
  have hfetches := run_countP_le (I := fun s : Task => s.cancelled = true)
    (fun s : Task => s.phase.fetchesLeft) Action.isFetched hc
    (fun _ _ _ hc hs => ⟨cancelled_step hc hs, (left_step hc hs).1⟩) hr'
  have hsteps := run_countP_le (I := fun s : Task => s.cancelled = true)
    (fun s : Task => s.phase.stepsLeft) Action.isOwn hc
    (fun _ _ _ hc hs => ⟨cancelled_step hc hs, (left_step hc hs).2⟩) hr'
  have hc' : t.cancelled = true :=
    run_keeps (I := fun s : Task => s.cancelled = true) hc (fun _ _ _ hc hs => cancelled_step hc hs) hr'
  refine ⟨by omega, by omega, ?_⟩
  by_cases hended : t.phase = .ended
  · exact Or.inl hended
  · exact Or.inr (exists_own_step hc' (turns_run hturns hr') hended)

/-- The signal comes while the sleep is over, and one more round is run. -/
theorem ends_after_cancel_late :
    ∃ t, run taskStep (spawned false) (failingRound ++ [.sleepElapses, .cancel]) = some t ∧
      (∃ u, run taskStep t (.polls true :: failingRound) = some u ∧ u.phase = .ended) ∧
      (Action.polls true :: failingRound).countP Action.isFetched ≤ 8 := by
  refine ⟨_, rfl, ⟨_, rfl, rfl⟩, ?_⟩
  exact (ends_after_cancel false (failingRound ++ [.sleepElapses, .cancel])
    (.polls true :: failingRound) rfl rfl rfl).1

end LnNode.BitcoindClient.FeeTask
