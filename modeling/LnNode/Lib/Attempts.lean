import Mathlib.Tactic

/-!
# Keyed attempts with a queue of results

A service accepts an attempt under a key only while it does not track the key. An attempt that is in
flight ends with one event, which is queued; events are delivered in order, and those that were
acknowledged may be delivered again. The attempts of a key are numbered from one.

`Ledger.Valid` is what every operation keeps: no event is of an attempt that was not accepted yet, and
a key that is not in flight has the event of its last attempt in the log.
-/

namespace LnNode.Lib.Attempts

/-- A key is not tracked, in flight, or kept for a while after its event was queued. -/
inductive Phase where
  | untracked
  | inFlight
  | resolved
  deriving DecidableEq, Repr

/-- The event that ends an attempt. -/
structure EndEvent (ι ρ : Type*) where
  id : ι
  attempt : ℕ
  result : ρ

/-- The phases and attempt counts of the keys, and the events, acknowledged and not. -/
structure Ledger (ι ρ : Type*) where
  phase : ι → Phase
  attempts : ι → ℕ
  acked : List (EndEvent ι ρ)
  queue : List (EndEvent ι ρ)

namespace Ledger

variable {ι ρ : Type*}

/-! ### Delivery -/

def empty : Ledger ι ρ where
  phase _ := .untracked
  attempts _ := 0
  acked := []
  queue := []

def log (l : Ledger ι ρ) : List (EndEvent ι ρ) := l.acked ++ l.queue

def Tracked (l : Ledger ι ρ) (id : ι) : Prop := l.phase id ≠ .untracked

def ack (l : Ledger ι ρ) : Ledger ι ρ :=
  match l.queue with
  | [] => l
  | e :: rest => { l with acked := l.acked ++ [e], queue := rest }

/-- All but the first `n` acknowledged events are to be delivered again. -/
def rewind (l : Ledger ι ρ) (n : ℕ) : Ledger ι ρ :=
  { l with acked := l.acked.take n, queue := l.acked.drop n ++ l.queue }

def Idle (l : Ledger ι ρ) (id : ι) : Prop :=
  l.phase id ≠ .inFlight ∧ ∀ e ∈ l.queue, e.id ≠ id

structure Valid (l : Ledger ι ρ) : Prop where
  attempt_le : ∀ e ∈ l.log, e.attempt ≤ l.attempts e.id
  settled : ∀ id, 0 < l.attempts id → l.phase id ≠ .inFlight →
    ∃ e ∈ l.log, e.id = id ∧ e.attempt = l.attempts id

section Delivery

variable {l : Ledger ι ρ} {e : EndEvent ι ρ} {rest : List (EndEvent ι ρ)} {n : ℕ}

lemma ack_of_queue (hq : l.queue = e :: rest) :
    l.ack = { l with acked := l.acked ++ [e], queue := rest } := by
  unfold ack
  rw [hq]

@[simp] lemma log_ack : l.ack.log = l.log := by
  unfold ack
  split
  · rfl
  · rename_i e rest hq
    simp [log, hq]

@[simp] lemma phase_ack : l.ack.phase = l.phase := by
  unfold ack
  split <;> rfl

@[simp] lemma attempts_ack : l.ack.attempts = l.attempts := by
  unfold ack
  split <;> rfl

@[simp] lemma log_rewind : (l.rewind n).log = l.log := by
  simp only [log, rewind]
  rw [← List.append_assoc, List.take_append_drop]

@[simp] lemma phase_rewind : (l.rewind n).phase = l.phase := rfl

@[simp] lemma attempts_rewind : (l.rewind n).attempts = l.attempts := rfl

lemma mem_queue_rewind (h : e ∈ l.queue) : e ∈ (l.rewind n).queue := List.mem_append_right _ h

lemma valid_empty : Valid (empty : Ledger ι ρ) :=
  ⟨by simp [log, empty], fun id h => absurd h (by simp [empty])⟩

lemma Idle.ack {id : ι} (hidle : l.Idle id) : l.ack.Idle id := by
  refine ⟨by simpa using hidle.1, fun e he => hidle.2 e ?_⟩
  unfold Ledger.ack at he
  split at he
  · exact he
  · rename_i e' rest hq
    rw [hq]
    exact List.mem_cons_of_mem _ he

theorem Valid.ack (hl : Valid l) : Valid l.ack :=
  ⟨by simpa using hl.attempt_le, by simpa using hl.settled⟩

theorem Valid.rewind (hl : Valid l) (n : ℕ) : Valid (l.rewind n) :=
  ⟨by simpa using hl.attempt_le, by simpa using hl.settled⟩

end Delivery

/-! ### Attempts -/

variable [DecidableEq ι]

/-- A new attempt, of a key that is not tracked. -/
def accept (l : Ledger ι ρ) (id : ι) : Option (Ledger ι ρ) :=
  if l.phase id = .untracked then
    some { l with
      phase := Function.update l.phase id .inFlight
      attempts := Function.update l.attempts id (l.attempts id + 1) }
  else none

/-- The attempt in flight ends; its key is forgotten at once or kept for a while. -/
def resolve (l : Ledger ι ρ) (id : ι) (result : ρ) (untrack : Bool) : Option (Ledger ι ρ) :=
  if l.phase id = .inFlight then
    some { l with
      phase := Function.update l.phase id (if untrack then .untracked else .resolved)
      queue := l.queue ++ [{ id, attempt := l.attempts id, result }] }
  else none

def forget (l : Ledger ι ρ) (id : ι) : Option (Ledger ι ρ) :=
  if l.phase id = .resolved ∧ ∀ e ∈ l.queue, e.id ≠ id then
    some { l with phase := Function.update l.phase id .untracked }
  else none

def lastEvent (l : Ledger ι ρ) (id : ι) : Option (EndEvent ι ρ) :=
  (l.log.filter fun e => e.id = id).getLast?

section Attempts

variable {l l' : Ledger ι ρ} {id : ι} {e : EndEvent ι ρ}

lemma accept_eq_some (h : l.accept id = some l') :
    l.phase id = .untracked ∧ l' = { l with
      phase := Function.update l.phase id .inFlight
      attempts := Function.update l.attempts id (l.attempts id + 1) } := by
  unfold accept at h
  split_ifs at h with hphase
  exact ⟨hphase, (Option.some.inj h).symm⟩

lemma accept_attempts_self (h : l.accept id = some l') : l'.attempts id = l.attempts id + 1 := by
  obtain ⟨-, rfl⟩ := accept_eq_some h
  simp

lemma accept_attempts_le (h : l.accept id = some l') (j : ι) : l.attempts j ≤ l'.attempts j := by
  obtain ⟨-, rfl⟩ := accept_eq_some h
  by_cases hj : j = id
  · subst hj
    simp
  · simp [hj]

lemma resolve_eq_some {result : ρ} {untrack : Bool} (h : l.resolve id result untrack = some l') :
    l.phase id = .inFlight ∧ l' = { l with
      phase := Function.update l.phase id (if untrack then .untracked else .resolved)
      queue := l.queue ++ [{ id, attempt := l.attempts id, result }] } := by
  unfold resolve at h
  by_cases hphase : l.phase id = .inFlight
  · rw [if_pos hphase] at h
    exact ⟨hphase, (Option.some.inj h).symm⟩
  · rw [if_neg hphase] at h
    cases h

lemma forget_eq_some (h : l.forget id = some l') :
    l.phase id = .resolved ∧ (∀ e ∈ l.queue, e.id ≠ id) ∧
      l' = { l with phase := Function.update l.phase id .untracked } := by
  unfold forget at h
  split_ifs at h with hphase
  exact ⟨hphase.1, hphase.2, (Option.some.inj h).symm⟩

/-! ### Idle keys -/

section Idle

variable {key : ι} {result : ρ} {untrack : Bool}

lemma Idle.accept (hidle : l.Idle id) (h : l.accept key = some l') (hne : id ≠ key) : l'.Idle id := by
  obtain ⟨-, rfl⟩ := accept_eq_some h
  refine ⟨?_, hidle.2⟩
  simpa [Function.update_of_ne hne] using hidle.1

lemma Idle.resolve (hidle : l.Idle id) (h : l.resolve key result untrack = some l') : l'.Idle id := by
  obtain ⟨hflight, rfl⟩ := resolve_eq_some h
  have hne : id ≠ key := by
    rintro rfl
    exact hidle.1 hflight
  refine ⟨by simpa [Function.update_of_ne hne] using hidle.1, fun e he => ?_⟩
  rcases List.mem_append.mp he with he | he
  · exact hidle.2 e he
  · rw [List.mem_singleton.mp he]
    exact hne.symm

lemma Idle.forget (hidle : l.Idle id) (h : l.forget key = some l') : l'.Idle id := by
  obtain ⟨-, -, rfl⟩ := forget_eq_some h
  refine ⟨?_, hidle.2⟩
  by_cases hid : id = key
  · subst hid
    simp
  · simpa [hid] using hidle.1

end Idle

/-! ### Valid ledgers -/

theorem Valid.accept (hl : Valid l) (h : l.accept id = some l') : Valid l' := by
  obtain ⟨-, rfl⟩ := accept_eq_some h
  refine ⟨fun e he => ?_, fun j hj hphase => ?_⟩
  · have hle := hl.attempt_le e he
    by_cases hid : e.id = id
    · rw [hid] at hle
      simp only [hid, Function.update_self]
      omega
    · simpa [hid] using hle
  · by_cases hid : j = id
    · subst hid
      simp at hphase
    · simp only [Function.update_of_ne hid] at hj hphase ⊢
      exact hl.settled j hj hphase

theorem Valid.resolve (hl : Valid l) {result : ρ} {untrack : Bool}
    (h : l.resolve id result untrack = some l') : Valid l' := by
  obtain ⟨-, rfl⟩ := resolve_eq_some h
  refine ⟨fun e he => ?_, fun j hj hphase => ?_⟩
  · simp only [log] at he
    rw [← List.append_assoc] at he
    rcases List.mem_append.mp he with he | he
    · exact hl.attempt_le e he
    · rw [List.mem_singleton.mp he]
  · by_cases hid : j = id
    · subst hid
      exact ⟨⟨j, l.attempts j, result⟩, by simp [log], rfl, rfl⟩
    · simp only [Function.update_of_ne hid] at hphase
      obtain ⟨e, he, hej⟩ := hl.settled j hj hphase
      refine ⟨e, ?_, hej⟩
      simp only [log, ← List.append_assoc]
      exact List.mem_append_left _ he

theorem Valid.forget (hl : Valid l) (h : l.forget id = some l') : Valid l' := by
  obtain ⟨hres, -, rfl⟩ := forget_eq_some h
  refine ⟨hl.attempt_le, fun j hj hphase => ?_⟩
  by_cases hid : j = id
  · subst hid
    exact hl.settled j hj (by rw [hres]; decide)
  · simp only [Function.update_of_ne hid] at hphase
    exact hl.settled j hj hphase

/-! ### The last event of a key -/

lemma lastEvent_congr (h : l'.log = l.log) : l'.lastEvent id = l.lastEvent id := by
  rw [lastEvent, h, lastEvent]

/-- The head of the queue is the last event of its key, if none of the key waits behind it. -/
lemma lastEvent_head {rest : List (EndEvent ι ρ)} (hq : l.queue = e :: rest)
    (hrest : ∀ e' ∈ rest, e'.id ≠ e.id) : l.lastEvent e.id = some e := by
  have hfilter : rest.filter (fun e' => e'.id = e.id) = [] := by
    rw [List.filter_eq_nil_iff]
    exact fun e' he' => by simpa using hrest e' he'
  rw [lastEvent, log, hq, List.filter_append, List.filter_cons_of_pos (by simp), hfilter]
  simp

lemma lastEvent_append_of_ne {l' : Ledger ι ρ} (hlog : l'.log = l.log ++ [e]) (hne : e.id ≠ id) :
    l'.lastEvent id = l.lastEvent id := by
  rw [lastEvent, hlog, List.filter_append, List.filter_cons_of_neg (by simpa using hne)]
  simp [lastEvent]

end Attempts

end Ledger

end LnNode.Lib.Attempts
