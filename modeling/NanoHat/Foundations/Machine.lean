import Mathlib.Data.Nat.Notation
import Mathlib.Tactic.TypeStar

/-!
# Machines with outputs

A machine takes an event to an output and the next state. A relation between the states of two
machines over the same events that every step keeps, with equal outputs, makes them
indistinguishable from outside (`outputs_eq_of_simulation`); the relation may rest on what is known
of the events.
-/

namespace NanoHat.Machine

variable {σ τ ε ω : Type*}

section Run

variable (step : σ → ε → ω × σ)

/-- The state after a list of events. -/
def run (s : σ) : List ε → σ
  | [] => s
  | e :: es => run (step s e).2 es

/-- The outputs of a list of events, in order. -/
def outputs (s : σ) : List ε → List ω
  | [] => []
  | e :: es => (step s e).1 :: outputs (step s e).2 es

end Run

variable {step : σ → ε → ω × σ} {step' : τ → ε → ω × τ} {R : σ → τ → Prop}
  {P : ε → Prop}

/-- **Simulation.** Related states answer alike and stay related. -/
theorem outputs_eq_of_simulation
    (hstep : ∀ s t e, P e → R s t → (step s e).1 = (step' t e).1 ∧ R (step s e).2 (step' t e).2)
    {s : σ} {t : τ} (h : R s t) {es : List ε} (hes : ∀ e ∈ es, P e) :
    outputs step s es = outputs step' t es ∧ R (run step s es) (run step' t es) := by
  induction es generalizing s t with
  | nil => exact ⟨rfl, h⟩
  | cons e es ih =>
    obtain ⟨he, hes⟩ := List.forall_mem_cons.1 hes
    obtain ⟨hout, hnext⟩ := hstep s t e he h
    obtain ⟨houts, hend⟩ := ih hnext hes
    refine ⟨?_, hend⟩
    rw [outputs, outputs, hout, houts]

end NanoHat.Machine
