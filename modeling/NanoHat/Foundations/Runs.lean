import Mathlib.Data.Nat.Notation
import Mathlib.Tactic.TypeStar

/-!
# Runs of a step function

A system is a state type, an event type and a total step function; a run is a list of events.
The three predicates on a run used everywhere are the state it ends in (`run`), a condition
that every event meets in the state in which it happens (`Along`), and a property of every
state passed through (`Throughout`). The rules below turn a statement about one step into a
statement about a run; `throughout_iff_along` is the exact form, for a property that one step
keeps precisely when the event meets the condition.

The second half is about histories: lists of observations, newest first, in which every entry
has to be admissible given what came before it (`Always`).
-/

namespace NanoHat.Runs

variable {σ ε : Type*}

/-- What holds of all entries of a list is decided entry by entry, also over a finite type, where
there is an instance that goes through all values. -/
instance (priority := high) decidableForallMem {α : Type*} (p : α → Prop) [DecidablePred p]
    (l : List α) : Decidable (∀ a ∈ l, p a) := List.decidableBAll p l

/-! ## Runs -/

section Run

variable (step : σ → ε → σ)

/-- The state after a list of events. -/
def run (s : σ) (es : List ε) : σ := es.foldl step s

/-- Every event of the run meets `G` in the state in which it happens. -/
def Along (G : σ → ε → Prop) : σ → List ε → Prop
  | _, [] => True
  | s, e :: es => G s e ∧ Along G (step s e) es

/-- Every state of the run, the first and the last included, satisfies `P`. -/
def Throughout (P : σ → Prop) : σ → List ε → Prop
  | s, [] => P s
  | s, e :: es => P s ∧ Throughout P (step s e) es

instance decidableAlong {G : σ → ε → Prop} [∀ s e, Decidable (G s e)] :
    ∀ (s : σ) (es : List ε), Decidable (Along step G s es)
  | _, [] => isTrue trivial
  | s, e :: es =>
    have := decidableAlong (G := G) (step s e) es
    inferInstanceAs (Decidable (G s e ∧ Along step G (step s e) es))

instance decidableThroughout {P : σ → Prop} [DecidablePred P] :
    ∀ (s : σ) (es : List ε), Decidable (Throughout step P s es)
  | s, [] => inferInstanceAs (Decidable (P s))
  | s, e :: es =>
    have := decidableThroughout (P := P) (step s e) es
    inferInstanceAs (Decidable (P s ∧ Throughout step P (step s e) es))

@[simp] theorem run_nil (s : σ) : run step s [] = s := rfl

@[simp] theorem run_cons (s : σ) (e : ε) (es : List ε) :
    run step s (e :: es) = run step (step s e) es := rfl

theorem run_append (s : σ) (es fs : List ε) :
    run step s (es ++ fs) = run step (run step s es) fs := List.foldl_append

variable {step} {P I : σ → Prop} {G : σ → ε → Prop} {s : σ}

theorem Throughout.head {es : List ε} (h : Throughout step P s es) : P s := by
  cases es with
  | nil => exact h
  | cons e es => exact h.1

/-- An invariant of the step holds after every run. -/
theorem run_invariant (hstep : ∀ s e, P s → P (step s e)) (h : P s) (es : List ε) :
    P (run step s es) := by
  induction es generalizing s with
  | nil => exact h
  | cons e es ih => exact ih (hstep s e h)

/-- A condition on events alone. -/
theorem along_of_forall {C : ε → Prop} {es : List ε} (h : ∀ e ∈ es, C e) :
    Along step (fun _ e => C e) s es := by
  induction es generalizing s with
  | nil => trivial
  | cons e es ih => exact ⟨h e List.mem_cons_self, ih fun e' he => h e' (.tail _ he)⟩

/-- What an invariant says of every event holds along every run. -/
theorem along_of_invariant (hI : ∀ s e, I s → I (step s e)) (h : ∀ s e, I s → G s e) (hi : I s)
    (es : List ε) : Along step G s es := by
  induction es generalizing s with
  | nil => trivial
  | cons e es ih => exact ⟨h s e hi, ih (hI s e hi)⟩

/-- What a step keeps under a condition holds after every run that meets the condition. -/
theorem run_invariant_along (hstep : ∀ s e, P s → G s e → P (step s e)) (h : P s)
    {es : List ε} (hG : Along step G s es) : P (run step s es) := by
  induction es generalizing s with
  | nil => exact h
  | cons e es ih => exact ih (hstep s e h hG.1) hG.2

/-- **The exact rule.** In a run whose events meet `C`, over an invariant `I` of the good steps, if a
step keeps `P` precisely when its event meets `G`, then all states of the run satisfy `P` precisely
when all its events meet `G`. -/
theorem throughout_iff_along_good {C : σ → ε → Prop}
    (hI : ∀ s e, I s → C s e → P s → G s e → I (step s e))
    (hstep : ∀ s e, I s → C s e → P s → (P (step s e) ↔ G s e)) (hi : I s) (h : P s)
    {es : List ε} (hC : Along step C s es) : Throughout step P s es ↔ Along step G s es := by
  induction es generalizing s with
  | nil => exact ⟨fun _ => trivial, fun _ => h⟩
  | cons e es ih =>
    obtain ⟨hc, hcs⟩ := hC
    have hrest : P (step s e) → G s e →
        (Throughout step P (step s e) es ↔ Along step G (step s e) es) :=
      fun hP hG => ih (hI s e hi hc h hG) hP hcs
    constructor
    · rintro ⟨-, ht⟩
      have hP : P (step s e) := ht.head
      have hG : G s e := (hstep s e hi hc h).1 hP
      exact ⟨hG, (hrest hP hG).1 ht⟩
    · rintro ⟨hG, ha⟩
      have hP : P (step s e) := (hstep s e hi hc h).2 hG
      exact ⟨h, (hrest hP hG).2 ha⟩

/-- What the invariant and the property say of every event holds along a good run. -/
theorem along_of_good {C A : σ → ε → Prop}
    (hI : ∀ s e, I s → C s e → P s → G s e → I (step s e))
    (hP : ∀ s e, I s → C s e → P s → G s e → P (step s e))
    (hA : ∀ s e, I s → P s → A s e) (hi : I s) (h : P s)
    {es : List ε} (hC : Along step C s es) (hG : Along step G s es) : Along step A s es := by
  induction es generalizing s with
  | nil => trivial
  | cons e es ih =>
    obtain ⟨hc, hcs⟩ := hC
    obtain ⟨hg, hgs⟩ := hG
    exact ⟨hA s e hi h, ih (hI s e hi hc h hg) (hP s e hi hc h hg) hcs hgs⟩

/-- The exact rule over an invariant of all steps. -/
theorem throughout_iff_along_of {C : σ → ε → Prop}
    (hI : ∀ s e, I s → C s e → P s → I (step s e))
    (hstep : ∀ s e, I s → C s e → P s → (P (step s e) ↔ G s e)) (hi : I s) (h : P s)
    {es : List ε} (hC : Along step C s es) : Throughout step P s es ↔ Along step G s es :=
  throughout_iff_along_good (fun s e hi hc h _ => hI s e hi hc h) hstep hi h hC

/-- The exact rule for runs without a condition. -/
theorem throughout_iff_along (hI : ∀ s e, I s → P s → I (step s e))
    (hstep : ∀ s e, I s → P s → (P (step s e) ↔ G s e)) (hi : I s) (h : P s) (es : List ε) :
    Throughout step P s es ↔ Along step G s es :=
  throughout_iff_along_of (fun s e hi _ => hI s e hi) (fun s e hi _ => hstep s e hi) hi h
    (along_of_forall (C := fun _ => True) fun _ _ => trivial)

/-- Two conditions that agree on the events that meet `C`, over an invariant `I`, agree on a run. -/
theorem along_iff_along_of {C G' : σ → ε → Prop} (hI : ∀ s e, I s → C s e → I (step s e))
    (h : ∀ s e, I s → C s e → (G s e ↔ G' s e)) (hi : I s) {es : List ε}
    (hC : Along step C s es) : Along step G s es ↔ Along step G' s es := by
  induction es generalizing s with
  | nil => exact Iff.rfl
  | cons e es ih => exact and_congr (h s e hi hC.1) (ih (hI s e hi hC.1) hC.2)

/-- The condition of a longer run is that of its first part and of the rest. -/
theorem along_append (es fs : List ε) :
    Along step G s (es ++ fs) ↔ Along step G s es ∧ Along step G (run step s es) fs := by
  induction es generalizing s with
  | nil => simp [Along]
  | cons e es ih => simp only [List.cons_append, Along, ih, run_cons, and_assoc]

end Run

/-! ## Histories -/

section History

variable {α : Type*} {R : α → List α → Prop}

/-- Every entry of a history, newest first, is admissible given its past. -/
def Always (R : α → List α → Prop) : List α → Prop
  | [] => True
  | a :: past => R a past ∧ Always R past

theorem always_cons {a : α} {past : List α} :
    Always R (a :: past) ↔ R a past ∧ Always R past := Iff.rfl

theorem always_iff_suffix {l : List α} :
    Always R l ↔ ∀ a past, (a :: past) <:+ l → R a past := by
  induction l with
  | nil => simp [Always]
  | cons b l ih =>
    rw [always_cons, ih]
    constructor
    · rintro ⟨hb, h⟩ a past hs
      rcases List.suffix_cons_iff.1 hs with heq | hs
      · obtain ⟨rfl, rfl⟩ := List.cons.inj heq
        exact hb
      · exact h a past hs
    · intro h
      refine ⟨h b l List.suffix_rfl, fun a past hs => ?_⟩
      exact h a past (List.suffix_cons_iff.2 (Or.inr hs))

end History

end NanoHat.Runs
