import Mathlib.Data.Nat.Notation
import Mathlib.Tactic.TypeStar

/-!
# Protocols of calls

A library says in which order it may be called. Its protocol is a partial automaton: `rule s a` is
the state of the library after the call `a`, and `none` if `a` is not allowed in the state `s`. A
component keeps to the protocol if the calls it has made are accepted.
-/

namespace NanoHat.Protocol

variable {σ α : Type*} (rule : σ → α → Option σ)

/-- The calls are allowed one after the other, and lead from `s` to `s'`. -/
def Accepts (s : σ) (calls : List α) (s' : σ) : Prop := calls.foldlM rule s = some s'

variable {rule} {s m s' : σ} {a : α} {calls more : List α}

theorem accepts_nil (s : σ) : Accepts rule s [] s := rfl

theorem accepts_cons :
    Accepts rule s (a :: calls) s' ↔ ∃ m, rule s a = some m ∧ Accepts rule m calls s' := by
  unfold Accepts
  rw [List.foldlM_cons]
  exact Option.bind_eq_some_iff

theorem accepts_append :
    Accepts rule s (calls ++ more) s' ↔ ∃ m, Accepts rule s calls m ∧ Accepts rule m more s' := by
  unfold Accepts
  rw [List.foldlM_append]
  exact Option.bind_eq_some_iff

/-- One more call. -/
theorem Accepts.snoc (h : Accepts rule s calls m) (ha : rule m a = some s') :
    Accepts rule s (calls ++ [a]) s' :=
  accepts_append.2 ⟨m, h, accepts_cons.2 ⟨s', ha, accepts_nil s'⟩⟩

/-- Of a number that some calls raise and others lower by one, the calls that raise it are as many as
those that lower it, and as it has risen. -/
theorem Accepts.countP {f : σ → ℕ} {up down : α → Bool}
    (hstep : ∀ s a s', rule s a = some s' →
      f s' + (if down a then 1 else 0) = f s + if up a then 1 else 0)
    (h : Accepts rule s calls s') : f s' + calls.countP down = f s + calls.countP up := by
  induction calls generalizing s with
  | nil =>
    obtain rfl : s = s' := Option.some.inj h
    rfl
  | cons a calls ih =>
    obtain ⟨m, ha, h⟩ := accepts_cons.1 h
    have hone := hstep s a m ha
    have hrest := ih h
    rw [List.countP_cons, List.countP_cons]
    omega

end NanoHat.Protocol
