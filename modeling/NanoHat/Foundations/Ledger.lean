import Mathlib.Data.List.Nodup
import Mathlib.Data.Set.Insert
import Mathlib.Logic.Relation
import Mathlib.Tactic.Tauto

/-!
# Ledgers of one-shot obligations

A party that accepts requests and promises to answer each of them at most once keeps a ledger:
requests are numbered in the order in which they arrive, some of them are pending, and a request
is closed by being answered, by being refused on arrival or by being abandoned. `Ledger.Step`
lists what may happen to a ledger, and `Ledger.Sound` is what every ledger reached from the empty
one satisfies: no number is closed twice, no pending number is closed, and every number given out
is either pending or closed. An implementation is shown to keep its promise by exhibiting, for
each of its operations, the ledger steps it amounts to.
-/

namespace NanoHat

/-- How a request was closed. -/
inductive Fate
  | answered
  | refused
  | abandoned
  deriving DecidableEq

/-- A ledger: the next number, the pending numbers and the closed ones, newest first. -/
@[ext] structure Ledger where
  next : ℕ
  pending : Set ℕ
  closed : List (ℕ × Fate)

namespace Ledger

/-- The empty ledger. -/
def empty : Ledger := ⟨0, ∅, []⟩

/-- The ledger after a request has been accepted. -/
def accept (L : Ledger) : Ledger :=
  { L with next := L.next + 1, pending := insert L.next L.pending }

/-- The ledger after a request has been refused on arrival. -/
def refuse (L : Ledger) : Ledger :=
  { L with next := L.next + 1, closed := (L.next, .refused) :: L.closed }

/-- The ledger after the pending request `k` has been closed with fate `f`. -/
def close (L : Ledger) (k : ℕ) (f : Fate) : Ledger :=
  { L with pending := L.pending \ {k}, closed := (k, f) :: L.closed }

/-- One step of a ledger. -/
inductive Step (L : Ledger) : Ledger → Prop
  | accept : Step L L.accept
  | refuse : Step L L.refuse
  | close {k : ℕ} (f : Fate) (h : k ∈ L.pending) : Step L (L.close k f)

/-- Finitely many steps of a ledger. -/
abbrev Steps : Ledger → Ledger → Prop := Relation.ReflTransGen Step

/-- The closed numbers. -/
def closedIds (L : Ledger) : List ℕ := L.closed.map Prod.fst

/-- What holds of every ledger reached from the empty one. -/
structure Sound (L : Ledger) : Prop where
  nodup : L.closedIds.Nodup
  disjoint : ∀ k ∈ L.pending, k ∉ L.closedIds
  cover : ∀ k, k < L.next ↔ k ∈ L.pending ∨ k ∈ L.closedIds

theorem sound_empty : empty.Sound where
  nodup := List.nodup_nil
  disjoint := by simp [empty]
  cover := by simp [empty, closedIds]

theorem Sound.lt_of_pending {L : Ledger} (h : L.Sound) {k : ℕ} (hk : k ∈ L.pending) :
    k < L.next := (h.cover k).2 (Or.inl hk)

theorem Sound.next_not_closed {L : Ledger} (h : L.Sound) : L.next ∉ L.closedIds := fun hk =>
  lt_irrefl _ ((h.cover L.next).2 (Or.inr hk))

/-- A step keeps a ledger sound. -/
theorem Sound.step {L L' : Ledger} (h : L.Sound) (hs : Step L L') : L'.Sound := by
  cases hs with
  | accept =>
    refine ⟨h.nodup, ?_, fun k => ?_⟩
    · rintro k (rfl | hk)
      · exact h.next_not_closed
      · exact h.disjoint k hk
    · have := h.cover k
      simp only [accept, closedIds, Set.mem_insert_iff] at this ⊢
      rw [Nat.lt_succ_iff_lt_or_eq, this]
      tauto
  | refuse =>
    refine ⟨?_, fun k hk => ?_, fun k => ?_⟩
    · exact List.nodup_cons.2 ⟨h.next_not_closed, h.nodup⟩
    · rintro (_ | ⟨_, hc⟩)
      · exact lt_irrefl _ (h.lt_of_pending hk)
      · exact h.disjoint k hk hc
    · have := h.cover k
      simp only [refuse, closedIds, List.map_cons, List.mem_cons] at this ⊢
      rw [Nat.lt_succ_iff_lt_or_eq, this]
      tauto
  | close f hp =>
    rename_i j
    refine ⟨?_, ?_, fun k => ?_⟩
    · exact List.nodup_cons.2 ⟨h.disjoint j hp, h.nodup⟩
    · rintro k ⟨hk, hne⟩ hc
      rcases List.mem_cons.1 hc with rfl | hc
      · exact hne rfl
      · exact h.disjoint k hk hc
    · have := h.cover k
      by_cases hkj : k = j
      · subst hkj
        simp [close, closedIds, h.lt_of_pending hp]
      · simp only [close, closedIds, List.map_cons, List.mem_cons, Set.mem_sdiff,
          Set.mem_singleton_iff, hkj, not_false_eq_true, and_true, false_or] at this ⊢
        exact this

theorem Sound.steps {L L' : Ledger} (h : L.Sound) (hs : Steps L L') : L'.Sound := by
  induction hs with
  | refl => exact h
  | tail _ hs ih => exact ih.step hs

/-- A number has one fate. -/
theorem Sound.fate_unique {L : Ledger} (h : L.Sound) {k : ℕ} {f g : Fate}
    (hf : (k, f) ∈ L.closed) (hg : (k, g) ∈ L.closed) : f = g := by
  have := List.inj_on_of_nodup_map h.nodup hf hg rfl
  exact congrArg Prod.snd this

end Ledger

end NanoHat
