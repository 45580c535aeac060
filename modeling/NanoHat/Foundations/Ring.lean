import Mathlib.Algebra.Group.Nat.Defs
import Mathlib.Data.Nat.ModEq

/-!
# Ring buffers as lists

A ring of `n` slots with a head index and a count holds the list of entries read off from the
head on, modulo `n`. The rules say what writing the slot behind the last entry, writing a slot in
use and advancing the head do to that list.
-/

namespace NanoHat.Ring

variable {α : Type*} {n : ℕ}

/-- The `count` entries of a ring of `n` slots from `head` on, oldest first. -/
def entries (n : ℕ) (slots : ℕ → α) (head count : ℕ) : List α :=
  (List.range count).map fun k => slots ((head + k) % n)

@[simp] theorem entries_zero (slots : ℕ → α) (head : ℕ) : entries n slots head 0 = [] := rfl

@[simp] theorem length_entries (slots : ℕ → α) (head count : ℕ) :
    (entries n slots head count).length = count := by
  simp [entries]

/-- Fewer than `n` consecutive slots do not meet. -/
theorem slot_ne {head k count : ℕ} (hk : k < count) (hc : count < n) :
    (head + k) % n ≠ (head + count) % n := by
  intro h
  have hmod : k % n = count % n := Nat.ModEq.add_left_cancel' head h
  rw [Nat.mod_eq_of_lt (by omega), Nat.mod_eq_of_lt hc] at hmod
  omega

/-- Writing the slot behind the last entry appends, as long as one slot is free. -/
theorem entries_push (slots : ℕ → α) (head : ℕ) {count : ℕ} (hc : count < n) (a : α) :
    entries n (Function.update slots ((head + count) % n) a) head (count + 1) =
      entries n slots head count ++ [a] := by
  unfold entries
  rw [List.range_succ, List.map_append, List.map_singleton, Function.update_self]
  congr 1
  refine List.map_congr_left fun k hk => ?_
  exact Function.update_of_ne (slot_ne (List.mem_range.1 hk) hc) _ _

/-- Advancing the head drops the oldest entry. -/
theorem entries_succ (slots : ℕ → α) (head count : ℕ) :
    entries n slots head (count + 1) =
      slots (head % n) :: entries n slots ((head + 1) % n) count := by
  unfold entries
  rw [List.range_succ_eq_map, List.map_cons, List.map_map, Nat.add_zero]
  congr 1
  refine List.map_congr_left fun k _ => ?_
  have hk : (head + (k + 1)) % n = ((head + 1) % n + k) % n := by
    rw [Nat.mod_add_mod]
    congr 1
    omega
  exact congrArg slots hk

/-- Two of `n` consecutive slots do not meet. -/
theorem slot_inj {head j k : ℕ} (hj : j < n) (hk : k < n)
    (h : (head + j) % n = (head + k) % n) : j = k := by
  rcases Nat.lt_trichotomy j k with hlt | heq | hgt
  · exact absurd h (slot_ne hlt hk)
  · exact heq
  · exact absurd h.symm (slot_ne hgt hj)

/-- Writing a slot that is in use rewrites its entry. -/
theorem entries_update (slots : ℕ → α) (head : ℕ) {count k : ℕ} (hk : k < count) (hc : count ≤ n)
    (a : α) : entries n (Function.update slots ((head + k) % n) a) head count =
      (List.range count).map (Function.update (fun j => slots ((head + j) % n)) k a) := by
  refine List.map_congr_left fun j hj => ?_
  have hjn : j < n := (List.mem_range.1 hj).trans_le hc
  by_cases hjk : j = k
  · rw [hjk, Function.update_self, Function.update_self]
  · rw [Function.update_of_ne hjk]
    exact Function.update_of_ne (fun h => hjk (slot_inj hjn (hk.trans_le hc) h)) _ _

end NanoHat.Ring
