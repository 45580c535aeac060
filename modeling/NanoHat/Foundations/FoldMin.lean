import Mathlib.Data.Nat.Notation
import Mathlib.Order.Bounds.Basic

/-!
# Minima folded from zero

A minimum may be folded over a list of naturals from the start value `0`, with `0` read as "nothing
seen yet". As long as no entry is `0` the result is the least entry. A `0` in the list erases what
has been folded so far: the result is that of the entries after it.
-/

namespace NanoHat.FoldMin

/-- One step: the smaller of the two, where `d = 0` stands for no value. -/
def keepLess (d r : ℕ) : ℕ := if d = 0 ∨ r < d then r else d

def foldMin (rs : List ℕ) : ℕ := rs.foldl keepLess 0

theorem keepLess_zero_left (r : ℕ) : keepLess 0 r = r := if_pos (Or.inl rfl)

theorem keepLess_zero_right (d : ℕ) : keepLess d 0 = 0 := if_pos (by omega)

theorem keepLess_ne_zero {d r : ℕ} (hd : d ≠ 0) (hr : r ≠ 0) : keepLess d r ≠ 0 := by
  unfold keepLess
  split
  · exact hr
  · exact hd

theorem keepLess_isLeast {d : ℕ} (hd : d ≠ 0) (r : ℕ) :
    IsLeast {x | x = d ∨ x = r} (keepLess d r) := by
  unfold keepLess
  split
  · refine ⟨Or.inr rfl, fun x hx => ?_⟩
    rcases hx with rfl | rfl <;> omega
  · refine ⟨Or.inl rfl, fun x hx => ?_⟩
    rcases hx with rfl | rfl <;> omega

theorem foldl_isLeast {d : ℕ} {rs : List ℕ} (hd : d ≠ 0) (hrs : 0 ∉ rs) :
    IsLeast {x | x ∈ d :: rs} (rs.foldl keepLess d) := by
  induction rs generalizing d with
  | nil =>
    refine ⟨List.mem_singleton_self d, fun x hx => ?_⟩
    exact (List.mem_singleton.1 hx).ge
  | cons r rs ih =>
    rw [List.mem_cons, not_or] at hrs
    obtain ⟨hfirst, hleast⟩ := keepLess_isLeast hd r
    obtain ⟨hmem, hle⟩ := ih (keepLess_ne_zero hd (Ne.symm hrs.1)) hrs.2
    have hkeep : rs.foldl keepLess (keepLess d r) ≤ keepLess d r := hle List.mem_cons_self
    refine ⟨?_, fun x hx => ?_⟩
    · rcases List.mem_cons.1 hmem with heq | hmem
      · rcases hfirst with hd' | hr'
        · exact List.mem_cons.2 (Or.inl (heq.trans hd'))
        · exact List.mem_cons_of_mem _ (List.mem_cons.2 (Or.inl (heq.trans hr')))
      · exact List.mem_cons_of_mem _ (List.mem_cons_of_mem _ hmem)
    · rcases List.mem_cons.1 hx with rfl | hx
      · exact hkeep.trans (hleast (Or.inl rfl))
      rcases List.mem_cons.1 hx with rfl | hx
      · exact hkeep.trans (hleast (Or.inr rfl))
      · exact hle (List.mem_cons_of_mem _ hx)

/-- Without zeros the fold is the minimum. -/
theorem foldMin_isLeast {rs : List ℕ} (hne : rs ≠ []) (hrs : 0 ∉ rs) :
    IsLeast {x | x ∈ rs} (foldMin rs) := by
  cases rs with
  | nil => exact absurd rfl hne
  | cons r rs =>
    rw [List.mem_cons, not_or] at hrs
    unfold foldMin
    rw [List.foldl_cons, keepLess_zero_left]
    exact foldl_isLeast (Ne.symm hrs.1) hrs.2

/-- A zero erases the entries before it. -/
theorem foldMin_append_zero (pre post : List ℕ) : foldMin (pre ++ 0 :: post) = foldMin post := by
  unfold foldMin
  rw [List.foldl_append, List.foldl_cons, keepLess_zero_right]

/-- A list with a property somewhere splits at the last place that has it. -/
theorem exists_last {α : Type*} {p : α → Prop} {l : List α} (h : ∃ x ∈ l, p x) :
    ∃ pre x post, l = pre ++ x :: post ∧ p x ∧ ∀ y ∈ post, ¬p y := by
  induction l with
  | nil =>
    obtain ⟨x, hx, -⟩ := h
    exact absurd hx List.not_mem_nil
  | cons a l ih =>
    by_cases hl : ∃ x ∈ l, p x
    · obtain ⟨pre, x, post, rfl, hx, hpost⟩ := ih hl
      exact ⟨a :: pre, x, post, rfl, hx, hpost⟩
    · obtain ⟨x, hx, hpx⟩ := h
      have ha : x = a := (List.mem_cons.1 hx).resolve_right fun hm => hl ⟨x, hm, hpx⟩
      exact ⟨[], a, l, rfl, ha ▸ hpx, fun y hy hpy => hl ⟨y, hy, hpy⟩⟩

end NanoHat.FoldMin
