import Mathlib.Data.Nat.Notation
import Mathlib.Logic.Function.Basic
import Mathlib.Tactic.TypeStar

/-!
# Rewriting the first entry of a list that matches

A partial function says of an entry whether it matches and what becomes of it. `updateFirst`
rewrites the first match; `firstMatch` is the loop over indices that finds it in an indexed family,
and `updateFirst_map_range` says that writing what the loop found is `updateFirst`.
-/

namespace NanoHat.FirstMatch

variable {α : Type*} {f : α → Option α}

/-- The list with its first matching entry rewritten, if there is one. -/
def updateFirst (f : α → Option α) : List α → Option (List α)
  | [] => none
  | a :: l =>
    match f a with
    | some b => some (b :: l)
    | none => (updateFirst f l).map (a :: ·)

theorem updateFirst_cons_some {a b : α} (h : f a = some b) (l : List α) :
    updateFirst f (a :: l) = some (b :: l) := by
  simp only [updateFirst, h]

theorem updateFirst_cons_none {a : α} (h : f a = none) (l : List α) :
    updateFirst f (a :: l) = (updateFirst f l).map (a :: ·) := by
  simp only [updateFirst, h]

theorem updateFirst_eq_none {l : List α} : updateFirst f l = none ↔ ∀ a ∈ l, f a = none := by
  induction l with
  | nil => simp [updateFirst]
  | cons a l ih =>
    cases ha : f a with
    | some b => simp [updateFirst_cons_some ha, ha]
    | none => simp [updateFirst_cons_none ha, ha, ih]

/-- What is rewritten is the first match, and only it. -/
theorem updateFirst_eq_some {l l' : List α} (h : updateFirst f l = some l') :
    ∃ pre a b post, l = pre ++ a :: post ∧ (∀ x ∈ pre, f x = none) ∧ f a = some b ∧
      l' = pre ++ b :: post := by
  induction l generalizing l' with
  | nil => cases h
  | cons a l ih =>
    cases ha : f a with
    | some b =>
      rw [updateFirst_cons_some ha] at h
      obtain rfl := Option.some.inj h
      exact ⟨[], a, b, l, rfl, nofun, ha, rfl⟩
    | none =>
      rw [updateFirst_cons_none ha] at h
      obtain ⟨l₁, hl₁, rfl⟩ := Option.map_eq_some_iff.1 h
      obtain ⟨pre, x, y, post, rfl, hpre, hx, rfl⟩ := ih hl₁
      refine ⟨a :: pre, x, y, post, rfl, fun z hz => ?_, hx, rfl⟩
      rcases List.mem_cons.1 hz with rfl | hz
      · exact ha
      · exact hpre z hz

/-- The same by the index of the match. -/
theorem updateFirst_eq_set {l l' : List α} (h : updateFirst f l = some l') :
    ∃ k a b, l[k]? = some a ∧ f a = some b ∧ l' = l.set k b := by
  obtain ⟨pre, a, b, post, rfl, -, hab, rfl⟩ := updateFirst_eq_some h
  refine ⟨pre.length, a, b, ?_, hab, ?_⟩
  · rw [List.getElem?_append_right (Nat.le_refl _), Nat.sub_self, List.getElem?_cons_zero]
  · rw [List.set_append_right _ _ (Nat.le_refl _), Nat.sub_self, List.set_cons_zero]

theorem length_updateFirst {l l' : List α} (h : updateFirst f l = some l') :
    l'.length = l.length := by
  obtain ⟨pre, a, b, post, rfl, -, -, rfl⟩ := updateFirst_eq_some h
  simp

/-- The loop: the first index below `n` whose entry matches, and what becomes of the entry. -/
def firstMatch (f : α → Option α) (get : ℕ → α) (n : ℕ) : Option (ℕ × α) :=
  (List.range n).findSome? fun k => (f (get k)).map (k, ·)

theorem firstMatch_lt {get : ℕ → α} {n k : ℕ} {b : α} (h : firstMatch f get n = some (k, b)) :
    k < n := by
  obtain ⟨j, hj, hjk⟩ := List.exists_of_findSome?_eq_some h
  obtain ⟨c, -, hc⟩ := Option.map_eq_some_iff.1 hjk
  obtain ⟨rfl, -⟩ := Prod.mk.inj hc
  exact List.mem_range.1 hj

/-- The loop, unrolled once. -/
theorem firstMatch_succ (get : ℕ → α) (n : ℕ) : firstMatch f get (n + 1) =
    match f (get 0) with
    | some b => some (0, b)
    | none => (firstMatch f (fun k => get (k + 1)) n).map fun p => (p.1 + 1, p.2) := by
  unfold firstMatch
  rw [List.range_succ_eq_map, List.findSome?_cons, List.findSome?_map, List.map_findSome?]
  cases f (get 0) with
  | some b => rfl
  | none =>
    refine congrArg (List.findSome? · (List.range n)) (funext fun k => ?_)
    simp [Function.comp_def, Option.map_map]

/-- Writing what the loop found rewrites the first match. -/
theorem updateFirst_map_range (get : ℕ → α) (n : ℕ) :
    updateFirst f ((List.range n).map get) =
      (firstMatch f get n).map fun p => (List.range n).map (Function.update get p.1 p.2) := by
  induction n generalizing get with
  | zero => rfl
  | succ n ih =>
    rw [firstMatch_succ, List.range_succ_eq_map, List.map_cons, List.map_map]
    cases h : f (get 0) with
    | some b =>
      rw [updateFirst_cons_some h]
      simp [Function.comp_def]
    | none =>
      rw [updateFirst_cons_none h]
      have htail := ih fun k => get (k + 1)
      simp only [Function.comp_def, Nat.succ_eq_add_one, htail, Option.map_map]
      refine congrArg (Option.map · _) (funext fun p => ?_)
      simp [Function.comp_def, Function.update_apply]

end NanoHat.FirstMatch
