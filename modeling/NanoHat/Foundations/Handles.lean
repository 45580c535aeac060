import Mathlib.Data.List.Nodup
import Mathlib.Logic.Function.Basic

/-!
# Tables of allocated blocks

A heap maps addresses to the blocks allocated there. `Lists heap l` says that `l` lists the blocks
of the heap, every address once; allocation at a free address and the release of a listed block are
an entry more and an entry less.
-/

namespace NanoHat.Handles

variable {κ β : Type*}

/-- The list has the blocks of the heap, each once. -/
structure Lists (heap : κ → Option β) (l : List (κ × β)) : Prop where
  nodup : (l.map Prod.fst).Nodup
  mem_iff : ∀ p b, heap p = some b ↔ (p, b) ∈ l

variable {heap : κ → Option β} {l l₁ l₂ : List (κ × β)} {p : κ} {b : β}

theorem lists_empty : Lists (fun _ : κ => (none : Option β)) [] where
  nodup := List.nodup_nil
  mem_iff := by simp

/-- A free address is not listed. -/
theorem Lists.notMem_fst (h : Lists heap l) (hp : heap p = none) : p ∉ l.map Prod.fst := by
  intro hmem
  obtain ⟨⟨q, b⟩, hq, rfl⟩ := List.mem_map.1 hmem
  have hsome := (h.mem_iff q b).2 hq
  rw [hp] at hsome
  cases hsome

variable [DecidableEq κ]

/-- A new block at a free address. -/
theorem Lists.alloc (h : Lists heap l) (hp : heap p = none) (b : β) :
    Lists (Function.update heap p (some b)) (l ++ [(p, b)]) where
  nodup := by
    rw [List.map_append, List.nodup_append]
    refine ⟨h.nodup, List.nodup_singleton p, ?_⟩
    intro q hq q' hq' heq
    obtain rfl : q' = p := List.mem_singleton.1 hq'
    exact h.notMem_fst hp (heq ▸ hq)
  mem_iff q c := by
    rw [List.mem_append, List.mem_singleton]
    by_cases hqp : q = p
    · subst hqp
      rw [Function.update_self]
      constructor
      · intro hc
        exact Or.inr (by rw [Option.some.inj hc])
      · rintro (hmem | heq)
        · exact absurd (List.mem_map_of_mem (f := Prod.fst) hmem) (h.notMem_fst hp)
        · rw [(Prod.mk.inj heq).2]
    · rw [Function.update_of_ne hqp, h.mem_iff]
      exact ⟨Or.inl, fun hmem => hmem.resolve_right fun heq => hqp (Prod.mk.inj heq).1⟩

/-- The release of a block. -/
theorem Lists.free (h : Lists heap (l₁ ++ (p, b) :: l₂)) :
    Lists (Function.update heap p none) (l₁ ++ l₂) where
  nodup := h.nodup.sublist (((List.sublist_cons_self (p, b) l₂).append_left l₁).map Prod.fst)
  mem_iff q c := by
    have hp : p ∉ (l₁ ++ l₂).map Prod.fst := by
      have hnodup := h.nodup
      rw [List.map_append, List.map_cons, List.nodup_middle] at hnodup
      rw [List.map_append]
      exact (List.nodup_cons.1 hnodup).1
    by_cases hqp : q = p
    · subst hqp
      rw [Function.update_self]
      refine ⟨fun hc => (nomatch hc), fun hmem => ?_⟩
      exact absurd (List.mem_map_of_mem (f := Prod.fst) hmem) hp
    · rw [Function.update_of_ne hqp, h.mem_iff]
      simp [hqp]

end NanoHat.Handles
