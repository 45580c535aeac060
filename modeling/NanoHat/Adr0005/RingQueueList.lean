import NanoHat.Adr0005.RingQueue
import NanoHat.Foundations.Machine

/-!
# The ring queue is a list

What a ring queue is for: a `ListQueue` is a list of at most `capacity` items with exact counters.
A push is merged into the oldest item that accepts it, or appended; on a full queue it takes the
place of the oldest item or is rejected. The ring queue refines it (`Refines`), one lemma for each
function, so that the two cannot be told apart by any sequence of calls
(`behaves_as_list`), as long as the merge functions keep the items they refuse and the size of the
block fits into `size_t`; `refused_push_writes` shows that neither can go.
-/

namespace NanoHat.Adr0005

open FirstMatch

variable {α : Type*}

/-! ## The list queue -/

structure ListQueue (α : Type*) where
  capacity : ℕ
  items : List α := []
  policy : RingQueueOverflowPolicy := .overwriteOldest
  mergeFn : Option (MergeFn α) := none
  stats : RingQueueStats ℕ := ⟨0, 0, 0, 0, 0⟩

namespace ListQueue

/-- The items with `item` merged into the oldest one that accepts it. -/
def merged (l : ListQueue α) (item : α) : Option (List α) :=
  if l.policy = .coalesce then
    l.mergeFn.bind fun merge => updateFirst (merge.merged item) l.items
  else none

def place (l : ListQueue α) (item : α) : RingQueueResult × ListQueue α :=
  match l.merged item with
  | some items => (.merged, { l with items := items, stats.merges := l.stats.merges + 1 })
  | none =>
    if l.items.length < l.capacity then (.ok, { l with items := l.items ++ [item] })
    else if l.policy = .overwriteOldest then
      (.ok, { l with
        items := l.items.tail ++ [item], stats.overwrites := l.stats.overwrites + 1 })
    else (.dropped, { l with stats.drops := l.stats.drops + 1 })

def push (l : ListQueue α) (item : α) : RingQueueResult × ListQueue α :=
  { l with stats.pushes := l.stats.pushes + 1 }.place item

def pop (l : ListQueue α) : Option α × ListQueue α :=
  match l.items with
  | [] => (none, l)
  | item :: items => (some item, { l with items := items, stats.pops := l.stats.pops + 1 })

def replaceFirstIf (l : ListQueue α) (isMatch : α → Bool) (item : α) : Bool × ListQueue α :=
  match updateFirst (fun existing => if isMatch existing then some item else none) l.items with
  | some items => (true, { l with items := items })
  | none => (false, l)

/-- At most `capacity` items, and every push accounted for. -/
structure Balanced (l : ListQueue α) : Prop where
  length_le : l.items.length ≤ l.capacity
  pushes : l.stats.pushes =
    l.stats.pops + l.items.length + l.stats.overwrites + l.stats.drops + l.stats.merges

end ListQueue

/-! ## Calls -/

inductive QueueCall (α : Type*)
  | setOverflowPolicy (policy : RingQueueOverflowPolicy)
  | setMergeFn (fn : Option (MergeFn α))
  | push (item : α)
  | pop
  | replaceFirstIf (isMatch : α → Bool) (item : α)

/-- The merge function that is set, if one is, keeps what it refuses. -/
def QueueCall.KeepsRefused : QueueCall α → Prop
  | .setMergeFn (some merge) => merge.KeepsRefused
  | _ => True

inductive QueueAnswer (α : Type*)
  | unit
  | result (r : RingQueueResult)
  | popped (out : Option α)
  | replaced (b : Bool)
  deriving DecidableEq

def RingQueue.step (q : RingQueue α) : QueueCall α → QueueAnswer α × RingQueue α
  | .setOverflowPolicy policy => (.unit, q.setOverflowPolicy policy)
  | .setMergeFn fn => (.unit, q.setMergeFn fn)
  | .push item => (q.push item).map .result id
  | .pop => q.pop.map .popped id
  | .replaceFirstIf isMatch item => (q.replaceFirstIf isMatch item).map .replaced id

def ListQueue.step (l : ListQueue α) : QueueCall α → QueueAnswer α × ListQueue α
  | .setOverflowPolicy policy => (.unit, { l with policy := policy })
  | .setMergeFn fn => (.unit, { l with mergeFn := fn })
  | .push item => (l.push item).map .result id
  | .pop => l.pop.map .popped id
  | .replaceFirstIf isMatch item => (l.replaceFirstIf isMatch item).map .replaced id

/-! ## The refinement -/

/-- The counters of the ring queue are the exact ones, wrapped. -/
def RingQueueStats.wrap (s : RingQueueStats ℕ) : RingQueueStats UInt64 where
  pushes := .ofNat s.pushes
  pops := .ofNat s.pops
  overwrites := .ofNat s.overwrites
  drops := .ofNat s.drops
  merges := .ofNat s.merges

structure Refines (q : RingQueue α) (l : ListQueue α) : Prop where
  wellFormed : q.WellFormed
  capacity : q.capacity = l.capacity
  items : q.items = l.items
  policy : q.policy = l.policy
  mergeFn : q.mergeFn = l.mergeFn
  stats : q.stats = l.stats.wrap

variable {q : RingQueue α} {l : ListQueue α}

theorem Refines.count (h : Refines q l) : q.count = l.items.length := by
  rw [← h.items, RingQueue.length_items]

/-- `ring_queue_try_merge` merges into the oldest item that accepts, or does nothing. -/
theorem Refines.tryMerge (h : Refines q l) (item : α) :
    (l.merged item = none ∧ q.tryMerge item = (.err, q)) ∨
      ∃ buffer, l.merged item = some { q with buffer := buffer }.items ∧
        q.tryMerge item = (.merged,
          { q with buffer := buffer, stats.merges := q.stats.merges + 1 }) := by
  unfold RingQueue.tryMerge ListQueue.merged
  rw [← h.mergeFn, ← h.policy, ← h.items]
  cases hmerge : q.mergeFn with
  | none => exact Or.inl ⟨by split <;> rfl, rfl⟩
  | some merge =>
    dsimp only [Option.bind_some]
    by_cases hpolicy : q.policy = .coalesce
    · rw [if_pos hpolicy]
      by_cases hcount : q.count = 0
      · rw [if_pos (Or.inr hcount)]
        have hempty : q.items = [] := by
          rw [← List.length_eq_zero_iff, RingQueue.length_items, hcount]
        rw [hempty]
        exact Or.inl ⟨rfl, rfl⟩
      · rw [if_neg (by simp [hpolicy, hcount]),
          RingQueue.mergeLoop_count (h.wellFormed.keeps merge hmerge)]
        rcases RingQueue.rewriteFirst_spec h.wellFormed (merge.merged item) with
          ⟨hnone, hloop⟩ | ⟨buffer, hsome, hloop⟩
        · rw [hloop]
          exact Or.inl ⟨hnone, rfl⟩
        · rw [hloop]
          exact Or.inr ⟨buffer, hsome, by dsimp only; rw [hmerge]⟩
    · rw [if_neg hpolicy, if_pos (Or.inl hpolicy)]
      exact Or.inl ⟨rfl, rfl⟩

/-- The slot behind the contents is that of the tail; on a full ring it is the oldest item's. -/
theorem Refines.append (h : Refines q l) (hfree : q.count < q.capacity) (item : α) :
    { q.write q.tail item with
      tail := (q.tail + 1) % q.capacity, count := q.count + 1 }.WellFormed ∧
    { q.write q.tail item with
      tail := (q.tail + 1) % q.capacity, count := q.count + 1 }.items = l.items ++ [item] := by
  refine ⟨⟨h.wellFormed.head_lt, hfree, ?_, h.wellFormed.keeps⟩, ?_⟩
  · dsimp only [RingQueue.write]
    rw [h.wellFormed.tail_eq, Nat.mod_add_mod, Nat.add_assoc]
  · rw [← h.items]
    unfold RingQueue.items RingQueue.write
    rw [h.wellFormed.tail_eq]
    exact Ring.entries_push q.buffer q.head hfree item

/-- On a full ring, writing at the tail and moving head and tail on drops the oldest item. -/
theorem Refines.overwrite (h : Refines q l) (hfull : q.count = q.capacity) (item : α) :
    { q.write q.tail item with
      tail := (q.tail + 1) % q.capacity, head := (q.tail + 1) % q.capacity }.WellFormed ∧
    { q.write q.tail item with
      tail := (q.tail + 1) % q.capacity, head := (q.tail + 1) % q.capacity }.items =
        l.items.tail ++ [item] := by
  have hcap : 0 < q.capacity := (Nat.zero_le _).trans_lt h.wellFormed.head_lt
  have htail : q.tail = q.head := by
    rw [h.wellFormed.tail_eq, hfull, Nat.add_mod_right, Nat.mod_eq_of_lt h.wellFormed.head_lt]
  constructor
  · refine ⟨Nat.mod_lt _ hcap, h.wellFormed.count_le, ?_, h.wellFormed.keeps⟩
    dsimp only [RingQueue.write]
    rw [hfull, Nat.add_mod_right, Nat.mod_mod]
  · -- the items behind the oldest one fill all slots but the one written
    obtain ⟨m, hm⟩ : ∃ m, q.capacity = m + 1 := ⟨q.capacity - 1, by omega⟩
    have hslot : ((q.head + 1) % q.capacity + m) % q.capacity = q.head := by
      rw [Nat.mod_add_mod, show q.head + 1 + m = q.head + q.capacity by omega, Nat.add_mod_right,
        Nat.mod_eq_of_lt h.wellFormed.head_lt]
    have hold : l.items.tail = Ring.entries q.capacity q.buffer ((q.head + 1) % q.capacity) m := by
      rw [← h.items, RingQueue.items, hfull, hm, Ring.entries_succ, List.tail_cons]
    have hpush := Ring.entries_push q.buffer ((q.head + 1) % q.capacity) (show m < q.capacity by omega)
      item
    rw [hslot, ← hold, ← hfull.trans hm] at hpush
    rw [← hpush, htail]
    rfl

theorem Refines.place (h : Refines q l) (item : α) :
    (q.place item).1 = (l.place item).1 ∧ Refines (q.place item).2 (l.place item).2 := by
  have hwf := h.wellFormed
  unfold RingQueue.place ListQueue.place
  rcases h.tryMerge item with ⟨hmerged, htry⟩ | ⟨buffer, hmerged, htry⟩
  · rw [hmerged, htry]
    dsimp only
    by_cases hfull : q.count = q.capacity
    · have hlength : ¬l.items.length < l.capacity := by
        rw [← h.count, ← h.capacity, hfull]
        exact lt_irrefl _
      rw [if_pos hfull, if_neg hlength]
      by_cases hpolicy : q.policy = .overwriteOldest
      · rw [if_pos hpolicy, if_pos (h.policy ▸ hpolicy)]
        obtain ⟨hwf', hitems⟩ := h.overwrite hfull item
        exact ⟨rfl, ⟨hwf'.head_lt, hwf'.count_le, hwf'.tail_eq, hwf'.keeps⟩, h.capacity, hitems, h.policy,
          h.mergeFn, by dsimp only [RingQueue.write]; rw [h.stats]; simp [RingQueueStats.wrap]⟩
      · rw [if_neg hpolicy, if_neg (h.policy ▸ hpolicy)]
        exact ⟨rfl, ⟨hwf.head_lt, hwf.count_le, hwf.tail_eq, hwf.keeps⟩, h.capacity, h.items, h.policy,
          h.mergeFn, by dsimp only; rw [h.stats]; simp [RingQueueStats.wrap]⟩
    · have hfree : q.count < q.capacity := lt_of_le_of_ne hwf.count_le hfull
      have hlength : l.items.length < l.capacity := by
        rw [← h.count, ← h.capacity]
        exact hfree
      rw [if_neg hfull, if_pos hlength]
      obtain ⟨hwf', hitems⟩ := h.append hfree item
      exact ⟨rfl, hwf', h.capacity, hitems, h.policy, h.mergeFn, h.stats⟩
  · rw [hmerged, htry]
    exact ⟨rfl, ⟨hwf.head_lt, hwf.count_le, hwf.tail_eq, hwf.keeps⟩, h.capacity, rfl, h.policy, h.mergeFn,
      by dsimp only; rw [h.stats]; simp [RingQueueStats.wrap]⟩

theorem Refines.push (h : Refines q l) (item : α) :
    (q.push item).1 = (l.push item).1 ∧ Refines (q.push item).2 (l.push item).2 := by
  have hwf := h.wellFormed
  have hcounted : Refines { q with stats.pushes := q.stats.pushes + 1 }
      { l with stats.pushes := l.stats.pushes + 1 } :=
    ⟨⟨hwf.head_lt, hwf.count_le, hwf.tail_eq, hwf.keeps⟩, h.capacity, h.items, h.policy, h.mergeFn,
      by rw [h.stats]; simp [RingQueueStats.wrap]⟩
  exact hcounted.place item

theorem Refines.pop (h : Refines q l) : q.pop.1 = l.pop.1 ∧ Refines q.pop.2 l.pop.2 := by
  have hwf := h.wellFormed
  unfold RingQueue.pop ListQueue.pop
  cases hitems : l.items with
  | nil =>
    rw [if_pos (by rw [h.count, hitems]; rfl)]
    exact ⟨rfl, h⟩
  | cons item items =>
    have hcount : q.count = items.length + 1 := by rw [h.count, hitems]; rfl
    rw [if_neg (by omega)]
    have hring := h.items
    unfold RingQueue.items at hring
    rw [hcount, Ring.entries_succ, Nat.mod_eq_of_lt hwf.head_lt, hitems] at hring
    obtain ⟨hfirst, hrest⟩ := List.cons.inj hring
    refine ⟨congrArg some hfirst, ⟨Nat.mod_lt _ ((Nat.zero_le _).trans_lt hwf.head_lt), ?_, ?_,
      hwf.keeps⟩, h.capacity, ?_, h.policy, h.mergeFn, ?_⟩
    · dsimp only
      have := hwf.count_le
      omega
    · dsimp only
      rw [hwf.tail_eq, Nat.mod_add_mod, hcount]
      congr 1
      omega
    · unfold RingQueue.items
      dsimp only
      rw [hcount, Nat.add_sub_cancel]
      exact hrest
    · dsimp only
      rw [h.stats]
      simp [RingQueueStats.wrap]

theorem Refines.replaceFirstIf (h : Refines q l) (isMatch : α → Bool) (item : α) :
    (q.replaceFirstIf isMatch item).1 = (l.replaceFirstIf isMatch item).1 ∧
      Refines (q.replaceFirstIf isMatch item).2 (l.replaceFirstIf isMatch item).2 := by
  have hwf := h.wellFormed
  unfold RingQueue.replaceFirstIf ListQueue.replaceFirstIf
  rw [← h.items]
  by_cases hcount : q.count = 0
  · have hempty : q.items = [] := by
      rw [← List.length_eq_zero_iff, RingQueue.length_items, hcount]
    rw [if_pos hcount, hempty]
    exact ⟨rfl, h⟩
  · rw [if_neg hcount]
    rcases RingQueue.rewriteFirst_spec hwf fun existing =>
      if isMatch existing then some item else none with
      ⟨hnone, hloop⟩ | ⟨buffer, hsome, hloop⟩
    · rw [hnone, hloop]
      exact ⟨rfl, h⟩
    · rw [hsome, hloop]
      exact ⟨rfl, hwf.rebuffer buffer, h.capacity, rfl, h.policy, h.mergeFn, h.stats⟩

/-- Every call is answered alike. -/
theorem Refines.step (h : Refines q l) {c : QueueCall α} (hc : c.KeepsRefused) :
    (q.step c).1 = (l.step c).1 ∧ Refines (q.step c).2 (l.step c).2 := by
  have hwf := h.wellFormed
  cases c with
  | setOverflowPolicy policy =>
    exact ⟨rfl, ⟨hwf.head_lt, hwf.count_le, hwf.tail_eq, hwf.keeps⟩, h.capacity, h.items, rfl, h.mergeFn,
      h.stats⟩
  | setMergeFn fn =>
    refine ⟨rfl, ⟨hwf.head_lt, hwf.count_le, hwf.tail_eq, ?_⟩, h.capacity, h.items, h.policy, rfl,
      h.stats⟩
    rintro merge rfl
    exact hc
  | push item => exact (h.push item).imp (congrArg QueueAnswer.result) id
  | pop => exact h.pop.imp (congrArg QueueAnswer.popped) id
  | replaceFirstIf isMatch item =>
    exact (h.replaceFirstIf isMatch item).imp (congrArg QueueAnswer.replaced) id

/-! ## What a call does

The inversion of each function for a ring queue in any state, without the counters. -/

/-- The list of a ring queue, with the counters as they stand. -/
def RingQueue.toList (q : RingQueue α) : ListQueue α where
  capacity := q.capacity
  items := q.items
  policy := q.policy
  mergeFn := q.mergeFn
  stats := ⟨q.stats.pushes.toNat, q.stats.pops.toNat, q.stats.overwrites.toNat,
    q.stats.drops.toNat, q.stats.merges.toNat⟩

theorem RingQueue.WellFormed.refines (h : q.WellFormed) : Refines q q.toList :=
  ⟨h, rfl, rfl, rfl, rfl, by simp [RingQueue.toList, RingQueueStats.wrap]⟩

/-- No item accepts `item` for merging. -/
def RingQueue.Unmerged (q : RingQueue α) (item : α) : Prop :=
  q.policy = .coalesce → ∀ merge, q.mergeFn = some merge →
    ∀ existing ∈ q.items, merge.merged item existing = none

/-- The outcomes of a push: its result, and the contents after it. -/
inductive RingQueue.Pushed (q : RingQueue α) (item : α) : RingQueueResult → List α → Prop
  | merged {merge : MergeFn α} {items : List α} (hpolicy : q.policy = .coalesce)
      (hmerge : q.mergeFn = some merge)
      (hitems : updateFirst (merge.merged item) q.items = some items) :
      Pushed q item .merged items
  | appended (hno : q.Unmerged item) (hfree : q.items.length < q.capacity) :
      Pushed q item .ok (q.items ++ [item])
  | overwrote (hno : q.Unmerged item) (hfull : q.items.length = q.capacity)
      (hpolicy : q.policy = .overwriteOldest) : Pushed q item .ok (q.items.tail ++ [item])
  | dropped (hno : q.Unmerged item) (hfull : q.items.length = q.capacity)
      (hpolicy : q.policy ≠ .overwriteOldest) : Pushed q item .dropped q.items

/-- What no call but those for setting up changes. -/
structure RingQueue.SameKind (q q' : RingQueue α) : Prop where
  wellFormed : q'.WellFormed
  capacity : q'.capacity = q.capacity
  policy : q'.policy = q.policy
  mergeFn : q'.mergeFn = q.mergeFn

theorem Refines.sameKind {q' : RingQueue α} {l' : ListQueue α} (h : Refines q l)
    (h' : Refines q' l') (hcapacity : l'.capacity = l.capacity) (hpolicy : l'.policy = l.policy)
    (hmerge : l'.mergeFn = l.mergeFn) : q.SameKind q' :=
  ⟨h'.wellFormed, (h'.capacity.trans hcapacity).trans h.capacity.symm,
    (h'.policy.trans hpolicy).trans h.policy.symm, (h'.mergeFn.trans hmerge).trans h.mergeFn.symm⟩

theorem ListQueue.merged_eq_some {item : α} {items : List α} (h : l.merged item = some items) :
    l.policy = .coalesce ∧ ∃ merge, l.mergeFn = some merge ∧
      updateFirst (merge.merged item) l.items = some items := by
  unfold ListQueue.merged at h
  split at h
  · rename_i hpolicy
    exact ⟨hpolicy, Option.bind_eq_some_iff.1 h⟩
  · cases h

theorem RingQueue.unmerged_of_merged_eq_none {item : α} (h : q.toList.merged item = none) :
    q.Unmerged item := by
  intro hpolicy merge hmerge
  unfold ListQueue.merged at h
  rw [if_pos (show q.toList.policy = .coalesce from hpolicy),
    show q.toList.mergeFn = some merge from hmerge] at h
  exact updateFirst_eq_none.1 h

/-- **A push** has one of the four outcomes. -/
theorem RingQueue.WellFormed.push (h : q.WellFormed) (item : α) :
    q.SameKind (q.push item).2 ∧ q.Pushed item (q.push item).1 (q.push item).2.items := by
  obtain ⟨hresult, hrefines⟩ := h.refines.push item
  rw [hresult, hrefines.items]
  have hmerged : { q.toList with stats.pushes := q.toList.stats.pushes + 1 }.merged item =
      q.toList.merged item := rfl
  unfold ListQueue.push ListQueue.place at hrefines ⊢
  rw [hmerged] at hrefines ⊢
  cases hitems : q.toList.merged item with
  | some items =>
    rw [hitems] at hrefines
    obtain ⟨hpolicy, merge, hmerge, hupdate⟩ := ListQueue.merged_eq_some hitems
    exact ⟨h.refines.sameKind hrefines rfl rfl rfl, .merged hpolicy hmerge hupdate⟩
  | none =>
    have hno := RingQueue.unmerged_of_merged_eq_none hitems
    rw [hitems] at hrefines
    dsimp only at hrefines ⊢
    by_cases hfree : q.items.length < q.capacity
    · rw [if_pos (show q.toList.items.length < q.toList.capacity from hfree)] at hrefines ⊢
      exact ⟨h.refines.sameKind hrefines rfl rfl rfl, .appended hno hfree⟩
    · have hfull : q.items.length = q.capacity := by
        have hle := h.count_le
        rw [RingQueue.length_items] at hfree ⊢
        omega
      rw [if_neg (show ¬q.toList.items.length < q.toList.capacity from hfree)] at hrefines ⊢
      by_cases hpolicy : q.policy = .overwriteOldest
      · rw [if_pos (show q.toList.policy = .overwriteOldest from hpolicy)] at hrefines ⊢
        exact ⟨h.refines.sameKind hrefines rfl rfl rfl, .overwrote hno hfull hpolicy⟩
      · rw [if_neg (show ¬q.toList.policy = .overwriteOldest from hpolicy)] at hrefines ⊢
        exact ⟨h.refines.sameKind hrefines rfl rfl rfl, .dropped hno hfull hpolicy⟩

/-- **A pop** takes the oldest item, if there is one. -/
theorem RingQueue.WellFormed.pop (h : q.WellFormed) :
    q.SameKind q.pop.2 ∧ q.pop.1 = q.items.head? ∧ q.pop.2.items = q.items.tail := by
  obtain ⟨hout, hrefines⟩ := h.refines.pop
  rw [hout, hrefines.items]
  unfold ListQueue.pop at hrefines ⊢
  have hsame : q.toList.items = q.items := rfl
  rw [hsame] at hrefines ⊢
  cases hitems : q.items with
  | nil =>
    rw [hitems] at hrefines
    exact ⟨h.refines.sameKind hrefines rfl rfl rfl, rfl, hitems⟩
  | cons item items =>
    rw [hitems] at hrefines
    exact ⟨h.refines.sameKind hrefines rfl rfl rfl, rfl, rfl⟩

/-- **A replacement** rewrites the oldest matching item, if there is one. -/
theorem RingQueue.WellFormed.replaceFirstIf (h : q.WellFormed) (isMatch : α → Bool) (item : α) :
    q.SameKind (q.replaceFirstIf isMatch item).2 ∧
      (((q.replaceFirstIf isMatch item).1 = true ∧ ∃ pre existing post,
          q.items = pre ++ existing :: post ∧ (∀ a ∈ pre, isMatch a = false) ∧
          isMatch existing = true ∧
          (q.replaceFirstIf isMatch item).2.items = pre ++ item :: post) ∨
        ((q.replaceFirstIf isMatch item).1 = false ∧ (∀ a ∈ q.items, isMatch a = false) ∧
          (q.replaceFirstIf isMatch item).2.items = q.items)) := by
  obtain ⟨hfound, hrefines⟩ := h.refines.replaceFirstIf isMatch item
  rw [hfound, hrefines.items]
  unfold ListQueue.replaceFirstIf at hrefines ⊢
  have hsame : q.toList.items = q.items := rfl
  rw [hsame] at hrefines ⊢
  have hno : ∀ a, (if isMatch a then some item else none) = none → isMatch a = false := by
    intro a ha
    cases hmatch : isMatch a with
    | false => rfl
    | true => rw [hmatch] at ha; cases ha
  cases hupdate : updateFirst (fun existing => if isMatch existing then some item else none)
      q.items with
  | none =>
    rw [hupdate] at hrefines
    exact ⟨h.refines.sameKind hrefines rfl rfl rfl,
      Or.inr ⟨rfl, fun a ha => hno a (updateFirst_eq_none.1 hupdate a ha), rfl⟩⟩
  | some items =>
    rw [hupdate] at hrefines
    obtain ⟨pre, existing, b, post, hitems, hpre, hexisting, rfl⟩ := updateFirst_eq_some hupdate
    refine ⟨h.refines.sameKind hrefines rfl rfl rfl, Or.inl ⟨rfl, pre, existing, post, hitems,
      fun a ha => hno a (hpre a ha), ?_⟩⟩
    cases hmatch : isMatch existing with
    | false => rw [hmatch] at hexisting; cases hexisting
    | true =>
      rw [hmatch] at hexisting
      obtain rfl := Option.some.inj hexisting
      exact ⟨rfl, rfl⟩

/-! ## How much there is -/

namespace RingQueue

theorem count_tryMerge (q : RingQueue α) (item : α) : (q.tryMerge item).2.count = q.count := by
  obtain ⟨buffer, merges, hq⟩ := q.tryMerge_snd item
  rw [hq]

/-- Only a push that is accepted adds something. -/
theorem count_push (q : RingQueue α) (item : α) :
    (q.push item).2.count = q.count ∨ (q.push item).1 = .ok := by
  have hcount := count_tryMerge { q with stats.pushes := q.stats.pushes + 1 } item
  unfold push place
  split
  · rename_i hmerge
    rw [hmerge] at hcount
    exact Or.inl hcount
  · rename_i hmerge
    rw [hmerge] at hcount
    split
    · split
      · exact Or.inr rfl
      · exact Or.inl hcount
    · exact Or.inr rfl

theorem count_replaceFirstIf (q : RingQueue α) (isMatch : α → Bool) (item : α) :
    (q.replaceFirstIf isMatch item).2.count = q.count := by
  unfold replaceFirstIf
  split
  · rfl
  · split
    · rename_i hq
      obtain ⟨buffer, rfl⟩ := eq_of_rewriteFirst hq
      rfl
    · rfl

theorem pop_ne_none (q : RingQueue α) : q.pop.1 ≠ none ↔ q.count ≠ 0 := by
  unfold pop
  split
  · rename_i hzero
    exact iff_of_false (fun h => h rfl) fun h => h hzero
  · rename_i hne
    exact iff_of_true (fun h => nomatch h) hne

theorem count_pop (q : RingQueue α) : q.pop.2.count = q.count - 1 := by
  unfold pop
  split
  · rename_i hzero
    rw [hzero]
  · rfl

/-- A pop adds nothing. -/
theorem count_ne_zero_of_pop (h : q.pop.2.count ≠ 0) : q.count ≠ 0 := by
  rw [count_pop] at h
  exact fun hzero => h (by rw [hzero])

/-- The contents are what a pop returns and what it leaves. -/
theorem WellFormed.toList_pop (h : q.WellFormed) : q.pop.1.toList ++ q.pop.2.items = q.items := by
  obtain ⟨-, hout, hitems⟩ := h.pop
  rw [hout, hitems]
  cases q.items <;> rfl

theorem items_ne_nil : q.items ≠ [] ↔ q.count ≠ 0 := by
  rw [← length_items, ne_eq, ne_eq, List.length_eq_zero_iff]

end RingQueue

/-! ## A ring that is set up

The queues on a ring set its policy and its merge function when they are made, and never again. -/

/-- The ring works with this policy and this merge function. -/
structure RingQueue.SetUp (policy : RingQueueOverflowPolicy) (mergeFn : Option (MergeFn α))
    (q : RingQueue α) : Prop where
  wellFormed : q.WellFormed
  policy : q.policy = policy
  mergeFn : q.mergeFn = mergeFn

section

variable {policy : RingQueueOverflowPolicy} {mergeFn : Option (MergeFn α)}

theorem RingQueue.SetUp.of_sameKind (h : q.SetUp policy mergeFn) {q' : RingQueue α}
    (hq' : q.SameKind q') : q'.SetUp policy mergeFn :=
  ⟨hq'.wellFormed, hq'.policy.trans h.policy, hq'.mergeFn.trans h.mergeFn⟩

theorem RingQueue.SetUp.setOverflowPolicy (h : q.SetUp policy mergeFn)
    (policy' : RingQueueOverflowPolicy) : (q.setOverflowPolicy policy').SetUp policy' mergeFn :=
  ⟨⟨h.wellFormed.head_lt, h.wellFormed.count_le, h.wellFormed.tail_eq, h.wellFormed.keeps⟩, rfl,
    h.mergeFn⟩

theorem RingQueue.SetUp.setMergeFn (h : q.SetUp policy mergeFn) {merge : MergeFn α}
    (hkeeps : merge.KeepsRefused) : (q.setMergeFn (some merge)).SetUp policy (some merge) := by
  refine ⟨⟨h.wellFormed.head_lt, h.wellFormed.count_le, h.wellFormed.tail_eq, ?_⟩, h.policy, rfl⟩
  rintro _ ⟨⟩
  exact hkeeps

end

/-! ## Runs -/

namespace RingQueue

/-- The same block, and items of the same size. -/
structure SameBlock (q q' : RingQueue α) : Prop where
  bytes : q'.bytes = q.bytes
  itemSize : q'.itemSize = q.itemSize

theorem sameBlock_push (q : RingQueue α) (item : α) : q.SameBlock (q.push item).2 := by
  obtain ⟨buffer, merges, hq⟩ :=
    tryMerge_snd { q with stats.pushes := q.stats.pushes + 1 } item
  unfold push place
  split
  · rename_i hmerge
    rw [hmerge] at hq
    obtain rfl := hq
    exact ⟨rfl, rfl⟩
  · rename_i hmerge
    rw [hmerge] at hq
    obtain rfl := hq
    split
    · split <;> exact ⟨rfl, rfl⟩
    · exact ⟨rfl, rfl⟩

theorem sameBlock_pop (q : RingQueue α) : q.SameBlock q.pop.2 := by
  unfold pop
  split <;> exact ⟨rfl, rfl⟩

theorem sameBlock_replaceFirstIf (q : RingQueue α) (isMatch : α → Bool) (item : α) :
    q.SameBlock (q.replaceFirstIf isMatch item).2 := by
  unfold replaceFirstIf
  split
  · exact ⟨rfl, rfl⟩
  · split
    · rename_i hq
      obtain ⟨buffer, rfl⟩ := eq_of_rewriteFirst hq
      exact ⟨rfl, rfl⟩
    · exact ⟨rfl, rfl⟩

theorem sameBlock_step (q : RingQueue α) (c : QueueCall α) : q.SameBlock (q.step c).2 := by
  cases c with
  | setOverflowPolicy policy => exact ⟨rfl, rfl⟩
  | setMergeFn fn => exact ⟨rfl, rfl⟩
  | push item => exact q.sameBlock_push item
  | pop => exact q.sameBlock_pop
  | replaceFirstIf isMatch item => exact q.sameBlock_replaceFirstIf isMatch item

end RingQueue

theorem ListQueue.length_merged {item : α} {items : List α} (h : l.merged item = some items) :
    items.length = l.items.length := by
  obtain ⟨-, merge, -, hupdate⟩ := ListQueue.merged_eq_some h
  exact length_updateFirst hupdate

/-- Every call keeps the books. -/
theorem ListQueue.Balanced.step (h : l.Balanced) (hcap : 0 < l.capacity) (c : QueueCall α) :
    (l.step c).2.Balanced ∧ (l.step c).2.capacity = l.capacity := by
  obtain ⟨hlength, hpushes⟩ := h
  cases c with
  | setOverflowPolicy policy => exact ⟨⟨hlength, hpushes⟩, rfl⟩
  | setMergeFn fn => exact ⟨⟨hlength, hpushes⟩, rfl⟩
  | push item =>
    unfold ListQueue.step ListQueue.push ListQueue.place
    dsimp only [Prod.map_snd, id]
    split
    · rename_i items hmerged
      have hsame : items.length = l.items.length := ListQueue.length_merged hmerged
      exact ⟨⟨by dsimp only; omega, by dsimp only; omega⟩, rfl⟩
    · split
      · refine ⟨⟨?_, ?_⟩, rfl⟩
        · rw [List.length_append, List.length_singleton]
          assumption
        · rw [List.length_append, List.length_singleton]
          dsimp only
          omega
      · rename_i hfull
        split
        · have htail : (l.items.tail ++ [item]).length = l.items.length := by
            rw [List.length_append, List.length_tail, List.length_singleton]
            omega
          refine ⟨⟨?_, ?_⟩, rfl⟩
          · exact htail.trans_le hlength
          · dsimp only
            omega
        · exact ⟨⟨hlength, by dsimp only; omega⟩, rfl⟩
  | pop =>
    unfold ListQueue.step ListQueue.pop
    cases hitems : l.items with
    | nil => exact ⟨⟨hlength, hpushes⟩, rfl⟩
    | cons item items =>
      rw [hitems, List.length_cons] at hlength hpushes
      refine ⟨⟨Nat.le_of_succ_le hlength, ?_⟩, rfl⟩
      dsimp only [Prod.map_snd, id]
      omega
  | replaceFirstIf isMatch item =>
    unfold ListQueue.step ListQueue.replaceFirstIf
    dsimp only [Prod.map_snd, id]
    split
    · rename_i items hupdate
      have hsame := length_updateFirst hupdate
      exact ⟨⟨hsame.trans_le hlength, by dsimp only; omega⟩, rfl⟩
    · exact ⟨⟨hlength, hpushes⟩, rfl⟩

/-- A ring queue that began as `start`, and its list, with the books of the list. -/
structure Tracks (start q : RingQueue α) (l : ListQueue α) : Prop where
  refines : Refines q l
  balanced : l.Balanced
  capacity_eq : l.capacity = start.capacity
  sameBlock : start.SameBlock q

theorem tracks_init {malloc : Option (ℕ → α)} {capacity itemSize : ℕ}
    (hinit : ringQueueInit malloc capacity itemSize = some q) :
    0 < q.capacity ∧ q.capacity = capacity ∧ Tracks q q { capacity := capacity } := by
  unfold ringQueueInit at hinit
  split at hinit
  · cases hinit
  · rename_i hne
    obtain ⟨buffer, -, rfl⟩ := Option.map_eq_some_iff.1 hinit
    have hpos : 0 < capacity := Nat.pos_of_ne_zero (not_or.1 hne).1
    exact ⟨hpos, rfl, ⟨⟨hpos, Nat.zero_le _, (Nat.zero_mod capacity).symm, nofun⟩, rfl, rfl, rfl, rfl,
      rfl⟩, ⟨Nat.zero_le _, rfl⟩, rfl, rfl, rfl⟩

/-- A ring that has just been made. -/
theorem setUp_init {malloc : Option (ℕ → α)} {capacity itemSize : ℕ}
    (hinit : ringQueueInit malloc capacity itemSize = some q) :
    q.SetUp .overwriteOldest none ∧ q.items = [] := by
  obtain ⟨-, -, htracks⟩ := tracks_init hinit
  exact ⟨⟨htracks.refines.wellFormed, htracks.refines.policy, htracks.refines.mergeFn⟩,
    htracks.refines.items⟩

/-- A block whose size has not wrapped has room for all slots. -/
theorem inBlock_init {malloc : Option (ℕ → α)} {capacity itemSize : ℕ}
    (hinit : ringQueueInit malloc capacity itemSize = some q)
    (hbytes : capacity * itemSize < sizeModulus) : q.InBlock := by
  unfold ringQueueInit at hinit
  split at hinit
  · cases hinit
  · obtain ⟨buffer, -, rfl⟩ := Option.map_eq_some_iff.1 hinit
    intro index hindex
    dsimp only at hindex ⊢
    rw [Nat.mod_eq_of_lt hbytes]
    exact Nat.mul_le_mul_right itemSize hindex

section

variable {start : RingQueue α}

theorem Tracks.step (hpos : 0 < start.capacity) (h : Tracks start q l) {c : QueueCall α}
    (hc : c.KeepsRefused) :
    (q.step c).1 = (l.step c).1 ∧ Tracks start (q.step c).2 (l.step c).2 := by
  obtain ⟨hout, hrefines⟩ := h.refines.step hc
  obtain ⟨hbalanced, hcapacity⟩ := h.balanced.step (h.capacity_eq.symm ▸ hpos) c
  obtain ⟨hbytes, hitemSize⟩ := q.sameBlock_step c
  exact ⟨hout, hrefines, hbalanced, hcapacity.trans h.capacity_eq, hbytes.trans h.sameBlock.bytes,
    hitemSize.trans h.sameBlock.itemSize⟩

theorem Tracks.inBlock (h : Tracks start q l) (hstart : start.InBlock) : q.InBlock := by
  unfold RingQueue.InBlock
  rw [h.sameBlock.bytes, h.sameBlock.itemSize, h.refines.capacity, h.capacity_eq]
  exact hstart

/-- The counters of the code add up as well, in the arithmetic of `uint64_t`. -/
theorem Tracks.stats (h : Tracks start q l) : q.stats.pushes = q.stats.pops +
    .ofNat q.count + q.stats.overwrites + q.stats.drops + q.stats.merges := by
  rw [h.refines.stats, h.refines.count]
  dsimp only [RingQueueStats.wrap]
  rw [h.balanced.pushes]
  simp only [UInt64.ofNat_add]

end

/-- **The ring queue behaves as a list.** After any sequence of calls, the answers and the contents
are those of the list queue, which holds at most `capacity` items and accounts for every push; and
every slot lies in the block that was allocated. The merge functions keep what they refuse, and the
size of the block does not wrap. -/
theorem behaves_as_list {malloc : Option (ℕ → α)} {capacity itemSize : ℕ}
    (hinit : ringQueueInit malloc capacity itemSize = some q)
    (hbytes : capacity * itemSize < sizeModulus) {calls : List (QueueCall α)}
    (hcalls : ∀ c ∈ calls, c.KeepsRefused) :
    let q' := Machine.run RingQueue.step q calls
    let l' := Machine.run ListQueue.step { capacity := capacity } calls
    Machine.outputs RingQueue.step q calls =
        Machine.outputs ListQueue.step { capacity := capacity } calls ∧
      q'.items = l'.items ∧ l'.items.length ≤ capacity ∧
      q'.head < capacity ∧ q'.tail = (q'.head + q'.count) % capacity ∧
      (∀ index < capacity, (index + 1) * q'.itemSize ≤ q'.bytes) ∧
      q'.stats = l'.stats.wrap ∧
      l'.stats.pushes = l'.stats.pops + l'.items.length + l'.stats.overwrites + l'.stats.drops +
        l'.stats.merges ∧
      q'.stats.pushes = q'.stats.pops + .ofNat q'.count + q'.stats.overwrites + q'.stats.drops +
        q'.stats.merges := by
  dsimp only
  obtain ⟨hpos, rfl, hstart⟩ := tracks_init hinit
  have hstep : ∀ (q' : RingQueue α) (l' : ListQueue α) (c : QueueCall α), c.KeepsRefused →
      Tracks q q' l' → (q'.step c).1 = (l'.step c).1 ∧ Tracks q (q'.step c).2 (l'.step c).2 :=
    fun _ _ _ hc h => Tracks.step hpos h hc
  obtain ⟨hout, hend⟩ := Machine.outputs_eq_of_simulation hstep hstart hcalls
  have hwf := hend.refines.wellFormed
  have hblock := hend.inBlock (inBlock_init hinit hbytes)
  have hcapacity := hend.refines.capacity.trans hend.capacity_eq
  unfold RingQueue.InBlock at hblock
  rw [hcapacity] at hblock
  exact ⟨hout, hend.refines.items, hend.balanced.length_le.trans_eq hend.capacity_eq,
    hcapacity ▸ hwf.head_lt, hcapacity ▸ hwf.tail_eq, hblock, hend.refines.stats, hend.balanced.pushes,
    hend.stats⟩

/-- Adds to the item that is there, if it is even. -/
def addToEven : MergeFn ℕ := fun existing incoming =>
  if existing % 2 = 0 then (true, existing + incoming) else (false, existing)

/-- The third push is merged into the second item. -/
theorem behaves_as_list_two :
    ∃ q, ringQueueInit (some fun _ => 0) 2 4 = some q ∧
      (Machine.run RingQueue.step q [.setOverflowPolicy .coalesce, .setMergeFn (some addToEven),
        .push 1, .push 2, .push 3]).items = [1, 5] := by
  have hinit : ringQueueInit (some fun _ => 0) 2 4 = some _ := rfl
  have hkeeps : addToEven.KeepsRefused := by
    intro existing incoming hno
    unfold addToEven at hno ⊢
    split at hno
    · cases hno
    · rename_i hodd
      rw [if_neg hodd]
  refine ⟨_, hinit, (behaves_as_list hinit (by decide) fun c hc => ?_).2.1⟩
  simp only [List.mem_cons, List.not_mem_nil, or_false] at hc
  rcases hc with rfl | rfl | rfl | rfl | rfl
  case inr.inl => exact hkeeps
  all_goals trivial

/-- Neither condition can go. A merge function that writes what it refuses changes the contents of a
full queue whose push is rejected, so that the next pop returns 7 where the list queue returns 1; and
the size of a block for `2 ^ 63` items of two bytes wraps to 0, so that not even the first slot lies
in it. -/
theorem refused_push_writes :
    (∃ q, ringQueueInit (some fun _ => 0) 1 4 = some q ∧
      Machine.outputs RingQueue.step q [.setOverflowPolicy .coalesce,
        .setMergeFn (some fun _ _ => (false, 7)), .push 1, .push 2, .pop] =
          [.unit, .unit, .result .ok, .result .dropped, .popped (some 7)] ∧
      Machine.outputs ListQueue.step { capacity := 1 } [.setOverflowPolicy .coalesce,
        .setMergeFn (some fun _ _ => (false, 7)), .push 1, .push 2, .pop] =
          [.unit, .unit, .result .ok, .result .dropped, .popped (some 1)]) ∧
    ∃ q, ringQueueInit (some fun _ => 0) 9223372036854775808 2 = some q ∧ q.bytes = 0 ∧ ¬q.InBlock ∧
      Machine.outputs RingQueue.step q [.push 1] = [.result .ok] := by
  refine ⟨⟨_, rfl, by decide +kernel, by decide +kernel⟩, _, rfl, rfl, fun hblock => ?_,
    by decide +kernel⟩
  exact absurd (hblock 0 (by decide)) (by decide)

end NanoHat.Adr0005
