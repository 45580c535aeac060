import NanoHat.Foundations.FirstMatch
import NanoHat.Foundations.Ring

/-!
# The ring queue of the threaded implementation

The state and the functions of `ring_queue.c`, on which all queues of ADR 0005 are built. Every
function holds the lock of the queue throughout, so calls from several threads are a sequence of
calls. Arguments are not `NULL`. The items are of any type; the buffer keeps what is in its slots
when they are not in use, and a fresh one holds whatever `malloc` left there. Indices are numbers:
they stay below twice the capacity, which the block in memory bounds. The size of that block is
computed in `size_t` and wraps, and so do the counters, which are `uint64_t`.

A merge function answers whether it merged the incoming item into the stored one, and may write the
stored one in either case. One that leaves what it refuses alone (`MergeFn.KeepsRefused`) merges into
the first item that accepts and changes no other.

`items` reads the contents off the ring, and each function has one lemma that says what it does to
them.
-/

namespace NanoHat.Adr0005

open FirstMatch

variable {α : Type*}

/-- `ring_queue_overflow_policy_t` -/
inductive RingQueueOverflowPolicy
  | overwriteOldest
  | rejectNew
  | coalesce
  deriving DecidableEq

/-- `ring_queue_result_t` -/
inductive RingQueueResult
  | ok
  | merged
  | dropped
  | err
  deriving DecidableEq

/-- `ring_queue_stats_t`, over a type of counters. -/
structure RingQueueStats (ν : Type*) where
  pushes : ν
  pops : ν
  overwrites : ν
  drops : ν
  merges : ν
  deriving DecidableEq

/-- `ring_queue_merge_fn`, with its `user` argument applied: its answer, and what `existing` holds
then. -/
abbrev MergeFn (α : Type*) := α → α → Bool × α

/-- What `existing` becomes when `incoming` is merged into it. -/
def MergeFn.merged (merge : MergeFn α) (incoming existing : α) : Option α :=
  if (merge existing incoming).1 then some (merge existing incoming).2 else none

/-- An item that the function refuses to merge into stays as it is. -/
def MergeFn.KeepsRefused (merge : MergeFn α) : Prop :=
  ∀ existing incoming, (merge existing incoming).1 = false → (merge existing incoming).2 = existing

/-- `ring_queue_t`, and the size of the block that `buffer` points to. -/
structure RingQueue (α : Type*) where
  buffer : ℕ → α
  bytes : ℕ
  itemSize : ℕ
  capacity : ℕ
  head : ℕ := 0
  tail : ℕ := 0
  count : ℕ := 0
  policy : RingQueueOverflowPolicy := .overwriteOldest
  mergeFn : Option (MergeFn α) := none
  stats : RingQueueStats UInt64 := ⟨0, 0, 0, 0, 0⟩

/-- One more than `SIZE_MAX`. -/
def sizeModulus : ℕ := 18446744073709551616

/-- `ring_queue_init`; `malloc` is what the block that `malloc` returns holds, if it returns one. -/
def ringQueueInit (malloc : Option (ℕ → α)) (capacity itemSize : ℕ) : Option (RingQueue α) :=
  if capacity = 0 ∨ itemSize = 0 then none
  else
    malloc.map fun buffer =>
      { buffer := buffer, bytes := capacity * itemSize % sizeModulus, itemSize := itemSize,
        capacity := capacity }

namespace RingQueue

/-- `ring_queue_set_overflow_policy` -/
def setOverflowPolicy (q : RingQueue α) (policy : RingQueueOverflowPolicy) : RingQueue α :=
  { q with policy := policy }

/-- `ring_queue_set_merge_fn` -/
def setMergeFn (q : RingQueue α) (fn : Option (MergeFn α)) : RingQueue α :=
  { q with mergeFn := fn }

/-- The item at place `i` from the head on. -/
def itemAt (q : RingQueue α) (i : ℕ) : α := q.buffer ((q.head + i) % q.capacity)

def write (q : RingQueue α) (index : ℕ) (item : α) : RingQueue α :=
  { q with buffer := Function.update q.buffer index item }

/-- The loop of `ring_queue_try_merge` over `n` items from place `i` on; a slot holds what the merge
function left there. -/
def mergeLoop (merge : MergeFn α) (item : α) : ℕ → ℕ → RingQueue α → Bool × RingQueue α
  | _, 0, q => (false, q)
  | i, n + 1, q =>
    let (merged, existing) := merge (q.itemAt i) item
    let q := q.write ((q.head + i) % q.capacity) existing
    if merged then (true, q) else mergeLoop merge item (i + 1) n q

/-- The loop of `ring_queue_replace_first_if`: from the head on, the first item that `f` rewrites is
rewritten. -/
def rewriteFirst (q : RingQueue α) (f : α → Option α) : Option (RingQueue α) :=
  (firstMatch f q.itemAt q.count).map fun p => q.write ((q.head + p.1) % q.capacity) p.2

/-- `ring_queue_try_merge` -/
def tryMerge (q : RingQueue α) (item : α) : RingQueueResult × RingQueue α :=
  match q.mergeFn with
  | none => (.err, q)
  | some merge =>
    if q.policy ≠ .coalesce ∨ q.count = 0 then (.err, q)
    else
      match mergeLoop merge item 0 q.count q with
      | (true, q) => (.merged, { q with stats.merges := q.stats.merges + 1 })
      | (false, q) => (.err, q)

/-- `ring_queue_push`, after it has counted the push. -/
def place (q : RingQueue α) (item : α) : RingQueueResult × RingQueue α :=
  match q.tryMerge item with
  | (.merged, q) => (.merged, q)
  | (_, q) =>
    if q.count = q.capacity then
      if q.policy = .overwriteOldest then
        let q := q.write q.tail item
        let q := { q with tail := (q.tail + 1) % q.capacity }
        let q := { q with head := q.tail }
        (.ok, { q with stats.overwrites := q.stats.overwrites + 1 })
      else (.dropped, { q with stats.drops := q.stats.drops + 1 })
    else
      let q := q.write q.tail item
      (.ok, { q with tail := (q.tail + 1) % q.capacity, count := q.count + 1 })

/-- `ring_queue_push` -/
def push (q : RingQueue α) (item : α) : RingQueueResult × RingQueue α :=
  { q with stats.pushes := q.stats.pushes + 1 }.place item

/-- `ring_queue_pop`: what it writes to `out` when it returns `true`. -/
def pop (q : RingQueue α) : Option α × RingQueue α :=
  if q.count = 0 then (none, q)
  else
    (some (q.buffer q.head),
      { q with
        head := (q.head + 1) % q.capacity, count := q.count - 1,
        stats.pops := q.stats.pops + 1 })

/-- `ring_queue_replace_first_if` -/
def replaceFirstIf (q : RingQueue α) (isMatch : α → Bool) (item : α) : Bool × RingQueue α :=
  if q.count = 0 then (false, q)
  else
    match q.rewriteFirst fun existing => if isMatch existing then some item else none with
    | some q => (true, q)
    | none => (false, q)

/-! ## The contents -/

/-- The contents, oldest first. -/
def items (q : RingQueue α) : List α := Ring.entries q.capacity q.buffer q.head q.count

/-- What holds at every call: the indices fit together, and the merge function keeps what it
refuses. -/
structure WellFormed (q : RingQueue α) : Prop where
  head_lt : q.head < q.capacity
  count_le : q.count ≤ q.capacity
  tail_eq : q.tail = (q.head + q.count) % q.capacity
  keeps : ∀ merge, q.mergeFn = some merge → merge.KeepsRefused

/-- Every slot lies in the block behind the buffer. -/
def InBlock (q : RingQueue α) : Prop :=
  ∀ index < q.capacity, (index + 1) * q.itemSize ≤ q.bytes

/-! ## What the functions do to the contents -/

variable {q : RingQueue α}

@[simp] theorem length_items (q : RingQueue α) : q.items.length = q.count := Ring.length_entries ..

theorem items_eq_map (q : RingQueue α) : q.items = (List.range q.count).map q.itemAt := rfl

/-- The loop rewrites the first match of the contents, in place. -/
theorem rewriteFirst_spec (h : q.WellFormed) (f : α → Option α) :
    (updateFirst f q.items = none ∧ q.rewriteFirst f = none) ∨
      ∃ buffer, updateFirst f q.items = some { q with buffer := buffer }.items ∧
        q.rewriteFirst f = some { q with buffer := buffer } := by
  have hfirst := updateFirst_map_range (f := f) q.itemAt q.count
  rw [← items_eq_map] at hfirst
  unfold rewriteFirst
  cases hmatch : firstMatch f q.itemAt q.count with
  | none =>
    rw [hmatch] at hfirst
    exact Or.inl ⟨hfirst, rfl⟩
  | some p =>
    rw [hmatch] at hfirst
    refine Or.inr ⟨_, ?_, rfl⟩
    rw [hfirst]
    exact congrArg some (Ring.entries_update q.buffer q.head (firstMatch_lt hmatch) h.count_le p.2).symm

/-- Rewriting the buffer alone keeps the indices. -/
theorem WellFormed.rebuffer (h : q.WellFormed) (buffer : ℕ → α) :
    { q with buffer := buffer }.WellFormed := ⟨h.head_lt, h.count_le, h.tail_eq, h.keeps⟩

/-! ## What a call leaves alone -/

theorem eq_of_rewriteFirst {f : α → Option α} {q' : RingQueue α} (h : q.rewriteFirst f = some q') :
    ∃ buffer, q' = { q with buffer := buffer } := by
  obtain ⟨p, -, rfl⟩ := Option.map_eq_some_iff.1 h
  exact ⟨_, rfl⟩

theorem mergeLoop_snd (merge : MergeFn α) (item : α) (i n : ℕ) (q : RingQueue α) :
    ∃ buffer, (mergeLoop merge item i n q).2 = { q with buffer := buffer } := by
  induction n generalizing i q with
  | zero => exact ⟨q.buffer, rfl⟩
  | succ n ih =>
    unfold mergeLoop
    dsimp only
    split
    · exact ⟨_, rfl⟩
    · obtain ⟨buffer, hbuffer⟩ := ih (i + 1)
        (q.write ((q.head + i) % q.capacity) (merge (q.itemAt i) item).2)
      exact ⟨buffer, hbuffer⟩

theorem tryMerge_snd (q : RingQueue α) (item : α) : ∃ buffer merges,
    (q.tryMerge item).2 = { q with buffer := buffer, stats.merges := merges } := by
  unfold tryMerge
  split
  · exact ⟨_, _, rfl⟩
  · rename_i merge _
    split
    · exact ⟨_, _, rfl⟩
    · obtain ⟨buffer, hbuffer⟩ := mergeLoop_snd merge item 0 q.count q
      generalize mergeLoop merge item 0 q.count q = p at hbuffer
      obtain ⟨merged, q'⟩ := p
      obtain rfl : q' = _ := hbuffer
      cases merged with
      | true => exact ⟨buffer, _, rfl⟩
      | false => exact ⟨buffer, _, rfl⟩

/-! ## The loop of a merge -/

theorem write_itemAt (q : RingQueue α) (i : ℕ) :
    q.write ((q.head + i) % q.capacity) (q.itemAt i) = q := by
  unfold write itemAt
  rw [Function.update_eq_self]

theorem mergeLoop_of_accepts {merge : MergeFn α} {item : α} {i : ℕ} (n : ℕ)
    (h : (merge (q.itemAt i) item).1 = true) : mergeLoop merge item i (n + 1) q =
      (true, q.write ((q.head + i) % q.capacity) (merge (q.itemAt i) item).2) :=
  if_pos h

theorem mergeLoop_of_refuses {merge : MergeFn α} (hkeeps : merge.KeepsRefused) {item : α} {i : ℕ}
    (n : ℕ) (h : (merge (q.itemAt i) item).1 = false) :
    mergeLoop merge item i (n + 1) q = mergeLoop merge item (i + 1) n q := by
  refine (if_neg (Bool.eq_false_iff.1 h)).trans ?_
  rw [hkeeps _ _ h, write_itemAt]

/-- Over items that a merge function refuses and keeps, the loop does nothing but look for the first
one that accepts. -/
theorem mergeLoop_eq {merge : MergeFn α} (hkeeps : merge.KeepsRefused) (item : α) (q : RingQueue α)
    (i n : ℕ) : mergeLoop merge item i n q =
      match firstMatch (merge.merged item) (fun k => q.itemAt (i + k)) n with
      | some p => (true, q.write ((q.head + (i + p.1)) % q.capacity) p.2)
      | none => (false, q) := by
  induction n generalizing i with
  | zero => rfl
  | succ n ih =>
    rw [firstMatch_succ]
    cases hanswer : (merge (q.itemAt i) item).1 with
    | true =>
      have hmerged : merge.merged item (q.itemAt (i + 0)) = some (merge (q.itemAt i) item).2 :=
        if_pos hanswer
      rw [mergeLoop_of_accepts n hanswer, hmerged]
      rfl
    | false =>
      have hmerged : merge.merged item (q.itemAt (i + 0)) = none :=
        if_neg (Bool.eq_false_iff.1 hanswer)
      have hshift : ∀ k, i + 1 + k = i + (k + 1) := fun k => by omega
      rw [mergeLoop_of_refuses hkeeps n hanswer, hmerged, ih (i + 1)]
      simp only [hshift]
      cases firstMatch (merge.merged item) (fun k => q.itemAt (i + (k + 1))) n with
      | some p => rfl
      | none => rfl

/-- The loop over the whole ring. -/
theorem mergeLoop_count {merge : MergeFn α} (hkeeps : merge.KeepsRefused) (item : α)
    (q : RingQueue α) : mergeLoop merge item 0 q.count q =
      match q.rewriteFirst (merge.merged item) with
      | some q => (true, q)
      | none => (false, q) := by
  rw [mergeLoop_eq hkeeps]
  unfold rewriteFirst
  simp only [Nat.zero_add]
  cases firstMatch (merge.merged item) q.itemAt q.count with
  | some p => rfl
  | none => rfl

end RingQueue

end NanoHat.Adr0005
