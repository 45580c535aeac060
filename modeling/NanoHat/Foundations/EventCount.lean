import Mathlib.Algebra.Group.Nat.Defs
import Mathlib.Data.Int.Notation
import Mathlib.Data.List.ReduceOption
import Mathlib.Logic.Function.Basic
import Mathlib.Logic.Function.Iterate
import Mathlib.Tactic.Common
import NanoHat.Foundations.Runs

/-!
# Waiting with an event count

Producers change a shared resource under a lock of its own; a consumer that finds nothing there
sleeps on a condition variable with another lock, `wait_lock`. The two are tied together by a
counter: whoever gives the consumer something bumps it and then signals under `wait_lock`, and the
consumer, which read the counter before it looked, sleeps only while it has not moved.

A `Resource` says what the actions on the shared resource are; each of them is atomic. The steps of
any number of producers and of the consumer are interleaved in every order, with spurious wake-ups
and timeouts. `Inv.asleep` is the theorem of the pattern: a consumer asleep while nobody owes it a
signal has nothing to take. `Inv.returns` is its converse for a consumer that is left alone: if
there is something, or the queue is closed, it returns within six steps of its own.

The counter wraps at 64 bits; the theorems are about runs with fewer than `2 ^ 64` signals.
-/

namespace NanoHat.EventCount

open Runs

/-- What a producer does after an action. -/
inductive Next (κ : Type*)
  | done
  | more (k : κ)
  | signal
  deriving DecidableEq

/-- The actions on a shared resource: what the consumer takes, what a producer does at a place `k`
of its program, whether a call starts there and whether it holds `wait_lock` for it, and what the
consumer adds under `wait_lock` when it has taken something, if it does. -/
structure Resource (ρ α κ : Type*) where
  take : ρ → Option α × ρ
  act : κ → ρ → Next κ × ρ
  entry : κ → Bool := fun _ => true
  locked : κ → Bool := fun _ => false
  tally : Option (ρ → ρ) := none

/-- Where a producer is. -/
inductive Producer (κ : Type*)
  | idle
  | at (k : κ)
  /-- About to close the queue. -/
  | close
  /-- About to bump the counter. -/
  | bump
  /-- About to lock `wait_lock`, to signal, and to unlock. -/
  | acquire
  | notify
  | release

/-- Where the consumer is. -/
inductive Consumer (α : Type*)
  | idle
  /-- About to read the counter. -/
  | load
  /-- About to take, and to look whether the queue is closed. -/
  | take
  | closed
  /-- The same with `wait_lock`. -/
  | acquire
  | takeLocked
  | closedLocked
  /-- About to compare the counter with what was read. -/
  | compare
  /-- The two halves of the condition of the loop around the wait. -/
  | testSeq
  | testClosed
  | asleep
  /-- Awake, without `wait_lock`. -/
  | woken (timedOut : Bool)
  /-- About to read the counter again, then to unlock and to return, or to go round. -/
  | reload (timedOut : Bool)
  | release (ret : Option (Option α))
  /-- About to count what was taken. -/
  | tally (a : α)

/-- The resource, the counter, the condition variable and the threads. `lock` is who holds
`wait_lock`: the consumer is `some none`. `bumps` counts the signals so far, and `loaded` is how
many there were when the consumer read the counter; nothing depends on them. -/
structure State (ρ α κ ι : Type*) where
  res : ρ
  seq : UInt64 := 0
  isClosed : Bool := false
  lock : Option (Option ι) := none
  producer : ι → Producer κ := fun _ => .idle
  consumer : Consumer α := .idle
  mySeq : UInt64 := 0
  timeoutMs : ℤ := -1
  results : List (Option α) := []
  bumps : ℕ := 0
  loaded : ℕ := 0

variable {ρ α κ ι : Type*} [DecidableEq ι] (R : Resource ρ α κ)

/-- Where a producer goes after an action. -/
def Next.place : Next κ → Producer κ
  | .done => .idle
  | .more k => .at k
  | .signal => .bump

namespace State

/-- The consumer returns. -/
def return' (s : State ρ α κ ι) (r : Option α) : State ρ α κ ι :=
  { s with consumer := .idle, results := s.results ++ [r] }

/-- The consumer has taken `a` without `wait_lock`. -/
def taken (s : State ρ α κ ι) (a : α) : State ρ α κ ι :=
  match R.tally with
  | none => s.return' (some a)
  | some _ => { s with consumer := .tally a }

/-- The next step of the consumer. -/
def consume (s : State ρ α κ ι) : State ρ α κ ι :=
  match s.consumer with
  | .idle => s
  | .load => { s with mySeq := s.seq, loaded := s.bumps, consumer := .take }
  | .take =>
    match R.take s.res with
    | (some a, res) => { s with res := res }.taken R a
    | (none, res) => { s with res := res, consumer := .closed }
  | .closed =>
    if s.isClosed then s.return' none
    else if s.timeoutMs = 0 then s.return' none
    else { s with consumer := .acquire }
  | .acquire =>
    if s.lock.isNone then { s with lock := some none, consumer := .takeLocked } else s
  | .takeLocked =>
    match R.take s.res with
    | (some a, res) => { s with res := (R.tally.getD id) res, consumer := .release (some (some a)) }
    | (none, res) => { s with res := res, consumer := .closedLocked }
  | .closedLocked =>
    { s with consumer := if s.isClosed then .release (some none) else .compare }
  | .compare => { s with consumer := if s.seq ≠ s.mySeq then .reload false else .testSeq }
  | .testSeq => { s with consumer := if s.seq = s.mySeq then .testClosed else .reload false }
  | .testClosed =>
    if s.isClosed then { s with consumer := .reload false }
    else { s with lock := none, consumer := .asleep }
  | .asleep => s
  | .woken timedOut =>
    if s.lock.isNone then
      { s with lock := some none, consumer := if timedOut then .reload true else .testSeq }
    else s
  | .reload timedOut =>
    { s with
      mySeq := s.seq, loaded := s.bumps
      consumer := .release (if timedOut then some none else none) }
  | .release none => { s with lock := none, consumer := .take }
  | .release (some r) => { s with lock := none }.return' r
  | .tally a =>
    if s.lock.isNone then { s with res := (R.tally.getD id) s.res }.return' (some a) else s

def place (s : State ρ α κ ι) (i : ι) (p : Producer κ) : State ρ α κ ι :=
  { s with producer := Function.update s.producer i p }

/-- The next step of producer `i`. -/
def produce (s : State ρ α κ ι) (i : ι) : State ρ α κ ι :=
  match s.producer i with
  | .idle => s
  | .at k =>
    if R.locked k && s.lock.isSome then s
    else { s with res := (R.act k s.res).2 }.place i (R.act k s.res).1.place
  | .close => { s with isClosed := true }.place i .bump
  | .bump => { s with seq := s.seq + 1, bumps := s.bumps + 1 }.place i .acquire
  | .acquire => if s.lock.isNone then { s with lock := some (some i) }.place i .notify else s
  | .notify =>
    match s.consumer with
    | .asleep => { s with consumer := .woken false }.place i .release
    | _ => s.place i .release
  | .release => { s with lock := none }.place i .idle

end State

/-- What may happen next. -/
inductive Event (κ ι : Type*)
  /-- A producer calls, if its program starts at place `k`, or closes the queue. -/
  | call (i : ι) (k : κ)
  | callClose (i : ι)
  | produce (i : ι)
  | wait (timeoutMs : ℤ)
  | consume
  /-- The consumer wakes up without a signal, or its time is over. -/
  | wakeUp
  | expire

/-- An event that is not possible leaves the state alone. -/
def step (s : State ρ α κ ι) : Event κ ι → State ρ α κ ι
  | .call i k =>
    match s.producer i with
    | .idle => if R.entry k then s.place i (.at k) else s
    | _ => s
  | .callClose i =>
    match s.producer i with
    | .idle => s.place i .close
    | _ => s
  | .produce i => s.produce R i
  | .wait timeoutMs =>
    match s.consumer with
    | .idle => { s with timeoutMs := timeoutMs, consumer := .load }
    | _ => s
  | .consume => s.consume R
  | .wakeUp =>
    match s.consumer with
    | .asleep => { s with consumer := .woken false }
    | _ => s
  | .expire =>
    match s.consumer with
    | .asleep => if 0 < s.timeoutMs then { s with consumer := .woken true } else s
    | _ => s

/-! ## The places of the threads -/

/-- The consumer has `wait_lock`. -/
def Consumer.holds : Consumer α → Bool
  | .takeLocked | .closedLocked | .compare | .testSeq | .testClosed | .reload _ | .release _ => true
  | _ => false

/-- The consumer has found nothing with `wait_lock`, and relies on that. -/
def Consumer.tried : Consumer α → Bool
  | .closedLocked | .compare | .testSeq | .testClosed | .asleep | .woken _ => true
  | _ => false

/-- It has also found the queue open. -/
def Consumer.sawOpen : Consumer α → Bool
  | .compare | .testSeq | .testClosed | .asleep | .woken _ => true
  | _ => false

/-- The consumer is about to sleep, or asleep. -/
def Consumer.sleeps : Consumer α → Bool
  | .testClosed | .asleep => true
  | _ => false

/-- The producer has `wait_lock`. -/
def Producer.holds : Producer κ → Bool
  | .notify | .release => true
  | _ => false

/-- After this action the producer is bound to signal. -/
def Next.Owed (owes : κ → Prop) : Next κ → Prop
  | .done => False
  | .more k => owes k
  | .signal => True

/-- The producer is bound to bump the counter and to signal. -/
def Producer.Owed (owes : κ → Prop) : Producer κ → Prop
  | .at k => owes k
  | .bump => True
  | _ => False

/-- The producer is bound to signal. -/
def Producer.Rings (owes : κ → Prop) : Producer κ → Prop
  | .at k => owes k
  | .bump | .acquire | .notify => True
  | _ => False

/-- There is something to take. -/
def Resource.Ready (r : ρ) : Prop := (R.take r).1 ≠ none

/-- What the pattern asks of a resource; `owes` are the places of a program at which the producer is
bound to signal. -/
structure Resource.Lawful (owes : κ → Prop) : Prop where
  /-- Who makes something available is bound to signal. -/
  act : ∀ k r, R.Ready (R.act k r).2 → R.Ready r ∨ (R.act k r).1.Owed owes
  owed : ∀ k r, owes k → (R.act k r).1.Owed owes
  /-- Looking for something in vain makes nothing available. -/
  take : ∀ r, ¬R.Ready r → ¬R.Ready (R.take r).2

namespace State

/-- A producer is bound to bump the counter and to signal. -/
def Owing (owes : κ → Prop) (s : State ρ α κ ι) : Prop := ∃ i, (s.producer i).Owed owes

/-- A producer is bound to signal. -/
def Ringing (owes : κ → Prop) (s : State ρ α κ ι) : Prop := ∃ i, (s.producer i).Rings owes

end State

variable {R} {owes : κ → Prop} {s : State ρ α κ ι}

theorem tried_of_sawOpen {c : Consumer α} (h : c.sawOpen = true) : c.tried = true := by
  cases c <;> first | rfl | cases h

theorem tried_of_sleeps {c : Consumer α} (h : c.sleeps = true) : c.tried = true := by
  cases c <;> first | rfl | cases h

omit [DecidableEq ι] in
theorem holds_iff_of_free {c : Consumer α} {lock : Option (Option ι)} (hc : c.holds = false)
    (hlock : lock ≠ some none) : c.holds = true ↔ lock = some none :=
  iff_of_false (by rw [hc]; exact Bool.false_ne_true) hlock

theorem rings_of_owed {p : Producer κ} (h : p.Owed owes) : p.Rings owes := by
  cases p <;> first | exact h | trivial

theorem owed_place (n : Next κ) : n.place.Owed owes ↔ n.Owed owes := by
  cases n <;> exact Iff.rfl

theorem holds_place (n : Next κ) : n.place.holds = false := by
  cases n <;> rfl

/-- What one thread satisfies, another one does after it has moved. -/
theorem exists_update {β : Type*} {P : β → Prop} {f : ι → β} {i : ι} {b : β} (hb : P (f i) → P b)
    (h : ∃ j, P (f j)) : ∃ j, P (Function.update f i b j) := by
  obtain ⟨j, hj⟩ := h
  by_cases hji : j = i
  · subst hji
    exact ⟨j, by rw [Function.update_self]; exact hb hj⟩
  · exact ⟨j, by rw [Function.update_of_ne hji]; exact hj⟩

theorem exists_update_self {β : Type*} {P : β → Prop} {f : ι → β} {i : ι} {b : β} (hb : P b) :
    ∃ j, P (Function.update f i b j) := ⟨i, by rw [Function.update_self]; exact hb⟩

/-! ## The invariant -/

variable (R owes) in
/-- The invariant. What the consumer relies on is made up for by a signal that is owed, or by the
counter. -/
structure Inv (s : State ρ α κ ι) : Prop where
  consumerLock : s.consumer.holds = true ↔ s.lock = some none
  producerLock : ∀ i, (s.producer i).holds = true ↔ s.lock = some (some i)
  seq : s.seq = UInt64.ofNat s.bumps
  mySeq : s.mySeq = UInt64.ofNat s.loaded
  loaded : s.loaded ≤ s.bumps
  ready : s.consumer.tried = true → R.Ready s.res → s.Owing owes ∨ s.loaded < s.bumps
  closed : s.consumer.sawOpen = true → s.isClosed = true → s.Owing owes ∨ s.loaded < s.bumps
  sleeps : s.consumer.sleeps = true → R.Ready s.res ∨ s.isClosed = true → s.Ringing owes

omit [DecidableEq ι] in
/-- With nothing that the consumer relies on. -/
theorem Inv.rest {s' : State ρ α κ ι} (h : Inv R owes s) (hproducer : s'.producer = s.producer)
    (hlock : s'.consumer.holds = true ↔ s'.lock = some none)
    (hlock' : ∀ i, s'.lock = some (some i) ↔ s.lock = some (some i))
    (hseq : s'.seq = s.seq) (hbumps : s'.bumps = s.bumps)
    (hmine : s'.mySeq = s.mySeq ∧ s'.loaded = s.loaded ∨ s'.mySeq = s.seq ∧ s'.loaded = s.bumps)
    (htried : s'.consumer.tried = false) : Inv R owes s' where
  consumerLock := hlock
  producerLock i := by rw [hproducer, hlock']; exact h.producerLock i
  seq := by rw [hseq, hbumps]; exact h.seq
  mySeq := by
    rcases hmine with ⟨hm, hl⟩ | ⟨hm, hl⟩
    · rw [hm, hl]; exact h.mySeq
    · rw [hm, hl]; exact h.seq
  loaded := by
    rcases hmine with ⟨-, hl⟩ | ⟨-, hl⟩
    · rw [hl, hbumps]; exact h.loaded
    · exact Nat.le_of_eq (hl.trans hbumps.symm)
  ready ht := by rw [htried] at ht; cases ht
  closed hs := by rw [tried_of_sawOpen hs] at htried; cases htried
  sleeps hs := by rw [tried_of_sleeps hs] at htried; cases htried

/-! ## The producers -/

/-- A producer moves on without `wait_lock` and without the counter. -/
theorem Inv.moved (h : Inv R owes s) {i : ι} {p : Producer κ} {res : ρ} {isClosed : Bool}
    (hholds : (s.producer i).holds = false) (hholds' : p.holds = false)
    (howed : (s.producer i).Owed owes → p.Owed owes)
    (hrings : (s.producer i).Rings owes → p.Rings owes)
    (hres : R.Ready res → R.Ready s.res ∨ p.Owed owes)
    (hclosed : isClosed = true → s.isClosed = true ∨ p.Owed owes) :
    Inv R owes (State.place { s with res := res, isClosed := isClosed } i p) where
  consumerLock := h.consumerLock
  producerLock j := by
    have hj := h.producerLock j
    simp only [State.place]
    by_cases hji : j = i
    · subst hji
      rw [Function.update_self, hholds', ← hj, hholds]
    · rw [Function.update_of_ne hji]
      exact hj
  seq := h.seq
  mySeq := h.mySeq
  loaded := h.loaded
  ready ht hr := by
    rcases hres hr with hr | hp
    · exact (h.ready ht hr).imp_left (exists_update howed)
    · exact Or.inl (exists_update_self hp)
  closed hs hc := by
    rcases hclosed hc with hc | hp
    · exact (h.closed hs hc).imp_left (exists_update howed)
    · exact Or.inl (exists_update_self hp)
  sleeps hs hrc := by
    have hold : (R.Ready s.res ∨ s.isClosed = true) ∨ p.Owed owes := by
      rcases hrc with hr | hc
      · exact (hres hr).imp_left Or.inl
      · exact (hclosed hc).imp_left Or.inr
    rcases hold with hrc | hp
    · exact exists_update hrings (h.sleeps hs hrc)
    · exact exists_update_self (rings_of_owed hp)

theorem Inv.bumped (h : Inv R owes s) {i : ι} (hi : s.producer i = .bump) :
    Inv R owes (State.place { s with seq := s.seq + 1, bumps := s.bumps + 1 } i .acquire) where
  consumerLock := h.consumerLock
  producerLock j := by
    have hj := h.producerLock j
    simp only [State.place]
    by_cases hji : j = i
    · subst hji
      rw [Function.update_self, ← hj, hi]
      exact Iff.rfl
    · rw [Function.update_of_ne hji]
      exact hj
  seq := by
    show s.seq + 1 = UInt64.ofNat (s.bumps + 1)
    rw [h.seq, UInt64.ofNat_add]
    rfl
  mySeq := h.mySeq
  loaded := Nat.le_succ_of_le h.loaded
  ready _ _ := Or.inr (Nat.lt_succ_of_le h.loaded)
  closed _ _ := Or.inr (Nat.lt_succ_of_le h.loaded)
  sleeps _ _ := exists_update_self (P := Producer.Rings owes) trivial

theorem Inv.acquired (h : Inv R owes s) {i : ι} (hi : s.producer i = .acquire)
    (hlock : s.lock = none) :
    Inv R owes (State.place { s with lock := some (some i) } i .notify) where
  consumerLock := by
    have hc := h.consumerLock
    rw [hlock] at hc
    exact holds_iff_of_free (c := s.consumer) (by simpa using hc) (by simp [State.place])
  producerLock j := by
    have hj := h.producerLock j
    simp only [State.place]
    by_cases hji : j = i
    · subst hji
      rw [Function.update_self]
      exact iff_of_true rfl rfl
    · rw [Function.update_of_ne hji, hj, hlock]
      exact iff_of_false (by simp) (by simpa using Ne.symm hji)
  seq := h.seq
  mySeq := h.mySeq
  loaded := h.loaded
  ready ht hr := (h.ready ht hr).imp_left (exists_update (by rw [hi]; exact False.elim))
  closed hs hc := (h.closed hs hc).imp_left (exists_update (by rw [hi]; exact False.elim))
  sleeps _ _ := exists_update_self (P := Producer.Rings owes) trivial

/-- The signal: a consumer that sleeps is woken, and one that is about to sleep has `wait_lock`. -/
theorem Inv.notified (h : Inv R owes s) {i : ι} (hi : s.producer i = .notify) {c : Consumer α}
    (hc : s.consumer = .asleep ∧ c = .woken false ∨ s.consumer ≠ .asleep ∧ c = s.consumer) :
    Inv R owes (State.place { s with consumer := c } i .release) := by
  have hlock : s.lock = some (some i) := (h.producerLock i).1 (by rw [hi]; rfl)
  have hfree : s.consumer.holds = false := by
    have hc := h.consumerLock
    rw [hlock] at hc
    simpa using hc
  have howed : (s.producer i).Owed owes → (Producer.release : Producer κ).Owed owes := by
    rw [hi]
    exact False.elim
  have hplace : c.holds = s.consumer.holds ∧ c.tried = s.consumer.tried ∧
      c.sawOpen = s.consumer.sawOpen ∧ c.sleeps = false := by
    rcases hc with ⟨hc, rfl⟩ | ⟨hc, rfl⟩
    · rw [hc]
      exact ⟨rfl, rfl, rfl, rfl⟩
    · refine ⟨rfl, rfl, rfl, ?_⟩
      cases hcs : s.consumer with
      | asleep => exact absurd hcs hc
      | testClosed => rw [hcs] at hfree; cases hfree
      | _ => rfl
  exact
    { consumerLock := holds_iff_of_free (hplace.1.trans hfree) (by rw [State.place, hlock]; simp)
      producerLock := fun j => by
        have hj := h.producerLock j
        simp only [State.place]
        by_cases hji : j = i
        · subst hji
          rw [Function.update_self, ← hj, hi]
          exact Iff.rfl
        · rw [Function.update_of_ne hji]
          exact hj
      seq := h.seq
      mySeq := h.mySeq
      loaded := h.loaded
      ready := fun ht hr => (h.ready (hplace.2.1 ▸ ht) hr).imp_left (exists_update howed)
      closed := fun hs hcl => (h.closed (hplace.2.2.1 ▸ hs) hcl).imp_left (exists_update howed)
      sleeps := fun hs => by
        rw [show (State.place { s with consumer := c } i Producer.release).consumer.sleeps = false
          from hplace.2.2.2] at hs
        cases hs }

theorem Inv.released (h : Inv R owes s) {i : ι} (hi : s.producer i = .release) :
    Inv R owes (State.place { s with lock := none } i .idle) := by
  have hlock : s.lock = some (some i) := (h.producerLock i).1 (by rw [hi]; rfl)
  have hfree : s.consumer.holds = false := by
    have hc := h.consumerLock
    rw [hlock] at hc
    simpa using hc
  have howed : (s.producer i).Owed owes → (Producer.idle : Producer κ).Owed owes := by
    rw [hi]
    exact False.elim
  exact
    { consumerLock := holds_iff_of_free (c := s.consumer) hfree (by simp [State.place])
      producerLock := fun j => by
        have hj := h.producerLock j
        simp only [State.place]
        by_cases hji : j = i
        · subst hji
          rw [Function.update_self]
          exact iff_of_false (by simp [Producer.holds]) (by simp)
        · rw [Function.update_of_ne hji, hj, hlock]
          exact iff_of_false (by simpa using Ne.symm hji) (by simp)
      seq := h.seq
      mySeq := h.mySeq
      loaded := h.loaded
      ready := fun ht hr => (h.ready ht hr).imp_left (exists_update howed)
      closed := fun hs hc => (h.closed hs hc).imp_left (exists_update howed)
      sleeps := fun hs hrc => exists_update (by rw [hi]; exact False.elim) (h.sleeps hs hrc) }

theorem Inv.produce (hR : R.Lawful owes) (h : Inv R owes s) (i : ι) :
    Inv R owes (s.produce R i) := by
  unfold State.produce
  cases hi : s.producer i with
  | idle => exact h
  | «at» k =>
    dsimp only
    split
    · exact h
    · refine h.moved (by rw [hi]; rfl) (holds_place _) ?_ ?_ ?_ Or.inl
      · rw [hi]
        exact fun hk => (owed_place _).2 (hR.owed k s.res hk)
      · rw [hi]
        exact fun hk => rings_of_owed ((owed_place _).2 (hR.owed k s.res hk))
      · exact fun hr => (hR.act k s.res hr).imp_right (owed_place _).2
  | close =>
    exact h.moved (by rw [hi]; rfl) rfl (fun _ => trivial) (fun _ => trivial) Or.inl
      fun _ => Or.inr trivial
  | bump => exact h.bumped hi
  | acquire =>
    dsimp only
    split
    · rename_i hlock
      exact h.acquired hi (Option.isNone_iff_eq_none.1 hlock)
    · exact h
  | notify =>
    dsimp only
    split
    · rename_i hc
      exact h.notified hi (Or.inl ⟨hc, rfl⟩)
    · rename_i hc
      exact h.notified hi (Or.inr ⟨hc, rfl⟩)
  | release => exact h.released hi

/-! ## The consumer -/

omit [DecidableEq ι] in
/-- The consumer moves on while it relies on what it has seen. -/
theorem Inv.still {s' : State ρ α κ ι} (h : Inv R owes s) (hproducer : s'.producer = s.producer)
    (hlock : s'.consumer.holds = true ↔ s'.lock = some none)
    (hlock' : ∀ i, s'.lock = some (some i) ↔ s.lock = some (some i))
    (hkeep : s'.seq = s.seq ∧ s'.bumps = s.bumps ∧ s'.mySeq = s.mySeq ∧ s'.loaded = s.loaded ∧
      s'.isClosed = s.isClosed)
    (hready : s'.consumer.tried = true → R.Ready s'.res → s.consumer.tried = true ∧ R.Ready s.res)
    (hclosed : s'.consumer.sawOpen = true → s.isClosed = true → s.consumer.sawOpen = true)
    (hsleeps : s'.consumer.sleeps = true → R.Ready s'.res ∨ s.isClosed = true → s.Ringing owes) :
    Inv R owes s' := by
  obtain ⟨hseq, hbumps, hmine, hloaded, hisClosed⟩ := hkeep
  have howing : s'.Owing owes ↔ s.Owing owes := by rw [State.Owing, hproducer, State.Owing]
  exact
    { consumerLock := hlock
      producerLock := fun i => by rw [hproducer, hlock']; exact h.producerLock i
      seq := by rw [hseq, hbumps]; exact h.seq
      mySeq := by rw [hmine, hloaded]; exact h.mySeq
      loaded := by rw [hloaded, hbumps]; exact h.loaded
      ready := fun ht hr => by
        rw [howing, hloaded, hbumps]
        exact h.ready (hready ht hr).1 (hready ht hr).2
      closed := fun hs hc => by
        rw [hisClosed] at hc
        rw [howing, hloaded, hbumps]
        exact h.closed (hclosed hs hc) hc
      sleeps := fun hs hrc => by
        rw [hisClosed] at hrc
        rw [State.Ringing, hproducer]
        exact hsleeps hs hrc }

omit [DecidableEq ι] in
/-- The counter tells whether there was a signal since it was read. -/
theorem Inv.loaded_eq (h : Inv R owes s) (hb : s.bumps < 2 ^ 64) (heq : s.seq = s.mySeq) :
    s.loaded = s.bumps := by
  have hle := h.loaded
  rw [h.seq, h.mySeq] at heq
  have hnat := congrArg UInt64.toNat heq
  rw [UInt64.toNat_ofNat_of_lt' (by exact hb),
    UInt64.toNat_ofNat_of_lt' (by exact Nat.lt_of_le_of_lt hle hb)] at hnat
  exact hnat.symm

omit [DecidableEq ι] in
/-- The consumer moves on without `wait_lock`, and relies on nothing. -/
theorem Inv.restFree {s' : State ρ α κ ι} (h : Inv R owes s) (hfree : s.lock ≠ some none)
    (hproducer : s'.producer = s.producer) (hlock : s'.lock = s.lock) (hseq : s'.seq = s.seq)
    (hbumps : s'.bumps = s.bumps)
    (hmine : s'.mySeq = s.mySeq ∧ s'.loaded = s.loaded ∨ s'.mySeq = s.seq ∧ s'.loaded = s.bumps)
    (hholds : s'.consumer.holds = false) (htried : s'.consumer.tried = false) :
    Inv R owes s' :=
  h.rest hproducer (holds_iff_of_free hholds (by rw [hlock]; exact hfree)) (fun i => by rw [hlock])
    hseq hbumps hmine htried

omit [DecidableEq ι] in
/-- The consumer moves on with `wait_lock`, and relies on nothing. -/
theorem Inv.restHeld {s' : State ρ α κ ι} (h : Inv R owes s) (hheld : s.lock = some none)
    (hproducer : s'.producer = s.producer) (hlock : s'.lock = s.lock) (hseq : s'.seq = s.seq)
    (hbumps : s'.bumps = s.bumps)
    (hmine : s'.mySeq = s.mySeq ∧ s'.loaded = s.loaded ∨ s'.mySeq = s.seq ∧ s'.loaded = s.bumps)
    (hholds : s'.consumer.holds = true) (htried : s'.consumer.tried = false) : Inv R owes s' :=
  h.rest hproducer (iff_of_true hholds (hlock.trans hheld)) (fun i => by rw [hlock]) hseq hbumps
    hmine htried

omit [DecidableEq ι] in
/-- A step of the consumer keeps the invariant. -/
theorem Inv.consume (hR : R.Lawful owes) (h : Inv R owes s) (hb : s.bumps < 2 ^ 64) :
    Inv R owes (s.consume R) := by
  have hlock := h.consumerLock
  have hother : ∀ i : ι, s.lock = none → (some none = some (some i) ↔ s.lock = some (some i)) := by
    intro i hnone
    rw [hnone]
    simp
  unfold State.consume
  cases hc : s.consumer with
  | idle => exact h
  | asleep => exact h
  | load =>
    have hfree : s.lock ≠ some none := fun hl => by simpa [hc, Consumer.holds] using hlock.2 hl
    exact h.restFree hfree rfl rfl rfl rfl (Or.inr ⟨rfl, rfl⟩) rfl rfl
  | take =>
    have hfree : s.lock ≠ some none := fun hl => by simpa [hc, Consumer.holds] using hlock.2 hl
    dsimp only
    split
    · unfold State.taken
      split
      · exact h.restFree hfree rfl rfl rfl rfl (Or.inl ⟨rfl, rfl⟩) rfl rfl
      · exact h.restFree hfree rfl rfl rfl rfl (Or.inl ⟨rfl, rfl⟩) rfl rfl
    · exact h.restFree hfree rfl rfl rfl rfl (Or.inl ⟨rfl, rfl⟩) rfl rfl
  | closed =>
    have hfree : s.lock ≠ some none := fun hl => by simpa [hc, Consumer.holds] using hlock.2 hl
    dsimp only
    split
    · exact h.restFree hfree rfl rfl rfl rfl (Or.inl ⟨rfl, rfl⟩) rfl rfl
    split
    · exact h.restFree hfree rfl rfl rfl rfl (Or.inl ⟨rfl, rfl⟩) rfl rfl
    · exact h.restFree hfree rfl rfl rfl rfl (Or.inl ⟨rfl, rfl⟩) rfl rfl
  | tally a =>
    have hfree : s.lock ≠ some none := fun hl => by simpa [hc, Consumer.holds] using hlock.2 hl
    dsimp only
    split
    · exact h.restFree hfree rfl rfl rfl rfl (Or.inl ⟨rfl, rfl⟩) rfl rfl
    · exact h
  | acquire =>
    dsimp only
    split
    · rename_i hnone
      exact h.rest rfl (iff_of_true rfl rfl) (fun i => hother i (Option.isNone_iff_eq_none.1 hnone))
        rfl rfl (Or.inl ⟨rfl, rfl⟩) rfl
    · exact h
  | takeLocked =>
    have hheld : s.lock = some none := hlock.1 (by rw [hc]; rfl)
    dsimp only
    split
    · exact h.restHeld hheld rfl rfl rfl rfl (Or.inl ⟨rfl, rfl⟩) rfl rfl
    · rename_i res htake
      refine h.still rfl (iff_of_true rfl hheld) (fun _ => Iff.rfl) ⟨rfl, rfl, rfl, rfl, rfl⟩ ?_
        (fun hs => nomatch hs) (fun hs => nomatch hs)
      intro _ hr
      have hnot : ¬R.Ready s.res := not_not.2 (by rw [htake])
      have hres : R.Ready (R.take s.res).2 := by rw [htake]; exact hr
      exact absurd hres (hR.take s.res hnot)
  | closedLocked =>
    have hheld : s.lock = some none := hlock.1 (by rw [hc]; rfl)
    dsimp only
    split
    · exact h.restHeld hheld rfl rfl rfl rfl (Or.inl ⟨rfl, rfl⟩) rfl rfl
    · rename_i hopen
      exact h.still rfl (iff_of_true rfl hheld) (fun _ => Iff.rfl) ⟨rfl, rfl, rfl, rfl, rfl⟩
        (fun _ hr => ⟨by rw [hc]; rfl, hr⟩) (fun _ hcl => absurd hcl hopen) fun hs => nomatch hs
  | compare =>
    have hheld : s.lock = some none := hlock.1 (by rw [hc]; rfl)
    dsimp only
    split
    · exact h.restHeld hheld rfl rfl rfl rfl (Or.inl ⟨rfl, rfl⟩) rfl rfl
    · exact h.still rfl (iff_of_true rfl hheld) (fun _ => Iff.rfl) ⟨rfl, rfl, rfl, rfl, rfl⟩
        (fun _ hr => ⟨by rw [hc]; rfl, hr⟩) (fun _ _ => by rw [hc]; rfl) fun hs => nomatch hs
  | testSeq =>
    have hheld : s.lock = some none := hlock.1 (by rw [hc]; rfl)
    dsimp only
    split
    · rename_i heq
      -- the counter has not moved: what has come up since then is still to be signalled
      have howing : s.Owing owes ∨ s.loaded < s.bumps → s.Ringing owes := by
        rintro (⟨i, hi⟩ | hlt)
        · exact ⟨i, rings_of_owed hi⟩
        · exact absurd (h.loaded_eq hb heq) (Nat.ne_of_lt hlt)
      refine h.still rfl (iff_of_true rfl hheld) (fun _ => Iff.rfl) ⟨rfl, rfl, rfl, rfl, rfl⟩
        (fun _ hr => ⟨by rw [hc]; rfl, hr⟩) (fun _ _ => by rw [hc]; rfl) fun _ hrc => howing ?_
      exact hrc.elim (h.ready (by rw [hc]; rfl)) (h.closed (by rw [hc]; rfl))
    · exact h.restHeld hheld rfl rfl rfl rfl (Or.inl ⟨rfl, rfl⟩) rfl rfl
  | testClosed =>
    have hheld : s.lock = some none := hlock.1 (by rw [hc]; rfl)
    dsimp only
    split
    · exact h.restHeld hheld rfl rfl rfl rfl (Or.inl ⟨rfl, rfl⟩) rfl rfl
    · refine h.still rfl (holds_iff_of_free rfl (by simp)) (fun i => ?_) ⟨rfl, rfl, rfl, rfl, rfl⟩
        (fun _ hr => ⟨by rw [hc]; rfl, hr⟩) (fun _ _ => by rw [hc]; rfl)
        fun _ => h.sleeps (by rw [hc]; rfl)
      rw [hheld]
      simp
  | woken timedOut =>
    dsimp only
    split
    · rename_i hnone
      have hnone := Option.isNone_iff_eq_none.1 hnone
      cases timedOut with
      | true =>
        exact h.rest rfl (iff_of_true rfl rfl) (fun i => hother i hnone) rfl rfl
          (Or.inl ⟨rfl, rfl⟩) rfl
      | false =>
        exact h.still rfl (iff_of_true rfl rfl) (fun i => hother i hnone) ⟨rfl, rfl, rfl, rfl, rfl⟩
          (fun _ hr => ⟨by rw [hc]; rfl, hr⟩) (fun _ _ => by rw [hc]; rfl) fun hs => nomatch hs
    · exact h
  | reload timedOut =>
    have hheld : s.lock = some none := hlock.1 (by rw [hc]; rfl)
    exact h.restHeld hheld rfl rfl rfl rfl (Or.inr ⟨rfl, rfl⟩) rfl rfl
  | release ret =>
    have hheld : s.lock = some none := hlock.1 (by rw [hc]; rfl)
    have hlock' : ∀ i : ι, none = some (some i) ↔ s.lock = some (some i) := by
      intro i
      rw [hheld]
      simp
    cases ret with
    | none =>
      exact h.rest rfl (holds_iff_of_free rfl (by simp)) hlock' rfl rfl (Or.inl ⟨rfl, rfl⟩) rfl
    | some r =>
      exact h.rest rfl (holds_iff_of_free rfl (by simp [State.return'])) hlock' rfl rfl
        (Or.inl ⟨rfl, rfl⟩) rfl

/-! ## Runs -/

omit [DecidableEq ι] in
theorem Inv.woken (h : Inv R owes s) (hc : s.consumer = .asleep) (timedOut : Bool) :
    Inv R owes { s with consumer := .woken timedOut } := by
  have hlock := h.consumerLock
  rw [hc] at hlock
  refine h.still rfl (holds_iff_of_free rfl fun hl => ?_) (fun _ => Iff.rfl)
    ⟨rfl, rfl, rfl, rfl, rfl⟩ (fun _ hr => ⟨by rw [hc]; rfl, hr⟩) (fun _ _ => by rw [hc]; rfl)
    fun hs => nomatch hs
  exact nomatch hlock.2 hl

theorem Inv.step (hR : R.Lawful owes) (h : Inv R owes s) (hb : s.bumps < 2 ^ 64)
    (e : Event κ ι) : Inv R owes (step R s e) := by
  unfold EventCount.step
  cases e with
  | call i k =>
    dsimp only
    split
    · rename_i hi
      split
      · exact h.moved (by rw [hi]; rfl) rfl (by rw [hi]; exact False.elim)
          (by rw [hi]; exact False.elim) Or.inl Or.inl
      · exact h
    · exact h
  | callClose i =>
    dsimp only
    split
    · rename_i hi
      exact h.moved (by rw [hi]; rfl) rfl (by rw [hi]; exact False.elim)
        (by rw [hi]; exact False.elim) Or.inl Or.inl
    · exact h
  | produce i => exact h.produce hR i
  | wait timeoutMs =>
    dsimp only
    split
    · rename_i hc
      have hlock := h.consumerLock
      rw [hc] at hlock
      exact h.restFree (fun hl => nomatch hlock.2 hl) rfl rfl rfl rfl (Or.inl ⟨rfl, rfl⟩) rfl rfl
    · exact h
  | consume => exact h.consume hR hb
  | wakeUp =>
    dsimp only
    split
    · rename_i hc
      exact h.woken hc false
    · exact h
  | expire =>
    dsimp only
    split
    · rename_i hc
      split
      · exact h.woken hc true
      · exact h
    · exact h

/-- Signals are only added. -/
theorem bumps_le_step (s : State ρ α κ ι) (e : Event κ ι) : s.bumps ≤ (step R s e).bumps := by
  have htaken : ∀ (s' : State ρ α κ ι) (a : α), s.bumps = s'.bumps →
      s.bumps ≤ (s'.taken R a).bumps := by
    intro s' a hsame
    unfold State.taken
    split <;> exact Nat.le_of_eq hsame
  cases e with
  | produce i =>
    simp only [step, State.produce]
    repeat' split
    all_goals first | exact Nat.le_refl _ | exact Nat.le_succ _
  | consume =>
    simp only [step, State.consume]
    repeat' split
    all_goals first | exact Nat.le_refl _ | exact htaken _ _ rfl
  | _ =>
    simp only [step]
    repeat' split
    all_goals exact Nat.le_refl _

/-- **The invariant of the pattern** holds after every run, as long as the counter has not come
round. -/
theorem Inv.run (hR : R.Lawful owes) (h : Inv R owes s) (es : List (Event κ ι))
    (hb : (run (EventCount.step R) s es).bumps < 2 ^ 64) :
    Inv R owes (run (EventCount.step R) s es) := by
  have hstep : ∀ (s : State ρ α κ ι) (e : Event κ ι), (s.bumps < 2 ^ 64 → Inv R owes s) →
      (EventCount.step R s e).bumps < 2 ^ 64 → Inv R owes (EventCount.step R s e) := by
    intro s e ih hb'
    have hb := Nat.lt_of_le_of_lt (bumps_le_step s e) hb'
    exact (ih hb).step hR hb e
  exact run_invariant (P := fun s => s.bumps < 2 ^ 64 → Inv R owes s) hstep (fun _ => h) es hb

omit [DecidableEq ι] in
theorem inv_initial (res : ρ) : Inv R owes ({ res := res } : State ρ α κ ι) where
  consumerLock := holds_iff_of_free rfl (by simp)
  producerLock _ := iff_of_false Bool.false_ne_true (by simp)
  seq := rfl
  mySeq := rfl
  loaded := Nat.le_refl 0
  ready ht := nomatch ht
  closed hs := nomatch hs
  sleeps hs := nomatch hs

/-- What every action keeps of the resource holds after every run. -/
theorem res_run {I : ρ → Prop} (hact : ∀ k r, I r → I (R.act k r).2)
    (htake : ∀ r, I r → I (R.take r).2) (htally : ∀ f, R.tally = some f → ∀ r, I r → I (f r))
    (h : I s.res) (es : List (Event κ ι)) : I (run (EventCount.step R) s es).res := by
  refine run_invariant (P := fun s : State ρ α κ ι => I s.res) (fun s e hs => ?_) h es
  have htallied : ∀ r, I r → I ((R.tally.getD id) r) := by
    intro r hr
    cases hf : R.tally with
    | none => exact hr
    | some f => exact htally f hf r hr
  have htaken : ∀ (s' : State ρ α κ ι) (a : α), I s'.res → I (s'.taken R a).res := by
    intro s' a hs'
    unfold State.taken
    split
    · exact hs'
    · exact hs'
  cases e with
  | produce i =>
    simp only [EventCount.step, State.produce]
    repeat' split
    all_goals first | exact hs | exact hact _ _ hs
  | consume =>
    have hres := htake s.res hs
    simp only [EventCount.step, State.consume]
    cases s.consumer with
    | take =>
      dsimp only
      split
      · rename_i htk
        rw [htk] at hres
        exact htaken _ _ hres
      · rename_i htk
        rw [htk] at hres
        exact hres
    | takeLocked =>
      dsimp only
      split
      · rename_i htk
        rw [htk] at hres
        exact htallied _ hres
      · rename_i htk
        rw [htk] at hres
        exact hres
    | tally a =>
      dsimp only
      split
      · exact htallied _ hs
      · exact hs
    | release ret => cases ret <;> exact hs
    | _ =>
      dsimp only
      repeat' split
      all_goals exact hs
  | _ =>
    simp only [EventCount.step]
    repeat' split
    all_goals exact hs

/-- What the consumer has taken and not yet returned. -/
def Consumer.inHand : Consumer α → List α
  | .release (some (some a)) | .tally a => [a]
  | _ => []

/-- What was taken is, in order, what the consumer returned and what it has in its hand. -/
def State.Logged (log : ρ → List α) (s : State ρ α κ ι) : Prop :=
  log s.res = s.results.reduceOption ++ s.consumer.inHand

section

variable {log : ρ → List α}

omit [DecidableEq ι] in
theorem State.Logged.move {s' : State ρ α κ ι} (h : s.Logged log) (hres : log s'.res = log s.res)
    (hresults : s'.results = s.results) (hhand : s'.consumer.inHand = s.consumer.inHand) :
    s'.Logged log := by
  unfold State.Logged
  rw [hres, hresults, hhand]
  exact h

omit [DecidableEq ι] in
theorem State.Logged.return' {r : Option α} (h : log s.res = s.results.reduceOption ++ r.toList) :
    (s.return' r).Logged log := by
  show log s.res = (s.results ++ [r]).reduceOption ++ []
  rw [h, List.reduceOption_append, List.reduceOption_singleton, List.append_nil]

omit [DecidableEq ι] in
theorem State.Logged.taken {res : ρ} {a : α} (h : log res = s.results.reduceOption ++ [a]) :
    ({ s with res := res }.taken R a).Logged log := by
  unfold State.taken
  split
  · exact State.Logged.return' (r := some a) h
  · exact h

omit [DecidableEq ι] in
theorem State.Logged.consume (htake : ∀ r, log (R.take r).2 = log r ++ (R.take r).1.toList)
    (htally : ∀ f, R.tally = some f → ∀ r, log (f r) = log r) (h : s.Logged log) :
    (s.consume R).Logged log := by
  have htallied : ∀ r, log ((R.tally.getD id) r) = log r := by
    intro r
    cases hf : R.tally with
    | none => rfl
    | some f => exact htally f hf r
  have hres := htake s.res
  unfold State.Logged at h
  unfold State.consume
  cases hc : s.consumer with
  | take =>
    rw [h, hc] at hres
    dsimp only
    split
    · rename_i htk
      rw [htk] at hres
      exact State.Logged.taken (by simpa [Consumer.inHand] using hres)
    · rename_i htk
      rw [htk] at hres
      simpa [State.Logged, Consumer.inHand] using hres
  | takeLocked =>
    rw [h, hc] at hres
    dsimp only
    split
    · rename_i htk
      rw [htk] at hres
      simpa [State.Logged, htallied, Consumer.inHand] using hres
    · rename_i htk
      rw [htk] at hres
      simpa [State.Logged, Consumer.inHand] using hres
  | tally a =>
    rw [hc] at h
    dsimp only
    split
    · exact State.Logged.return' (r := some a) ((htallied s.res).trans h)
    · rw [State.Logged, hc, h]
  | release ret =>
    rw [hc] at h
    cases ret with
    | none => exact h
    | some r =>
      refine State.Logged.return' (s := { s with lock := none }) (h.trans ?_)
      cases r <;> rfl
  | closed =>
    rw [hc] at h
    dsimp only
    repeat' split
    all_goals first | exact State.Logged.return' (r := none) h | exact h
  | reload timedOut =>
    rw [hc] at h
    cases timedOut <;> exact h
  | _ =>
    dsimp only
    repeat' split
    all_goals exact State.Logged.move (s := s) h rfl rfl (by simp [hc, Consumer.inHand])

/-- **Everything that is taken is returned**, once and in order: `log` is a record of it. -/
theorem State.Logged.run (hact : ∀ k r, log (R.act k r).2 = log r)
    (htake : ∀ r, log (R.take r).2 = log r ++ (R.take r).1.toList)
    (htally : ∀ f, R.tally = some f → ∀ r, log (f r) = log r) (h : s.Logged log)
    (es : List (Event κ ι)) : (run (EventCount.step R) s es).Logged log := by
  refine run_invariant (P := State.Logged log) (fun s e hs => ?_) h es
  cases e with
  | consume => exact State.Logged.consume htake htally hs
  | produce i =>
    simp only [EventCount.step, State.produce]
    cases s.producer i with
    | «at» k =>
      dsimp only
      split
      · exact hs
      · exact hs.move (hact k s.res) rfl rfl
    | notify =>
      dsimp only
      split
      · rename_i hc
        exact hs.move rfl rfl (by rw [hc]; rfl)
      · exact hs.move rfl rfl rfl
    | _ =>
      dsimp only
      repeat' split
      all_goals exact hs
  | call i k =>
    simp only [EventCount.step]
    repeat' split
    all_goals exact hs
  | callClose i =>
    simp only [EventCount.step]
    split <;> exact hs
  | wait timeoutMs =>
    simp only [EventCount.step]
    split
    · rename_i hc
      exact hs.move rfl rfl (by rw [hc]; rfl)
    · exact hs
  | wakeUp =>
    simp only [EventCount.step]
    split
    · rename_i hc
      exact hs.move rfl rfl (by rw [hc]; rfl)
    · exact hs
  | expire =>
    simp only [EventCount.step]
    split
    · rename_i hc
      split
      · exact hs.move rfl rfl (by rw [hc]; rfl)
      · exact hs
    · exact hs

end

/-! ## No lost wake-up -/

omit [DecidableEq ι] in
/-- **No lost wake-up.** The consumer sleeps while nobody is about to signal only if there is
nothing to take and the queue is open. -/
theorem Inv.asleep (h : Inv R owes s) (hc : s.consumer = .asleep) (hquiet : ¬s.Ringing owes) :
    ¬R.Ready s.res ∧ s.isClosed = false := by
  have hsleeps := h.sleeps (by rw [hc]; rfl)
  exact ⟨fun hr => hquiet (hsleeps (Or.inl hr)),
    Bool.eq_false_iff.2 fun hcl => hquiet (hsleeps (Or.inr hcl))⟩

/-- Nobody else is at work. -/
def State.Quiet (s : State ρ α κ ι) : Prop := ∀ i, s.producer i = .idle

omit [DecidableEq ι] in
theorem not_ringing_of_quiet (h : s.Quiet) : ¬s.Ringing owes := by
  rintro ⟨i, hi⟩
  rw [h i] at hi
  exact hi

omit [DecidableEq ι] in
theorem not_owing_of_quiet (h : s.Quiet) : ¬s.Owing owes := fun ⟨i, hi⟩ =>
  not_ringing_of_quiet h ⟨i, rings_of_owed hi⟩

/-! ## Progress -/

variable (R) in
/-- After `n` steps of its own the consumer has returned `r`. -/
def Returns (n : ℕ) (s : State ρ α κ ι) (r : Option α) : Prop :=
  ((State.consume R)^[n] s).consumer = .idle ∧
    ((State.consume R)^[n] s).results = s.results ++ [r]

section

omit [DecidableEq ι]

variable {n : ℕ} {r : Option α}

theorem consume_of_idle (h : s.consumer = .idle) : s.consume R = s := by
  rw [State.consume, h]

theorem Returns.succ (h : Returns R n s r) : Returns R (n + 1) s r := by
  unfold Returns at h ⊢
  rw [Function.iterate_succ_apply', consume_of_idle h.1]
  exact h

theorem Returns.mono {m : ℕ} (h : Returns R n s r) (hle : n ≤ m) : Returns R m s r := by
  induction hle with
  | refl => exact h
  | step _ ih => exact ih.succ

/-- The first step returns. -/
theorem returns_one {t : State ρ α κ ι} (h : s.consume R = t.return' r)
    (hresults : t.results = s.results) : Returns R 1 s r := by
  refine ⟨?_, ?_⟩
  · rw [Function.iterate_one, h]
    rfl
  · rw [Function.iterate_one, h, ← hresults]
    rfl

/-- The first step goes on. -/
theorem Returns.next {t : State ρ α κ ι} (h : Returns R n t r) (hstep : s.consume R = t)
    (hresults : t.results = s.results) : Returns R (n + 1) s r := by
  unfold Returns at h ⊢
  rw [Function.iterate_succ_apply, hstep, ← hresults]
  exact h

/-- What was taken without `wait_lock` is returned. -/
theorem returns_taken {a : α} (hfree : s.lock = none) :
    (s.taken R a).results = s.results ∧ Returns R 1 (s.taken R a) (some a) ∨
      s.taken R a = s.return' (some a) := by
  unfold State.taken
  cases htally : R.tally with
  | none => exact Or.inr rfl
  | some f =>
    refine Or.inl ⟨rfl, returns_one (t := { s with res := f s.res, consumer := .tally a }) ?_ rfl⟩
    simp only [State.consume, hfree, htally, Option.getD_some, Option.isNone_none, if_true]

theorem returns_release {x : Option α} (hc : s.consumer = .release (some x)) : Returns R 1 s x :=
  returns_one (t := { s with lock := none }) (by simp only [State.consume, hc]) rfl

/-- Taking without `wait_lock`. -/
theorem returns_take (hc : s.consumer = .take) (hfree : s.lock = none)
    (hrc : R.Ready s.res ∨ s.isClosed = true) : Returns R 2 s (R.take s.res).1 := by
  cases htake : R.take s.res with
  | mk out res =>
  cases out with
  | some a =>
    have hstep : s.consume R = State.taken R { s with res := res } a := by
      simp only [State.consume, hc, htake]
    rcases returns_taken (R := R) (s := { s with res := res }) (a := a) hfree with ⟨hres, h⟩ | hret
    · exact h.next hstep hres
    · exact (returns_one (hstep.trans hret) rfl).succ
  | none =>
    have hclosed : s.isClosed = true := hrc.resolve_left fun hr => hr (by rw [htake])
    have hstep : s.consume R = { s with res := res, consumer := .closed } := by
      simp only [State.consume, hc, htake]
    refine Returns.next (n := 1)
      (returns_one (t := { s with res := res, consumer := .closed }) ?_ rfl) hstep rfl
    simp only [State.consume, hclosed, if_true]

/-- Going round. -/
theorem returns_goRound (hc : s.consumer = .release none)
    (hrc : R.Ready s.res ∨ s.isClosed = true) : Returns R 3 s (R.take s.res).1 :=
  (returns_take (s := { s with lock := none, consumer := .take }) rfl rfl hrc).next
    (by simp only [State.consume, hc]) rfl

theorem returns_reload (hc : s.consumer = .reload false)
    (hrc : R.Ready s.res ∨ s.isClosed = true) : Returns R 4 s (R.take s.res).1 :=
  (returns_goRound (s := { s with mySeq := s.seq, loaded := s.bumps, consumer := .release none })
    rfl hrc).next (by simp only [State.consume, hc]; rfl) rfl

theorem returns_timedOut (hc : s.consumer = .reload true) : Returns R 2 s none :=
  (returns_release (s := { s with
    mySeq := s.seq, loaded := s.bumps, consumer := .release (some none) }) rfl).next
      (by simp only [State.consume, hc]; rfl) rfl

/-- Taking with `wait_lock`. -/
theorem returns_takeLocked (hc : s.consumer = .takeLocked)
    (hrc : R.Ready s.res ∨ s.isClosed = true) : Returns R 3 s (R.take s.res).1 := by
  cases htake : R.take s.res with
  | mk out res =>
  cases out with
  | some a =>
    refine Returns.succ (Returns.next (t := { s with
      res := (R.tally.getD id) res, consumer := .release (some (some a)) })
      (returns_release rfl) ?_ rfl)
    simp only [State.consume, hc, htake]
  | none =>
    have hclosed : s.isClosed = true := hrc.resolve_left fun hr => hr (by rw [htake])
    have hlast : Returns R 2
        ({ s with res := res, consumer := .closedLocked } : State ρ α κ ι) none := by
      refine Returns.next (t := { s with res := res, consumer := .release (some none) })
        (returns_release rfl) ?_ rfl
      simp only [State.consume, hclosed, if_true]
    exact hlast.next (by simp only [State.consume, hc, htake]) rfl

theorem returns_acquire (hc : s.consumer = .acquire) (hfree : s.lock = none)
    (hrc : R.Ready s.res ∨ s.isClosed = true) : Returns R 4 s (R.take s.res).1 :=
  (returns_takeLocked (s := { s with lock := some none, consumer := .takeLocked }) rfl hrc).next
    (by simp only [State.consume, hc, hfree]; rfl) rfl

/-- What has come up since the consumer looked has been signalled. -/
theorem Inv.seq_ne_of_quiet (h : Inv R owes s) (hb : s.bumps < 2 ^ 64) (hquiet : s.Quiet)
    (hs : s.consumer.sawOpen = true) (hrc : R.Ready s.res ∨ s.isClosed = true) :
    s.seq ≠ s.mySeq := by
  intro heq
  have hmoved : s.loaded < s.bumps := by
    rcases hrc with hr | hcl
    · exact (h.ready (tried_of_sawOpen hs) hr).resolve_left (not_owing_of_quiet hquiet)
    · exact (h.closed hs hcl).resolve_left (not_owing_of_quiet hquiet)
  exact Nat.ne_of_lt hmoved (h.loaded_eq hb heq)

theorem returns_compare (hc : s.consumer = .compare) (hseq : s.seq ≠ s.mySeq)
    (hrc : R.Ready s.res ∨ s.isClosed = true) : Returns R 5 s (R.take s.res).1 :=
  (returns_reload (s := { s with consumer := .reload false }) rfl hrc).next
    (by simp only [State.consume, hc, if_pos hseq]) rfl

theorem returns_testSeq (hc : s.consumer = .testSeq) (hseq : s.seq ≠ s.mySeq)
    (hrc : R.Ready s.res ∨ s.isClosed = true) : Returns R 5 s (R.take s.res).1 :=
  (returns_reload (s := { s with consumer := .reload false }) rfl hrc).next
    (by simp only [State.consume, hc, if_neg hseq]) rfl

/-- The consumer left alone has found nothing, without `wait_lock`. -/
theorem returns_closed (hc : s.consumer = .closed) (hfree : s.lock = none)
    (hrc : R.Ready s.res ∨ s.isClosed = true) :
    ∃ r, Returns R 5 s r ∧
      (s.isClosed = false → s.timeoutMs ≠ 0 → r = (R.take s.res).1) := by
  by_cases hcl : s.isClosed = true
  · refine ⟨none, (returns_one (t := s) ?_ rfl).mono (by decide),
      fun h => nomatch hcl.symm.trans h⟩
    simp only [State.consume, hc, hcl, if_true]
  by_cases ht : s.timeoutMs = 0
  · refine ⟨none, (returns_one (t := s) ?_ rfl).mono (by decide), fun _ h => absurd ht h⟩
    simp only [State.consume, hc, if_neg hcl, if_pos ht]
  · refine ⟨_, (returns_acquire (s := { s with consumer := .acquire }) rfl hfree hrc).next ?_ rfl,
      fun _ _ => rfl⟩
    simp only [State.consume, hc, if_neg hcl, if_neg ht]

/-- The consumer left alone has found nothing, with `wait_lock`. -/
theorem returns_closedLocked (h : Inv R owes s) (hb : s.bumps < 2 ^ 64) (hquiet : s.Quiet)
    (hc : s.consumer = .closedLocked) (hrc : R.Ready s.res ∨ s.isClosed = true) :
    ∃ r, Returns R 6 s r ∧ (s.isClosed = false → r = (R.take s.res).1) := by
  by_cases hcl : s.isClosed = true
  · refine ⟨none, Returns.mono (n := 2) ?_ (by decide), fun h => nomatch hcl.symm.trans h⟩
    refine (returns_release (s := { s with consumer := .release (some none) }) rfl).next ?_ rfl
    simp only [State.consume, hc, if_pos hcl]
  · have hr : R.Ready s.res := hrc.resolve_right hcl
    have hmoved : s.loaded < s.bumps :=
      (h.ready (by rw [hc]; rfl) hr).resolve_left (not_owing_of_quiet hquiet)
    have hseq : s.seq ≠ s.mySeq := fun heq => Nat.ne_of_lt hmoved (h.loaded_eq hb heq)
    refine ⟨_, (returns_compare (s := { s with consumer := .compare }) rfl hseq hrc).next ?_ rfl,
      fun _ => rfl⟩
    simp only [State.consume, hc, if_neg hcl]

/-- The consumer has made up its mind what to return. -/
def Consumer.decided : Consumer α → Bool
  | .release (some _) | .tally _ | .woken true | .reload true => true
  | _ => false

/-- **Progress.** A consumer left alone while there is something to take, or the queue is closed,
returns within six steps; it returns what there is to take unless it is done with looking. -/
theorem Inv.returns (h : Inv R owes s) (hb : s.bumps < 2 ^ 64) (hquiet : s.Quiet)
    (hrc : R.Ready s.res ∨ s.isClosed = true) (hbusy : s.consumer ≠ .idle) :
    ∃ r, Returns R 6 s r ∧ (s.consumer.decided = false → s.isClosed = false → s.timeoutMs ≠ 0 →
      r = (R.take s.res).1) := by
  have hawake : s.consumer.sleeps = false :=
    Bool.eq_false_iff.2 fun hs => not_ringing_of_quiet hquiet (h.sleeps hs hrc)
  -- nobody but the consumer can have the lock
  have hfree : s.consumer.holds = false → s.lock = none := by
    intro hholds
    cases hl : s.lock with
    | none => rfl
    | some o =>
      cases o with
      | none => rw [h.consumerLock.2 hl] at hholds; cases hholds
      | some i =>
        have hi := (h.producerLock i).2 hl
        rw [hquiet i] at hi
        cases hi
  cases hc : s.consumer with
  | idle => exact absurd hc hbusy
  | load =>
    refine ⟨_, Returns.mono (n := 3) ?_ (by decide), fun _ _ _ => rfl⟩
    refine (returns_take (s := { s with mySeq := s.seq, loaded := s.bumps, consumer := .take })
      rfl (hfree (by rw [hc]; rfl)) hrc).next ?_ rfl
    simp only [State.consume, hc]
  | take =>
    exact ⟨_, (returns_take hc (hfree (by rw [hc]; rfl)) hrc).mono (by decide), fun _ _ _ => rfl⟩
  | closed =>
    obtain ⟨r, hr, heq⟩ := returns_closed hc (hfree (by rw [hc]; rfl)) hrc
    exact ⟨r, hr.succ, fun _ => heq⟩
  | acquire =>
    exact ⟨_, (returns_acquire hc (hfree (by rw [hc]; rfl)) hrc).mono (by decide), fun _ _ _ => rfl⟩
  | takeLocked => exact ⟨_, (returns_takeLocked hc hrc).mono (by decide), fun _ _ _ => rfl⟩
  | closedLocked =>
    obtain ⟨r, hr, heq⟩ := returns_closedLocked h hb hquiet hc hrc
    exact ⟨r, hr, fun _ hcl _ => heq hcl⟩
  | compare =>
    have hseq := h.seq_ne_of_quiet hb hquiet (by rw [hc]; rfl) hrc
    exact ⟨_, (returns_compare hc hseq hrc).succ, fun _ _ _ => rfl⟩
  | testSeq =>
    have hseq := h.seq_ne_of_quiet hb hquiet (by rw [hc]; rfl) hrc
    exact ⟨_, (returns_testSeq hc hseq hrc).succ, fun _ _ _ => rfl⟩
  | testClosed => rw [hc] at hawake; cases hawake
  | asleep => rw [hc] at hawake; cases hawake
  | woken timedOut =>
    have hnone := hfree (by rw [hc]; rfl)
    cases timedOut with
    | true =>
      refine ⟨none, Returns.mono (n := 3) ?_ (by decide), fun hd => nomatch hd⟩
      refine (returns_timedOut (s := { s with lock := some none, consumer := .reload true })
        rfl).next ?_ rfl
      simp only [State.consume, hc, hnone]
      rfl
    | false =>
      have hseq := h.seq_ne_of_quiet hb hquiet (by rw [hc]; rfl) hrc
      refine ⟨_, (returns_testSeq (s := { s with lock := some none, consumer := .testSeq })
        rfl hseq hrc).next ?_ rfl, fun _ _ _ => rfl⟩
      simp only [State.consume, hc, hnone]
      rfl
  | reload timedOut =>
    cases timedOut with
    | true => exact ⟨none, (returns_timedOut hc).mono (by decide), fun hd => nomatch hd⟩
    | false => exact ⟨_, (returns_reload hc hrc).mono (by decide), fun _ _ _ => rfl⟩
  | release ret =>
    cases ret with
    | none => exact ⟨_, (returns_goRound hc hrc).mono (by decide), fun _ _ _ => rfl⟩
    | some r => exact ⟨r, (returns_release hc).mono (by decide), fun hd => nomatch hd⟩
  | tally a =>
    refine ⟨some a, Returns.mono (n := 1) ?_ (by decide), fun hd => nomatch hd⟩
    refine returns_one (t := { s with res := (R.tally.getD id) s.res }) ?_ rfl
    simp only [State.consume, hc, hfree (by rw [hc]; rfl)]
    rfl

end

end NanoHat.EventCount
