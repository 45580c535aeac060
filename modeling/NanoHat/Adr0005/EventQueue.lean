import Mathlib.Data.List.TakeWhile
import NanoHat.Adr0005.RingQueueList
import NanoHat.Foundations.Runs

/-!
# The event queue of the threaded implementation

The functions of `event_queue.c` over the ring queue. Ticks are merged into a tick that waits; a
full queue gives the place of its first tick to an event that is not a tick. A `Session` records
the events that were accepted and those that were popped, ticks apart. They come out in the order
in which they went in precisely as long as no event takes the place of a tick that others wait
behind (`delivered_iff`).
-/

namespace NanoHat.Adr0005

open FirstMatch Runs

/-- `app_event_type_t` -/
inductive AppEventType
  | none
  | btnK1Short
  | btnK2Short
  | btnK3Short
  | btnK1Long
  | btnK2Long
  | btnK3Long
  | tick
  | shutdown
  deriving DecidableEq

/-- `app_event_t` -/
structure AppEvent where
  type : AppEventType
  line : UInt8 := 0
  timestampNs : UInt64 := 0
  data : UInt32 := 0
  deriving DecidableEq

/-- `sizeof(app_event_t)` -/
def appEventSize : ℕ := 24

/-- `event_queue_result_t` -/
inductive EventQueueResult
  | ok
  | replaced
  | dropped
  | err
  deriving DecidableEq

/-- `event_queue_t`, without what only `event_queue_wait` reads. -/
structure EventQueue where
  ring : RingQueue AppEvent
  replacedTicks : UInt64 := 0
  droppedCritical : UInt64 := 0
  seq : UInt64 := 0

/-- `event_queue_match_tick` -/
def eventQueueMatchTick (item : AppEvent) : Bool := item.type = .tick

/-- `event_queue_merge_tick` -/
def eventQueueMergeTick : MergeFn AppEvent := fun existing incoming =>
  if incoming.type ≠ .tick then (false, existing)
  else if existing.type ≠ .tick then (false, existing)
  else
    (true, { existing with
      data := existing.data + incoming.data, timestampNs := incoming.timestampNs })

/-- `event_queue_init` -/
def eventQueueInit (malloc : Option (ℕ → AppEvent)) (capacity : ℕ) : Option EventQueue :=
  if capacity = 0 then none
  else
    (ringQueueInit malloc capacity appEventSize).map fun ring =>
      { ring := (ring.setOverflowPolicy .coalesce).setMergeFn (some eventQueueMergeTick) }

namespace EventQueue

/-- `event_queue_signal` -/
def signal (q : EventQueue) : EventQueue := { q with seq := q.seq + 1 }

/-- `event_queue_push` -/
def push (q : EventQueue) (event : AppEvent) : EventQueueResult × EventQueue :=
  match q.ring.push event with
  | (.ok, ring) => (.ok, { q with ring := ring }.signal)
  | (.merged, ring) => (.ok, { q with ring := ring }.signal)
  | (.dropped, ring) =>
    if event.type = .tick then (.dropped, { q with ring := ring })
    else
      match ring.replaceFirstIf eventQueueMatchTick event with
      | (true, ring) =>
        (.replaced, { q with ring := ring, replacedTicks := q.replacedTicks + 1 }.signal)
      | (false, ring) =>
        (.dropped, { q with ring := ring, droppedCritical := q.droppedCritical + 1 })
  | (.err, ring) => (.err, { q with ring := ring })

/-- `event_queue_try_pop` -/
def tryPop (q : EventQueue) : Option AppEvent × EventQueue :=
  (q.ring.pop.1, { q with ring := q.ring.pop.2 })

/-- The contents, oldest first. -/
def items (q : EventQueue) : List AppEvent := q.ring.items

/-- The ring is as `event_queue_init` set it up. -/
abbrev Good (q : EventQueue) : Prop := q.ring.SetUp .coalesce (some eventQueueMergeTick)

end EventQueue

/-! ## Sessions -/

/-- The events that are not ticks: buttons and shutdown. -/
def critical (events : List AppEvent) : List AppEvent := events.filter fun e => e.type ≠ .tick

/-- A queue, the critical events it accepted and those that were popped, each in order. -/
structure Session where
  queue : EventQueue
  accepted : List AppEvent := []
  popped : List AppEvent := []

inductive EventCall
  | push (event : AppEvent)
  | tryPop

namespace Session

def step (s : Session) : EventCall → Session
  | .push event =>
    { s with
      queue := (s.queue.push event).2
      accepted :=
        if (s.queue.push event).1 = .ok ∨ (s.queue.push event).1 = .replaced then
          s.accepted ++ critical [event]
        else s.accepted }
  | .tryPop =>
    { s with
      queue := s.queue.tryPop.2
      popped := s.popped ++ critical s.queue.tryPop.1.toList }

/-- What was accepted is what was popped and, behind it, what waits, in this order. -/
def Delivered (s : Session) : Prop := s.popped ++ critical s.queue.items = s.accepted

instance (s : Session) : Decidable s.Delivered := inferInstanceAs (Decidable (_ = _))

/-- A critical event is refused only by a full queue without a tick. -/
def RefusesWhenFull (s : Session) : EventCall → Prop
  | .push event => event.type ≠ .tick → (s.queue.push event).1 = .dropped →
      s.queue.items.length = s.queue.ring.capacity ∧ ∀ e ∈ s.queue.items, e.type ≠ .tick
  | .tryPop => True

/-- The events behind the first tick. -/
def behindTick (events : List AppEvent) : List AppEvent :=
  (events.dropWhile fun e => e.type ≠ .tick).tail

/-- A critical event that finds the queue full finds no other critical event behind the first
tick, or only such as are equal to it. -/
def NoneBehindTick (s : Session) : EventCall → Prop
  | .push event => event.type ≠ .tick → s.queue.items.length = s.queue.ring.capacity →
      ∀ e ∈ critical (behindTick s.queue.items), e = event
  | .tryPop => True

instance (s : Session) : ∀ c, Decidable (s.NoneBehindTick c)
  | .push _ => inferInstanceAs (Decidable (_ → _ → _))
  | .tryPop => instDecidableTrue

end Session

/-! ## What a push does -/

/-- `event_queue_merge_tick` merges a tick into a tick, and touches nothing else. -/
theorem mergeTick_eq (existing incoming : AppEvent) :
    incoming.type = .tick ∧ existing.type = .tick ∧
        eventQueueMergeTick existing incoming = (true, { existing with
          data := existing.data + incoming.data, timestampNs := incoming.timestampNs }) ∨
      ¬(incoming.type = .tick ∧ existing.type = .tick) ∧
        eventQueueMergeTick existing incoming = (false, existing) := by
  unfold eventQueueMergeTick
  by_cases hin : incoming.type = .tick
  · by_cases hex : existing.type = .tick
    · exact Or.inl ⟨hin, hex, by rw [if_neg (not_not.2 hin), if_neg (not_not.2 hex)]⟩
    · exact Or.inr ⟨fun h => hex h.2, by rw [if_neg (not_not.2 hin), if_pos hex]⟩
  · exact Or.inr ⟨fun h => hin h.1, if_pos hin⟩

theorem keepsRefused_mergeTick : eventQueueMergeTick.KeepsRefused := by
  intro existing incoming hno
  rcases mergeTick_eq existing incoming with ⟨-, -, heq⟩ | ⟨-, heq⟩
  · rw [heq] at hno
    cases hno
  · rw [heq]

theorem mergeTick_eq_some {existing incoming merged : AppEvent}
    (h : eventQueueMergeTick.merged incoming existing = some merged) :
    incoming.type = .tick ∧ existing.type = .tick ∧ merged.type = .tick := by
  unfold MergeFn.merged at h
  rcases mergeTick_eq existing incoming with ⟨hin, hex, heq⟩ | ⟨-, heq⟩
  · rw [heq, if_pos rfl] at h
    obtain rfl := Option.some.inj h
    exact ⟨hin, hex, hex⟩
  · rw [heq, if_neg Bool.false_ne_true] at h
    cases h

theorem mergeTick_eq_none {existing incoming : AppEvent} (hin : incoming.type = .tick)
    (h : eventQueueMergeTick.merged incoming existing = none) : existing.type ≠ .tick := by
  intro hex
  unfold MergeFn.merged at h
  rcases mergeTick_eq existing incoming with ⟨-, -, heq⟩ | ⟨hno, -⟩
  · rw [heq, if_pos rfl] at h
    cases h
  · exact hno ⟨hin, hex⟩

/-- The four outcomes of a push. -/
inductive EventQueue.Pushed (q : EventQueue) (event : AppEvent) :
    EventQueueResult → List AppEvent → Prop
  /-- A tick is merged into a tick. -/
  | merged {pre post : List AppEvent} {t t' : AppEvent} (hitems : q.items = pre ++ t :: post)
      (ht : t.type = .tick) (ht' : t'.type = .tick) (hevent : event.type = .tick) :
      Pushed q event .ok (pre ++ t' :: post)
  | appended (hfree : q.items.length < q.ring.capacity) : Pushed q event .ok (q.items ++ [event])
  /-- A critical event takes the place of the first tick of a full queue. -/
  | replaced {pre post : List AppEvent} {t : AppEvent} (hevent : event.type ≠ .tick)
      (hfull : q.items.length = q.ring.capacity) (hitems : q.items = pre ++ t :: post)
      (hpre : ∀ e ∈ pre, e.type ≠ .tick) (ht : t.type = .tick) :
      Pushed q event .replaced (pre ++ event :: post)
  /-- A full queue without a tick. -/
  | dropped (hfull : q.items.length = q.ring.capacity) (hnone : ∀ e ∈ q.items, e.type ≠ .tick) :
      Pushed q event .dropped q.items

theorem EventQueue.Pushed.cast {q : EventQueue} {event : AppEvent} {result : EventQueueResult}
    {items items' : List AppEvent} (h : q.Pushed event result items) (hitems : items' = items) :
    q.Pushed event result items' := hitems ▸ h

/-- **One push** has one of the four outcomes. -/
theorem EventQueue.Good.push {q : EventQueue} (h : q.Good) (event : AppEvent) :
    (q.push event).2.Good ∧ q.Pushed event (q.push event).1 (q.push event).2.items := by
  obtain ⟨hring, hpushed⟩ := h.wellFormed.push event
  unfold EventQueue.push
  generalize q.ring.push event = p at hring hpushed
  obtain ⟨result, ring⟩ := p
  dsimp only at hring hpushed
  have hgood := h.of_sameKind hring
  generalize hitems : ring.items = items at hpushed
  cases hpushed with
  | @merged merge _ hpolicy hmerge hupdate =>
    obtain rfl : eventQueueMergeTick = merge := Option.some.inj (h.mergeFn.symm.trans hmerge)
    obtain ⟨pre, t, t', post, hq, -, htick, rfl⟩ := updateFirst_eq_some hupdate
    obtain ⟨hevent, ht, ht'⟩ := mergeTick_eq_some htick
    exact ⟨hgood, (Pushed.merged hq ht ht' hevent).cast hitems⟩
  | appended hno hfree => exact ⟨hgood, (Pushed.appended hfree).cast hitems⟩
  | overwrote hno hfull hpolicy =>
    rw [h.policy] at hpolicy
    cases hpolicy
  | dropped hno hfull hpolicy =>
    dsimp only
    by_cases hevent : event.type = .tick
    · rw [if_pos hevent]
      have hnone := hno h.policy _ h.mergeFn
      refine ⟨hgood, (Pushed.dropped hfull fun e he => ?_).cast hitems⟩
      exact mergeTick_eq_none hevent (hnone e he)
    · rw [if_neg hevent]
      obtain ⟨hring', hreplaced⟩ := hring.wellFormed.replaceFirstIf eventQueueMatchTick event
      generalize ring.replaceFirstIf eventQueueMatchTick event = p at hring' hreplaced
      obtain ⟨found, ring'⟩ := p
      dsimp only at hring' hreplaced
      have hgood' := hgood.of_sameKind hring'
      rw [hitems] at hreplaced
      have htick : ∀ e, eventQueueMatchTick e = false → e.type ≠ .tick :=
        fun e he => of_decide_eq_false he
      rcases hreplaced with ⟨rfl, pre, t, post, hq, hpre, ht, hitems'⟩ | ⟨rfl, hnone, hitems'⟩
      · have hpre' : ∀ e ∈ pre, e.type ≠ .tick := fun e he => htick e (hpre e he)
        exact ⟨hgood',
          (Pushed.replaced hevent hfull hq hpre' (of_decide_eq_true ht)).cast hitems'⟩
      · exact ⟨hgood', (Pushed.dropped hfull fun e he => htick e (hnone e he)).cast hitems'⟩

/-- **One pop** takes the oldest event, if there is one. -/
theorem EventQueue.Good.tryPop {q : EventQueue} (h : q.Good) :
    q.tryPop.2.Good ∧ q.tryPop.1.toList ++ q.tryPop.2.items = q.items := by
  obtain ⟨hring, hout, hitems⟩ := h.wellFormed.pop
  refine ⟨h.of_sameKind hring, ?_⟩
  unfold EventQueue.tryPop EventQueue.items
  dsimp only
  rw [hout, hitems]
  cases q.ring.items with
  | nil => rfl
  | cons event items => rfl

/-! ## Critical events -/

theorem critical_append (l l' : List AppEvent) : critical (l ++ l') = critical l ++ critical l' :=
  List.filter_append ..

theorem critical_cons_tick {t : AppEvent} (ht : t.type = .tick) (l : List AppEvent) :
    critical (t :: l) = critical l := List.filter_cons_of_neg (by simp [ht])

theorem critical_cons {e : AppEvent} (he : e.type ≠ .tick) (l : List AppEvent) :
    critical (e :: l) = e :: critical l := List.filter_cons_of_pos (by simp [he])

/-- What is behind the first tick. -/
theorem behindTick_append {pre post : List AppEvent} {t : AppEvent}
    (hpre : ∀ e ∈ pre, e.type ≠ .tick) (ht : t.type = .tick) :
    Session.behindTick (pre ++ t :: post) = post := by
  unfold Session.behindTick
  rw [List.dropWhile_append_of_pos (by simpa using hpre), List.dropWhile_cons_of_neg (by simp [ht])]
  rfl

theorem behindTick_eq_nil {l : List AppEvent} (hl : ∀ e ∈ l, e.type ≠ .tick) :
    Session.behindTick l = [] := by
  unfold Session.behindTick
  rw [List.dropWhile_eq_nil_iff.2 (by simpa using hl)]
  rfl

/-- Putting an entry in front of a list is putting it behind only if all entries are the same. -/
theorem cons_eq_concat_iff {α : Type*} (a : α) (l : List α) :
    a :: l = l ++ [a] ↔ ∀ b ∈ l, b = a := by
  induction l with
  | nil => simp
  | cons b l ih =>
    rw [List.cons_append, List.cons.injEq, List.forall_mem_cons]
    constructor
    · rintro ⟨rfl, htail⟩
      exact ⟨rfl, ih.1 htail⟩
    · rintro ⟨rfl, hl⟩
      exact ⟨rfl, ih.2 hl⟩

/-! ## Runs -/

namespace Session

variable {s : Session}

/-- **One call** keeps the order precisely when no critical event takes the place of a tick that
others wait behind. -/
theorem delivered_step (hgood : s.queue.Good) (h : s.Delivered) (c : EventCall) :
    (s.step c).Delivered ↔ s.NoneBehindTick c := by
  unfold Delivered at h ⊢
  cases c with
  | tryPop =>
    refine iff_of_true ?_ trivial
    unfold step
    dsimp only
    rw [List.append_assoc, ← critical_append, hgood.tryPop.2, h]
  | push event =>
    obtain ⟨-, hpushed⟩ := hgood.push event
    unfold step NoneBehindTick
    dsimp only
    generalize (s.queue.push event).2.items = items' at hpushed ⊢
    generalize (s.queue.push event).1 = result at hpushed ⊢
    rw [← h]
    cases hpushed with
    | merged hitems ht ht' hevent =>
      refine iff_of_true ?_ fun hno => absurd hevent hno
      rw [if_pos (Or.inl rfl), hitems, critical_append, critical_append, critical_cons_tick ht,
        critical_cons_tick ht', critical_cons_tick hevent]
      simp [critical]
    | appended hfree =>
      refine iff_of_true ?_ fun _ hfull => absurd hfull hfree.ne
      rw [if_pos (Or.inl rfl), critical_append, List.append_assoc]
    | replaced hevent hfull hitems hpre ht =>
      rw [if_pos (Or.inr rfl), hitems, behindTick_append hpre ht, critical_append, critical_append,
        critical_cons hevent, critical_cons_tick ht, critical_cons hevent]
      rw [List.append_assoc, List.append_assoc, List.append_cancel_left_eq,
        List.append_cancel_left_eq]
      refine (cons_eq_concat_iff event _).trans ⟨fun hsame _ _ => hsame, fun hsame => ?_⟩
      exact hsame hevent (hitems ▸ hfull)
    | dropped hfull hnone =>
      refine iff_of_true ?_ fun _ _ => ?_
      · rw [if_neg (by simp)]
      · rw [behindTick_eq_nil hnone]
        exact List.forall_mem_nil _

theorem refusesWhenFull (hgood : s.queue.Good) (c : EventCall) : s.RefusesWhenFull c := by
  cases c with
  | tryPop => trivial
  | push event =>
    intro _ hdropped
    obtain ⟨-, hpushed⟩ := hgood.push event
    rw [hdropped] at hpushed
    generalize (s.queue.push event).2.items = items' at hpushed
    cases hpushed with
    | dropped hfull hnone => exact ⟨hfull, hnone⟩

theorem good_step (hgood : s.queue.Good) (c : EventCall) : (s.step c).queue.Good := by
  cases c with
  | push event => exact (hgood.push event).1
  | tryPop => exact hgood.tryPop.1

end Session

theorem good_init {malloc : Option (ℕ → AppEvent)} {capacity : ℕ} {q : EventQueue}
    (hinit : eventQueueInit malloc capacity = some q) : q.Good ∧ q.items = [] := by
  unfold eventQueueInit at hinit
  split at hinit
  · cases hinit
  · obtain ⟨ring, hring, rfl⟩ := Option.map_eq_some_iff.1 hinit
    obtain ⟨hsetUp, hempty⟩ := setUp_init hring
    exact ⟨(hsetUp.setOverflowPolicy .coalesce).setMergeFn keepsRefused_mergeTick, hempty⟩

/-- **The event queue keeps its promise** in a run precisely when no critical event of the run finds
the queue full with another one behind the first tick. -/
theorem delivered_iff {malloc : Option (ℕ → AppEvent)} {capacity : ℕ} {q : EventQueue}
    (hinit : eventQueueInit malloc capacity = some q) (calls : List EventCall) :
    (Throughout Session.step Session.Delivered { queue := q } calls ∧
        Along Session.step Session.RefusesWhenFull { queue := q } calls) ↔
      Along Session.step Session.NoneBehindTick { queue := q } calls := by
  obtain ⟨hgood, hempty⟩ := good_init hinit
  have hstart : Session.Delivered { queue := q } := congrArg critical hempty
  have hrefuses : Along Session.step Session.RefusesWhenFull { queue := q } calls :=
    along_of_invariant (I := fun s : Session => s.queue.Good)
      (fun _ c hg => Session.good_step hg c) (fun _ c hg => Session.refusesWhenFull hg c) hgood calls
  refine (and_iff_left hrefuses).trans ?_
  exact throughout_iff_along (I := fun s : Session => s.queue.Good)
    (fun _ c hg _ => Session.good_step hg c)
    (fun _ c hg h => Session.delivered_step hg h c) hgood hstart calls

/-- A tick in front: the button takes its place, and the order is kept. -/
theorem delivered_iff_button : ∃ q, eventQueueInit (some fun _ => { type := .none }) 2 = some q ∧
    Throughout Session.step Session.Delivered { queue := q }
      [.push { type := .btnK1Short }, .push { type := .tick }, .push { type := .btnK2Short },
        .tryPop, .tryPop] := by
  have hinit : eventQueueInit (some fun _ => { type := .none }) 2 = some _ := rfl
  refine ⟨_, hinit, ((delivered_iff hinit _).2 ?_).1⟩
  decide +kernel

/-- A tick, then two buttons into two slots: the second button takes the place of the tick, and is
popped before the first. -/
theorem button_overtakes : ∃ q, eventQueueInit (some fun _ => { type := .none }) 2 = some q ∧
    ¬Throughout Session.step Session.Delivered { queue := q }
      [.push { type := .tick }, .push { type := .btnK1Short }, .push { type := .btnK2Short },
        .tryPop, .tryPop] ∧
    (run Session.step { queue := q }
      [.push { type := .tick }, .push { type := .btnK1Short }, .push { type := .btnK2Short },
        .tryPop, .tryPop]).popped = [{ type := .btnK2Short }, { type := .btnK1Short }] := by
  refine ⟨_, rfl, ?_⟩
  decide +kernel

end NanoHat.Adr0005
