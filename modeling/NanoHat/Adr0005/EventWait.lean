import NanoHat.Adr0005.EventQueue
import NanoHat.Foundations.EventCount

/-!
# Waiting for an event

The threads around an event queue: one is in `event_queue_wait`, any number of others are in
`event_queue_push`, `event_queue_try_pop` and `event_queue_close`. Each call of a function of
`ring_queue.c` holds the lock of the ring and is one step; between them the threads are interleaved
in every order. The counters `replaced_ticks` and `dropped_critical`, which no lock protects, are
left out.

Whoever waits is woken for what comes (`event_wait_wakes`), and every critical event that was
accepted is delivered, or still waits, exactly once (`event_wait_delivers`).
-/

namespace NanoHat.Adr0005

open FirstMatch Runs EventCount

/-! ## The threads -/

/-- The ring of an event queue, and what happened to the events, in order: those that were accepted,
those that were taken in `event_queue_wait` and those that `event_queue_try_pop` returned. -/
structure EventTraffic where
  ring : RingQueue AppEvent
  accepted : List AppEvent := []
  taken : List AppEvent := []
  tried : List AppEvent := []

/-- Where a thread is in `event_queue_push` or `event_queue_try_pop`. -/
inductive EventPlace
  | push (event : AppEvent)
  /-- The ring was full, and the event is not a tick. -/
  | replace (event : AppEvent)
  | tryPop

namespace EventTraffic

/-- `ring_queue_pop` in `event_queue_wait` -/
def take (t : EventTraffic) : Option AppEvent × EventTraffic :=
  (t.ring.pop.1, { t with ring := t.ring.pop.2, taken := t.taken ++ t.ring.pop.1.toList })

/-- What a thread does with the ring, and what it does then. -/
def act (t : EventTraffic) : EventPlace → Next EventPlace × EventTraffic
  | .push event =>
    match t.ring.push event with
    | (.ok, ring) => (.signal, { t with ring := ring, accepted := t.accepted ++ [event] })
    | (.merged, ring) => (.signal, { t with ring := ring, accepted := t.accepted ++ [event] })
    | (.dropped, ring) =>
      (if event.type = .tick then .done else .more (.replace event), { t with ring := ring })
    | (.err, ring) => (.done, { t with ring := ring })
  | .replace event =>
    match t.ring.replaceFirstIf eventQueueMatchTick event with
    | (true, ring) => (.signal, { t with ring := ring, accepted := t.accepted ++ [event] })
    | (false, ring) => (.done, { t with ring := ring })
  | .tryPop =>
    (.done, { t with ring := t.ring.pop.2, tried := t.tried ++ t.ring.pop.1.toList })

end EventTraffic

/-- Where a call starts. -/
def EventPlace.isCall : EventPlace → Bool
  | .replace _ => false
  | _ => true

/-- The event queue as its threads share it. -/
def eventThreads : Resource EventTraffic AppEvent EventPlace where
  take := EventTraffic.take
  act := fun k t => t.act k
  entry := EventPlace.isCall

/-- The threads around an event queue after the steps `es`. -/
def eventThreadsAfter {ι : Type*} [DecidableEq ι] (q : EventQueue) (es : List (Event EventPlace ι)) :
    State EventTraffic AppEvent EventPlace ι :=
  run (EventCount.step eventThreads) { res := { ring := q.ring } } es

/-! ## A push that nobody interrupts -/

/-- `event_queue_push` without its signal, all at once. -/
def EventTraffic.pushAlone (t : EventTraffic) (event : AppEvent) : EventTraffic :=
  match t.act (.push event) with
  | (.more place, t) => (t.act place).2
  | (_, t) => t

/-- It does to the ring what `EventQueue.push` does. -/
theorem ring_pushAlone (q : EventQueue) {t : EventTraffic} (ht : t.ring = q.ring)
    (event : AppEvent) : (t.pushAlone event).ring = (q.push event).2.ring := by
  simp only [EventTraffic.pushAlone, EventTraffic.act, EventQueue.push, ht]
  generalize q.ring.push event = p
  obtain ⟨result, ring⟩ := p
  cases result with
  | dropped =>
    dsimp only
    by_cases htick : event.type = .tick
    · rw [if_pos htick, if_pos htick]
    · rw [if_neg htick, if_neg htick]
      dsimp only
      generalize ring.replaceFirstIf eventQueueMatchTick event = p
      obtain ⟨found, ring'⟩ := p
      cases found <;> rfl
  | _ => rfl

/-! ## The resource -/

theorem ready_eventThreads (t : EventTraffic) : eventThreads.Ready t ↔ t.ring.count ≠ 0 :=
  t.ring.pop_ne_none

/-- Whoever adds an event to the ring signals. -/
theorem eventThreads_lawful : eventThreads.Lawful fun _ => False where
  act place t hready := by
    rw [ready_eventThreads] at hready ⊢
    cases place with
    | push event =>
      have hcount := t.ring.count_push event
      simp only [eventThreads, EventTraffic.act] at hready ⊢
      generalize t.ring.push event = p at hready hcount ⊢
      obtain ⟨result, ring⟩ := p
      cases result with
      | ok => exact Or.inr trivial
      | merged => exact Or.inr trivial
      | dropped => exact Or.inl (hcount.resolve_right nofun ▸ hready)
      | err => exact Or.inl (hcount.resolve_right nofun ▸ hready)
    | replace event =>
      have hcount := t.ring.count_replaceFirstIf eventQueueMatchTick event
      simp only [eventThreads, EventTraffic.act] at hready ⊢
      generalize t.ring.replaceFirstIf eventQueueMatchTick event = p at hready hcount ⊢
      obtain ⟨found, ring⟩ := p
      cases found with
      | true => exact Or.inr trivial
      | false => exact Or.inl (hcount ▸ hready)
    | tryPop => exact Or.inl (RingQueue.count_ne_zero_of_pop hready)
  owed _ _ h := h.elim
  take t hnot hready := by
    rw [ready_eventThreads] at hready hnot
    exact hnot (RingQueue.count_ne_zero_of_pop hready)

/-! ## What becomes of the events -/

namespace EventTraffic

/-- The ring is as `event_queue_init` set it up. -/
abbrev Good (t : EventTraffic) : Prop := t.ring.SetUp .coalesce (some eventQueueMergeTick)

/-- The critical events that were accepted are those that are gone and those that wait. -/
def Kept (t : EventTraffic) : Prop :=
  (critical t.accepted).Perm (critical (t.taken ++ t.tried ++ t.ring.items))

variable {t : EventTraffic}

/-- An event is accepted. -/
theorem Kept.accept (h : t.Kept) {ring : RingQueue AppEvent} {event : AppEvent}
    (hitems : (critical ring.items).Perm (critical t.ring.items ++ critical [event])) :
    Kept { t with ring := ring, accepted := t.accepted ++ [event] } := by
  unfold Kept at h ⊢
  dsimp only
  rw [critical_append] at h ⊢
  rw [critical_append (t.taken ++ t.tried) ring.items]
  refine (h.append_right _).trans ?_
  rw [List.append_assoc]
  exact hitems.symm.append_left _

theorem Kept.of_items (h : t.Kept) {ring : RingQueue AppEvent} (hitems : ring.items = t.ring.items) :
    Kept { t with ring := ring } := by
  unfold Kept
  dsimp only
  rw [hitems]
  exact h

/-- A tick in place of a tick. -/
theorem critical_merged {pre post : List AppEvent} {e e' : AppEvent} (he : e.type = .tick)
    (he' : e'.type = .tick) : critical (pre ++ e' :: post) = critical (pre ++ e :: post) := by
  rw [critical_append, critical_append, critical_cons_tick he, critical_cons_tick he']

/-- An event in place of a tick. -/
theorem critical_replaced {pre post : List AppEvent} {e event : AppEvent} (he : e.type = .tick) :
    (critical (pre ++ event :: post)).Perm (critical (pre ++ e :: post) ++ critical [event]) := by
  have hswap : (pre ++ event :: post).Perm (pre ++ post ++ [event]) :=
    List.perm_middle.trans (List.perm_append_singleton _ _).symm
  have hwithout : critical (pre ++ e :: post) = critical (pre ++ post) := by
    rw [critical_append, critical_append, critical_cons_tick he]
  rw [hwithout, ← critical_append]
  exact hswap.filter _

theorem act_keeps (h : t.Good ∧ t.Kept) (place : EventPlace) :
    (t.act place).2.Good ∧ (t.act place).2.Kept := by
  obtain ⟨hgood, hkept⟩ := h
  cases place with
  | push event =>
    obtain ⟨hring, hpushed⟩ := hgood.wellFormed.push event
    simp only [act]
    generalize t.ring.push event = p at hring hpushed
    obtain ⟨result, ring⟩ := p
    dsimp only at hring hpushed
    generalize hitems : ring.items = items at hpushed
    cases hpushed with
    | @merged merge _ hpolicy hmerge hupdate =>
      obtain rfl : eventQueueMergeTick = merge := Option.some.inj (hgood.mergeFn.symm.trans hmerge)
      obtain ⟨pre, e, e', post, hold, -, htick, rfl⟩ := updateFirst_eq_some hupdate
      obtain ⟨hevent, he, he'⟩ := mergeTick_eq_some htick
      refine ⟨hgood.of_sameKind hring, hkept.accept ?_⟩
      rw [hitems, hold, critical_merged he he', critical_cons_tick hevent]
      exact List.Perm.of_eq (List.append_nil _).symm
    | appended hno hfree =>
      refine ⟨hgood.of_sameKind hring, hkept.accept ?_⟩
      rw [hitems, critical_append]
    | overwrote hno hfull hpolicy =>
      rw [hgood.policy] at hpolicy
      cases hpolicy
    | dropped hno hfull hpolicy => exact ⟨hgood.of_sameKind hring, hkept.of_items hitems⟩
  | replace event =>
    obtain ⟨hring, hreplaced⟩ := hgood.wellFormed.replaceFirstIf eventQueueMatchTick event
    simp only [act]
    generalize t.ring.replaceFirstIf eventQueueMatchTick event = p at hring hreplaced
    obtain ⟨found, ring⟩ := p
    dsimp only at hring hreplaced
    rcases hreplaced with ⟨rfl, pre, e, post, hold, -, he, hitems⟩ | ⟨rfl, -, hitems⟩
    · refine ⟨hgood.of_sameKind hring, hkept.accept ?_⟩
      rw [hitems, hold]
      exact critical_replaced (of_decide_eq_true he)
    · exact ⟨hgood.of_sameKind hring, hkept.of_items hitems⟩
  | tryPop =>
    refine ⟨hgood.of_sameKind hgood.wellFormed.pop.1, ?_⟩
    unfold Kept at hkept ⊢
    rw [← hgood.wellFormed.toList_pop, ← List.append_assoc, List.append_assoc t.taken] at hkept
    simpa only [act, List.append_assoc] using hkept

theorem take_keeps (h : t.Good ∧ t.Kept) : t.take.2.Good ∧ t.take.2.Kept := by
  obtain ⟨hgood, hkept⟩ := h
  refine ⟨hgood.of_sameKind hgood.wellFormed.pop.1, hkept.trans ?_⟩
  rw [← hgood.wellFormed.toList_pop, ← List.append_assoc, List.append_assoc t.taken]
  simp only [take, List.append_assoc]
  have hswap : (t.tried ++ (t.ring.pop.1.toList ++ t.ring.pop.2.items)).Perm
      (t.ring.pop.1.toList ++ (t.tried ++ t.ring.pop.2.items)) := by
    rw [← List.append_assoc, ← List.append_assoc]
    exact List.perm_append_comm.append_right _
  exact (hswap.append_left _).filter _

/-- What `event_queue_wait` would take is the oldest event. -/
theorem Good.take (h : t.Good) : t.take.1 = t.ring.items.head? := h.wellFormed.pop.2.1

end EventTraffic

/-! ## Runs -/

section

variable {malloc : Option (ℕ → AppEvent)} {capacity : ℕ} {q : EventQueue} {ι : Type*}
  [DecidableEq ι]

theorem kept_eventThreadsAfter (hinit : eventQueueInit malloc capacity = some q)
    (es : List (Event EventPlace ι)) :
    (eventThreadsAfter q es).res.Good ∧ (eventThreadsAfter q es).res.Kept := by
  obtain ⟨hgood, hempty⟩ := good_init hinit
  have hempty : q.ring.items = [] := hempty
  refine res_run (R := eventThreads) (I := fun t => t.Good ∧ t.Kept)
    (fun place t ht => EventTraffic.act_keeps ht place) (fun t ht => EventTraffic.take_keeps ht)
    (fun f hf => nomatch hf) ⟨hgood, ?_⟩ es
  unfold EventTraffic.Kept
  rw [hempty]
  exact List.Perm.refl _

/-- **No event is slept through, and whoever waits for one gets it.** After any steps of the
threads, as long as the queue has signalled fewer than `2 ^ 64` times: `event_queue_wait` sleeps
while no other thread is about to signal only if the queue is empty and open; and if the others are
idle while it holds events or is closed, it returns within six steps of its own, with the oldest
event if it is open and the call has not made up its mind before. -/
theorem event_wait_wakes (hinit : eventQueueInit malloc capacity = some q)
    {es : List (Event EventPlace ι)} {s : State EventTraffic AppEvent EventPlace ι}
    (hs : eventThreadsAfter q es = s) (hb : s.bumps < 2 ^ 64) :
    (s.consumer = .asleep → ¬s.Ringing (fun _ => False) →
        s.res.ring.items = [] ∧ s.isClosed = false) ∧
      (s.Quiet → s.consumer ≠ .idle → s.res.ring.items ≠ [] ∨ s.isClosed = true →
        ∃ out, Returns eventThreads 6 s out ∧
          (s.consumer.decided = false → s.isClosed = false → s.timeoutMs ≠ 0 →
            out = s.res.ring.items.head?)) := by
  subst hs
  have hinv : Inv eventThreads (fun _ => False) (eventThreadsAfter q es) :=
    (inv_initial _).run eventThreads_lawful es hb
  have hgood := (kept_eventThreadsAfter hinit es).1
  generalize eventThreadsAfter q es = s at hb hinv hgood
  have hready : eventThreads.Ready s.res ↔ s.res.ring.items ≠ [] :=
    (ready_eventThreads s.res).trans RingQueue.items_ne_nil.symm
  refine ⟨fun hc hquiet => ?_, fun hquiet hbusy hrc => ?_⟩
  · obtain ⟨hnot, hopen⟩ := hinv.asleep hc hquiet
    exact ⟨not_not.1 (mt hready.2 hnot), hopen⟩
  · obtain ⟨out, hreturns, hout⟩ := hinv.returns hb hquiet (hrc.imp_left hready.2) hbusy
    exact ⟨out, hreturns, fun hd ho ht => (hout hd ho ht).trans hgood.take⟩

/-- The UI thread falls asleep, and a button is pushed. -/
def asleepThenPushed : List (Event EventPlace Unit) :=
  .wait (-1) :: List.replicate 9 .consume ++
    .call () (.push { type := .btnK1Short }) :: List.replicate 5 (.produce ())

/-- It wakes up and returns the button. -/
theorem event_wait_wakes_button :
    ∃ q, eventQueueInit (some fun _ => { type := .none }) 2 = some q ∧
      Returns eventThreads 6 (eventThreadsAfter q asleepThenPushed)
        (some { type := .btnK1Short }) := by
  have hinit : eventQueueInit (some fun _ => { type := .none }) 2 = some _ := rfl
  refine ⟨_, hinit, ?_⟩
  obtain ⟨out, hreturns, hout⟩ := (event_wait_wakes hinit
    (rfl : eventThreadsAfter _ asleepThenPushed = _) (by decide +kernel)).2 (fun _ => rfl) (by intro h; cases h) (Or.inl (by decide +kernel))
  rw [hout rfl rfl (by decide +kernel)] at hreturns
  exact hreturns

/-- **Every critical event is delivered once.** After any steps of the threads, the critical events
that `event_queue_push` accepted are, up to their order, those that `event_queue_wait` returned or
is about to return, those that `event_queue_try_pop` returned, and those that wait. -/
theorem event_wait_delivers (hinit : eventQueueInit malloc capacity = some q)
    {es : List (Event EventPlace ι)} {s : State EventTraffic AppEvent EventPlace ι}
    (hs : eventThreadsAfter q es = s) :
    (critical s.res.accepted).Perm (critical (s.results.reduceOption ++ s.consumer.inHand ++
      s.res.tried ++ s.res.ring.items)) := by
  subst hs
  have hstart : State.Logged (ι := ι) (κ := EventPlace) EventTraffic.taken
      { res := { ring := q.ring } } := rfl
  have hlogged : (eventThreadsAfter q es).Logged EventTraffic.taken := by
    refine State.Logged.run (R := eventThreads) (fun place t => ?_) (fun _ => rfl)
      (fun f hf => nomatch hf) hstart es
    cases place <;> simp only [eventThreads, EventTraffic.act] <;> repeat' split
    all_goals rfl
  rw [← hlogged]
  exact (kept_eventThreadsAfter hinit es).2

/-- A tick and two buttons, pushed by one thread after the other, and one call of
`event_queue_wait`. -/
def overtaking : List (Event EventPlace Unit) :=
  .call () (.push { type := .tick }) :: List.replicate 5 (.produce ()) ++
    .call () (.push { type := .btnK1Short }) :: List.replicate 5 (.produce ()) ++
    .call () (.push { type := .btnK2Short }) :: List.replicate 6 (.produce ()) ++
    .wait (-1) :: List.replicate 2 .consume

/-- Two slots for a tick and two buttons: the second button takes the place of the tick. -/
theorem event_wait_delivers_two :
    ∃ q, eventQueueInit (some fun _ => { type := .none }) 2 = some q ∧
      (critical (eventThreadsAfter q overtaking).res.accepted).Perm
        (critical ((eventThreadsAfter q overtaking).results.reduceOption ++
          (eventThreadsAfter q overtaking).consumer.inHand ++
          (eventThreadsAfter q overtaking).res.tried ++
          (eventThreadsAfter q overtaking).res.ring.items)) ∧
      (eventThreadsAfter q overtaking).results = [some { type := .btnK2Short }] := by
  have hinit : eventQueueInit (some fun _ => { type := .none }) 2 = some _ := rfl
  exact ⟨_, hinit, event_wait_delivers hinit rfl, rfl⟩

end

end NanoHat.Adr0005
