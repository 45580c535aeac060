import Mathlib.Data.List.Nodup
import NanoHat.Adr0005.EventWait
import NanoHat.Adr0005.WorkQueues

/-!
# Waiting for a task

The threads around a task queue: one is in `task_queue_wait`, any number of others are in
`task_queue_push`, `task_queue_try_pop` and `task_queue_close`. Unlike the event queue this one
counts what it does in `stats`, under `wait_lock` and apart from the ring.

Whoever waits is woken for what comes (`task_wait_wakes`). Tasks come out in the order in which
their work was queued, no work waits twice, and what waits is the newest request for it
(`task_wait_keeps`).
-/

namespace NanoHat.Adr0005

open FirstMatch Runs EventCount

/-! ## The threads -/

/-- A task queue, and what happened to the tasks, in order: those that were queued, those that were
queued or merged, and those that were taken. -/
structure TaskTraffic where
  ring : RingQueue UbusTask
  stats : TaskQueueStats := {}
  queued : List UbusTask := []
  accepted : List UbusTask := []
  popped : List UbusTask := []

/-- Where a thread is in `task_queue_push` or `task_queue_try_pop`. -/
inductive TaskPlace
  | push (task : UbusTask)
  /-- The ring has answered, and the answer is to be counted. -/
  | count (result : RingQueueResult)
  | tryPop
  /-- A task was taken, and is to be counted. -/
  | countPop

namespace TaskTraffic

/-- `ring_queue_pop` -/
def take (t : TaskTraffic) : Option UbusTask × TaskTraffic :=
  (t.ring.pop.1, { t with ring := t.ring.pop.2, popped := t.popped ++ t.ring.pop.1.toList })

def countPop (t : TaskTraffic) : TaskTraffic := { t with stats.pops := t.stats.pops + 1 }

/-- What a thread does with the queue, and what it does then. -/
def act (t : TaskTraffic) : TaskPlace → Next TaskPlace × TaskTraffic
  | .push task =>
    match t.ring.push task with
    | (.ok, ring) =>
      (.more (.count .ok),
        { t with ring := ring, queued := t.queued ++ [task], accepted := t.accepted ++ [task] })
    | (.merged, ring) =>
      (.more (.count .merged), { t with ring := ring, accepted := t.accepted ++ [task] })
    | (result, ring) => (.more (.count result), { t with ring := ring })
  | .count .ok => (.signal, { t with stats.pushes := t.stats.pushes + 1 })
  | .count .merged => (.signal, { t with stats.merges := t.stats.merges + 1 })
  | .count .dropped => (.done, { t with stats.drops := t.stats.drops + 1 })
  | .count .err => (.done, t)
  | .tryPop =>
    match t.take with
    | (some _, t) => (.more .countPop, t)
    | (none, t) => (.done, t)
  | .countPop => (.done, t.countPop)

end TaskTraffic

namespace TaskPlace

/-- Where a call starts. -/
def isCall : TaskPlace → Bool
  | .push _ | .tryPop => true
  | _ => false

/-- Under `wait_lock`. -/
def locked : TaskPlace → Bool
  | .count _ | .countPop => true
  | _ => false

/-- A signal will follow. -/
def Owes : TaskPlace → Prop
  | .count .ok | .count .merged => True
  | _ => False

end TaskPlace

/-- The task queue as its threads share it. -/
def taskThreads : Resource TaskTraffic UbusTask TaskPlace where
  take := TaskTraffic.take
  act := fun place t => t.act place
  entry := TaskPlace.isCall
  locked := TaskPlace.locked
  tally := some TaskTraffic.countPop

/-- The threads around a task queue after the steps `es`. -/
def taskThreadsAfter {ι : Type*} [DecidableEq ι] (q : TaskQueue) (es : List (Event TaskPlace ι)) :
    State TaskTraffic UbusTask TaskPlace ι :=
  run (EventCount.step taskThreads) { res := { ring := q.ring } } es

/-! ## The resource -/

theorem ready_taskThreads (t : TaskTraffic) : taskThreads.Ready t ↔ t.ring.count ≠ 0 :=
  t.ring.pop_ne_none

/-- Whoever adds a task to the ring counts it and signals. -/
theorem taskThreads_lawful : taskThreads.Lawful TaskPlace.Owes where
  act place t hready := by
    cases place with
    | push task =>
      rw [ready_taskThreads] at hready ⊢
      have hcount := t.ring.count_push task
      simp only [taskThreads, TaskTraffic.act] at hready ⊢
      generalize t.ring.push task = p at hready hcount ⊢
      obtain ⟨result, ring⟩ := p
      cases result with
      | ok => exact Or.inr trivial
      | merged => exact Or.inr trivial
      | dropped => exact Or.inl (hcount.resolve_right nofun ▸ hready)
      | err => exact Or.inl (hcount.resolve_right nofun ▸ hready)
    | count result => cases result <;> exact Or.inl hready
    | tryPop =>
      rw [ready_taskThreads] at hready ⊢
      refine Or.inl (RingQueue.count_ne_zero_of_pop (show t.take.2.ring.count ≠ 0 from ?_))
      simp only [taskThreads, TaskTraffic.act] at hready
      split at hready
      · rename_i htake
        rwa [htake]
      · rename_i htake
        rwa [htake]
    | countPop => exact Or.inl hready
  owed place t howes := by
    cases place with
    | count result => cases result <;> trivial
    | _ => exact howes.elim
  take t hnot hready := by
    rw [ready_taskThreads] at hready hnot
    exact hnot (RingQueue.count_ne_zero_of_pop hready)

/-! ## What becomes of the tasks -/

/-- The work a task is for. -/
def UbusTask.work (t : UbusTask) : UbusAction × CStr := (t.action, t.serviceName.take 32)

theorem sameWork_iff {a b : UbusTask} : sameWork a b = true ↔ a.work = b.work := by
  unfold sameWork UbusTask.work
  rw [decide_eq_true_iff, Prod.mk.injEq]

/-- What a merge takes over from the incoming task. -/
def UbusTask.request (t : UbusTask) : UInt32 × UInt32 × UInt64 :=
  (t.requestId, t.timeoutMs, t.enqueueTimeMs)

/-- The last of these tasks for this work. -/
def newest (tasks : List UbusTask) (work : UbusAction × CStr) : Option UbusTask :=
  tasks.reverse.find? fun task => task.work = work

theorem newest_append_self (tasks : List UbusTask) (task : UbusTask) :
    newest (tasks ++ [task]) task.work = some task := by
  simp [newest]

theorem newest_append_of_ne {tasks : List UbusTask} {task : UbusTask} {work : UbusAction × CStr}
    (h : task.work ≠ work) : newest (tasks ++ [task]) work = newest tasks work := by
  simp [newest, h]

namespace TaskTraffic

/-- The ring is as `task_queue_init` set it up. -/
abbrev Good (t : TaskTraffic) : Prop :=
  t.ring.SetUp .coalesce (some taskQueueMergeSameServiceAction)

/-- What the queue keeps of the tasks. -/
structure Kept (t : TaskTraffic) : Prop where
  /-- The work comes out in the order in which it was queued. -/
  order : (t.popped ++ t.ring.items).map UbusTask.work = t.queued.map UbusTask.work
  /-- No work waits twice. -/
  nodup : (t.ring.items.map UbusTask.work).Nodup
  /-- What waits is the newest request for its work. -/
  newest : ∀ task ∈ t.ring.items,
    (Adr0005.newest t.accepted task.work).map UbusTask.request = some task.request

variable {t : TaskTraffic}

theorem Kept.append (h : t.Kept) {task : UbusTask} {ring : RingQueue UbusTask}
    (hnew : ∀ existing ∈ t.ring.items, existing.work ≠ task.work)
    (hitems : ring.items = t.ring.items ++ [task]) :
    Kept { t with ring := ring, queued := t.queued ++ [task], accepted := t.accepted ++ [task] } where
  order := by
    dsimp only
    rw [hitems, ← List.append_assoc, List.map_append, h.order, List.map_append]
  nodup := by
    dsimp only
    rw [hitems, List.map_append]
    refine h.nodup.append (List.nodup_singleton _) ?_
    rw [List.map_singleton, List.disjoint_singleton]
    intro hmem
    obtain ⟨existing, hexisting, hsame⟩ := List.mem_map.1 hmem
    exact hnew existing hexisting hsame
  newest w hw := by
    dsimp only at hw ⊢
    rw [hitems, List.mem_append, List.mem_singleton] at hw
    rcases hw with hw | rfl
    · rw [newest_append_of_ne (hnew w hw).symm]
      exact h.newest w hw
    · rw [newest_append_self]
      rfl

theorem Kept.merge (h : t.Kept) {task existing merged : UbusTask} {pre post : List UbusTask}
    {ring : RingQueue UbusTask} (hold : t.ring.items = pre ++ existing :: post)
    (hsame : existing.work = task.work) (hwork : merged.work = existing.work)
    (hrequest : merged.request = task.request) (hitems : ring.items = pre ++ merged :: post) :
    Kept { t with ring := ring, accepted := t.accepted ++ [task] } := by
  have hmap : ring.items.map UbusTask.work = t.ring.items.map UbusTask.work := by
    rw [hitems, hold, List.map_append, List.map_append, List.map_cons, List.map_cons, hwork]
  refine ⟨?_, ?_, fun w hw => ?_⟩
  · dsimp only
    rw [List.map_append, hmap, ← List.map_append]
    exact h.order
  · dsimp only
    rw [hmap]
    exact h.nodup
  · dsimp only at hw ⊢
    rw [hitems] at hw
    by_cases hthis : task.work = w.work
    · -- the only task for this work is the merged one
      have hmerged : w = merged := by
        have hnodup := h.nodup
        rw [← hmap] at hnodup
        refine List.inj_on_of_nodup_map hnodup (hitems ▸ hw) (by rw [hitems]; simp) ?_
        rw [← hthis, hwork, hsame]
      subst hmerged
      rw [← hthis, newest_append_self, Option.map_some, hrequest]
    · rw [newest_append_of_ne hthis]
      refine h.newest w ?_
      rw [hold]
      rcases List.mem_append.1 hw with hw | hw
      · exact List.mem_append_left _ hw
      · rcases List.mem_cons.1 hw with rfl | hw
        · exact absurd (hwork.trans hsame).symm hthis
        · exact List.mem_append_right _ (List.mem_cons_of_mem _ hw)

theorem Kept.of_items (h : t.Kept) {t' : TaskTraffic} (hitems : t'.ring.items = t.ring.items)
    (hqueued : t'.queued = t.queued) (haccepted : t'.accepted = t.accepted)
    (hpopped : t'.popped = t.popped) : t'.Kept where
  order := by rw [hitems, hqueued, hpopped]; exact h.order
  nodup := by rw [hitems]; exact h.nodup
  newest := by rw [hitems, haccepted]; exact h.newest

theorem take_keeps (h : t.Good ∧ t.Kept) : t.take.2.Good ∧ t.take.2.Kept := by
  obtain ⟨hgood, hkept⟩ := h
  obtain ⟨hring, -, hitems⟩ := hgood.wellFormed.pop
  refine ⟨hgood.of_sameKind hring, ?_, ?_, fun w hw => hkept.newest w ?_⟩
  · refine Eq.trans (congrArg (List.map _) ?_) hkept.order
    rw [← hgood.wellFormed.toList_pop, ← List.append_assoc]
    rfl
  · exact (hitems ▸ List.map_tail ▸ hkept.nodup.tail :)
  · exact List.mem_of_mem_tail (hitems ▸ hw)

theorem act_keeps (h : t.Good ∧ t.Kept) (place : TaskPlace) :
    (t.act place).2.Good ∧ (t.act place).2.Kept := by
  obtain ⟨hgood, hkept⟩ := h
  cases place with
  | push task =>
    obtain ⟨hring, hpushed⟩ := hgood.wellFormed.push task
    simp only [act]
    generalize t.ring.push task = p at hring hpushed
    obtain ⟨result, ring⟩ := p
    dsimp only at hring hpushed
    generalize hitems : ring.items = items at hpushed
    cases hpushed with
    | @merged merge _ hpolicy hmerge hupdate =>
      obtain rfl : taskQueueMergeSameServiceAction = merge :=
        Option.some.inj (hgood.mergeFn.symm.trans hmerge)
      obtain ⟨pre, existing, merged, post, hold, -, hmerged, rfl⟩ := updateFirst_eq_some hupdate
      obtain ⟨hsame, rfl⟩ := TaskQueue.merge_eq_some hmerged
      refine ⟨hgood.of_sameKind hring,
        hkept.merge hold (sameWork_iff.1 hsame) ?_ ?_ hitems⟩
      · rfl
      · rfl
    | appended hno hfree =>
      refine ⟨hgood.of_sameKind hring, hkept.append (fun existing he hsame => ?_) hitems⟩
      have hnone := TaskQueue.merge_eq_none (hno hgood.policy _ hgood.mergeFn existing he)
      rw [sameWork_iff.2 hsame] at hnone
      cases hnone
    | overwrote hno hfull hpolicy =>
      rw [hgood.policy] at hpolicy
      cases hpolicy
    | dropped hno hfull hpolicy =>
      exact ⟨hgood.of_sameKind hring, hkept.of_items hitems rfl rfl rfl⟩
  | count result =>
    cases result <;> exact ⟨hgood, hkept.of_items rfl rfl rfl rfl⟩
  | tryPop =>
    have htake := take_keeps ⟨hgood, hkept⟩
    simp only [act]
    generalize t.take = p at htake
    obtain ⟨out, t'⟩ := p
    cases out <;> exact htake
  | countPop =>
    exact ⟨hgood, hkept.of_items rfl rfl rfl rfl⟩

/-- What `task_queue_wait` would take is the oldest task. -/
theorem Good.take (h : t.Good) : t.take.1 = t.ring.items.head? := h.wellFormed.pop.2.1

end TaskTraffic

/-! ## Runs -/

section

variable {malloc : Option (ℕ → UbusTask)} {capacity : ℕ} {q : TaskQueue} {ι : Type*}
  [DecidableEq ι]

theorem kept_taskThreadsAfter (hinit : taskQueueInit malloc capacity = some q)
    (es : List (Event TaskPlace ι)) :
    (taskThreadsAfter q es).res.Good ∧ (taskThreadsAfter q es).res.Kept := by
  obtain ⟨hgood, hempty⟩ := TaskQueue.good_init hinit
  have hempty : q.ring.items = [] := hempty
  refine res_run (R := taskThreads) (I := fun t => t.Good ∧ t.Kept)
    (fun place t ht => TaskTraffic.act_keeps ht place) (fun t ht => TaskTraffic.take_keeps ht)
    ?_ ⟨hgood, ?_⟩ es
  · intro f hf t ht
    obtain rfl := Option.some.inj hf
    exact TaskTraffic.act_keeps ht .countPop
  · refine ⟨?_, ?_, fun w hw => ?_⟩
    · dsimp only
      rw [hempty]
      rfl
    · dsimp only
      rw [hempty]
      exact List.nodup_nil
    · dsimp only at hw
      rw [hempty] at hw
      cases hw

/-- **No task is slept through, and whoever waits for one gets it.** After any steps of the threads,
as long as the queue has signalled fewer than `2 ^ 64` times: `task_queue_wait` sleeps while no
other thread is about to signal only if the queue is empty and open; and if the others are idle
while it holds tasks or is closed, it returns within six steps of its own, with the oldest task if
it is open and the call has not made up its mind before. -/
theorem task_wait_wakes (hinit : taskQueueInit malloc capacity = some q)
    {es : List (Event TaskPlace ι)} {s : State TaskTraffic UbusTask TaskPlace ι}
    (hs : taskThreadsAfter q es = s) (hb : s.bumps < 2 ^ 64) :
    (s.consumer = .asleep → ¬s.Ringing TaskPlace.Owes →
        s.res.ring.items = [] ∧ s.isClosed = false) ∧
      (s.Quiet → s.consumer ≠ .idle → s.res.ring.items ≠ [] ∨ s.isClosed = true →
        ∃ out, Returns taskThreads 6 s out ∧
          (s.consumer.decided = false → s.isClosed = false → s.timeoutMs ≠ 0 →
            out = s.res.ring.items.head?)) := by
  subst hs
  have hinv : Inv taskThreads TaskPlace.Owes (taskThreadsAfter q es) :=
    (inv_initial _).run taskThreads_lawful es hb
  have hgood := (kept_taskThreadsAfter hinit es).1
  generalize taskThreadsAfter q es = s at hb hinv hgood
  have hready : taskThreads.Ready s.res ↔ s.res.ring.items ≠ [] :=
    (ready_taskThreads s.res).trans RingQueue.items_ne_nil.symm
  refine ⟨fun hc hquiet => ?_, fun hquiet hbusy hrc => ?_⟩
  · obtain ⟨hnot, hopen⟩ := hinv.asleep hc hquiet
    exact ⟨not_not.1 (mt hready.2 hnot), hopen⟩
  · obtain ⟨out, hreturns, hout⟩ := hinv.returns hb hquiet (hrc.imp_left hready.2) hbusy
    exact ⟨out, hreturns, fun hd ho ht => (hout hd ho ht).trans hgood.take⟩

/-- The worker falls asleep, and two threads push at the same time: the second request is merged
into the first before either has signalled. -/
def mergedMeanwhile : List (Event TaskPlace Bool) :=
  .wait (-1) :: List.replicate 9 .consume ++
    [.call false (.push { serviceName := ['a'], action := .query, requestId := 1 }),
      .call true (.push { serviceName := ['a'], action := .query, requestId := 2 }),
      .produce false, .produce true] ++
    List.replicate 5 (.produce true) ++ List.replicate 5 (.produce false)

/-- The worker wakes up and returns the task, with the second id. -/
theorem task_wait_wakes_merged :
    ∃ q, taskQueueInit (some fun _ => { serviceName := [], action := .start, requestId := 0 }) 1 =
        some q ∧
      Returns taskThreads 6 (taskThreadsAfter q mergedMeanwhile)
        (some { serviceName := ['a'], action := .query, requestId := 2 }) := by
  have hinit : taskQueueInit
      (some fun _ => { serviceName := [], action := .start, requestId := 0 }) 1 = some _ := rfl
  refine ⟨_, hinit, ?_⟩
  obtain ⟨out, hreturns, hout⟩ := (task_wait_wakes hinit
    (rfl : taskThreadsAfter _ mergedMeanwhile = _) (by decide +kernel)).2
    (fun i => by cases i <;> rfl) (by intro h; cases h) (Or.inl (by decide +kernel))
  rw [hout rfl rfl (by decide +kernel)] at hreturns
  exact hreturns

/-- **The task queue serves the newest request for each work, in turn.** After any steps of the
threads, the work of the tasks that were taken and, behind them, of those that wait is the work that
was queued, in this order; no work waits twice, and what waits is the last request for its work that
`task_queue_push` accepted. -/
theorem task_wait_keeps (hinit : taskQueueInit malloc capacity = some q)
    {es : List (Event TaskPlace ι)} {s : State TaskTraffic UbusTask TaskPlace ι}
    (hs : taskThreadsAfter q es = s) :
    (s.res.popped ++ s.res.ring.items).map UbusTask.work = s.res.queued.map UbusTask.work ∧
      (s.res.ring.items.map UbusTask.work).Nodup ∧
      ∀ task ∈ s.res.ring.items,
        (newest s.res.accepted task.work).map UbusTask.request = some task.request := by
  subst hs
  obtain ⟨horder, hnodup, hnewest⟩ := (kept_taskThreadsAfter hinit es).2
  exact ⟨horder, hnodup, hnewest⟩

/-- Two requests for the same work, one after the other. -/
theorem task_wait_keeps_merged :
    ∃ q, taskQueueInit (some fun _ => { serviceName := [], action := .start, requestId := 0 }) 1 =
        some q ∧
      (taskThreadsAfter q mergedMeanwhile).res.ring.items =
        [{ serviceName := ['a'], action := .query, requestId := 2 }] ∧
      ∀ task ∈ (taskThreadsAfter q mergedMeanwhile).res.ring.items,
        (newest (taskThreadsAfter q mergedMeanwhile).res.accepted task.work).map
          UbusTask.request = some task.request := by
  have hinit : taskQueueInit
      (some fun _ => { serviceName := [], action := .start, requestId := 0 }) 1 = some _ := rfl
  exact ⟨_, hinit, rfl, (task_wait_keeps hinit rfl).2.2⟩

end

end NanoHat.Adr0005
