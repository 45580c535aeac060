import NanoHat.Adr0005.RingQueueList
import NanoHat.Hal.UbusHal

/-!
# The task queue and the result queue of the threaded implementation

The queues between the UI thread and the worker, `task_queue.c` and `result_queue.c`, and the
worker's `process_task` of `ubus_thread.c`. The task queue merges a task into one that waits for the
same action on the same service; the result queue rejects what does not fit, and results whose
request was abandoned.
-/

namespace NanoHat.Adr0005

open FirstMatch

/-- `ubus_action_t` -/
inductive UbusAction
  | start
  | stop
  | query
  deriving DecidableEq

/-- `ubus_task_t` -/
structure UbusTask where
  serviceName : CStr
  action : UbusAction
  requestId : UInt32
  timeoutMs : UInt32 := 0
  enqueueTimeMs : UInt64 := 0
  deriving DecidableEq

/-- `sizeof(ubus_task_t)` -/
def ubusTaskSize : ℕ := 56

/-- `ubus_result_t` -/
structure UbusResult where
  serviceName : CStr
  action : UbusAction
  success : Bool := false
  errorCode : ℤ := 0
  requestId : UInt32
  installed : Bool := false
  running : Bool := false
  deriving DecidableEq

/-- `sizeof(ubus_result_t)` -/
def ubusResultSize : ℕ := 52

/-! ## The task queue -/

/-- `task_queue_result_t` -/
inductive TaskQueueResult
  | ok
  | merged
  | dropped
  | err
  deriving DecidableEq

/-- The value of the enumerator. -/
def TaskQueueResult.code : TaskQueueResult → ℤ
  | .ok => 0
  | .merged => 1
  | .dropped => 2
  | .err => -1

/-- `task_queue_stats_t`; nothing counts in `expired`. -/
structure TaskQueueStats where
  pushes : UInt64 := 0
  pops : UInt64 := 0
  drops : UInt64 := 0
  merges : UInt64 := 0

/-- `task_queue_t`, without what only `task_queue_wait` reads. -/
structure TaskQueue where
  ring : RingQueue UbusTask
  stats : TaskQueueStats := {}
  seq : UInt64 := 0

/-- A task for the same action on the same service; `strncmp` compares the first 32 bytes. -/
def sameWork (existing incoming : UbusTask) : Bool :=
  existing.action = incoming.action ∧
    existing.serviceName.take 32 = incoming.serviceName.take 32

/-- `task_queue_merge_same_service_action` -/
def taskQueueMergeSameServiceAction : MergeFn UbusTask := fun existing incoming =>
  if sameWork existing incoming then
    (true, { existing with
      requestId := incoming.requestId, timeoutMs := incoming.timeoutMs,
      enqueueTimeMs := incoming.enqueueTimeMs })
  else (false, existing)

/-- `task_queue_init` -/
def taskQueueInit (malloc : Option (ℕ → UbusTask)) (capacity : ℕ) : Option TaskQueue :=
  if capacity = 0 then none
  else
    (ringQueueInit malloc capacity ubusTaskSize).map fun ring =>
      { ring := (ring.setOverflowPolicy .coalesce).setMergeFn
          (some taskQueueMergeSameServiceAction) }

/-- `task_queue_is_expired` -/
def taskQueueIsExpired (task : UbusTask) (nowMs : UInt64) : Bool :=
  if task.timeoutMs = 0 then false else task.timeoutMs.toUInt64 < nowMs - task.enqueueTimeMs

namespace TaskQueue

/-- `task_queue_signal` -/
def signal (q : TaskQueue) : TaskQueue := { q with seq := q.seq + 1 }

/-- `task_queue_push` -/
def push (q : TaskQueue) (task : UbusTask) : TaskQueueResult × TaskQueue :=
  match q.ring.push task with
  | (.ok, ring) =>
    (.ok, { q with ring := ring, stats.pushes := q.stats.pushes + 1 }.signal)
  | (.merged, ring) =>
    (.merged, { q with ring := ring, stats.merges := q.stats.merges + 1 }.signal)
  | (.dropped, ring) => (.dropped, { q with ring := ring, stats.drops := q.stats.drops + 1 })
  | (.err, ring) => (.err, { q with ring := ring })

/-- `task_queue_try_pop` -/
def tryPop (q : TaskQueue) : Option UbusTask × TaskQueue :=
  match q.ring.pop with
  | (some task, ring) => (some task, { q with ring := ring, stats.pops := q.stats.pops + 1 })
  | (none, ring) => (none, { q with ring := ring })

/-- The waiting tasks, oldest first. -/
def items (q : TaskQueue) : List UbusTask := q.ring.items

/-- The ring is as `task_queue_init` set it up. -/
abbrev Good (q : TaskQueue) : Prop :=
  q.ring.SetUp .coalesce (some taskQueueMergeSameServiceAction)

theorem keepsRefused_merge : taskQueueMergeSameServiceAction.KeepsRefused := by
  intro existing incoming hno
  unfold taskQueueMergeSameServiceAction at hno ⊢
  split at hno
  · cases hno
  · rename_i hdiffers
    rw [if_neg hdiffers]

theorem good_init {malloc : Option (ℕ → UbusTask)} {capacity : ℕ} {q : TaskQueue}
    (hinit : taskQueueInit malloc capacity = some q) : q.Good ∧ q.items = [] := by
  unfold taskQueueInit at hinit
  split at hinit
  · cases hinit
  · obtain ⟨ring, hring, rfl⟩ := Option.map_eq_some_iff.1 hinit
    obtain ⟨hsetUp, hempty⟩ := setUp_init hring
    exact ⟨(hsetUp.setOverflowPolicy .coalesce).setMergeFn keepsRefused_merge, hempty⟩

/-- The three outcomes of a push. -/
inductive Pushed (q : TaskQueue) (task : UbusTask) : TaskQueueResult → List UbusTask → Prop
  | merged {pre post : List UbusTask} {existing : UbusTask}
      (hitems : q.items = pre ++ existing :: post) (hsame : sameWork existing task = true) :
      Pushed q task .merged (pre ++ { existing with
        requestId := task.requestId, timeoutMs := task.timeoutMs,
        enqueueTimeMs := task.enqueueTimeMs } :: post)
  | appended (hnone : ∀ existing ∈ q.items, sameWork existing task = false) :
      Pushed q task .ok (q.items ++ [task])
  | dropped (hnone : ∀ existing ∈ q.items, sameWork existing task = false)
      (hfull : q.items.length = q.ring.capacity) : Pushed q task .dropped q.items

theorem Pushed.cast {q : TaskQueue} {task : UbusTask} {result : TaskQueueResult}
    {items items' : List UbusTask} (h : q.Pushed task result items) (hitems : items' = items) :
    q.Pushed task result items' := hitems ▸ h

theorem merge_eq_some {existing incoming merged : UbusTask}
    (h : taskQueueMergeSameServiceAction.merged incoming existing = some merged) :
    sameWork existing incoming = true ∧ merged = { existing with
      requestId := incoming.requestId, timeoutMs := incoming.timeoutMs,
      enqueueTimeMs := incoming.enqueueTimeMs } := by
  unfold MergeFn.merged taskQueueMergeSameServiceAction at h
  by_cases hsame : sameWork existing incoming = true
  · rw [if_pos hsame, if_pos rfl] at h
    exact ⟨hsame, (Option.some.inj h).symm⟩
  · rw [if_neg hsame, if_neg Bool.false_ne_true] at h
    cases h

theorem merge_eq_none {existing incoming : UbusTask}
    (h : taskQueueMergeSameServiceAction.merged incoming existing = none) :
    sameWork existing incoming = false := by
  unfold MergeFn.merged taskQueueMergeSameServiceAction at h
  by_cases hsame : sameWork existing incoming = true
  · rw [if_pos hsame, if_pos rfl] at h
    cases h
  · exact Bool.eq_false_iff.2 hsame

/-- **One push** has one of the three outcomes. -/
theorem Good.push {q : TaskQueue} (h : q.Good) (task : UbusTask) :
    (q.push task).2.Good ∧ (q.push task).2.ring.capacity = q.ring.capacity ∧
      q.Pushed task (q.push task).1 (q.push task).2.items := by
  obtain ⟨hring, hpushed⟩ := h.wellFormed.push task
  unfold TaskQueue.push
  generalize q.ring.push task = p at hring hpushed
  obtain ⟨result, ring⟩ := p
  dsimp only at hring hpushed
  have hgood := h.of_sameKind hring
  have hnone : q.ring.Unmerged task → ∀ existing ∈ q.items, sameWork existing task = false :=
    fun hno existing he => merge_eq_none (hno h.policy _ h.mergeFn existing he)
  generalize hitems : ring.items = items at hpushed
  cases hpushed with
  | @merged merge _ hpolicy hmerge hupdate =>
    obtain rfl : taskQueueMergeSameServiceAction = merge :=
      Option.some.inj (h.mergeFn.symm.trans hmerge)
    obtain ⟨pre, existing, merged, post, hq, -, hmerged, rfl⟩ := updateFirst_eq_some hupdate
    obtain ⟨hsame, rfl⟩ := merge_eq_some hmerged
    exact ⟨hgood, hring.capacity, (Pushed.merged hq hsame).cast hitems⟩
  | appended hno hfree =>
    exact ⟨hgood, hring.capacity, (Pushed.appended (hnone hno)).cast hitems⟩
  | overwrote hno hfull hpolicy =>
    rw [h.policy] at hpolicy
    cases hpolicy
  | dropped hno hfull hpolicy =>
    exact ⟨hgood, hring.capacity, (Pushed.dropped (hnone hno) hfull).cast hitems⟩

/-- **One pop** takes the oldest task, if there is one. -/
theorem Good.tryPop {q : TaskQueue} (h : q.Good) :
    q.tryPop.2.Good ∧ q.tryPop.1.toList ++ q.tryPop.2.items = q.items := by
  obtain ⟨hring, hout, hitems⟩ := h.wellFormed.pop
  unfold TaskQueue.tryPop TaskQueue.items
  generalize q.ring.pop = p at hring hout hitems
  obtain ⟨out, ring⟩ := p
  dsimp only at hring hout hitems
  subst hout
  cases hq : q.ring.items with
  | nil =>
    rw [hq] at hitems
    exact ⟨h.of_sameKind hring, hitems⟩
  | cons task rest =>
    rw [hq] at hitems
    exact ⟨h.of_sameKind hring, congrArg (task :: ·) hitems⟩

end TaskQueue

/-! ## The result queue -/

/-- `result_queue_result_t` -/
inductive ResultQueueResult
  | ok
  | dropped
  | err
  deriving DecidableEq

/-- `result_queue_stats_t` -/
structure ResultQueueStats where
  pushes : UInt64 := 0
  pops : UInt64 := 0
  drops : UInt64 := 0
  dropsAbandoned : UInt64 := 0

/-- `result_queue_t`, without what only `result_queue_wait` reads. -/
structure ResultQueue where
  ring : RingQueue UbusResult
  stats : ResultQueueStats := {}
  seq : UInt64 := 0
  abandonedIds : List UInt32 := []

/-- `result_queue_init` -/
def resultQueueInit (malloc : Option (ℕ → UbusResult)) (capacity : ℕ) : Option ResultQueue :=
  if capacity = 0 then none
  else
    (ringQueueInit malloc capacity ubusResultSize).map fun ring =>
      { ring := ring.setOverflowPolicy .rejectNew }

namespace ResultQueue

/-- `result_queue_signal` -/
def signal (q : ResultQueue) : ResultQueue := { q with seq := q.seq + 1 }

/-- `result_queue_is_abandoned` -/
def isAbandoned (q : ResultQueue) (requestId : UInt32) : Bool := q.abandonedIds.contains requestId

/-- `result_queue_push` -/
def push (q : ResultQueue) (result : UbusResult) : ResultQueueResult × ResultQueue :=
  if q.isAbandoned result.requestId then
    (.dropped, { q with stats.dropsAbandoned := q.stats.dropsAbandoned + 1 })
  else
    match q.ring.push result with
    | (.ok, ring) => (.ok, { q with ring := ring, stats.pushes := q.stats.pushes + 1 }.signal)
    | (.dropped, ring) =>
      match ring.replaceFirstIf (fun item => q.isAbandoned item.requestId) result with
      | (true, ring) =>
        (.ok, { q with
          ring := ring, stats.pushes := q.stats.pushes + 1,
          stats.dropsAbandoned := q.stats.dropsAbandoned + 1 }.signal)
      | (false, ring) => (.dropped, { q with ring := ring, stats.drops := q.stats.drops + 1 })
    | (_, ring) => (.err, { q with ring := ring })

/-- `result_queue_try_pop` -/
def tryPop (q : ResultQueue) : Option UbusResult × ResultQueue :=
  match q.ring.pop with
  | (some result, ring) => (some result, { q with ring := ring, stats.pops := q.stats.pops + 1 })
  | (none, ring) => (none, { q with ring := ring })

/-- The waiting results, oldest first. -/
def items (q : ResultQueue) : List UbusResult := q.ring.items

/-- The ring is as `result_queue_init` set it up, and no request was abandoned. -/
structure Good (q : ResultQueue) : Prop where
  ring : q.ring.SetUp .rejectNew none
  abandonedIds : q.abandonedIds = []

theorem good_init {malloc : Option (ℕ → UbusResult)} {capacity : ℕ} {q : ResultQueue}
    (hinit : resultQueueInit malloc capacity = some q) : q.Good ∧ q.items = [] := by
  unfold resultQueueInit at hinit
  split at hinit
  · cases hinit
  · obtain ⟨ring, hring, rfl⟩ := Option.map_eq_some_iff.1 hinit
    obtain ⟨hsetUp, hempty⟩ := setUp_init hring
    exact ⟨⟨hsetUp.setOverflowPolicy .rejectNew, rfl⟩, hempty⟩

/-- **One push** appends the result, or drops it and leaves the waiting ones alone. -/
theorem Good.push {q : ResultQueue} (h : q.Good) (result : UbusResult) :
    (q.push result).2.Good ∧
      ((q.push result).1 = .ok ∧ (q.push result).2.items = q.items ++ [result] ∨
        (q.push result).1 = .dropped ∧ (q.push result).2.items = q.items) := by
  obtain ⟨hring, hpushed⟩ := h.ring.wellFormed.push result
  have hwanted : ∀ id, q.isAbandoned id = false := fun id => by
    unfold isAbandoned
    rw [h.abandonedIds]
    rfl
  unfold ResultQueue.push
  rw [hwanted, if_neg Bool.false_ne_true]
  generalize q.ring.push result = p at hring hpushed
  obtain ⟨r, ring⟩ := p
  dsimp only at hring hpushed
  generalize hitems : ring.items = items at hpushed
  cases hpushed with
  | merged hpolicy _ _ =>
    rw [h.ring.policy] at hpolicy
    cases hpolicy
  | appended _ hfree =>
    exact ⟨⟨h.ring.of_sameKind hring, h.abandonedIds⟩, Or.inl ⟨rfl, hitems⟩⟩
  | overwrote _ _ hpolicy =>
    rw [h.ring.policy] at hpolicy
    cases hpolicy
  | dropped _ _ _ =>
    dsimp only
    obtain ⟨hring', hreplaced⟩ := hring.wellFormed.replaceFirstIf
      (fun item => q.isAbandoned item.requestId) result
    generalize ring.replaceFirstIf (fun item => q.isAbandoned item.requestId) result = p
      at hring' hreplaced
    obtain ⟨found, ring'⟩ := p
    dsimp only at hring' hreplaced
    rcases hreplaced with ⟨-, -, existing, -, -, -, habandoned, -⟩ | ⟨rfl, -, hsame⟩
    · rw [hwanted] at habandoned
      cases habandoned
    · exact ⟨⟨(h.ring.of_sameKind hring).of_sameKind hring', h.abandonedIds⟩,
        Or.inr ⟨rfl, hsame.trans hitems⟩⟩

/-- **One pop** takes the oldest result, if there is one. -/
theorem Good.tryPop {q : ResultQueue} (h : q.Good) :
    q.tryPop.2.Good ∧ q.tryPop.1.toList ++ q.tryPop.2.items = q.items := by
  obtain ⟨hring, hout, hitems⟩ := h.ring.wellFormed.pop
  unfold ResultQueue.tryPop ResultQueue.items
  generalize q.ring.pop = p at hring hout hitems
  obtain ⟨out, ring⟩ := p
  dsimp only at hring hout hitems
  subst hout
  have hgood := h.ring.of_sameKind hring
  cases hq : q.ring.items with
  | nil =>
    rw [hq] at hitems
    exact ⟨⟨hgood, h.abandonedIds⟩, hitems⟩
  | cons result rest =>
    rw [hq] at hitems
    exact ⟨⟨hgood, h.abandonedIds⟩, congrArg (result :: ·) hitems⟩

end ResultQueue

/-! ## The worker -/

/-- What `ubus_hal->invoke` fills in besides what it copies from the task. -/
structure InvokeOutcome where
  success : Bool
  errorCode : ℤ
  installed : Bool
  running : Bool

/-- `-ETIMEDOUT` -/
def errorTimedOut : ℤ := -110

/-- `process_task` at time `nowMs`: the result it pushes. -/
def processTask (task : UbusTask) (nowMs : UInt64) (outcome : InvokeOutcome) : UbusResult :=
  if taskQueueIsExpired task nowMs then
    { serviceName := strncpy 32 task.serviceName, action := task.action,
      requestId := task.requestId, success := false, errorCode := errorTimedOut }
  else
    { serviceName := strncpy 32 task.serviceName, action := task.action,
      requestId := task.requestId, success := outcome.success, errorCode := outcome.errorCode,
      installed := outcome.installed, running := outcome.running }

/-- The result carries the id of its task. -/
@[simp] theorem requestId_processTask (task : UbusTask) (nowMs : UInt64) (outcome : InvokeOutcome) :
    (processTask task nowMs outcome).requestId = task.requestId := by
  unfold processTask
  split <;> rfl

end NanoHat.Adr0005
