import Mathlib.Data.List.Sublists
import NanoHat.Adr0005.ControlChannel
import NanoHat.Adr0005.TaskWait
import NanoHat.Adr0005.UbusInvoke

/-!
# The worker and its two queues

`ubus_thread.c`: the worker takes a task, asks `rc`, and pushes the result, until it is told to stop;
what is still in the queue then is cancelled. The calls of the two queues are atomic here, and the
worker, the threads that push tasks and take results, and the one that calls `ubus_thread_stop` are
interleaved in every order.

Every task that was queued is answered once, in order (`tasks_answered`), as successful precisely if
`rc` granted it (`success_granted`), and a worker that was told to stop ends with nothing left in the
queue (`worker_ends`).
-/

namespace NanoHat.Adr0005

open Runs

/-- `-ECANCELED` -/
def errorCanceled : ℤ := -125

/-- Where the worker is in `ubus_thread_main`. -/
inductive WorkerPlace
  /-- About to look at `running`. -/
  | test
  | pop
  /-- In `process_task`: about to look at the time of the task and to ask `rc`, and about to push the
  result. -/
  | process (task : UbusTask)
  | push (result : UbusResult)
  | poll
  /-- About to read the eventfd. -/
  | read
  /-- After the loop. -/
  | lastPop
  | cancel (task : UbusTask)
  | done
  deriving DecidableEq

/-- Where the main thread is in `ubus_thread_stop`. -/
inductive StopPlace
  | idle
  /-- About to write to the eventfd. -/
  | wakeup
  | join
  deriving DecidableEq

/-- The worker, its queues and its connection to ubus, and what happened so far: the tasks that were
queued, the tasks that were processed with their results, the results that were pushed and those that
were taken. -/
structure Pipeline (ω : Type*) where
  tasks : TaskQueue
  results : ResultQueue
  hal : UbusHal ω
  place : WorkerPlace := .test
  running : Bool := true
  wakeupFd : ℕ := 0
  stopper : StopPlace := .idle
  queued : List UbusTask := []
  served : List (UbusTask × UbusResult) := []
  pushed : List UbusResult := []
  taken : List UbusResult := []

/-- The result for a task that `rc` is not asked about. -/
def UbusTask.failed (task : UbusTask) (errorCode : ℤ) : UbusResult where
  serviceName := strncpy 32 task.serviceName
  action := task.action
  requestId := task.requestId
  errorCode := errorCode

namespace Pipeline

variable {ω : Type*} (lib : Libubus ω)

/-- `process_task` at time `nowMs`, up to the push of the result. -/
def processTask (s : Pipeline ω) (task : UbusTask) (nowMs : UInt64) : UbusResult × UbusHal ω :=
  if taskQueueIsExpired task nowMs then (task.failed errorTimedOut, s.hal)
  else
    let (outcome, hal) := s.hal.realInvoke lib task
    (Adr0005.processTask task nowMs outcome, hal)

/-- `task_queue_try_pop` -/
def tryPop (s : Pipeline ω) : Option UbusTask × Pipeline ω :=
  (s.tasks.tryPop.1, { s with tasks := s.tasks.tryPop.2 })

/-- `result_queue_push` -/
def pushResult (s : Pipeline ω) (result : UbusResult) : Pipeline ω :=
  { s with results := (s.results.push result).2, pushed := s.pushed ++ [result] }

/-- The next step of the worker, at time `nowMs`; `poll` waits for the eventfd. -/
def workerStep (s : Pipeline ω) (nowMs : UInt64) : Pipeline ω :=
  match s.place with
  | .test => { s with place := if s.running then .pop else .lastPop }
  | .pop =>
    match s.tryPop with
    | (some task, s) => { s with place := .process task }
    | (none, s) => { s with place := .poll }
  | .process task =>
    let (result, hal) := s.processTask lib task nowMs
    { s with hal := hal, served := s.served ++ [(task, result)], place := .push result }
  | .push result => { s.pushResult result with place := .pop }
  | .poll => if 0 < s.wakeupFd then { s with place := .read } else s
  | .read => if 0 < s.wakeupFd then { s with wakeupFd := 0 } else { s with place := .test }
  | .lastPop =>
    match s.tryPop with
    | (some task, s) => { s with place := .cancel task }
    | (none, s) => { s with place := .done }
  | .cancel task =>
    let result := task.failed errorCanceled
    { s.pushResult result with served := s.served ++ [(task, result)], place := .lastPop }
  | .done => s

/-- What may happen next. -/
inductive Event
  | worker (nowMs : UInt64)
  /-- `poll` times out after 100 ms, or is interrupted. -/
  | pollEnds
  /-- Another thread calls `task_queue_push`. -/
  | push (task : UbusTask)
  /-- Another thread calls `result_queue_try_pop`. -/
  | take
  /-- The main thread goes on in `ubus_thread_stop`. -/
  | stop

/-- An event that is not possible leaves the state alone. -/
def step (s : Pipeline ω) : Event → Pipeline ω
  | .worker nowMs => s.workerStep lib nowMs
  | .pollEnds => if s.place = .poll then { s with place := .test } else s
  | .push task =>
    match s.tasks.push task with
    | (.ok, tasks) => { s with tasks := tasks, queued := s.queued ++ [task] }
    | (_, tasks) => { s with tasks := tasks }
  | .take =>
    { s with results := s.results.tryPop.2, taken := s.taken ++ s.results.tryPop.1.toList }
  | .stop =>
    match s.stopper with
    | .idle => { s with running := false, stopper := .wakeup }
    | .wakeup => { s with wakeupFd := eventFdWrite s.wakeupFd, stopper := .join }
    | .join => s

end Pipeline

namespace WorkerPlace

/-- The task that was taken and not answered. -/
def task : WorkerPlace → Option UbusTask
  | .process task | .cancel task => some task
  | _ => none

/-- The result that is about to be pushed. -/
def result : WorkerPlace → Option UbusResult
  | .push result => some result
  | _ => none

/-- The worker is about to look at `running`, or has seen that it is to stop. -/
def WillStop : WorkerPlace → Prop
  | .test | .read | .lastPop | .cancel _ | .done => True
  | _ => False

end WorkerPlace

/-- The result is one for the task. -/
structure Answers (task : UbusTask) (result : UbusResult) : Prop where
  requestId : result.requestId = task.requestId
  action : result.action = task.action
  serviceName : result.serviceName = strncpy 32 task.serviceName
  success : result.success = true ↔ result.errorCode = 0

theorem answers_failed (task : UbusTask) {errorCode : ℤ} (h : errorCode ≠ 0) :
    Answers task (task.failed errorCode) :=
  ⟨rfl, rfl, rfl, by simp [UbusTask.failed, h]⟩

/-- A push appends the result, or leaves the waiting results alone. -/
theorem ResultQueue.Good.items_push {q : ResultQueue} (h : q.Good) (result : UbusResult) :
    (q.push result).2.items.Sublist (q.items ++ [result]) := by
  obtain ⟨-, ⟨-, hitems⟩ | ⟨-, hitems⟩⟩ := h.push result
  · rw [hitems]
  · rw [hitems]
    exact List.sublist_append_left _ _

namespace Pipeline

variable {ω : Type*} {lib : Libubus ω} {s : Pipeline ω}

/-- The tasks that were taken, in order. -/
def popped (s : Pipeline ω) : List UbusTask := s.served.map Prod.fst ++ s.place.task.toList

/-- What holds in every state. -/
structure Inv (s : Pipeline ω) : Prop where
  tasks : s.tasks.Good
  results : s.results.Good
  /-- Work is taken in the order in which it was queued. -/
  order : (s.popped ++ s.tasks.items).map UbusTask.work = s.queued.map UbusTask.work
  /-- What was processed is pushed, in order. -/
  pushed : s.pushed ++ s.place.result.toList = s.served.map Prod.snd
  answers : ∀ p ∈ s.served, Answers p.1 p.2
  granted : s.hal.granted = (s.served.filter fun p => p.2.success).map fun p => p.1.rcRequest
  /-- Results are taken in the order in which they were pushed. -/
  taken : (s.taken ++ s.results.items).Sublist s.pushed
  /-- The worker will hear that it is to stop. -/
  heard : s.running = false → s.stopper = .wakeup ∨ 0 < s.wakeupFd ∨ s.place.WillStop
  stopped : s.stopper ≠ .idle → s.running = false

/-- What processing a task yields: a result for it, and its request granted if that is a success. -/
theorem processTask_spec (lib : Libubus ω) (s : Pipeline ω) (task : UbusTask) (nowMs : UInt64) :
    Answers task (s.processTask lib task nowMs).1 ∧
      (s.processTask lib task nowMs).2.granted = s.hal.granted ++
        if (s.processTask lib task nowMs).1.success = true then [task.rcRequest] else [] := by
  unfold processTask
  split
  · exact ⟨answers_failed task (by decide), (List.append_nil _).symm⟩
  · rename_i hexpired
    obtain ⟨-, -, -, hsuccess, -, -⟩ := s.hal.invoke_reports lib task
    have hgranted := s.hal.granted_realInvoke lib task
    simp only [Adr0005.processTask, if_neg hexpired]
    exact ⟨⟨rfl, rfl, rfl, hsuccess⟩, hgranted⟩

/-- A step of the worker that moves only the worker, and may empty the eventfd. -/
theorem Inv.move (h : s.Inv) {place : WorkerPlace} {wakeupFd : ℕ}
    (htask : place.task = s.place.task) (hresult : place.result = s.place.result)
    (hheard : s.running = false → 0 < s.wakeupFd ∨ s.place.WillStop →
      0 < wakeupFd ∨ place.WillStop) :
    Inv { s with place := place, wakeupFd := wakeupFd } where
  tasks := h.tasks
  results := h.results
  order := by
    have horder := h.order
    simp only [popped, htask] at horder ⊢
    exact horder
  pushed := by rw [hresult]; exact h.pushed
  answers := h.answers
  granted := h.granted
  taken := h.taken
  heard hrunning := (h.heard hrunning).imp_right (hheard hrunning)
  stopped := h.stopped

/-- The worker takes a task, or finds none. -/
theorem Inv.tryPop (h : s.Inv) (htask : s.place.task = none) (hresult : s.place.result = none)
    (place : Option UbusTask → WorkerPlace) (hplace : ∀ task, (place task).task = task)
    (hnone : ∀ task, (place task).result = none)
    (hwill : s.place.WillStop → ∀ task, (place task).WillStop) :
    Inv { s.tryPop.2 with place := place s.tryPop.1 } := by
  obtain ⟨hgood, hitems⟩ := h.tasks.tryPop
  refine ⟨hgood, h.results, ?_, ?_, h.answers, h.granted, h.taken, fun hrunning => ?_, h.stopped⟩
  · have horder := h.order
    rw [popped, htask] at horder
    simp only [popped, hplace, Pipeline.tryPop]
    rw [← horder, ← hitems]
    simp
  · have hpushed := h.pushed
    rw [hresult] at hpushed
    rw [hnone]
    exact hpushed
  · exact (h.heard hrunning).imp_right fun hor => hor.imp_right fun hw => hwill hw _

/-- The worker pushes a result. -/
theorem Inv.pushResult (h : s.Inv) (result : UbusResult) {place : WorkerPlace}
    {served : List (UbusTask × UbusResult)}
    (hpopped : served.map Prod.fst ++ place.task.toList = s.popped)
    (hpushed : s.pushed ++ [result] ++ place.result.toList = served.map Prod.snd)
    (hanswers : ∀ p ∈ served, Answers p.1 p.2)
    (hgranted : s.hal.granted = (served.filter fun p => p.2.success).map fun p => p.1.rcRequest)
    (hwill : s.place.WillStop → place.WillStop) :
    Inv { s.pushResult result with served := served, place := place } where
  tasks := h.tasks
  results := (h.results.push result).1
  order := by
    have horder := h.order
    rw [← hpopped] at horder
    exact horder
  pushed := hpushed
  answers := hanswers
  granted := hgranted
  taken := by
    refine ((h.results.items_push result).append_left s.taken).trans ?_
    rw [← List.append_assoc]
    exact h.taken.append_right [result]
  heard hrunning := (h.heard hrunning).imp_right fun hor => hor.imp_right hwill
  stopped := h.stopped

theorem Inv.workerStep (h : s.Inv) (nowMs : UInt64) : (s.workerStep lib nowMs).Inv := by
  unfold Pipeline.workerStep
  cases hplace : s.place with
  | test =>
    refine h.move (by rw [hplace]; split <;> rfl) (by rw [hplace]; split <;> rfl)
      fun hrunning _ => Or.inr ?_
    rw [hrunning]
    trivial
  | pop =>
    have hnext := h.tryPop (by rw [hplace]; rfl) (by rw [hplace]; rfl)
      (fun task => task.elim .poll .process) (by rintro (_ | task) <;> rfl)
      (by rintro (_ | task) <;> rfl) (by rw [hplace]; exact False.elim)
    dsimp only
    generalize s.tryPop = p at hnext
    obtain ⟨_ | task, s'⟩ := p <;> exact hnext
  | process task =>
    obtain ⟨hanswers, hgranted⟩ := s.processTask_spec lib task nowMs
    dsimp only
    generalize s.processTask lib task nowMs = p at hanswers hgranted
    obtain ⟨result, hal⟩ := p
    refine ⟨h.tasks, h.results, ?_, ?_, ?_, ?_, h.taken, fun hrunning => ?_, h.stopped⟩
    · have horder := h.order
      rw [popped, hplace] at horder
      simpa [popped, WorkerPlace.task] using horder
    · have hpushed := h.pushed
      rw [hplace] at hpushed
      simpa [WorkerPlace.result] using hpushed
    · intro p hp
      rcases List.mem_append.1 hp with hp | hp
      · exact h.answers p hp
      · rw [List.mem_singleton.1 hp]
        exact hanswers
    · dsimp only at hgranted ⊢
      rw [hgranted, h.granted, List.filter_append, List.map_append]
      cases hsuccess : result.success <;> simp [hsuccess]
    · have hheard := h.heard hrunning
      rw [hplace] at hheard
      exact hheard
  | push result =>
    have hpushed := h.pushed
    rw [hplace] at hpushed
    refine h.pushResult result ?_ ?_ h.answers h.granted ?_
    · rw [popped, hplace]
      rfl
    · exact (List.append_nil _).trans hpushed
    · rw [hplace]
      exact False.elim
  | poll =>
    dsimp only
    split
    · exact h.move (by rw [hplace]; rfl) (by rw [hplace]; rfl) fun _ _ => Or.inr trivial
    · exact h
  | read =>
    dsimp only
    split
    · exact h.move (by rw [hplace]) (by rw [hplace]) fun _ _ => Or.inr trivial
    · exact h.move (by rw [hplace]; rfl) (by rw [hplace]; rfl) fun _ _ => Or.inr trivial
  | lastPop =>
    have hnext := h.tryPop (by rw [hplace]; rfl) (by rw [hplace]; rfl)
      (fun task => task.elim .done .cancel) (by rintro (_ | task) <;> rfl)
      (by rintro (_ | task) <;> rfl) (by rintro - (_ | task) <;> trivial)
    dsimp only
    generalize s.tryPop = p at hnext
    obtain ⟨_ | task, s'⟩ := p <;> exact hnext
  | cancel task =>
    have hpushed := h.pushed
    rw [hplace] at hpushed
    refine h.pushResult (task.failed errorCanceled) ?_ ?_ (fun p hp => ?_) ?_ fun _ => trivial
    · simp [popped, hplace, WorkerPlace.task]
    · rw [List.map_append, ← hpushed]
      simp [WorkerPlace.result]
    · rcases List.mem_append.1 hp with hp | hp
      · exact h.answers p hp
      · rw [List.mem_singleton.1 hp]
        exact answers_failed task (by decide)
    · rw [h.granted, List.filter_append, List.map_append]
      exact (List.append_nil _).symm
  | done => exact h

theorem Inv.step (h : s.Inv) (e : Event) : (s.step lib e).Inv := by
  unfold Pipeline.step
  cases e with
  | worker nowMs => exact h.workerStep nowMs
  | pollEnds =>
    dsimp only
    split
    · rename_i hplace
      exact h.move (by rw [hplace]; rfl) (by rw [hplace]; rfl) fun _ _ => Or.inr trivial
    · exact h
  | push task =>
    obtain ⟨hgood, -, hpushed⟩ := h.tasks.push task
    dsimp only
    generalize s.tasks.push task = p at hgood hpushed
    obtain ⟨result, tasks⟩ := p
    dsimp only at hgood hpushed
    generalize hitems : tasks.items = items at hpushed
    have horder := h.order
    rw [List.map_append] at horder
    cases hpushed with
    | @merged pre post existing hold hsame =>
      refine ⟨hgood, h.results, ?_, h.pushed, h.answers, h.granted, h.taken, h.heard, h.stopped⟩
      rw [← horder, hold]
      dsimp only
      rw [hitems]
      simp [popped, UbusTask.work]
    | appended hnone =>
      refine ⟨hgood, h.results, ?_, h.pushed, h.answers, h.granted, h.taken, h.heard, h.stopped⟩
      have hqueued : (s.queued ++ [task]).map UbusTask.work =
          s.queued.map UbusTask.work ++ [task.work] := List.map_append
      dsimp only
      rw [hqueued, ← horder, hitems]
      simp [popped]
    | dropped hnone hfull =>
      refine ⟨hgood, h.results, ?_, h.pushed, h.answers, h.granted, h.taken, h.heard, h.stopped⟩
      rw [← horder]
      dsimp only
      rw [hitems]
      simp [popped]
  | take =>
    obtain ⟨hgood, hitems⟩ := h.results.tryPop
    refine ⟨h.tasks, hgood, h.order, h.pushed, h.answers, h.granted, ?_, h.heard, h.stopped⟩
    dsimp only
    rw [List.append_assoc, hitems]
    exact h.taken
  | stop =>
    cases hstopper : s.stopper with
    | idle =>
      exact ⟨h.tasks, h.results, h.order, h.pushed, h.answers, h.granted, h.taken,
        fun _ => Or.inl rfl, fun _ => rfl⟩
    | wakeup =>
      exact ⟨h.tasks, h.results, h.order, h.pushed, h.answers, h.granted, h.taken,
        fun _ => Or.inr (Or.inl (eventFdWrite_pos _)), fun _ => h.stopped (by rw [hstopper]; nofun)⟩
    | join => exact h

/-! ## Runs -/

/-- `ubus_hal->init` and `ubus_thread_start`, with these queues. -/
def start (lib : Libubus ω) (tasks : TaskQueue) (results : ResultQueue) (world : ω) : Pipeline ω where
  tasks := tasks
  results := results
  hal := UbusHal.realInit lib { world := world }

/-- The state after the steps `es` of the threads. -/
def after (lib : Libubus ω) (tasks : TaskQueue) (results : ResultQueue) (world : ω)
    (es : List Event) : Pipeline ω := run (step lib) (start lib tasks results world) es

variable {taskMalloc : Option (ℕ → UbusTask)} {resultMalloc : Option (ℕ → UbusResult)}
  {taskCapacity resultCapacity : ℕ} {tasks : TaskQueue} {results : ResultQueue} {world : ω}
  {es : List Event}

theorem inv_after (htasks : taskQueueInit taskMalloc taskCapacity = some tasks)
    (hresults : resultQueueInit resultMalloc resultCapacity = some results) :
    (after lib tasks results world es).Inv := by
  obtain ⟨hgood, hempty⟩ := TaskQueue.good_init htasks
  obtain ⟨hgood', hempty'⟩ := ResultQueue.good_init hresults
  have hgranted : (start lib tasks results world).hal.granted = [] := by
    unfold UbusHal.granted
    rw [start, UbusHal.realInit, UbusHal.sent_ensureContext]
    rfl
  refine run_invariant (P := Inv) (fun _ e h => h.step e)
    ⟨hgood, hgood', ?_, rfl, fun _ hp => absurd hp List.not_mem_nil, hgranted, ?_, nofun,
      fun h => absurd rfl h⟩ es
  · rw [start, hempty]
    rfl
  · rw [start, hempty']
    exact List.Sublist.refl _

/-- **Every task is answered once, in order**, in every interleaving. The work of the tasks that the
worker has taken and, behind them, of those that wait is the work that was queued; but for one that
the worker has in its hands, every task that was taken was answered by one push of a result for it, in
the same order; and results are received in the order of the pushes. -/
theorem tasks_answered (htasks : taskQueueInit taskMalloc taskCapacity = some tasks)
    (hresults : resultQueueInit resultMalloc resultCapacity = some results)
    (hs : after lib tasks results world es = s) :
    (s.served.map Prod.fst ++ s.place.task.toList ++ s.tasks.items).map UbusTask.work =
        s.queued.map UbusTask.work ∧
      s.pushed ++ s.place.result.toList = s.served.map Prod.snd ∧
      (∀ p ∈ s.served, Answers p.1 p.2) ∧ (s.taken ++ s.results.items).Sublist s.pushed := by
  have h : s.Inv := hs ▸ inv_after htasks hresults
  exact ⟨h.order, h.pushed, h.answers, h.taken⟩

/-- A world in which the first request to `rc` times out and later ones are answered; it counts the
requests. -/
def flaky : Libubus ℕ where
  time sent := (0, sent)
  connect sent := (some 1, sent)
  lookup sent _ := ((.ok, 7), sent)
  invoke sent _ _ _ :=
    (if sent = 0 then (.timeout, [])
      else (.ok, [some [{ table := true, running := some true }]]), sent + 1)
  undefShift := 0

/-- Two tasks, and the worker turns to both and waits in `poll`. -/
def twoTasks : List Event :=
  [.push { serviceName := ['a'], action := .query, requestId := 1 },
    .push { serviceName := ['b'], action := .start, requestId := 2 }] ++
    List.replicate 8 (.worker 0)

/-- Both are answered. -/
theorem tasks_answered_two : ∃ tasks results,
    taskQueueInit (some fun _ => { serviceName := [], action := .start, requestId := 0 }) 2 =
        some tasks ∧
      resultQueueInit (some fun _ => { serviceName := [], action := .start, requestId := 0 }) 2 =
        some results ∧
      (after flaky tasks results 0 twoTasks).pushed =
        (after flaky tasks results 0 twoTasks).served.map Prod.snd ∧
      (after flaky tasks results 0 twoTasks).pushed.map UbusResult.requestId = [1, 2] := by
  have htasks : taskQueueInit
      (some fun _ => { serviceName := [], action := .start, requestId := 0 }) 2 = some _ := rfl
  have hresults : resultQueueInit
      (some fun _ => { serviceName := [], action := .start, requestId := 0 }) 2 = some _ := rfl
  obtain ⟨-, hpushed, -, -⟩ := tasks_answered htasks hresults
    (rfl : after flaky _ _ 0 twoTasks = _)
  exact ⟨_, _, htasks, hresults, (List.append_nil _).symm.trans hpushed, by decide +kernel⟩

/-- **A task is reported successful if and only if `rc` granted it.** The requests that `rc` answered
without an error are, in order, those of the tasks whose results are successful. -/
theorem success_granted (htasks : taskQueueInit taskMalloc taskCapacity = some tasks)
    (hresults : resultQueueInit resultMalloc resultCapacity = some results)
    (hs : after lib tasks results world es = s) :
    s.hal.granted = (s.served.filter fun p => p.2.success).map fun p => p.1.rcRequest := by
  have h : s.Inv := hs ▸ inv_after htasks hresults
  exact h.granted

/-- The first query is granted at the second attempt. -/
theorem success_granted_two : ∃ tasks results,
    taskQueueInit (some fun _ => { serviceName := [], action := .start, requestId := 0 }) 2 =
        some tasks ∧
      resultQueueInit (some fun _ => { serviceName := [], action := .start, requestId := 0 }) 2 =
        some results ∧
      (after flaky tasks results 0 twoTasks).hal.granted =
        [{ method := .list, name := ['a'], timeoutMs := 2000 },
          { method := .init, name := ['b'], action := some ['s', 't', 'a', 'r', 't'],
            timeoutMs := 5000 }] := by
  have htasks : taskQueueInit
      (some fun _ => { serviceName := [], action := .start, requestId := 0 }) 2 = some _ := rfl
  have hresults : resultQueueInit
      (some fun _ => { serviceName := [], action := .start, requestId := 0 }) 2 = some _ := rfl
  refine ⟨_, _, htasks, hresults, ?_⟩
  rw [success_granted htasks hresults rfl]
  decide +kernel

/-! ## The end -/

/-- In `n` steps of its own, whenever they happen, the worker has ended with nothing in the queue. -/
def Ends (lib : Libubus ω) (n : ℕ) (s : Pipeline ω) : Prop :=
  ∀ times : List UInt64, n ≤ times.length →
    (run (workerStep lib) s times).place = .done ∧ (run (workerStep lib) s times).tasks.items = []

theorem Ends.next {n : ℕ} (h : ∀ nowMs, Ends lib n (s.workerStep lib nowMs)) : Ends lib (n + 1) s := by
  rintro (_ | ⟨nowMs, times⟩) hlen
  · exact absurd hlen (Nat.not_succ_le_zero n)
  · exact h nowMs times (Nat.le_of_succ_le_succ hlen)

theorem Ends.mono {m n : ℕ} (h : Ends lib m s) (hle : m ≤ n) : Ends lib n s :=
  fun times hlen => h times (hle.trans hlen)

theorem ends_done (hplace : s.place = .done) (hempty : s.tasks.items = []) : Ends lib 0 s := by
  intro times _
  induction times with
  | nil => exact ⟨hplace, hempty⟩
  | cons nowMs times ih =>
    have hsame : s.workerStep lib nowMs = s := by rw [workerStep, hplace]
    rw [run_cons, hsame]
    exact ih (Nat.zero_le _)

theorem tryPop_spec (hgood : s.tasks.Good) : s.tryPop.1 = s.tasks.items.head? ∧
    s.tryPop.2.tasks.items = s.tasks.items.tail ∧ s.tryPop.2.tasks.Good := by
  obtain ⟨hgood', hitems⟩ := hgood.tryPop
  have hhead : s.tasks.tryPop.1 = s.tasks.items.head? := by
    obtain ⟨-, hout, -⟩ := hgood.wellFormed.pop
    refine Eq.trans ?_ hout
    unfold TaskQueue.tryPop
    split <;> simp_all
  refine ⟨hhead, ?_, hgood'⟩
  rw [hhead] at hitems
  cases hwait : s.tasks.items with
  | nil => rw [hwait] at hitems; exact hitems
  | cons task rest => rw [hwait] at hitems; exact List.tail_eq_of_cons_eq hitems

/-- After the loop every task that waits takes two steps. -/
theorem ends_lastPop {n : ℕ} (hgood : s.tasks.Good) (hlen : s.tasks.items.length = n)
    (hplace : s.place = .lastPop) : Ends lib (2 * n + 1) s := by
  induction n generalizing s with
  | zero =>
    have hnil := List.length_eq_zero_iff.1 hlen
    obtain ⟨hhead, htail, -⟩ := tryPop_spec hgood
    refine Ends.next fun nowMs => ?_
    rw [workerStep, hplace]
    rw [hnil] at hhead htail
    generalize s.tryPop = p at hhead htail
    obtain ⟨_ | task, s'⟩ := p
    · exact ends_done rfl htail
    · cases hhead
  | succ n ih =>
    obtain ⟨task, rest, hcons⟩ := List.exists_cons_of_length_eq_add_one hlen
    obtain ⟨hhead, htail, hgood'⟩ := tryPop_spec hgood
    refine Ends.next fun nowMs => ?_
    rw [workerStep, hplace]
    rw [hcons] at hhead htail hlen
    generalize s.tryPop = p at hhead htail hgood'
    obtain ⟨_ | task', s'⟩ := p
    · cases hhead
    · have hrest : s'.tasks.items.length = n :=
        (congrArg List.length htail).trans (Nat.succ.inj hlen)
      exact Ends.next fun nowMs' => ih hgood' hrest rfl

theorem ends_test {n : ℕ} (hgood : s.tasks.Good) (hlen : s.tasks.items.length = n)
    (hrunning : s.running = false) (hplace : s.place = .test) : Ends lib (2 * n + 2) s := by
  refine Ends.next fun nowMs => ?_
  rw [workerStep, hplace, hrunning]
  exact ends_lastPop hgood hlen rfl

theorem ends_cancel {n : ℕ} (hgood : s.tasks.Good) (hlen : s.tasks.items.length = n)
    {task : UbusTask} (hplace : s.place = .cancel task) : Ends lib (2 * n + 2) s := by
  refine Ends.next fun nowMs => ?_
  rw [workerStep, hplace]
  exact ends_lastPop hgood hlen rfl

/-- An eventfd that is not empty is read twice. -/
theorem ends_read {n : ℕ} (hgood : s.tasks.Good) (hlen : s.tasks.items.length = n)
    (hrunning : s.running = false) (hplace : s.place = .read) : Ends lib (2 * n + 4) s := by
  have hempty : ∀ s : Pipeline ω, s.tasks.Good → s.tasks.items.length = n → s.running = false →
      s.place = .read → s.wakeupFd = 0 → Ends lib (2 * n + 3) s := by
    intro s hgood hlen hrunning hplace hfd
    refine Ends.next fun nowMs => ?_
    rw [workerStep, hplace, hfd]
    exact ends_test hgood hlen hrunning rfl
  by_cases hfd : 0 < s.wakeupFd
  · refine Ends.next fun nowMs => ?_
    rw [workerStep, hplace]
    dsimp only
    rw [if_pos hfd]
    exact hempty _ hgood hlen hrunning rfl rfl
  · exact (hempty s hgood hlen hrunning hplace (by omega)).mono (Nat.le_succ _)

theorem ends_poll {n : ℕ} (hgood : s.tasks.Good) (hlen : s.tasks.items.length = n)
    (hrunning : s.running = false) (hfd : 0 < s.wakeupFd) (hplace : s.place = .poll) :
    Ends lib (2 * n + 5) s := by
  refine Ends.next fun nowMs => ?_
  rw [workerStep, hplace]
  dsimp only
  rw [if_pos hfd]
  exact ends_read hgood hlen hrunning rfl

/-- Within the loop every task that waits takes three steps. -/
theorem ends_pop {n : ℕ} (hgood : s.tasks.Good) (hlen : s.tasks.items.length = n)
    (hrunning : s.running = false) (hfd : 0 < s.wakeupFd) (hplace : s.place = .pop) :
    Ends lib (3 * n + 6) s := by
  have hpop : s.tryPop.2.running = false ∧ 0 < s.tryPop.2.wakeupFd := ⟨hrunning, hfd⟩
  induction n generalizing s with
  | zero =>
    have hnil := List.length_eq_zero_iff.1 hlen
    obtain ⟨hhead, htail, hgood'⟩ := tryPop_spec hgood
    refine Ends.next fun nowMs => ?_
    rw [workerStep, hplace]
    rw [hnil] at hhead htail
    generalize s.tryPop = p at hhead htail hgood' hpop
    obtain ⟨_ | task, s'⟩ := p
    · exact ends_poll (s := { s' with place := .poll }) hgood' (congrArg List.length htail) hpop.1
        hpop.2 rfl
    · cases hhead
  | succ n ih =>
    obtain ⟨task, rest, hcons⟩ := List.exists_cons_of_length_eq_add_one hlen
    obtain ⟨hhead, htail, hgood'⟩ := tryPop_spec hgood
    refine Ends.next fun nowMs => ?_
    rw [workerStep, hplace]
    rw [hcons] at hhead htail hlen
    generalize s.tryPop = p at hhead htail hgood' hpop
    obtain ⟨_ | task', s'⟩ := p
    · cases hhead
    · have hrest : s'.tasks.items.length = n :=
        (congrArg List.length htail).trans (Nat.succ.inj hlen)
      exact Ends.next fun nowMs₂ => Ends.next fun nowMs₃ =>
        ih hgood' hrest hpop.1 hpop.2 rfl ⟨hpop.1, hpop.2⟩

theorem ends_push {n : ℕ} (hgood : s.tasks.Good) (hlen : s.tasks.items.length = n)
    (hrunning : s.running = false) (hfd : 0 < s.wakeupFd) {result : UbusResult}
    (hplace : s.place = .push result) : Ends lib (3 * n + 7) s := by
  refine Ends.next fun nowMs => ?_
  rw [workerStep, hplace]
  exact ends_pop hgood hlen hrunning hfd rfl

theorem ends_process {n : ℕ} (hgood : s.tasks.Good) (hlen : s.tasks.items.length = n)
    (hrunning : s.running = false) (hfd : 0 < s.wakeupFd) {task : UbusTask}
    (hplace : s.place = .process task) : Ends lib (3 * n + 8) s := by
  refine Ends.next fun nowMs => ?_
  rw [workerStep, hplace]
  exact ends_push hgood hlen hrunning hfd rfl

/-- **The worker ends**, whatever libubus answers. After any steps of the threads, once
`ubus_thread_stop` waits for the worker and nobody else uses the queues, the worker returns within
three steps for each waiting task and eight more, if it has not returned already; nothing waits then,
and all the work that was queued was answered. -/
theorem worker_ends (htasks : taskQueueInit taskMalloc taskCapacity = some tasks)
    (hresults : resultQueueInit resultMalloc resultCapacity = some results)
    (hs : after lib tasks results world es = s) (hstopper : s.stopper = .join)
    (hplace : s.place ≠ .done) {times : List UInt64}
    (htimes : 3 * s.tasks.items.length + 8 ≤ times.length) {s' : Pipeline ω}
    (hs' : run (workerStep lib) s times = s') :
    s'.place = .done ∧ s'.tasks.items = [] ∧
      (s'.served.map Prod.fst).map UbusTask.work = s'.queued.map UbusTask.work ∧
      s'.pushed = s'.served.map Prod.snd := by
  have h : s.Inv := hs ▸ inv_after htasks hresults
  have h' : s'.Inv := hs' ▸ run_invariant (P := Inv) (fun _ nowMs h => h.workerStep nowMs) h times
  have hrunning := h.stopped (by rw [hstopper]; nofun)
  have hfd : ¬s.place.WillStop → 0 < s.wakeupFd := by
    intro hwill
    rcases h.heard hrunning with hwakeup | hfd | hstop
    · rw [hstopper] at hwakeup
      cases hwakeup
    · exact hfd
    · exact absurd hstop hwill
  have hends : Ends lib (3 * s.tasks.items.length + 8) s := by
    cases hat : s.place with
    | test => exact (ends_test h.tasks rfl hrunning hat).mono (by omega)
    | pop => exact (ends_pop h.tasks rfl hrunning (hfd (by rw [hat]; exact id)) hat).mono (by omega)
    | process task => exact ends_process h.tasks rfl hrunning (hfd (by rw [hat]; exact id)) hat
    | push result =>
      exact (ends_push h.tasks rfl hrunning (hfd (by rw [hat]; exact id)) hat).mono (by omega)
    | poll => exact (ends_poll h.tasks rfl hrunning (hfd (by rw [hat]; exact id)) hat).mono (by omega)
    | read => exact (ends_read h.tasks rfl hrunning hat).mono (by omega)
    | lastPop => exact (ends_lastPop h.tasks rfl hat).mono (by omega)
    | cancel task => exact (ends_cancel h.tasks rfl hat).mono (by omega)
    | done => exact absurd hat hplace
  obtain ⟨hdone, hempty⟩ := hends times htimes
  rw [hs'] at hdone hempty
  have horder := h'.order
  have hpushed := h'.pushed
  rw [popped, hdone, hempty] at horder
  rw [hdone] at hpushed
  simp only [WorkerPlace.task, WorkerPlace.result, Option.toList_none, List.append_nil] at horder hpushed
  exact ⟨hdone, hempty, horder, hpushed⟩

/-- Two tasks, and `ubus_thread_stop` before the worker has taken the second. -/
def stopped : List Event :=
  [.push { serviceName := ['a'], action := .query, requestId := 1 },
    .push { serviceName := ['b'], action := .start, requestId := 2 }] ++
    List.replicate 3 (.worker 0) ++ [.stop, .stop]

/-- The worker ends with nothing in the queue. -/
theorem worker_ends_stopped : ∃ tasks results,
    taskQueueInit (some fun _ => { serviceName := [], action := .start, requestId := 0 }) 2 =
        some tasks ∧
      resultQueueInit (some fun _ => { serviceName := [], action := .start, requestId := 0 }) 2 =
        some results ∧
      (run (workerStep flaky) (after flaky tasks results 0 stopped)
        (List.replicate 11 0)).tasks.items = [] := by
  have htasks : taskQueueInit
      (some fun _ => { serviceName := [], action := .start, requestId := 0 }) 2 = some _ := rfl
  have hresults : resultQueueInit
      (some fun _ => { serviceName := [], action := .start, requestId := 0 }) 2 = some _ := rfl
  refine ⟨_, _, htasks, hresults, ?_⟩
  exact (worker_ends htasks hresults (rfl : after flaky _ _ 0 stopped = _) rfl (by decide +kernel)
    (by decide +kernel) rfl).2.1

end Pipeline

end NanoHat.Adr0005
