import NanoHat.Adr0005.WorkQueues
import NanoHat.Status.ServiceConfig

/-!
# Service queries of the threaded implementation

`sys_status_request_services` and `sys_status_process_results` of `sys_status.c` on the UI thread,
and the worker of `ubus_thread.c`. The threads share only the two queues, each call of which is
atomic, so a step is what one thread does between two such calls: a turn of the loop of the function
that the UI thread is in, or the worker taking a task or pushing its result. Any step may follow any
other; a step that its thread cannot take in a state leaves the state alone.

`outstanding i` records the id of the last query that the task queue accepted for service `i`,
merged or not, until a result with this id is popped.
-/

namespace NanoHat.Adr0005

open FirstMatch

/-- `SERVICE_QUERY_TIMEOUT_MS` -/
def serviceQueryTimeoutMs : UInt64 := 5000

/-- `service_status_t` -/
structure ServiceStatus where
  name : CStr
  installed : Bool := false
  running : Bool := false
  queryPending : Bool := false
  statusValid : Bool := false
  requestId : UInt32 := 0
  requestTimeMs : UInt64 := 0
  lastUpdateMs : UInt64 := 0
  deriving DecidableEq

/-- Where the UI thread is: outside both functions, before turn `i` of the loop of
`sys_status_request_services`, or in the loop of `sys_status_process_results`. -/
inductive UiPhase
  | idle
  | requesting (i : ℕ) (nowMs : UInt64)
  | processing (nowMs : UInt64) (count : ℕ)
  deriving DecidableEq

/-- Both threads, the queues between them and the services. -/
structure Threads where
  services : List ServiceStatus := []
  nextRequestId : UInt32 := 1
  tasks : TaskQueue
  results : ResultQueue
  ui : UiPhase := .idle
  worker : Option UbusTask := none
  outstanding : ℕ → Option UInt32 := fun _ => none

/-- What one thread does next. -/
inductive ThreadStep
  /-- `sys_status_request_services` is called at `nowMs`. -/
  | beginRequest (nowMs : UInt64)
  | requestTurn
  /-- `sys_status_process_results` is called at `nowMs`. -/
  | beginProcess (nowMs : UInt64)
  | processTurn
  | workerTakes
  /-- `process_task` ends at `nowMs`, `outcome` being what the invocation yields. -/
  | workerFinishes (nowMs : UInt64) (outcome : InvokeOutcome)

namespace ServiceStatus

/-- The service waits for a result and its time is not over. -/
def stillWaiting (svc : ServiceStatus) (nowMs : UInt64) : Bool :=
  svc.queryPending && !decide (serviceQueryTimeoutMs < nowMs - svc.requestTimeMs)

/-- A query that is pending has timed out. -/
def clearTimeout (svc : ServiceStatus) : ServiceStatus :=
  if svc.queryPending then { svc with queryPending := false, statusValid := false } else svc

/-- What a result makes of a service, if it is the one whose query it answers. -/
def accept (result : UbusResult) (nowMs : UInt64) (svc : ServiceStatus) : Option ServiceStatus :=
  if svc.requestId = result.requestId ∧ svc.queryPending = true then
    some (if result.success then
      { svc with
        queryPending := false, installed := result.installed, running := result.running,
        statusValid := true, lastUpdateMs := nowMs }
    else { svc with queryPending := false, statusValid := false })
  else none

end ServiceStatus

namespace Threads

/-- The task of a query for `svc`. -/
def queryTask (t : Threads) (svc : ServiceStatus) : UbusTask where
  serviceName := strncpy 32 svc.name
  action := .query
  requestId := t.nextRequestId
  timeoutMs := 2000

/-- `sys_status_request_services` up to its second loop, for the names configured. -/
def beginRequest (cfg : List CStr) (t : Threads) (nowMs : UInt64) : Threads :=
  let t := { t with ui := .requesting 0 nowMs }
  if t.services.length = 0 ∧ 0 < cfg.length then
    { t with
      services := (cfg.take maxMonitoredServices).map fun name => { name := strncpy 32 name } }
  else t

/-- The part of a turn that sends the query of service `i`, which is `svc`. -/
def sendQuery (t : Threads) (i : ℕ) (nowMs : UInt64) (svc : ServiceStatus) : Threads :=
  let svc := svc.clearTimeout
  let task := t.queryTask svc
  let pushed := t.tasks.push task
  let svc :=
    if pushed.1.code = 0 then
      { svc with queryPending := true, requestId := task.requestId, requestTimeMs := nowMs }
    else svc
  { t with
    services := t.services.set i svc
    nextRequestId := t.nextRequestId + 1
    tasks := pushed.2
    outstanding :=
      if pushed.1 = .ok ∨ pushed.1 = .merged then
        Function.update t.outstanding i (some task.requestId)
      else t.outstanding }

/-- One turn of the second loop of `sys_status_request_services`. -/
def requestTurn (t : Threads) (i : ℕ) (nowMs : UInt64) : Threads :=
  match t.services[i]? with
  | none => { t with ui := .idle }
  | some svc =>
    let t := { t with ui := .requesting (i + 1) nowMs }
    if svc.stillWaiting nowMs then t else t.sendQuery i nowMs svc

/-- One turn of the loop of `sys_status_process_results`. -/
def processTurn (t : Threads) (nowMs : UInt64) (count : ℕ) : Threads :=
  match t.results.tryPop with
  | (none, results) => { t with results := results, ui := .idle }
  | (some result, results) =>
    let t := { t with
      results := results
      outstanding := fun i =>
        if t.outstanding i = some result.requestId then none else t.outstanding i }
    match updateFirst (ServiceStatus.accept result nowMs) t.services with
    | some services => { t with services := services, ui := .processing nowMs (count + 1) }
    | none => t

/-- The worker takes a task; while it works on one, it takes none. -/
def workerTakes (t : Threads) : Threads :=
  match t.worker with
  | some _ => t
  | none => { t with worker := t.tasks.tryPop.1, tasks := t.tasks.tryPop.2 }

def workerFinishes (t : Threads) (nowMs : UInt64) (outcome : InvokeOutcome) : Threads :=
  match t.worker with
  | none => t
  | some task =>
    { t with worker := none, results := (t.results.push (processTask task nowMs outcome)).2 }

def step (cfg : List CStr) (t : Threads) : ThreadStep → Threads
  | .beginRequest nowMs =>
    match t.ui with
    | .idle => beginRequest cfg t nowMs
    | _ => t
  | .requestTurn =>
    match t.ui with
    | .requesting i nowMs => t.requestTurn i nowMs
    | _ => t
  | .beginProcess nowMs =>
    match t.ui with
    | .idle => { t with ui := .processing nowMs 0 }
    | _ => t
  | .processTurn =>
    match t.ui with
    | .processing nowMs count => t.processTurn nowMs count
    | _ => t
  | .workerTakes => t.workerTakes
  | .workerFinishes nowMs outcome => t.workerFinishes nowMs outcome

/-! ## What is in flight -/

/-- The ids of the tasks and results in flight: waiting, with the worker, and done. -/
def inFlight (t : Threads) : List UInt32 :=
  t.tasks.items.map (·.requestId) ++ t.worker.toList.map (·.requestId) ++
    t.results.items.map (·.requestId)

/-- The service whose query the next turn of `sys_status_request_services` sends, if it sends one. -/
def sending (t : Threads) : Option ServiceStatus :=
  match t.ui with
  | .requesting i nowMs =>
    match t.services[i]? with
    | some svc => if svc.stillWaiting nowMs then none else some svc
    | none => none
  | _ => none

end Threads

end NanoHat.Adr0005
