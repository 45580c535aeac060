import Mathlib.Logic.Function.Basic
import NanoHat.Foundations.Runs
import NanoHat.Status.ServiceConfig

/-!
# Service status

The service part of `sys_status.c`: `sys_status_query_services`, `sys_status_control_service` and
their two callbacks, over a ubus HAL that keeps the contract of `ubus_hal.h` and nothing else. A
request that the HAL accepts is `outstanding` until it is called back; a call of the HAL may be
refused, and it may run the callbacks of any outstanding requests, its own included, before it
returns (`CallEnv`). Whether `malloc` succeeds is part of the environment of a call as well. What
`sys_status_update_local` reads from `/proc` is left out here, but not that it does: `samples` counts
its calls.

`client` is the state behind the callback of `sys_status_control_service`. The calls of the HAL
are numbered, and `log` records, newest first, the calls, the refusals and the callbacks; a client
adds entries of its own type `ω`.
-/

namespace NanoHat

open UbusHal

/-- `SERVICE_REFRESH_INTERVAL_MS`. -/
def serviceRefreshIntervalMs : UInt64 := 5000

/-- `service_status_t`. -/
structure ServiceStatus where
  name : CStr := []
  installed : Bool := false
  running : Bool := false
  queryPending : Bool := false
  statusValid : Bool := false
  requestId : UInt32 := 0
  requestTimeMs : UInt64 := 0
  lastUpdateMs : UInt64 := 0
  deriving DecidableEq

/-- The service part of `sys_status_t`; the array is read below `serviceCount` only. -/
structure SysStatus where
  services : ℕ → ServiceStatus := fun _ => {}
  serviceCount : ℕ := 0

namespace SysStatus

/-- The status after a change of entry `i`. -/
def modify (s : SysStatus) (i : ℕ) (f : ServiceStatus → ServiceStatus) : SysStatus :=
  { s with services := Function.update s.services i (f (s.services i)) }

@[simp] theorem serviceCount_modify (s : SysStatus) (i : ℕ) (f : ServiceStatus → ServiceStatus) :
    (s.modify i f).serviceCount = s.serviceCount := rfl

@[simp] theorem modify_self (s : SysStatus) (i : ℕ) (f : ServiceStatus → ServiceStatus) :
    (s.modify i f).services i = f (s.services i) := Function.update_self ..

@[simp] theorem modify_ne (s : SysStatus) {i j : ℕ} (h : j ≠ i)
    (f : ServiceStatus → ServiceStatus) : (s.modify i f).services j = s.services j :=
  Function.update_of_ne h ..

/-- What a change leaves alone at its own entry, it leaves alone at every entry. -/
theorem modify_keeps {α : Type*} (s : SysStatus) {i : ℕ} {f : ServiceStatus → ServiceStatus}
    (g : ServiceStatus → α) (h : g (f (s.services i)) = g (s.services i)) (j : ℕ) :
    g ((s.modify i f).services j) = g (s.services j) := by
  by_cases hj : j = i
  · subst hj
    rw [modify_self, h]
  · rw [modify_ne s hj]

/-- The entry that the loop of `service_query_cb` stops at. -/
def lookup (s : SysStatus) (service : CStr) : Option ℕ :=
  (List.range s.serviceCount).find? fun i => (s.services i).name = service

end SysStatus

/-- `query_ctx_t` and `control_ctx_t`; for a query also the entry it was issued for. -/
inductive RequestCtx (σ : Type*)
  | query (requestId : UInt32) (issuedFor : ℕ)
  | control (index : ℤ) (start : Bool) (cb : Option (ℤ → Bool → ℤ → σ → σ))

/-- A request at the HAL: the number of the call, its service and its `priv`. -/
structure HalRequest (σ : Type*) where
  call : ℕ
  service : CStr
  ctx : RequestCtx σ

/-- What the HAL calls back with, and the monotonic time at that moment. -/
structure Answer where
  installed : Bool := false
  running : Bool := false
  success : Bool := false
  status : ℤ := statusOk
  nowMs : UInt64 := 0
  deriving DecidableEq

/-- What one call of the HAL does: whether `malloc` gave it a context, whether the HAL refuses it,
and which requests it calls back before it returns. -/
structure CallEnv where
  alloc : Bool := true
  refused : Bool := false
  completions : List (ℕ × Answer) := []

namespace Sys

/-- What happened between this module and the HAL. -/
inductive Obs (ω : Type*)
  /-- `query_service_async` is called for entry `i`. -/
  | queryCalled (call i : ℕ)
  | queryRefused (call : ℕ)
  /-- The query is called back, and written to an entry unless it is stale. -/
  | queryDone (call issuedFor : ℕ) (written : Option ℕ) (a : Answer)
  /-- `control_service_async` is called for entry `i`. -/
  | controlCalled (call i : ℕ) (start : Bool)
  | controlRefused (call : ℕ)
  /-- The control operation of entry `i` is called back while the calls `queries` are outstanding
  that ask for this entry. -/
  | controlDone (call i : ℕ) (success : Bool) (queries : List ℕ)
  | client (o : ω)
  deriving DecidableEq

end Sys

open Sys in
/-- The state of the module, of the HAL behind it and of its client. -/
structure Sys (σ ω : Type*) where
  status : SysStatus := {}
  nextRequestId : UInt32 := 1
  outstanding : List (HalRequest σ) := []
  calls : ℕ := 0
  client : σ
  log : List (Obs ω) := []
  /-- history: the calls of `sys_status_update_local` -/
  samples : ℕ := 0

namespace Sys

variable {σ ω : Type*}

def logs (s : Sys σ ω) (o : Obs ω) : Sys σ ω := { s with log := o :: s.log }

def modify (s : Sys σ ω) (i : ℕ) (f : ServiceStatus → ServiceStatus) : Sys σ ω :=
  { s with status := s.status.modify i f }

/-! ## Callbacks -/

/-- What `service_query_cb` writes to its entry. -/
def writeAnswer (a : Answer) (svc : ServiceStatus) : ServiceStatus :=
  let svc := { svc with queryPending := false, lastUpdateMs := a.nowMs }
  if a.status = statusOk then
    { svc with installed := a.installed, running := a.running, statusValid := true }
  else { svc with statusValid := false }

theorem name_writeAnswer (a : Answer) (svc : ServiceStatus) :
    (writeAnswer a svc).name = svc.name := by
  simp only [writeAnswer]
  split <;> rfl

theorem requestId_writeAnswer (a : Answer) (svc : ServiceStatus) :
    (writeAnswer a svc).requestId = svc.requestId := by
  simp only [writeAnswer]
  split <;> rfl

theorem queryPending_writeAnswer (a : Answer) (svc : ServiceStatus) :
    (writeAnswer a svc).queryPending = false := by
  simp only [writeAnswer]
  split <;> rfl

theorem lastUpdateMs_writeAnswer (a : Answer) (svc : ServiceStatus) :
    (writeAnswer a svc).lastUpdateMs = a.nowMs := by
  simp only [writeAnswer]
  split <;> rfl

/-- `service_query_cb`, for call number `call`. -/
def serviceQueryCb (s : Sys σ ω) (call : ℕ) (service : CStr) (a : Answer) (requestId : UInt32)
    (issuedFor : ℕ) : Sys σ ω :=
  match s.status.lookup service with
  | none => s.logs (.queryDone call issuedFor none a)
  | some i =>
    if (s.status.services i).requestId ≠ requestId then s.logs (.queryDone call issuedFor none a)
    else (s.modify i (writeAnswer a)).logs (.queryDone call issuedFor (some i) a)

/-- A request is a query whose answer `service_query_cb` takes for one about entry `i`. -/
def asksFor (s : Sys σ ω) (i : ℕ) (r : HalRequest σ) : Bool :=
  match r.ctx with
  | .query .. => s.status.lookup r.service = some i
  | .control .. => false

/-- What `service_control_cb` writes to its entry. -/
def writeControl (start success : Bool) (svc : ServiceStatus) : ServiceStatus :=
  let svc := { svc with lastUpdateMs := 0 }
  if success then { svc with running := start } else svc

theorem name_writeControl (start success : Bool) (svc : ServiceStatus) :
    (writeControl start success svc).name = svc.name := by
  simp only [writeControl]
  split <;> rfl

theorem requestId_writeControl (start success : Bool) (svc : ServiceStatus) :
    (writeControl start success svc).requestId = svc.requestId := by
  simp only [writeControl]
  split <;> rfl

theorem queryPending_writeControl (start success : Bool) (svc : ServiceStatus) :
    (writeControl start success svc).queryPending = svc.queryPending := by
  simp only [writeControl]
  split <;> rfl

theorem lastUpdateMs_writeControl (start success : Bool) (svc : ServiceStatus) :
    (writeControl start success svc).lastUpdateMs = 0 := by
  simp only [writeControl]
  split <;> rfl

/-- The call `cctx->cb(idx, success, status_code, cctx->priv)`, if there is a callback. -/
def callControlCb (s : Sys σ ω) (a : Answer) (index : ℤ)
    (cb : Option (ℤ → Bool → ℤ → σ → σ)) : Sys σ ω :=
  match cb with
  | none => s
  | some cb => { s with client := cb index a.success a.status s.client }

/-- `service_control_cb`, for call number `call`. -/
def serviceControlCb (s : Sys σ ω) (call : ℕ) (a : Answer) (index : ℤ) (start : Bool)
    (cb : Option (ℤ → Bool → ℤ → σ → σ)) : Sys σ ω :=
  let s :=
    if 0 ≤ index ∧ index < s.status.serviceCount then
      let i := index.toNat
      let queries := (s.outstanding.filter (s.asksFor i)).map HalRequest.call
      (s.modify i (writeControl start a.success)).logs (.controlDone call i a.success queries)
    else s
  s.callControlCb a index cb

/-- The HAL calls back call number `call`, if it is outstanding. -/
def deliver (s : Sys σ ω) (call : ℕ) (a : Answer) : Sys σ ω :=
  match s.outstanding.find? (·.call = call) with
  | none => s
  | some r =>
    let s := { s with outstanding := s.outstanding.eraseP (·.call = call) }
    match r.ctx with
    | .query requestId issuedFor => s.serviceQueryCb call r.service a requestId issuedFor
    | .control index start cb => s.serviceControlCb call a index start cb

/-- The callbacks that a call of the HAL runs before it returns. -/
def deliverAll (s : Sys σ ω) (completions : List (ℕ × Answer)) : Sys σ ω :=
  completions.foldl (fun s c => s.deliver c.1 c.2) s

/-- A call of the HAL with number `s.calls`: its return code. -/
def halCall (s : Sys σ ω) (service : CStr) (ctx : RequestCtx σ) (env : CallEnv) :
    ℤ × Sys σ ω :=
  let r : HalRequest σ := ⟨s.calls, service, ctx⟩
  let s := { s with calls := s.calls + 1 }
  if env.refused then (-1, s.deliverAll env.completions)
  else (0, { s with outstanding := s.outstanding ++ [r] }.deliverAll env.completions)

/-! ## Queries -/

/-- A new request id; `0` is skipped. -/
def takeRequestId (s : Sys σ ω) : UInt32 × Sys σ ω :=
  let next := s.nextRequestId + 1
  (s.nextRequestId, { s with nextRequestId := if next = 0 then 1 else next })

/-- An entry is due for a query at `nowMs`. -/
def due (svc : ServiceStatus) (nowMs : UInt64) : Bool :=
  !svc.queryPending &&
    !(0 < svc.lastUpdateMs && nowMs - svc.lastUpdateMs < serviceRefreshIntervalMs)

/-- Entry `i` is marked as pending with a new request id, right before the call of the HAL. -/
def issue (s : Sys σ ω) (i : ℕ) (nowMs : UInt64) : UInt32 × Sys σ ω :=
  let (reqId, s) := s.takeRequestId
  (reqId, (s.modify i fun svc =>
    { svc with queryPending := true, requestId := reqId, requestTimeMs := nowMs }).logs
      (.queryCalled s.calls i))

/-- One turn of the loop of `sys_status_query_services`; the count of queries sent goes along. -/
def queryService (nowMs : UInt64) (env : ℕ → CallEnv) (sent : ℕ × Sys σ ω) (i : ℕ) :
    ℕ × Sys σ ω :=
  let (n, s) := sent
  if !due (s.status.services i) nowMs then (n, s)
  else if !(env i).alloc then (n, s)
  else
    let call := s.calls
    let (reqId, s) := s.issue i nowMs
    let (ret, s) := s.halCall (s.status.services i).name (.query reqId i) (env i)
    if ret < 0 then
      (n, (s.modify i fun svc => { svc with queryPending := false }).logs (.queryRefused call))
    else (n + 1, s)

/-- `sys_status_query_services`, at monotonic time `nowMs`. -/
def queryServices (s : Sys σ ω) (nowMs : UInt64) (env : ℕ → CallEnv) : ℕ × Sys σ ω :=
  (List.range s.status.serviceCount).foldl (queryService nowMs env) (0, s)

/-! ## Control operations -/

/-- `sys_status_control_service`. -/
def controlService (s : Sys σ ω) (index : ℤ) (start : Bool)
    (cb : Option (ℤ → Bool → ℤ → σ → σ)) (env : CallEnv) : ℤ × Sys σ ω :=
  if index < 0 ∨ index ≥ s.status.serviceCount then (-1, s)
  else if !env.alloc then (-1, s)
  else
    let call := s.calls
    let (ret, s) := (s.logs (.controlCalled call index.toNat start)).halCall
      (s.status.services index.toNat).name (.control index start cb) env
    if ret < 0 then (-1, s.logs (.controlRefused call)) else (0, s)

/-! ## The list of services -/

/-- The status is sampled. -/
def sampled (s : Sys σ ω) : Sys σ ω := { s with samples := s.samples + 1 }

/-- `sys_status_update_local`, for the configuration `cfg`. -/
def updateLocal (s : Sys σ ω) (cfg : List CStr) : Sys σ ω :=
  let s := s.sampled
  if s.status.serviceCount = 0 then
    { s with status :=
      { services := fun i =>
          if i < cfg.length then { name := strncpy serviceNameMaxLen (cfg.getD i []) }
          else s.status.services i
        serviceCount := cfg.length } }
  else s

/-! ## Runs -/

/-- A call from outside, or a callback from the event loop. -/
inductive Event (σ : Type*)
  | updateLocal
  | queryServices (nowMs : UInt64) (env : ℕ → CallEnv)
  | controlService (index : ℤ) (start : Bool) (cb : Option (ℤ → Bool → ℤ → σ → σ))
    (env : CallEnv)
  | complete (call : ℕ) (a : Answer)

/-- The state after an event, for the configuration `cfg`. -/
def step (cfg : List CStr) (s : Sys σ ω) : Event σ → Sys σ ω
  | .updateLocal => s.updateLocal cfg
  | .queryServices nowMs env => (s.queryServices nowMs env).2
  | .controlService index start cb env => (s.controlService index start cb env).2
  | .complete call a => s.deliver call a

/-- The state after the events `es`, from program start. -/
abbrev after (cfg : List CStr) (client : σ) (es : List (Event σ)) : Sys σ ω :=
  Runs.run (step cfg) { client := client } es

end Sys

end NanoHat
