import Mathlib.Algebra.Order.Ring.Int
import Mathlib.Data.List.FinRange
import Mathlib.Logic.Function.Basic
import NanoHat.Foundations.Runs
import NanoHat.Hal.UbusHal

/-!
# The real ubus HAL

The state and the functions of `hal/ubus_hal_real.c`. libubus and uloop are outside the source;
what the code relies on of them is part of the state of a slot: `reqActive` says that its
`ubus_request` is on the request list of the connection (from `ubus_complete_request_async` to
completion or abort), `timeoutArmed` that its timer is pending in uloop. An event that libubus or
uloop cannot produce in a state (a completion of a request that is not on the list, the expiry of
a timer that is not pending) leaves the state alone.

The environment of a call (`ConnEnv`) fixes what the code reads from outside: the clock, the
outcomes of `ubus_connect`, `ubus_lookup_id` and `ubus_invoke_async`, and the answers that libubus
dispatches while `ubus_lookup_id` blocks. Every call of the HAL gets a number, and `trace` records,
newest first, what the outside sees.
-/

namespace NanoHat.UbusReal

open UbusHal

/-- `MAX_PENDING_REQUESTS`. -/
abbrev maxPendingRequests : ℕ := 16

/-- `BACKOFF_MAX_SEC`. -/
def backoffMaxSec : ℤ := 60

/-- `TIMEOUT_RESET_THRESHOLD`. -/
def timeoutResetThreshold : ℕ := 3

/-- `UBUS_STATUS_*` of libubus, as far as `query_complete_cb` tells them apart. -/
inductive UbusStatus
  | ok
  | timeout
  | notFound
  | connectionFailed
  | invalidArgument
  | other
  deriving DecidableEq

/-- An attribute of an answer to `rc list`: its name, whether it is a table, and the value of the
table's boolean `running`. -/
structure BlobAttr where
  table : Bool
  name : CStr
  running : Option Bool
  deriving DecidableEq

/-- `pending_request_t`, with the list membership of `req`, the state of `timeout` and the number
of the call that took the slot. -/
structure PendingRequest where
  reqActive : Bool := false
  timeoutArmed : Bool := false
  service : CStr := []
  type : RequestType := .query
  cb : Ptr := 0
  priv : Ptr := 0
  inUse : Bool := false
  completed : Bool := false
  installed : Bool := false
  running : Bool := false
  startOp : Bool := false
  call : ℕ := 0
  deriving DecidableEq

/-- A slot of `g_pending`. -/
abbrev Slot := Fin maxPendingRequests

/-- What the outside sees of the HAL. -/
inductive Obs
  /-- Call number `id` with its arguments. -/
  | called (id : ℕ) (type : RequestType) (name : Option CStr) (cb priv : Ptr)
  /-- The callback `cb` of call `id` is run on `c` and `priv`. -/
  | callback (id : ℕ) (cb priv : Ptr) (c : Callback)
  | returned (id : ℕ) (code : ℤ)
  /-- `real_cleanup` dropped call `id`. -/
  | abandoned (id : ℕ)
  /-- `ubus_connect` at `time`, its success, and `g_consecutive_failures` after it. -/
  | connect (time : ℤ) (ok : Bool) (failures : ℕ)
  /-- `reset_connection` at `time`, with `g_consecutive_failures` and `g_last_attempt_time`. -/
  | reset (time : ℤ) (failures : ℕ) (lastAttempt : ℤ)
  deriving DecidableEq

/-- The static variables of `ubus_hal_real.c`, and the record of what happened. -/
structure Hal where
  ctx : Bool := false
  rcId : ℕ := 0
  pending : Slot → PendingRequest := fun _ => {}
  initialized : Bool := false
  consecutiveFailures : ℕ := 0
  lastAttemptTime : ℤ := 0
  calls : ℕ := 0
  trace : List Obs := []

/-- What libubus may dispatch while `ubus_lookup_id` blocks: data or the completion of a pending
request, and the answer that writes `g_rc_id`. -/
inductive LookupEvent
  | data (i : Slot) (msg : Option (List BlobAttr))
  | complete (i : Slot) (ret : UbusStatus)
  | rcId (id : ℕ)

/-- What one call reads from outside. `undefShift` is the value the target computes for a shift
that overflows `int`. -/
structure ConnEnv where
  checkTime : ℤ := 0
  undefShift : ℤ := 0
  attemptTime : ℤ := 0
  connectOk : Bool := true
  lookup : List LookupEvent := []
  lookupRet : ℤ := 0
  resetTime : ℤ := 0
  invokeRet : ℤ := 0

namespace Hal

/-! ## Slots -/

def setSlot (s : Hal) (i : Slot) (p : PendingRequest) : Hal :=
  { s with pending := Function.update s.pending i p }

def log (s : Hal) (os : List Obs) : Hal := { s with trace := os ++ s.trace }

/-- `alloc_request`: the first slot not in use, wiped. -/
def allocRequest (s : Hal) : Option (Slot × Hal) :=
  match (List.finRange maxPendingRequests).find? fun i => !(s.pending i).inUse with
  | none => none
  | some i => some (i, s.setSlot i { inUse := true, completed := false })

/-- A slot that `alloc_request` hands out was free. -/
theorem allocRequest_eq_some {s s' : Hal} {i : Slot} (h : s.allocRequest = some (i, s')) :
    (s.pending i).inUse = false ∧ s' = s.setSlot i { inUse := true, completed := false } := by
  simp only [allocRequest] at h
  split at h
  · cases h
  · rename_i j hj
    obtain ⟨rfl, rfl⟩ := Prod.mk.inj (Option.some.inj h)
    exact ⟨by simpa using List.find?_some hj, rfl⟩

/-- `release_request`. -/
def releaseRequest (s : Hal) (i : Slot) : Hal :=
  s.setSlot i { s.pending i with timeoutArmed := false, inUse := false }

/-- The call of the user callback, by the type of the request. -/
def userCallback (p : PendingRequest) (installed running : Bool) (status : ℤ) (success : Bool) :
    List Obs :=
  if p.type = .query ∧ p.cb ≠ 0 then
    [.callback p.call p.cb p.priv (.query p.service installed running status)]
  else if p.type = .control ∧ p.cb ≠ 0 then
    [.callback p.call p.cb p.priv (.control p.service success status)]
  else []

/-! ## Connection management -/

/-- One turn of the loop of `abort_all_pending`. -/
def abortSlot (status : ℤ) (s : Hal) (i : Slot) : Hal :=
  let p := s.pending i
  if p.inUse && !p.completed then
    (s.log (userCallback p false false status false)).setSlot i
      { p with
        completed := true, timeoutArmed := false,
        reqActive := if s.ctx then false else p.reqActive,
        inUse := false }
  else s

def abortAllPending (s : Hal) (status : ℤ) : Hal :=
  (List.finRange maxPendingRequests).foldl (abortSlot status) s

/-- `reset_connection`, at wall-clock time `time`. -/
def resetConnection (s : Hal) (time : ℤ) : Hal :=
  let s := s.log [.reset time s.consecutiveFailures s.lastAttemptTime]
  let s := s.abortAllPending statusConnFailed
  { s with ctx := false, rcId := 0 }

/-- `BACKOFF_BASE_SEC << k` on a 32-bit `int`: beyond `INT_MAX` the shift is undefined and yields
what the target makes of it. -/
def shiftBase (undefShift : ℤ) (k : ℕ) : ℤ := if k ≤ 30 then 2 ^ k else undefShift

/-- `get_backoff_delay`, for `n` consecutive failures. -/
def getBackoffDelay (undefShift : ℤ) (n : ℕ) : ℤ :=
  if n = 0 then 0
  else
    let delay := shiftBase undefShift (n - 1)
    if delay > backoffMaxSec then backoffMaxSec else delay

/-- `ensure_context`. -/
def ensureContext (s : Hal) (env : ConnEnv) : ℤ × Hal :=
  if s.ctx then (0, s)
  else if 0 < s.consecutiveFailures ∧
      env.checkTime - s.lastAttemptTime <
        getBackoffDelay env.undefShift s.consecutiveFailures then (-1, s)
  else
    let s := { s with lastAttemptTime := env.attemptTime }
    if env.connectOk then
      (0, { s with ctx := true, consecutiveFailures := 0 }.log [.connect env.attemptTime true 0])
    else
      (-1, { s with rcId := 0, consecutiveFailures := s.consecutiveFailures + 1 }.log
        [.connect env.attemptTime false (s.consecutiveFailures + 1)])

/-! ## Answers of libubus -/

/-- `query_data_cb`: the first table that carries the name of the service. -/
def queryDataCb (s : Hal) (i : Slot) : Option (List BlobAttr) → Hal
  | none => s
  | some attrs =>
    match attrs.find? fun a => a.table && a.name = (s.pending i).service with
    | none => s
    | some a =>
      let p := { s.pending i with installed := true }
      s.setSlot i (if a.running = some true then { p with running := true } else p)

/-- The status part of `query_complete_cb`: the HAL status for `ret`, and the counters. -/
def completeStatus (s : Hal) : UbusStatus → ℤ × Hal
  | .ok => (statusOk, { s with consecutiveFailures := 0 })
  | .timeout => (statusTimeout, s)
  | .notFound => (statusNotFound, { s with rcId := 0 })
  | .connectionFailed =>
    (statusConnFailed, { s with consecutiveFailures := s.consecutiveFailures + 1, rcId := 0 })
  | .invalidArgument => (statusError, { s with rcId := 0 })
  | .other => (statusError, s)

/-- `query_complete_cb`. -/
def queryCompleteCb (s : Hal) (i : Slot) (ret : UbusStatus) : Hal :=
  let p := s.pending i
  if !p.inUse || p.completed then s
  else
    let s := s.setSlot i { p with completed := true, timeoutArmed := false }
    let (status, s) := s.completeStatus ret
    let s := s.log (userCallback p p.installed p.running status (status = statusOk))
    s.setSlot i { s.pending i with inUse := false }

/-- libubus delivers data of the request of slot `i`; control requests have no `data_cb`. -/
def dispatchData (s : Hal) (i : Slot) (msg : Option (List BlobAttr)) : Hal :=
  if (s.pending i).reqActive && (s.pending i).type = .query then s.queryDataCb i msg else s

/-- libubus takes the request of slot `i` off its list and runs `complete_cb`. -/
def dispatchComplete (s : Hal) (i : Slot) (ret : UbusStatus) : Hal :=
  if (s.pending i).reqActive then
    (s.setSlot i { s.pending i with reqActive := false }).queryCompleteCb i ret
  else s

def lookupStep (s : Hal) : LookupEvent → Hal
  | .data i msg => s.dispatchData i msg
  | .complete i ret => s.dispatchComplete i ret
  | .rcId id => { s with rcId := id }

/-- `ensure_rc_id`. -/
def ensureRcId (s : Hal) (env : ConnEnv) : ℤ × Hal :=
  let (r, s) := s.ensureContext env
  if r < 0 then (-1, s)
  else if s.rcId ≠ 0 then (0, s)
  else
    let s := env.lookup.foldl lookupStep s
    if env.lookupRet ≠ 0 then (-1, s.resetConnection env.resetTime) else (0, s)

/-! ## Timeouts -/

/-- `request_timeout_cb` of slot `i`, at wall-clock time `time`. -/
def requestTimeoutCb (s : Hal) (i : Slot) (time : ℤ) : Hal :=
  let p := s.pending i
  if !p.inUse || p.completed then s
  else
    let s := s.setSlot i
      { p with completed := true, reqActive := if s.ctx then false else p.reqActive }
    let s := { s with consecutiveFailures := s.consecutiveFailures + 1 }
    let s := if timeoutResetThreshold ≤ s.consecutiveFailures then s.resetConnection time
      else { s with rcId := 0 }
    let s := s.log (userCallback (s.pending i) false false statusTimeout false)
    s.setSlot i { s.pending i with inUse := false }

/-- uloop takes the timer of slot `i` off its list and runs its callback. -/
def dispatchTimeout (s : Hal) (i : Slot) (time : ℤ) : Hal :=
  if (s.pending i).timeoutArmed then
    (s.setSlot i { s.pending i with timeoutArmed := false }).requestTimeoutCb i time
  else s

/-! ## The operations of the HAL -/

/-- The common body of `real_query_service_async` and `real_control_service_async`: `fill` stores
the request in its slot, `fail` are the callback arguments of a failure with a given status. -/
def serviceAsync (s : Hal) (type : RequestType) (name : Option CStr) (cb priv : Ptr)
    (fill : PendingRequest → PendingRequest) (fail : CStr → ℤ → Callback) (env : ConnEnv) :
    ℤ × Hal :=
  let id := s.calls
  let s := { s with calls := id + 1 }.log [.called id type name cb priv]
  match name with
  | none => (-1, s.log [.returned id (-1)])
  | some name =>
    if !s.initialized || cb = 0 then (-1, s.log [.returned id (-1)])
    else
      let (r, s) := s.ensureRcId env
      if r < 0 then
        (0, s.log [.returned id 0, .callback id cb priv (fail name statusConnFailed)])
      else
        match s.allocRequest with
        | none => (0, s.log [.returned id 0, .callback id cb priv (fail name statusError)])
        | some (i, s) =>
          let s := s.setSlot i (fill
            { s.pending i with
              service := strncpy 32 name, type := type, cb := cb, priv := priv, call := id })
          if env.invokeRet ≠ 0 then
            (0, (s.releaseRequest i).log
              [.returned id 0, .callback id cb priv (fail name statusError)])
          else
            (0, (s.setSlot i { s.pending i with reqActive := true, timeoutArmed := true }).log
              [.returned id 0])

/-- `real_query_service_async`. -/
def realQueryServiceAsync (s : Hal) (name : Option CStr) (cb priv : Ptr) (env : ConnEnv) :
    ℤ × Hal :=
  s.serviceAsync .query name cb priv (fun p => { p with installed := false, running := false })
    (fun name status => .query name false false status) env

/-- `real_control_service_async`. -/
def realControlServiceAsync (s : Hal) (name : Option CStr) (start : Bool) (cb priv : Ptr)
    (env : ConnEnv) : ℤ × Hal :=
  s.serviceAsync .control name cb priv (fun p => { p with startOp := start })
    (fun name status => .control name false status) env

/-- `real_init`. -/
def realInit (s : Hal) (env : ConnEnv) : Hal :=
  if s.initialized then s
  else { ({ s with pending := fun _ => {} }.ensureContext env).2 with initialized := true }

/-- One turn of the loop of `real_cleanup`. -/
def cleanupSlot (s : Hal) (i : Slot) : Hal :=
  let p := s.pending i
  if p.inUse then
    (s.log (if p.completed then [] else [.abandoned p.call])).setSlot i
      { p with
        completed := true, timeoutArmed := false,
        reqActive := if s.ctx then false else p.reqActive,
        inUse := false }
  else s

/-- `real_cleanup`. -/
def realCleanup (s : Hal) : Hal :=
  if !s.initialized then s
  else
    { (List.finRange maxPendingRequests).foldl cleanupSlot s with
      ctx := false, rcId := 0, initialized := false }

end Hal

/-! ## Runs -/

/-- What can happen to the HAL between two returns to the event loop. -/
inductive Event
  | init (env : ConnEnv)
  | cleanup
  | query (name : Option CStr) (cb priv : Ptr) (env : ConnEnv)
  | control (name : Option CStr) (start : Bool) (cb priv : Ptr) (env : ConnEnv)
  | data (i : Slot) (msg : Option (List BlobAttr))
  | complete (i : Slot) (ret : UbusStatus)
  | expire (i : Slot) (time : ℤ)

/-- The state when the event loop is reached again. -/
def step (s : Hal) : Event → Hal
  | .init env => s.realInit env
  | .cleanup => s.realCleanup
  | .query name cb priv env => (s.realQueryServiceAsync name cb priv env).2
  | .control name start cb priv env => (s.realControlServiceAsync name start cb priv env).2
  | .data i msg => s.dispatchData i msg
  | .complete i ret => s.dispatchComplete i ret
  | .expire i time => s.dispatchTimeout i time

/-- The state after the events `es`, from program start. -/
abbrev after (es : List Event) : Hal := Runs.run step {} es

end NanoHat.UbusReal
