import NanoHat.Hal.UbusReal
import NanoHat.Status.SysStatus

/-!
# Service status over the real ubus HAL

`sys_status.c` as it runs in the program: every request is a call of `ubus_hal_real.c` that carries
the address of a context allocated for it, and the callbacks work on what they find at that
address. The heap of contexts is part of the state. Reading an address where no context of the
right kind is allocated, or releasing one twice, is a `fault`.

A callback does not call the HAL, and the HAL does not look at the state of this module; so the
callbacks that a function of the HAL ran are replayed on that state, in their order, when the
function has returned (`runCallbacks`).
-/

namespace NanoHat

open UbusHal UbusReal

/-- `service_query_cb` as a function pointer. -/
def serviceQueryCbPtr : Ptr := 1

/-- `service_control_cb` as a function pointer. -/
def serviceControlCbPtr : Ptr := 2

/-- The allocated contexts. -/
abbrev Heap (σ : Type*) := Ptr → Option (RequestCtx σ)

/-- `malloc` for a context: it fails, or yields an address that is free; its choice may depend on
anything (`seed`). -/
structure Malloc (σ : Type*) where
  alloc : Heap σ → ℕ → Option Ptr
  fresh : ∀ {heap seed p}, alloc heap seed = some p → p ≠ 0 ∧ heap p = none

/-- A `malloc` that hands out the address `seed`, if it is free. -/
def Malloc.atSeed (σ : Type*) : Malloc σ where
  alloc heap seed := if seed ≠ 0 ∧ (heap seed).isNone then some seed else none
  fresh h := by
    obtain ⟨hseed, hp⟩ := Option.ite_none_right_eq_some.1 h
    obtain rfl := Option.some.inj hp
    exact ⟨hseed.1, Option.isNone_iff_eq_none.1 hseed.2⟩

/-- The state of `sys_status.c`, of the HAL below it and of its client. -/
structure Stack (σ : Type*) where
  hal : Hal := {}
  status : SysStatus := {}
  nextRequestId : UInt32 := 1
  heap : Heap σ := fun _ => none
  client : σ
  fault : Bool := false

/-- What a request reads from outside: the choice of `malloc`, what the HAL reads, and the
monotonic time at which each call is called back. -/
structure Outside where
  seed : ℕ := 0
  conn : ConnEnv := {}
  nowMs : ℕ → UInt64 := fun _ => 0

namespace Stack

variable {σ : Type*}

/-! ## Contexts -/

/-- `free`. -/
def free (s : Stack σ) (p : Ptr) : Stack σ :=
  if p = 0 then s
  else
    match s.heap p with
    | none => { s with fault := true }
    | some _ => { s with heap := Function.update s.heap p none }

/-- `service_query_cb`. -/
def serviceQueryCb (s : Stack σ) (service : CStr) (a : Answer) (priv : Ptr) : Stack σ :=
  if priv = 0 then s
  else
    match s.heap priv with
    | some (.query requestId _) =>
      let s :=
        match s.status.lookup service with
        | none => s
        | some i =>
          if (s.status.services i).requestId ≠ requestId then s
          else { s with status := s.status.modify i (Sys.writeAnswer a) }
      s.free priv
    | _ => { s with fault := true }

/-- `service_control_cb`. -/
def serviceControlCb (s : Stack σ) (a : Answer) (priv : Ptr) : Stack σ :=
  if priv = 0 then s
  else
    match s.heap priv with
    | some (.control index start cb) =>
      let s :=
        if 0 ≤ index ∧ index < s.status.serviceCount then
          { s with status := s.status.modify index.toNat (Sys.writeControl start a.success) }
        else s
      let s :=
        match cb with
        | none => s
        | some cb => { s with client := cb index a.success a.status s.client }
      s.free priv
    | _ => { s with fault := true }

/-! ## Callbacks of the HAL -/

/-- The arguments of a callback, and the monotonic time at that moment. -/
def answerOf (nowMs : UInt64) : Callback → Answer
  | .query _ installed running status => { installed, running, status, nowMs }
  | .control _ success status => { success, status, nowMs }

/-- The HAL calls the function at `cb`, with the arguments `c` and `priv`. -/
def callBack (s : Stack σ) (nowMs : UInt64) (cb priv : Ptr) (c : Callback) : Stack σ :=
  match c.type with
  | .query =>
    if cb = serviceQueryCbPtr then s.serviceQueryCb c.service (answerOf nowMs c) priv
    else { s with fault := true }
  | .control =>
    if cb = serviceControlCbPtr then s.serviceControlCb (answerOf nowMs c) priv
    else { s with fault := true }

def runCallback (nowMs : ℕ → UInt64) (s : Stack σ) : Obs → Stack σ
  | .callback id cb priv c => s.callBack (nowMs id) cb priv c
  | _ => s

/-- What the HAL recorded since the state `old`, newest first. -/
def newest (old hal : Hal) : List Obs := hal.trace.take (hal.trace.length - old.trace.length)

/-- The callbacks that the HAL ran since the state `old`. -/
def runCallbacks (s : Stack σ) (old : Hal) (nowMs : ℕ → UInt64) : Stack σ :=
  (newest old s.hal).foldr (fun o s => s.runCallback nowMs o) s

/-- A function of the HAL runs, and with it its callbacks. -/
def runHal (s : Stack σ) (hal : Hal) (nowMs : ℕ → UInt64) : Stack σ :=
  { s with hal := hal }.runCallbacks s.hal nowMs

/-! ## Queries and control operations -/

/-- A new request id for the context at `qctx`, with which entry `i` is marked as pending. -/
def issue (s : Stack σ) (qctx : Ptr) (i : ℕ) (nowMs : UInt64) : Stack σ :=
  let reqId := s.nextRequestId
  let next := reqId + 1
  { s with
    nextRequestId := if next = 0 then 1 else next
    heap := Function.update s.heap qctx (some (.query reqId i))
    status := s.status.modify i fun svc =>
      { svc with queryPending := true, requestId := reqId, requestTimeMs := nowMs } }

/-- The immediate failure of a query. -/
def withdraw (s : Stack σ) (qctx : Ptr) (i : ℕ) : Stack σ :=
  { s with status := s.status.modify i fun svc => { svc with queryPending := false } }.free qctx

/-- One turn of the loop of `sys_status_query_services`; the count of queries sent goes along. -/
def queryService (m : Malloc σ) (nowMs : UInt64) (env : ℕ → Outside) (sent : ℕ × Stack σ) (i : ℕ) :
    ℕ × Stack σ :=
  let (n, s) := sent
  if !Sys.due (s.status.services i) nowMs then (n, s)
  else
    match m.alloc s.heap (env i).seed with
    | none => (n, s)
    | some qctx =>
      let s := s.issue qctx i nowMs
      let (ret, hal) := s.hal.realQueryServiceAsync (some (s.status.services i).name)
        serviceQueryCbPtr qctx (env i).conn
      let s := s.runHal hal (env i).nowMs
      if ret < 0 then (n, s.withdraw qctx i) else (n + 1, s)

/-- `sys_status_query_services`, at monotonic time `nowMs`. -/
def queryServices (m : Malloc σ) (s : Stack σ) (nowMs : UInt64) (env : ℕ → Outside) :
    ℕ × Stack σ :=
  (List.range s.status.serviceCount).foldl (queryService m nowMs env) (0, s)

/-- `sys_status_control_service`. -/
def controlService (m : Malloc σ) (s : Stack σ) (index : ℤ) (start : Bool)
    (cb : Option (ℤ → Bool → ℤ → σ → σ)) (env : Outside) : ℤ × Stack σ :=
  if index < 0 ∨ index ≥ s.status.serviceCount then (-1, s)
  else
    match m.alloc s.heap env.seed with
    | none => (-1, s)
    | some cctx =>
      let s := { s with heap := Function.update s.heap cctx (some (.control index start cb)) }
      let (ret, hal) := s.hal.realControlServiceAsync
        (some (s.status.services index.toNat).name) start serviceControlCbPtr cctx env.conn
      let s := s.runHal hal env.nowMs
      if ret < 0 then (-1, s.free cctx) else (0, s)

/-- The service part of `sys_status_update_local`, for the configuration `cfg`. -/
def updateLocal (cfg : List CStr) (s : Stack σ) : Stack σ :=
  if s.status.serviceCount = 0 then
    { s with status :=
      { services := fun i =>
          if i < cfg.length then { name := strncpy serviceNameMaxLen (cfg.getD i []) }
          else s.status.services i
        serviceCount := cfg.length } }
  else s

/-! ## Runs -/

/-- A call from outside, or what the event loop and libubus dispatch to the HAL. -/
inductive Event (σ : Type*)
  | init (env : Outside)
  | cleanup
  | updateLocal
  | queryServices (nowMs : UInt64) (env : ℕ → Outside)
  | controlService (index : ℤ) (start : Bool) (cb : Option (ℤ → Bool → ℤ → σ → σ)) (env : Outside)
  | data (i : Slot) (msg : Option (List BlobAttr))
  | complete (i : Slot) (ret : UbusStatus) (nowMs : ℕ → UInt64)
  | expire (i : Slot) (time : ℤ) (nowMs : ℕ → UInt64)

/-- The state after an event, for the configuration `cfg`. -/
def step (m : Malloc σ) (cfg : List CStr) (s : Stack σ) : Event σ → Stack σ
  | .init env => s.runHal (s.hal.realInit env.conn) env.nowMs
  | .cleanup => s.runHal s.hal.realCleanup fun _ => 0
  | .updateLocal => s.updateLocal cfg
  | .queryServices nowMs env => (s.queryServices m nowMs env).2
  | .controlService index start cb env => (s.controlService m index start cb env).2
  | .data i msg => s.runHal (s.hal.dispatchData i msg) fun _ => 0
  | .complete i ret nowMs => s.runHal (s.hal.dispatchComplete i ret) nowMs
  | .expire i time nowMs => s.runHal (s.hal.dispatchTimeout i time) nowMs

/-- The state after the events `es`, from program start. -/
abbrev after (m : Malloc σ) (cfg : List CStr) (client : σ) (es : List (Event σ)) : Stack σ :=
  Runs.run (step m cfg) { client := client } es

end Stack

end NanoHat
