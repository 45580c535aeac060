import NanoHat.Hal.UbusReal

/-!
# The mock ubus HAL

The state and the functions of `hal/ubus_hal_mock.c`, which the host tests are linked with. The
response to a request is looked up when the request is made and given by a timer; a delay of
`MOCK_DELAY_HANG` leaves the request to its timeout. `responseArmed` and `timeoutArmed` say that
the timers of a slot are pending in uloop; the delays themselves do not occur, the timers may expire
in any order. Calls are numbered and recorded as in the real HAL.
-/

namespace NanoHat.UbusMock

open UbusHal UbusReal

/-- `MAX_MOCK_RESPONSES` -/
abbrev maxMockResponses : ℕ := 16

/-- `MOCK_DELAY_HANG` -/
def mockDelayHang : ℤ := -1

/-- `mock_response_t` -/
structure MockResponse where
  service : CStr := []
  installed : Bool := false
  running : Bool := false
  status : ℤ := statusOk
  delayMs : ℤ := 50
  configured : Bool := false
  deriving DecidableEq

/-- `pending_request_t`, with the state of its timers and the number of the call. -/
structure PendingRequest where
  service : CStr := []
  type : RequestType := .query
  cb : Ptr := 0
  priv : Ptr := 0
  responseArmed : Bool := false
  timeoutArmed : Bool := false
  inUse : Bool := false
  completed : Bool := false
  installed : Bool := false
  running : Bool := false
  status : ℤ := 0
  startOp : Bool := false
  call : ℕ := 0
  deriving DecidableEq

/-- The static variables of `ubus_hal_mock.c`, and the record of what happened. -/
structure Mock where
  mockResponses : Fin maxMockResponses → MockResponse := fun _ => {}
  defaultResponse : MockResponse := {}
  pending : Slot → PendingRequest := fun _ => {}
  initialized : Bool := false
  consecutiveTimeouts : ℕ := 0
  calls : ℕ := 0
  trace : List Obs := []

namespace Mock

def setSlot (m : Mock) (i : Slot) (p : PendingRequest) : Mock :=
  { m with pending := Function.update m.pending i p }

def log (m : Mock) (os : List Obs) : Mock := { m with trace := os ++ m.trace }

/-! ## Responses -/

def setEntry (m : Mock) (i : Fin maxMockResponses) (r : MockResponse) : Mock :=
  { m with mockResponses := Function.update m.mockResponses i r }

/-- `ubus_mock_set_response`. -/
def setResponse (m : Mock) (service : CStr) (status : ℤ) (installed running : Bool)
    (delayMs : ℤ) : Mock :=
  match (List.finRange maxMockResponses).find? fun i =>
      (m.mockResponses i).configured && (m.mockResponses i).service = service with
  | some i =>
    m.setEntry i { m.mockResponses i with
      status := status, installed := installed, running := running, delayMs := delayMs }
  | none =>
    match (List.finRange maxMockResponses).find? fun i => !(m.mockResponses i).configured with
    | none => m
    | some i =>
      m.setEntry i { service := strncpy 32 service, status := status, installed := installed,
                     running := running, delayMs := delayMs, configured := true }

/-- `ubus_mock_set_default_response`. -/
def setDefaultResponse (m : Mock) (status : ℤ) (installed running : Bool) (delayMs : ℤ) : Mock :=
  { m with defaultResponse := { m.defaultResponse with
      status := status, installed := installed, running := running, delayMs := delayMs } }

/-- `find_response`. -/
def findResponse (m : Mock) (service : CStr) : MockResponse :=
  match (List.finRange maxMockResponses).find? fun i =>
      (m.mockResponses i).configured && (m.mockResponses i).service = service with
  | some i => m.mockResponses i
  | none => m.defaultResponse

/-! ## Timers -/

/-- The call of the user callback, by the type of the request. -/
def userCallback (p : PendingRequest) (installed running : Bool) (status : ℤ) (success : Bool) :
    List Obs :=
  if p.type = .query ∧ p.cb ≠ 0 then
    [.callback p.call p.cb p.priv (.query p.service installed running status)]
  else if p.type = .control ∧ p.cb ≠ 0 then
    [.callback p.call p.cb p.priv (.control p.service success status)]
  else []

/-- `response_timer_cb` of slot `i`. -/
def responseTimerCb (m : Mock) (i : Slot) : Mock :=
  let p := m.pending i
  if !p.inUse || p.completed then m
  else
    let m := m.setSlot i { p with completed := true, timeoutArmed := false }
    let m := { m with consecutiveTimeouts := 0 }
    let m := m.log (userCallback p p.installed p.running p.status (p.status = statusOk))
    m.setSlot i { m.pending i with inUse := false }

/-- `timeout_timer_cb` of slot `i`. -/
def timeoutTimerCb (m : Mock) (i : Slot) : Mock :=
  let p := m.pending i
  if !p.inUse || p.completed then m
  else
    let m := m.setSlot i { p with completed := true, responseArmed := false }
    let m := { m with consecutiveTimeouts := m.consecutiveTimeouts + 1 }
    let m := m.log (userCallback p false false statusTimeout false)
    m.setSlot i { m.pending i with inUse := false }

/-- uloop takes the response timer of slot `i` off its list and runs its callback. -/
def dispatchResponse (m : Mock) (i : Slot) : Mock :=
  if (m.pending i).responseArmed then
    (m.setSlot i { m.pending i with responseArmed := false }).responseTimerCb i
  else m

/-- The same for the timeout timer. -/
def dispatchTimeout (m : Mock) (i : Slot) : Mock :=
  if (m.pending i).timeoutArmed then
    (m.setSlot i { m.pending i with timeoutArmed := false }).timeoutTimerCb i
  else m

/-! ## The operations of the HAL -/

/-- `alloc_request`: the first slot not in use, wiped. -/
def allocRequest (m : Mock) : Option (Slot × Mock) :=
  match (List.finRange maxPendingRequests).find? fun i => !(m.pending i).inUse with
  | none => none
  | some i => some (i, m.setSlot i { inUse := true, completed := false })

/-- `mock_init`. -/
def mockInit (m : Mock) : Mock :=
  if m.initialized then m else { m with pending := fun _ => {}, initialized := true }

/-- The common body of `mock_query_service_async` and `mock_control_service_async`: `fill` stores
the request and its response in the slot, `fail` are the callback arguments of a failure. -/
def serviceAsync (m : Mock) (type : RequestType) (name : Option CStr) (cb priv : Ptr)
    (fill : MockResponse → PendingRequest → PendingRequest) (fail : CStr → ℤ → Callback) :
    ℤ × Mock :=
  let id := m.calls
  let m := { m with calls := id + 1 }.log [.called id type name cb priv]
  match name with
  | none => (-1, m.log [.returned id (-1)])
  | some name =>
    if !m.initialized || cb = 0 then (-1, m.log [.returned id (-1)])
    else
      match m.allocRequest with
      | none => (0, m.log [.returned id 0, .callback id cb priv (fail name statusError)])
      | some (i, m) =>
        let resp := m.findResponse name
        let p := fill resp
          { m.pending i with
            service := strncpy 32 name, type := type, cb := cb, priv := priv, call := id }
        (0, (m.setSlot i { p with
          timeoutArmed := true, responseArmed := resp.delayMs ≠ mockDelayHang }).log
            [.returned id 0])

/-- `mock_query_service_async`. -/
def mockQueryServiceAsync (m : Mock) (name : Option CStr) (cb priv : Ptr) : ℤ × Mock :=
  m.serviceAsync .query name cb priv
    (fun resp p =>
      { p with installed := resp.installed, running := resp.running, status := resp.status })
    (fun name status => .query name false false status)

/-- `mock_control_service_async`. -/
def mockControlServiceAsync (m : Mock) (name : Option CStr) (start : Bool) (cb priv : Ptr) :
    ℤ × Mock :=
  m.serviceAsync .control name cb priv
    (fun resp p => { p with startOp := start, status := resp.status })
    (fun name status => .control name false status)

end Mock

end NanoHat.UbusMock
