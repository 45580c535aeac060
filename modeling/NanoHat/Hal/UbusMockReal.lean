import Mathlib.Data.List.TakeDrop
import NanoHat.Hal.UbusBackoff
import NanoHat.Hal.UbusMock

/-!
# The mock and the real ubus HAL

The host tests run over the mock, the target over the real HAL. A `Pair` runs both on the same
requests, responses and timeouts, with the transport up: connecting, looking `rc` up and invoking
succeed. They agree (`Agree`) as long as the real HAL neither resets its connection over other
requests nor is used after a reset, no failure is answered while timeouts are being counted,
the mock is not told of a service that runs without being installed, and no service said to be
installed has a name of 32 characters or more; `agree_iff` says that these are exactly the runs in
which they agree.
-/

namespace NanoHat.UbusMock

open UbusHal UbusReal Runs

/-! ## The two HALs side by side -/

/-- The two HALs, and the name that each call sends to `rpcd`: `ubus_hal_real` sends the name it is
given, of which the slot keeps 31 characters. -/
structure Pair where
  mock : Mock
  real : Hal
  asked : ℕ → CStr

/-- What the real HAL reads from outside when the transport is up. -/
structure UpEnv where
  checkTime : ℤ := 0
  undefShift : ℤ := 0
  attemptTime : ℤ := 0
  rcId : ℕ := 1

def UpEnv.connEnv (env : UpEnv) : ConnEnv where
  checkTime := env.checkTime
  undefShift := env.undefShift
  attemptTime := env.attemptTime
  lookup := [.rcId env.rcId]

/-- The HAL status for a status of libubus. -/
def halStatus : UbusStatus → ℤ
  | .ok => statusOk
  | .timeout => statusTimeout
  | .notFound => statusNotFound
  | .connectionFailed => statusConnFailed
  | .invalidArgument => statusError
  | .other => statusError

/-- What `rpcd` lists about a service. -/
def listing (service : CStr) (installed running : Bool) : List BlobAttr :=
  if installed then [⟨true, service, some running⟩] else []

/-- The slot of call `call`, as long as it is not called back. -/
def Mock.slotOf (m : Mock) (call : ℕ) : Option Slot :=
  (List.finRange maxPendingRequests).find? fun i =>
    (m.pending i).inUse && (m.pending i).call = call

/-- The same in the real HAL. -/
def realSlotOf (s : Hal) (call : ℕ) : Option Slot :=
  (List.finRange maxPendingRequests).find? fun i =>
    (s.pending i).inUse && (s.pending i).call = call

/-- libubus delivers a whole response to the request of slot `i`, which asked for `service`. -/
def realRespond (s : Hal) (i : Slot) (service : CStr) (installed running : Bool)
    (ret : UbusStatus) : Hal :=
  (s.dispatchData i (some (listing service installed running))).dispatchComplete i ret

inductive Event
  | setResponse (service : CStr) (status : ℤ) (installed running : Bool) (delayMs : ℤ)
  | setDefaultResponse (status : ℤ) (installed running : Bool) (delayMs : ℤ)
  | query (name : Option CStr) (cb priv : Ptr) (env : UpEnv)
  | control (name : Option CStr) (start : Bool) (cb priv : Ptr) (env : UpEnv)
  /-- The response to a call arrives; in the real HAL with status `ret`. -/
  | respond (call : ℕ) (ret : UbusStatus)
  /-- The timeout of a call expires. -/
  | expire (call : ℕ) (time : ℤ)

namespace Pair

/-- The response of call `call` is given to both HALs if the mock has one and its status is that
of `ret`. -/
def respond (p : Pair) (call : ℕ) (ret : UbusStatus) : Pair :=
  match p.mock.slotOf call with
  | none => p
  | some i =>
    let r := p.mock.pending i
    if r.responseArmed && r.status = halStatus ret then
      { mock := p.mock.dispatchResponse i
        real := match realSlotOf p.real call with
          | none => p.real
          | some j => realRespond p.real j (p.asked call) r.installed r.running ret
        asked := p.asked }
    else p

def expire (p : Pair) (call : ℕ) (time : ℤ) : Pair where
  asked := p.asked
  mock := match p.mock.slotOf call with
    | none => p.mock
    | some i => p.mock.dispatchTimeout i
  real := match realSlotOf p.real call with
    | none => p.real
    | some j => p.real.dispatchTimeout j time

/-- The names sent once the next call has been made for `name`. -/
def ask (p : Pair) (name : Option CStr) : ℕ → CStr :=
  name.elim p.asked (Function.update p.asked p.real.calls)

def step (p : Pair) : Event → Pair
  | .setResponse service status installed running delayMs =>
    { p with mock := p.mock.setResponse service status installed running delayMs }
  | .setDefaultResponse status installed running delayMs =>
    { p with mock := p.mock.setDefaultResponse status installed running delayMs }
  | .query name cb priv env =>
    ⟨(p.mock.mockQueryServiceAsync name cb priv).2,
      (p.real.realQueryServiceAsync name cb priv env.connEnv).2, p.ask name⟩
  | .control name start cb priv env =>
    ⟨(p.mock.mockControlServiceAsync name start cb priv).2,
      (p.real.realControlServiceAsync name start cb priv env.connEnv).2, p.ask name⟩
  | .respond call ret => p.respond call ret
  | .expire call time => p.expire call time

/-- Both HALs after their initialisation. -/
def start (env : UpEnv) : Pair :=
  ⟨({} : Mock).mockInit, ({} : Hal).realInit env.connEnv, fun _ => []⟩

end Pair

/-! ## The property and the condition -/

/-- A callback without the values that mean nothing unless the status is OK. -/
def meaning : Callback → Callback
  | .query service installed running status =>
    if status = statusOk then .query service installed running status
    else .query service false false status
  | .control service success status => .control service success status

/-- The callbacks that have been run, newest first. -/
def callbacks (trace : List Obs) : List (ℕ × Ptr × Ptr × Callback) :=
  trace.filterMap fun
    | .callback id cb priv c => some (id, cb, priv, meaning c)
    | _ => none

/-- The same callbacks in the same order, and the same count. -/
structure Agree (p : Pair) : Prop where
  callbacks : callbacks p.mock.trace = callbacks p.real.trace
  count : p.mock.consecutiveTimeouts = p.real.consecutiveFailures

theorem agree_def {p : Pair} : Agree p ↔ callbacks p.mock.trace = callbacks p.real.trace ∧
      p.mock.consecutiveTimeouts = p.real.consecutiveFailures :=
  ⟨fun h => ⟨h.callbacks, h.count⟩, fun h => ⟨h.1, h.2⟩⟩

instance (p : Pair) : Decidable (Agree p) := decidable_of_iff _ agree_def.symm

/-- A request that the HALs accept. -/
def Accepted (p : Pair) (name : Option CStr) (cb : Ptr) : Prop :=
  name ≠ none ∧ p.mock.initialized = true ∧ cb ≠ 0

/-- What `rpcd` can say of a service, and the real HAL take in: a service that runs is installed,
and the name of an installed one fits its slot. -/
def Listable (service : CStr) (installed running : Bool) : Prop :=
  (running = true → installed = true) ∧ (installed = true → service.length < 32)

/-- The condition on an event. -/
def Harmless (p : Pair) : Event → Prop
  | .setResponse .. => True
  | .setDefaultResponse .. => True
  -- the connection has not been reset
  | .query name cb _ _ => Accepted p name cb → p.real.ctx = true
  | .control name _ cb _ _ => Accepted p name cb → p.real.ctx = true
  -- success, of a service that does not run without being installed, and if it is installed has a
  -- name of at most 31 characters; or a failure while nothing is counted, and not one of the
  -- connection
  | .respond call ret => ∀ i, p.mock.slotOf call = some i → (p.mock.pending i).responseArmed = true →
    (p.mock.pending i).status = halStatus ret →
      if ret = .ok then (p.mock.pending i).type = .query →
        Listable (p.asked call) (p.mock.pending i).installed (p.mock.pending i).running
      else ret ≠ .connectionFailed ∧ p.mock.consecutiveTimeouts = 0
  -- not the third timeout in a row, or nothing else is pending
  | .expire call _ => ∀ i, p.mock.slotOf call = some i →
    p.mock.consecutiveTimeouts + 1 < timeoutResetThreshold ∨
      ∀ j ≠ i, (p.mock.pending j).inUse = false

/-! ## The invariant -/

/-- A pending request in both HALs. -/
structure Live (m : PendingRequest) (r : UbusReal.PendingRequest) : Prop where
  call : r.call = m.call
  service : r.service = m.service
  type : r.type = m.type
  cb : r.cb = m.cb
  priv : r.priv = m.priv
  cb_ne : m.cb ≠ 0
  completed : m.completed = false ∧ r.completed = false
  armed : m.timeoutArmed = true ∧ r.timeoutArmed = true ∧ r.reqActive = true
  blank : r.installed = false ∧ r.running = false

structure Twin (m : PendingRequest) (r : UbusReal.PendingRequest) : Prop where
  inUse : r.inUse = m.inUse
  live : m.inUse = true → Live m r

/-- The name that the call of a slot has sent, of the `calls` calls made. -/
structure Asked (calls : ℕ) (asked : ℕ → CStr) (m : PendingRequest) : Prop where
  recent : m.call < calls
  service : m.service = strncpy 32 (asked m.call)

/-- The two HALs hold the same requests in the same slots; when the real one has lost its
connection, there are none. -/
structure Sim (p : Pair) : Prop where
  mockInit : p.mock.initialized = true
  realInit : p.real.initialized = true
  calls : p.real.calls = p.mock.calls
  slots : ∀ i, Twin (p.mock.pending i) (p.real.pending i)
  asked : ∀ i, (p.mock.pending i).inUse = true → Asked p.mock.calls p.asked (p.mock.pending i)
  link : p.real.ctx = false → timeoutResetThreshold ≤ p.real.consecutiveFailures ∧
    ∀ i, (p.mock.pending i).inUse = false

theorem twin_idle {m : PendingRequest} {r : UbusReal.PendingRequest} (hm : m.inUse = false)
    (hr : r.inUse = false) : Twin m r :=
  ⟨hr.trans hm.symm, fun h => by rw [hm] at h; exact absurd h Bool.false_ne_true⟩

theorem Sim.slotOf {p : Pair} (h : Sim p) (call : ℕ) :
    realSlotOf p.real call = p.mock.slotOf call := by
  unfold realSlotOf Mock.slotOf
  congr 1
  funext i
  rw [(h.slots i).inUse]
  cases hu : (p.mock.pending i).inUse with
  | false => rfl
  | true => rw [((h.slots i).live hu).call]

theorem inUse_of_slotOf {m : Mock} {call : ℕ} {i : Slot} (h : m.slotOf call = some i) :
    (m.pending i).inUse = true := by
  have hi := List.find?_some h
  exact (Bool.and_eq_true_iff.1 hi).1

theorem call_of_slotOf {m : Mock} {call : ℕ} {i : Slot} (h : m.slotOf call = some i) :
    (m.pending i).call = call := by
  have hi := List.find?_some h
  exact of_decide_eq_true (Bool.and_eq_true_iff.1 hi).2

/-- Two slots updated alike. -/
theorem twins_update {f : Slot → PendingRequest} {g : Slot → UbusReal.PendingRequest}
    (h : ∀ i, Twin (f i) (g i)) {i : Slot} {m : PendingRequest} {r : UbusReal.PendingRequest}
    (hi : Twin m r) (j : Slot) : Twin (Function.update f i m j) (Function.update g i r j) := by
  by_cases hj : j = i
  · subst hj
    rw [Function.update_self, Function.update_self]
    exact hi
  · rw [Function.update_of_ne hj, Function.update_of_ne hj]
    exact h j

/-- The slot of a new call keeps what can be kept of its name. -/
theorem Sim.asked_store {p : Pair} (h : Sim p) {name : CStr} {q : PendingRequest}
    (hcall : q.call = p.mock.calls) (hservice : q.service = strncpy 32 name) :
    Asked (p.mock.calls + 1) (p.ask (some name)) q := by
  refine ⟨hcall.trans_lt (Nat.lt_succ_self _), ?_⟩
  unfold Pair.ask
  rw [hservice, hcall, h.calls, Option.elim_some, Function.update_self]

/-- A slot is released. -/
theorem asked_release {f : Slot → PendingRequest} {calls : ℕ} {asked : ℕ → CStr}
    (h : ∀ i, (f i).inUse = true → Asked calls asked (f i)) {i : Slot} {m : PendingRequest}
    (hm : m.inUse = false) (j : Slot) (huse : (Function.update f i m j).inUse = true) :
    Asked calls asked (Function.update f i m j) := by
  by_cases hj : j = i
  · rw [hj, Function.update_self, hm] at huse
    exact absurd huse Bool.false_ne_true
  · rw [Function.update_of_ne hj] at huse ⊢
    exact h j huse

/-- A new call sends its own name, and leaves those of the others. -/
theorem Sim.asked_ask {p : Pair} (h : Sim p) (name : CStr) (i : Slot)
    (huse : (p.mock.pending i).inUse = true) :
    Asked (p.mock.calls + 1) (p.ask (some name)) (p.mock.pending i) := by
  obtain ⟨hrecent, hservice⟩ := h.asked i huse
  refine ⟨hrecent.trans (Nat.lt_succ_self _), ?_⟩
  unfold Pair.ask
  rw [hservice, h.calls, Option.elim_some, Function.update_of_ne hrecent.ne]

/-! ## Requests -/

/-- With the transport up and a connection, `ensure_rc_id` succeeds. -/
theorem ensureRcId_up {s : Hal} (hctx : s.ctx = true) (env : UpEnv) :
    ∃ rcId, s.ensureRcId env.connEnv = (0, { s with rcId := rcId }) := by
  have hcontext : s.ensureContext env.connEnv = (0, s) := if_pos hctx
  unfold Hal.ensureRcId
  simp only [hcontext]
  by_cases hrc : s.rcId = 0
  · exact ⟨env.rcId, by simp [hrc, UpEnv.connEnv, Hal.lookupStep]⟩
  · exact ⟨s.rcId, by simp [hrc]⟩

/-- What storing a request in its slot keeps. -/
structure Stores (mfill : MockResponse → PendingRequest → PendingRequest)
    (rfill : UbusReal.PendingRequest → UbusReal.PendingRequest) : Prop where
  mock : ∀ resp q, ∃ installed running status startOp, mfill resp q =
    { q with installed := installed, running := running, status := status, startOp := startOp }
  real : ∀ q, q.installed = false → q.running = false → ∃ startOp,
    rfill q = { q with startOp := startOp }

variable {mfill : MockResponse → PendingRequest → PendingRequest}
  {rfill : UbusReal.PendingRequest → UbusReal.PendingRequest}

/-- The first slot not in use. -/
def Mock.freeSlot (m : Mock) : Option Slot :=
  (List.finRange maxPendingRequests).find? fun i => !(m.pending i).inUse

/-- A request that the mock accepts: it fails at once without a free slot, else it waits. -/
theorem Mock.serviceAsync_accepted {m : Mock} (hinit : m.initialized = true) {cb : Ptr}
    (hcb : cb ≠ 0) (hfill : Stores mfill rfill) (type : RequestType) (name : CStr) (priv : Ptr)
    (fail : CStr → ℤ → Callback) :
    (m.freeSlot = none ∧ (m.serviceAsync type (some name) cb priv mfill fail).2 =
      { m with calls := m.calls + 1, trace := .returned m.calls 0 ::
          .callback m.calls cb priv (fail name statusError) ::
          .called m.calls type (some name) cb priv :: m.trace }) ∨
    ∃ i q, m.freeSlot = some i ∧
      q.inUse = true ∧ q.completed = false ∧ q.timeoutArmed = true ∧ q.call = m.calls ∧
      q.service = strncpy 32 name ∧ q.type = type ∧ q.cb = cb ∧ q.priv = priv ∧
      (m.serviceAsync type (some name) cb priv mfill fail).2 =
        { m with calls := m.calls + 1, pending := Function.update m.pending i q,
                 trace := .returned m.calls 0 :: .called m.calls type (some name) cb priv ::
                   m.trace } := by
  unfold Mock.serviceAsync Mock.allocRequest Mock.freeSlot
  simp only [Mock.log, hinit, hcb, decide_false, Bool.not_true, Bool.or_false, Bool.false_eq_true,
    if_false]
  cases hfree : (List.finRange maxPendingRequests).find? fun i => !(m.pending i).inUse with
  | none => exact Or.inl ⟨rfl, rfl⟩
  | some i =>
    obtain ⟨installed, running, status, startOp, hq⟩ := hfill.mock (m.findResponse name)
      { inUse := true, service := strncpy 32 name, type := type, cb := cb, priv := priv,
        call := m.calls }
    refine Or.inr ⟨i,
      { service := strncpy 32 name, type := type, cb := cb, priv := priv,
        responseArmed := (m.findResponse name).delayMs ≠ mockDelayHang, timeoutArmed := true,
        inUse := true, installed := installed, running := running, status := status,
        startOp := startOp, call := m.calls },
      rfl, rfl, rfl, rfl, rfl, rfl, rfl, rfl, rfl, ?_⟩
    have hresp : ∀ pending trace, Mock.findResponse { m with
        pending := pending, calls := m.calls + 1, initialized := true, trace := trace } name =
      m.findResponse name := fun _ _ => rfl
    simp only [Mock.setSlot, Function.update_idem, Function.update_self, List.cons_append,
      List.nil_append, hresp, hq]

/-- The same in the real HAL with a connection. -/
theorem realServiceAsync_accepted {s : Hal} (hinit : s.initialized = true) (hctx : s.ctx = true)
    {cb : Ptr} (hcb : cb ≠ 0) (hfill : Stores mfill rfill) (type : RequestType) (name : CStr)
    (priv : Ptr) (fail : CStr → ℤ → Callback) (env : UpEnv) : ∃ rcId,
    (((List.finRange maxPendingRequests).find? fun i => !(s.pending i).inUse) = none ∧
      (s.serviceAsync type (some name) cb priv rfill fail env.connEnv).2 =
        { s with calls := s.calls + 1, rcId := rcId, trace := .returned s.calls 0 ::
            .callback s.calls cb priv (fail name statusError) ::
            .called s.calls type (some name) cb priv :: s.trace }) ∨
    ∃ i startOp, ((List.finRange maxPendingRequests).find? fun i => !(s.pending i).inUse) = some i ∧
      (s.serviceAsync type (some name) cb priv rfill fail env.connEnv).2 =
        { s with calls := s.calls + 1, rcId := rcId,
                 pending := Function.update s.pending i
                   { service := strncpy 32 name, type := type, cb := cb, priv := priv,
                     reqActive := true, timeoutArmed := true, inUse := true, startOp := startOp,
                     call := s.calls },
                 trace := .returned s.calls 0 :: .called s.calls type (some name) cb priv ::
                   s.trace } := by
  obtain ⟨rcId, hrc⟩ := ensureRcId_up (s := { s with
    calls := s.calls + 1, trace := .called s.calls type (some name) cb priv :: s.trace }) hctx env
  refine ⟨rcId, ?_⟩
  unfold Hal.serviceAsync Hal.allocRequest
  simp only [Hal.log, hinit, hcb, decide_false, Bool.not_true, Bool.or_false, Bool.false_eq_true,
    if_false, List.cons_append, List.nil_append]
  simp only [hinit] at hrc
  rw [hrc]
  dsimp only
  rw [if_neg (show ¬(0 : ℤ) < 0 by decide)]
  cases hfree : (List.finRange maxPendingRequests).find? fun i => !(s.pending i).inUse with
  | none => exact Or.inl ⟨rfl, rfl⟩
  | some i =>
    obtain ⟨startOp, hq⟩ := hfill.real
      { inUse := true, service := strncpy 32 name, type := type, cb := cb, priv := priv,
        call := s.calls } rfl rfl
    refine Or.inr ⟨i, startOp, rfl, ?_⟩
    simp only [Hal.setSlot, Function.update_idem, Function.update_self, hq]
    rfl

theorem Sim.freeSlot {p : Pair} (h : Sim p) :
    ((List.finRange maxPendingRequests).find? fun i => !(p.real.pending i).inUse) =
      p.mock.freeSlot := by
  unfold Mock.freeSlot
  congr 1
  funext i
  rw [(h.slots i).inUse]

/-- A request that both HALs refuse, or that finds the connection up. -/
theorem Sim.request {p : Pair} (h : Sim p) (type : RequestType) (name : Option CStr) (cb priv : Ptr)
    (hfill : Stores mfill rfill) (fail : CStr → ℤ → Callback) (env : UpEnv)
    (hctx : Accepted p name cb → p.real.ctx = true) :
    let p' : Pair := ⟨(p.mock.serviceAsync type name cb priv mfill fail).2,
      (p.real.serviceAsync type name cb priv rfill fail env.connEnv).2, p.ask name⟩
    Sim p' ∧ (Agree p → Agree p') := by
  dsimp only
  have hcalls := congrArg (· + 1) h.calls
  cases name with
  | none =>
    exact ⟨⟨h.mockInit, h.realInit, hcalls, h.slots, fun i huse =>
      ⟨(h.asked i huse).recent.trans (Nat.lt_succ_self _), (h.asked i huse).service⟩, h.link⟩,
      fun ha => ⟨ha.1, ha.2⟩⟩
  | some name =>
  have hasked := h.asked_ask name
  by_cases hcb : cb = 0
  · unfold Mock.serviceAsync Hal.serviceAsync
    simp only [hcb, decide_true, Bool.or_true, if_true]
    exact ⟨⟨h.mockInit, h.realInit, hcalls, h.slots, hasked, h.link⟩, fun ha => ⟨ha.1, ha.2⟩⟩
  have hup : p.real.ctx = true := hctx ⟨nofun, h.mockInit, hcb⟩
  have hlink : p.real.ctx = false → ∀ q : Prop, q := fun hdown => by
    rw [hup] at hdown
    cases hdown
  obtain ⟨rcId, hreal⟩ :=
    realServiceAsync_accepted h.realInit hup hcb hfill type name priv fail env
  rw [h.freeSlot] at hreal
  rcases Mock.serviceAsync_accepted h.mockInit hcb hfill type name priv fail with
    ⟨hfull, hmock⟩ | ⟨i, q, hfree, huse, hopen, htimer, hcall, hservice, htype, hqcb, hpriv, hmock⟩
  · rcases hreal with ⟨-, hreal⟩ | ⟨i, startOp, hfree, -⟩
    · rw [hmock, hreal]
      refine ⟨⟨h.mockInit, h.realInit, hcalls, h.slots, hasked, fun hdown => hlink hdown _⟩,
        fun ha => ?_⟩
      refine ⟨?_, ha.count⟩
      have hone : (p.mock.calls, cb, priv, meaning (fail name statusError)) =
          (p.real.calls, cb, priv, meaning (fail name statusError)) := by rw [h.calls]
      exact congrArg₂ List.cons hone ha.callbacks
    · rw [hfull] at hfree
      cases hfree
  · rcases hreal with ⟨hfull, -⟩ | ⟨j, startOp, hfree', hreal⟩
    · rw [hfree] at hfull
      cases hfull
    obtain rfl : i = j := Option.some.inj (hfree.symm.trans hfree')
    rw [hmock, hreal]
    refine ⟨⟨h.mockInit, h.realInit, hcalls, ?_, fun j hj => ?_, fun hdown => hlink hdown _⟩,
      fun ha => ⟨ha.1, ha.2⟩⟩
    · refine twins_update h.slots ⟨huse.symm, fun _ => ?_⟩
      exact ⟨h.calls.trans hcall.symm, hservice.symm, htype.symm, hqcb.symm, hpriv.symm,
        by rw [hqcb]; exact hcb, ⟨hopen, rfl⟩, ⟨htimer, rfl, rfl⟩, rfl, rfl⟩
    · dsimp only at hj ⊢
      by_cases hji : j = i
      · rw [hji, Function.update_self]
        exact h.asked_store hcall hservice
      · rw [Function.update_of_ne hji] at hj ⊢
        exact hasked j hj

/-- Without a connection, `ensure_rc_id` backs off, or it connects and counts anew. -/
theorem ensureRcId_down {s : Hal} (hdown : s.ctx = false) (env : UpEnv) :
    s.ensureRcId env.connEnv = (-1, s) ∨
      ∃ s', s.ensureRcId env.connEnv = (0, s') ∧ s'.consecutiveFailures = 0 := by
  have hcontext : s.ensureContext env.connEnv = (-1, s) ∨
      ∃ s', s.ensureContext env.connEnv = (0, s') ∧ s'.consecutiveFailures = 0 := by
    unfold Hal.ensureContext
    rw [if_neg (by rw [hdown]; exact Bool.false_ne_true)]
    split
    · exact Or.inl rfl
    · exact Or.inr ⟨_, rfl, rfl⟩
  unfold Hal.ensureRcId
  rcases hcontext with hwait | ⟨s', hup, hzero⟩
  · rw [hwait]
    exact Or.inl rfl
  · rw [hup]
    dsimp only
    rw [if_neg (show ¬(0 : ℤ) < 0 by decide)]
    refine Or.inr ?_
    split
    · exact ⟨s', rfl, hzero⟩
    · exact ⟨_, rfl, hzero⟩

/-- After a reset, a request lets the two HALs part: the real one calls back at once or starts
counting anew. -/
theorem Sim.request_down {p : Pair} (h : Sim p) (ha : Agree p) (type : RequestType) {name : CStr}
    {cb : Ptr} (hcb : cb ≠ 0) (priv : Ptr) (hfill : Stores mfill rfill)
    (fail : CStr → ℤ → Callback) (env : UpEnv) (hdown : p.real.ctx = false) :
    ¬Agree ⟨(p.mock.serviceAsync type (some name) cb priv mfill fail).2,
      (p.real.serviceAsync type (some name) cb priv rfill fail env.connEnv).2,
      p.ask (some name)⟩ := by
  intro ha'
  obtain ⟨hthree, hidle⟩ := h.link hdown
  obtain ⟨hcallbacks, hcount⟩ := ha'
  rcases Mock.serviceAsync_accepted h.mockInit hcb hfill type name priv fail with
    ⟨hfull, -⟩ | ⟨i, q, -, -, -, -, -, -, -, -, -, hmock⟩
  · have hfree := List.find?_eq_none.1 hfull 0 (List.mem_finRange 0)
    rw [hidle 0] at hfree
    exact hfree rfl
  rw [hmock] at hcallbacks hcount
  have hinit : p.real.initialized = true := h.realInit
  unfold Hal.serviceAsync at hcallbacks hcount
  simp only [Hal.log, hinit, hcb, decide_false, Bool.not_true, Bool.or_false, Bool.false_eq_true,
    if_false, List.cons_append, List.nil_append] at hcallbacks hcount
  rcases ensureRcId_down (s := { p.real with
    calls := p.real.calls + 1, initialized := true,
    trace := .called p.real.calls type (some name) cb priv :: p.real.trace }) hdown env with
    hwait | ⟨s', hup, hzero⟩
  · rw [hwait] at hcallbacks
    have hlength := congrArg List.length (ha.callbacks.symm.trans hcallbacks)
    simp [callbacks] at hlength
  · rw [hup] at hcount
    have hfinal : p.mock.consecutiveTimeouts = s'.consecutiveFailures := by
      refine hcount.trans ?_
      dsimp only
      rw [if_neg (show ¬(0 : ℤ) < 0 by decide)]
      split
      · rfl
      · rename_i i s'' halloc
        rw [(Hal.allocRequest_eq_some halloc).2]
        rfl
    have hthree' : 3 ≤ p.mock.consecutiveTimeouts := hthree.trans ha.count.ge
    omega

/-! ## Callbacks -/

/-- What a request of type `type` is called back with. -/
def reply (type : RequestType) (service : CStr) (installed running : Bool) (status : ℤ)
    (success : Bool) : Callback :=
  match type with
  | .query => .query service installed running status
  | .control => .control service success status

theorem Mock.userCallback_eq {m : PendingRequest} (hcb : m.cb ≠ 0) (installed running : Bool)
    (status : ℤ) (success : Bool) : Mock.userCallback m installed running status success =
      [.callback m.call m.cb m.priv
        (reply m.type m.service installed running status success)] := by
  cases ht : m.type with
  | query => simp [Mock.userCallback, reply, ht, hcb]
  | control => simp [Mock.userCallback, reply, ht, hcb]

theorem realUserCallback_eq {r : UbusReal.PendingRequest} (hcb : r.cb ≠ 0)
    (installed running : Bool) (status : ℤ) (success : Bool) :
    Hal.userCallback r installed running status success =
      [.callback r.call r.cb r.priv
        (reply r.type r.service installed running status success)] := by
  cases ht : r.type with
  | query => simp [Hal.userCallback, reply, ht, hcb]
  | control => simp [Hal.userCallback, reply, ht, hcb]

theorem callbacks_cons (id : ℕ) (cb priv : Ptr) (c : Callback) (trace : List Obs) :
    callbacks (.callback id cb priv c :: trace) = (id, cb, priv, meaning c) :: callbacks trace :=
  rfl

/-! ## Responses -/

/-- The mock gives the response of a pending request. -/
theorem Mock.dispatchResponse_eq {m : Mock} {i : Slot} (huse : (m.pending i).inUse = true)
    (hopen : (m.pending i).completed = false) (hcb : (m.pending i).cb ≠ 0)
    (harmed : (m.pending i).responseArmed = true) :
    ∃ q, q.inUse = false ∧ m.dispatchResponse i =
      { m with
        pending := Function.update m.pending i q
        consecutiveTimeouts := 0
        trace := .callback (m.pending i).call (m.pending i).cb (m.pending i).priv
          (reply (m.pending i).type (m.pending i).service (m.pending i).installed
            (m.pending i).running (m.pending i).status ((m.pending i).status = statusOk)) ::
            m.trace } := by
  refine ⟨{ m.pending i with
    responseArmed := false, completed := true, timeoutArmed := false, inUse := false }, rfl, ?_⟩
  unfold Mock.dispatchResponse Mock.responseTimerCb
  rw [if_pos harmed]
  simp only [Mock.setSlot, Mock.log, Function.update_self, Function.update_idem, huse, hopen,
    Bool.not_true, Bool.or_false, Bool.false_eq_true, if_false]
  rw [Mock.userCallback_eq (by exact hcb)]
  rfl

/-- `g_consecutive_failures` after a response. -/
def failuresAfter (n : ℕ) : UbusStatus → ℕ
  | .ok => 0
  | .connectionFailed => n + 1
  | _ => n

theorem completeStatus_eq (s : Hal) (ret : UbusStatus) : ∃ rcId, s.completeStatus ret =
    (halStatus ret, { s with
      consecutiveFailures := failuresAfter s.consecutiveFailures ret, rcId := rcId }) := by
  cases ret with
  | ok => exact ⟨s.rcId, rfl⟩
  | timeout => exact ⟨s.rcId, rfl⟩
  | notFound => exact ⟨0, rfl⟩
  | connectionFailed => exact ⟨0, rfl⟩
  | invalidArgument => exact ⟨0, rfl⟩
  | other => exact ⟨s.rcId, rfl⟩

/-- A slot without an answer is the same with its flags cleared. -/
theorem setSlot_blank {s : Hal} {i : Slot}
    (hblank : (s.pending i).installed = false ∧ (s.pending i).running = false) :
    s.setSlot i { s.pending i with installed := false, running := false } = s := by
  have hslot : { s.pending i with installed := false, running := false } = s.pending i := by
    obtain ⟨hinstalled, hrunning⟩ := hblank
    generalize s.pending i = r at hinstalled hrunning
    cases r
    simp_all
  unfold Hal.setSlot
  rw [hslot, Function.update_eq_self]

/-- `query_data_cb` finds the name in its slot only if it has been kept whole. -/
def heard (service : CStr) (installed : Bool) : Bool := installed && decide (service.length < 32)

theorem strncpy_eq_self {n : ℕ} {s : CStr} : strncpy (n + 1) s = s ↔ s.length < n + 1 := by
  unfold strncpy
  rw [Nat.add_sub_cancel, List.take_eq_self_iff, Nat.lt_succ_iff]

theorem queryDataCb_listing {s : Hal} {i : Slot}
    (hblank : (s.pending i).installed = false ∧ (s.pending i).running = false) {service : CStr}
    (hservice : (s.pending i).service = strncpy 32 service) (installed running : Bool) :
    s.queryDataCb i (some (listing service installed running)) = s.setSlot i { s.pending i with
      installed := heard service installed, running := heard service installed && running } := by
  have hsame := setSlot_blank hblank
  unfold Hal.queryDataCb listing heard
  cases installed with
  | false => exact hsame.symm
  | true =>
    by_cases hfits : service.length < 32
    · have heq : service = (s.pending i).service := by
        rw [hservice, strncpy_eq_self.2 hfits]
      cases running with
      | true => simp [← heq, hfits]
      | false => simp [← heq, hfits, hblank.2]
    · have hother : service ≠ (s.pending i).service := by
        rw [hservice]
        exact fun heq => hfits (strncpy_eq_self.1 heq.symm)
      simp only [if_true, List.find?_cons, Bool.true_and, decide_eq_false hother,
        List.find?_nil, decide_eq_false hfits, Bool.false_and]
      exact hsame.symm

/-- The data of a response goes to the slot of a query. -/
theorem dispatchData_listing {s : Hal} {i : Slot} (hactive : (s.pending i).reqActive = true)
    (hblank : (s.pending i).installed = false ∧ (s.pending i).running = false) {service : CStr}
    (hservice : (s.pending i).service = strncpy 32 service) (installed running : Bool) :
    ∃ a b, ((s.pending i).type = .query →
        a = heard service installed ∧ b = (heard service installed && running)) ∧
      s.dispatchData i (some (listing service installed running)) =
        s.setSlot i { s.pending i with installed := a, running := b } := by
  unfold Hal.dispatchData
  cases htype : (s.pending i).type with
  | control =>
    refine ⟨false, false, nofun, ?_⟩
    rw [hactive, if_neg (by simp)]
    exact (setSlot_blank hblank).symm
  | query =>
    rw [hactive, if_pos (by simp)]
    exact ⟨_, _, fun _ => ⟨rfl, rfl⟩, queryDataCb_listing hblank hservice installed running⟩

/-- libubus delivers the response of a pending request. -/
theorem realRespond_eq {s : Hal} {i : Slot} (huse : (s.pending i).inUse = true)
    (hopen : (s.pending i).completed = false) (hcb : (s.pending i).cb ≠ 0)
    (hactive : (s.pending i).reqActive = true) (hblank : (s.pending i).installed = false ∧
      (s.pending i).running = false) {service : CStr}
    (hservice : (s.pending i).service = strncpy 32 service) (installed running : Bool)
    (ret : UbusStatus) :
    ∃ q rcId, q.inUse = false ∧ realRespond s i service installed running ret =
      { s with
        pending := Function.update s.pending i q
        rcId := rcId
        consecutiveFailures := failuresAfter s.consecutiveFailures ret
        trace := .callback (s.pending i).call (s.pending i).cb (s.pending i).priv
          (reply (s.pending i).type (s.pending i).service (heard service installed)
            (heard service installed && running) (halStatus ret) (halStatus ret = statusOk)) ::
              s.trace } := by
  obtain ⟨a, b, hquery, hdata⟩ := dispatchData_listing hactive hblank hservice installed running
  have hreply : ∀ status success,
      reply (s.pending i).type (s.pending i).service a b status success =
        reply (s.pending i).type (s.pending i).service (heard service installed)
          (heard service installed && running) status success := by
    intro status success
    cases htype : (s.pending i).type with
    | control => rfl
    | query =>
      obtain ⟨rfl, rfl⟩ := hquery htype
      rfl
  unfold realRespond
  rw [hdata]
  unfold Hal.dispatchComplete Hal.queryCompleteCb
  simp only [setSlot_self, setSlot_setSlot, hactive, huse, hopen, Bool.not_true, Bool.or_false,
    Bool.false_eq_true, if_false, if_true]
  obtain ⟨rcId, hstatus⟩ := completeStatus_eq (s.setSlot i { s.pending i with
    installed := a, running := b, reqActive := false, completed := true, timeoutArmed := false,
    inUse := true }) ret
  rw [hstatus, realUserCallback_eq (by exact hcb), hreply]
  refine ⟨{ s.pending i with
    installed := a, running := b, reqActive := false, completed := true, timeoutArmed := false,
    inUse := false }, rcId, rfl, ?_⟩
  simp only [Hal.log, Hal.setSlot, Function.update_self, Function.update_idem, List.cons_append,
    List.nil_append]

/-- The two answers mean the same, unless an answered query says what cannot be listed. -/
theorem meaning_reply_iff (type : RequestType) (slot service : CStr) (installed running : Bool)
    (status : ℤ) (success : Bool) :
    meaning (reply type slot installed running status success) =
        meaning (reply type slot (heard service installed)
          (heard service installed && running) status success) ↔
      (status = statusOk → type = .query → Listable service installed running) := by
  cases type with
  | control => simp [reply]
  | query =>
    unfold reply meaning Listable heard
    by_cases hstatus : status = statusOk
    · by_cases hfits : service.length < 32
      · cases installed <;> cases running <;> simp [hstatus, hfits]
      · cases installed <;> cases running <;> simp [hstatus, hfits]
    · simp [hstatus]

theorem halStatus_eq_ok {ret : UbusStatus} : halStatus ret = statusOk ↔ ret = .ok := by
  cases ret <;> decide

theorem failuresAfter_eq_zero {n : ℕ} {ret : UbusStatus} :
    0 = failuresAfter n ret ↔ ret = .ok ∨ ret ≠ .connectionFailed ∧ n = 0 := by
  cases ret <;> simp [failuresAfter, eq_comm]

/-- A response that both HALs give. -/
theorem Sim.respondAt {p : Pair} (h : Sim p) (ha : Agree p) {i : Slot}
    (huse : (p.mock.pending i).inUse = true) (harmed : (p.mock.pending i).responseArmed = true)
    {ret : UbusStatus} (hstatus : (p.mock.pending i).status = halStatus ret) :
    let service := p.asked (p.mock.pending i).call
    let p' : Pair := ⟨p.mock.dispatchResponse i, realRespond p.real i service
      (p.mock.pending i).installed (p.mock.pending i).running ret, p.asked⟩
    Sim p' ∧ (Agree p' ↔ if ret = .ok then (p.mock.pending i).type = .query →
        Listable service (p.mock.pending i).installed (p.mock.pending i).running
      else ret ≠ .connectionFailed ∧ p.mock.consecutiveTimeouts = 0) := by
  dsimp only
  have hlive := (h.slots i).live huse
  obtain ⟨m, hm, hmock⟩ := Mock.dispatchResponse_eq huse hlive.completed.1 hlive.cb_ne harmed
  obtain ⟨r, rcId, hr, hreal⟩ := realRespond_eq ((h.slots i).inUse.trans huse) hlive.completed.2
    (hlive.cb ▸ hlive.cb_ne) hlive.armed.2.2 hlive.blank
    (hlive.service.trans (h.asked i huse).service) (p.mock.pending i).installed
    (p.mock.pending i).running ret
  rw [hlive.call, hlive.cb, hlive.priv, hlive.type, hlive.service] at hreal
  rw [hmock, hreal, hstatus]
  constructor
  · refine ⟨h.mockInit, h.realInit, h.calls, twins_update h.slots (twin_idle hm hr),
      asked_release h.asked hm, ?_⟩
    intro hdown
    have hidle := (h.link hdown).2 i
    rw [huse] at hidle
    cases hidle
  · have hcallbacks : ∀ c c' : Callback,
        callbacks (.callback (p.mock.pending i).call (p.mock.pending i).cb (p.mock.pending i).priv c
          :: p.mock.trace) =
        callbacks (.callback (p.mock.pending i).call (p.mock.pending i).cb (p.mock.pending i).priv
          c' :: p.real.trace) ↔ meaning c = meaning c' := by
      intro c c'
      rw [callbacks_cons, callbacks_cons, ha.callbacks]
      simp
    rw [agree_def, hcallbacks, meaning_reply_iff]
    dsimp only
    rw [halStatus_eq_ok, failuresAfter_eq_zero, ← ha.count]
    by_cases hok : ret = .ok
    · simp [hok]
    · simp [hok]

/-! ## Timeouts -/

/-- The timeout of a pending request in the mock. -/
theorem Mock.dispatchTimeout_eq {m : Mock} {i : Slot} (huse : (m.pending i).inUse = true)
    (hopen : (m.pending i).completed = false) (hcb : (m.pending i).cb ≠ 0)
    (harmed : (m.pending i).timeoutArmed = true) :
    ∃ q, q.inUse = false ∧ m.dispatchTimeout i =
      { m with
        pending := Function.update m.pending i q
        consecutiveTimeouts := m.consecutiveTimeouts + 1
        trace := .callback (m.pending i).call (m.pending i).cb (m.pending i).priv
          (reply (m.pending i).type (m.pending i).service false false statusTimeout false) ::
            m.trace } := by
  refine ⟨{ m.pending i with
    timeoutArmed := false, completed := true, responseArmed := false, inUse := false }, rfl, ?_⟩
  unfold Mock.dispatchTimeout Mock.timeoutTimerCb
  rw [if_pos harmed]
  simp only [Mock.setSlot, Mock.log, Function.update_self, Function.update_idem, huse, hopen,
    Bool.not_true, Bool.or_false, Bool.false_eq_true, if_false]
  rw [Mock.userCallback_eq (by exact hcb)]
  rfl

/-- The first two timeouts in a row of the real HAL. -/
theorem realTimeout_eq {s : Hal} {i : Slot} (huse : (s.pending i).inUse = true)
    (hopen : (s.pending i).completed = false) (hcb : (s.pending i).cb ≠ 0)
    (harmed : (s.pending i).timeoutArmed = true) (time : ℤ)
    (hfew : s.consecutiveFailures + 1 < timeoutResetThreshold) :
    ∃ q, q.inUse = false ∧ s.dispatchTimeout i time =
      { s with
        pending := Function.update s.pending i q
        rcId := 0
        consecutiveFailures := s.consecutiveFailures + 1
        trace := .callback (s.pending i).call (s.pending i).cb (s.pending i).priv
          (reply (s.pending i).type (s.pending i).service false false statusTimeout false) ::
            s.trace } := by
  refine ⟨{ s.pending i with
    timeoutArmed := false, completed := true,
    reqActive := if s.ctx then false else (s.pending i).reqActive, inUse := false }, rfl, ?_⟩
  unfold Hal.dispatchTimeout Hal.requestTimeoutCb
  rw [if_pos harmed]
  simp only [Hal.setSlot, Function.update_self, Function.update_idem, huse, hopen, Bool.not_true,
    Bool.or_false, Bool.false_eq_true, if_false]
  rw [if_neg (by omega)]
  simp only [Hal.log, Function.update_self, Function.update_idem]
  rw [realUserCallback_eq (by exact hcb)]
  rfl

/-- A turn of `abort_all_pending` leaves the slots alone that are not pending. -/
theorem abortSlot_pending {s : Hal} {i : Slot} (status : ℤ) (j : Slot)
    (hi : ((s.pending i).inUse && !(s.pending i).completed) = false) :
    (s.abortSlot status j).pending i = s.pending i := by
  unfold Hal.abortSlot
  dsimp only
  split
  · rename_i hj
    have hij : i ≠ j := by
      rintro rfl
      rw [hi] at hj
      cases hj
    exact setSlot_ne _ _ hij
  · rfl

/-- Aborting calls back: every turn adds callbacks, and a pending slot adds one. -/
theorem length_abortSlot (s : Hal) (status : ℤ) (i : Slot) :
    (callbacks s.trace).length + (if (s.pending i).inUse && !(s.pending i).completed &&
        decide ((s.pending i).cb ≠ 0) then 1 else 0) ≤
      (callbacks (s.abortSlot status i).trace).length := by
  unfold Hal.abortSlot
  dsimp only
  by_cases hi : ((s.pending i).inUse && !(s.pending i).completed) = true
  · rw [if_pos hi, hi, Bool.true_and]
    by_cases hcb : (s.pending i).cb = 0
    · simp [hcb, Hal.setSlot, Hal.log, Hal.userCallback]
    · simp only [Hal.setSlot, Hal.log, realUserCallback_eq hcb]
      simp [callbacks_cons, hcb]
  · rw [if_neg hi]
    simp [Bool.eq_false_iff.2 hi]

theorem foldl_abortSlot_pending (status : ℤ) (l : List Slot) {s : Hal} {i : Slot}
    (hi : ((s.pending i).inUse && !(s.pending i).completed) = false) :
    (l.foldl (Hal.abortSlot status) s).pending i = s.pending i := by
  induction l generalizing s with
  | nil => rfl
  | cons j l ih =>
    have hfirst := abortSlot_pending status j hi
    rw [List.foldl_cons, ih (by rw [hfirst]; exact hi), hfirst]

theorem length_foldl_abortSlot (status : ℤ) (l : List Slot) (s : Hal) :
    (callbacks s.trace).length ≤ (callbacks (l.foldl (Hal.abortSlot status) s).trace).length := by
  induction l generalizing s with
  | nil => exact le_rfl
  | cons j l ih => exact ((Nat.le_add_right _ _).trans (length_abortSlot s status j)).trans (ih _)

theorem abortSlot_ne (s : Hal) (status : ℤ) {i j : Slot} (hij : i ≠ j) :
    (s.abortSlot status j).pending i = s.pending i := by
  unfold Hal.abortSlot
  dsimp only
  split
  · exact setSlot_ne _ _ hij
  · rfl

/-- A pending slot is called back by `abort_all_pending`. -/
theorem lt_length_foldl_abortSlot (status : ℤ) {l : List Slot} {s : Hal} {i : Slot} (hl : i ∈ l)
    (huse : (s.pending i).inUse = true) (hopen : (s.pending i).completed = false)
    (hcb : (s.pending i).cb ≠ 0) :
    (callbacks s.trace).length < (callbacks (l.foldl (Hal.abortSlot status) s).trace).length := by
  induction l generalizing s with
  | nil => exact absurd hl List.not_mem_nil
  | cons j l ih =>
    have hfirst := length_abortSlot s status j
    rw [List.foldl_cons]
    by_cases hij : i = j
    · subst hij
      rw [huse, hopen, decide_eq_true hcb] at hfirst
      exact lt_of_lt_of_le hfirst (length_foldl_abortSlot status l _)
    · have hsame := abortSlot_ne s status hij
      have hrest := ih ((List.mem_cons.1 hl).resolve_left hij) (by rw [hsame]; exact huse)
        (by rw [hsame]; exact hopen) (by rw [hsame]; exact hcb)
      omega

theorem foldl_abortSlot_idle (status : ℤ) (l : List Slot) {s : Hal}
    (h : ∀ i, ((s.pending i).inUse && !(s.pending i).completed) = false) :
    l.foldl (Hal.abortSlot status) s = s := by
  induction l with
  | nil => rfl
  | cons j l ih =>
    have hskip : s.abortSlot status j = s := if_neg (by rw [h j]; exact Bool.false_ne_true)
    rw [List.foldl_cons, hskip, ih]

/-- The third timeout in a row of the real HAL: the connection is reset before the callback. -/
theorem requestTimeoutCb_reset {s : Hal} {i : Slot} (huse : (s.pending i).inUse = true)
    (hopen : (s.pending i).completed = false) (time : ℤ)
    (hmany : timeoutResetThreshold ≤ s.consecutiveFailures + 1) (closing : UbusReal.PendingRequest)
    (hclosing : { s.pending i with
      completed := true, reqActive := if s.ctx then false else (s.pending i).reqActive } = closing)
    {s₁ : Hal} (hs₁ : Hal.resetConnection { s.setSlot i closing with
      consecutiveFailures := s.consecutiveFailures + 1 } time = s₁) :
    s.requestTimeoutCb i time =
      (s₁.log (Hal.userCallback (s₁.pending i) false false statusTimeout false)).setSlot i
        { s₁.pending i with inUse := false } := by
  unfold Hal.requestTimeoutCb
  rw [if_neg (by rw [huse, hopen]; decide)]
  dsimp only
  rw [hclosing]
  have hthreshold : timeoutResetThreshold ≤ (s.setSlot i closing).consecutiveFailures + 1 := hmany
  rw [if_pos hthreshold, ← hs₁]
  rfl

theorem realReset_eq {s : Hal} {i : Slot} (huse : (s.pending i).inUse = true)
    (hopen : (s.pending i).completed = false) (hcb : (s.pending i).cb ≠ 0)
    (harmed : (s.pending i).timeoutArmed = true) (time : ℤ)
    (hmany : timeoutResetThreshold ≤ s.consecutiveFailures + 1) :
    ∃ closing closed : UbusReal.PendingRequest, closing.completed = true ∧ closed.inUse = false ∧
      ∃ s₀ : Hal, s₀.pending = Function.update s.pending i closing ∧
        callbacks s₀.trace = callbacks s.trace ∧
        s₀.consecutiveFailures = s.consecutiveFailures + 1 ∧
        s₀.initialized = s.initialized ∧ s₀.calls = s.calls ∧
        s.dispatchTimeout i time =
          { s₀.abortAllPending statusConnFailed with
            ctx := false
            rcId := 0
            pending := Function.update (s₀.abortAllPending statusConnFailed).pending i closed
            trace := .callback (s.pending i).call (s.pending i).cb (s.pending i).priv
              (reply (s.pending i).type (s.pending i).service false false statusTimeout false) ::
                (s₀.abortAllPending statusConnFailed).trace } := by
  obtain ⟨p, hp⟩ : ∃ p : UbusReal.PendingRequest,
    p = { s.pending i with timeoutArmed := false } := ⟨_, rfl⟩
  obtain ⟨closing, hclosing⟩ : ∃ c : UbusReal.PendingRequest, c = { p with
    completed := true, reqActive := if s.ctx then false else p.reqActive } := ⟨_, rfl⟩
  obtain ⟨s₀, hs₀⟩ : ∃ s₀ : Hal, s₀ = { s.setSlot i closing with
    consecutiveFailures := s.consecutiveFailures + 1
    trace := .reset time (s.consecutiveFailures + 1) s.lastAttemptTime :: s.trace } := ⟨_, rfl⟩
  have hdone : closing.completed = true := by rw [hclosing]
  have hslot : (s₀.abortAllPending statusConnFailed).pending i = closing := by
    have hi : s₀.pending i = closing := by rw [hs₀]; exact setSlot_self ..
    rw [← hi]
    exact foldl_abortSlot_pending _ _ (by rw [hi, hdone, Bool.not_true, Bool.and_false])
  have hexpire : s.dispatchTimeout i time = (s.setSlot i p).requestTimeoutCb i time := by
    rw [hp]
    exact if_pos harmed
  have hpi : (s.setSlot i p).pending i = p := setSlot_self ..
  have hreset := requestTimeoutCb_reset (s := s.setSlot i p) (i := i)
    (by rw [hpi, hp]; exact huse) (by rw [hpi, hp]; exact hopen) time hmany closing
    (by rw [hpi]; exact hclosing.symm) rfl
  rw [hexpire, hreset, setSlot_setSlot]
  have hconn : Hal.resetConnection { s.setSlot i closing with
      consecutiveFailures := s.consecutiveFailures + 1 } time =
      { s₀.abortAllPending statusConnFailed with ctx := false, rcId := 0 } := by
    rw [hs₀]
    rfl
  refine ⟨closing, { closing with inUse := false }, hdone, rfl, s₀, by rw [hs₀]; rfl,
    by rw [hs₀]; rfl, by rw [hs₀], by rw [hs₀]; rfl, by rw [hs₀]; rfl, ?_⟩
  have hfailures : (s.setSlot i p).consecutiveFailures = s.consecutiveFailures := rfl
  rw [hfailures, hconn, hslot, realUserCallback_eq (by rw [hclosing, hp]; exact hcb)]
  rw [hclosing, hp]
  rfl

/-- A timeout before the third in a row. -/
theorem Sim.expire_few {p : Pair} (h : Sim p) (ha : Agree p) {i : Slot}
    (huse : (p.mock.pending i).inUse = true) (time : ℤ)
    (hfew : p.mock.consecutiveTimeouts + 1 < timeoutResetThreshold) :
    Sim ⟨p.mock.dispatchTimeout i, p.real.dispatchTimeout i time, p.asked⟩ ∧
      Agree ⟨p.mock.dispatchTimeout i, p.real.dispatchTimeout i time, p.asked⟩ := by
  have hlive := (h.slots i).live huse
  obtain ⟨m, hm, hmock⟩ :=
    Mock.dispatchTimeout_eq huse hlive.completed.1 hlive.cb_ne hlive.armed.1
  obtain ⟨r, hr, hreal⟩ := realTimeout_eq ((h.slots i).inUse.trans huse) hlive.completed.2
    (hlive.cb ▸ hlive.cb_ne) hlive.armed.2.1 time (ha.count ▸ hfew)
  rw [hlive.call, hlive.cb, hlive.priv, hlive.type, hlive.service] at hreal
  rw [hmock, hreal]
  constructor
  · refine ⟨h.mockInit, h.realInit, h.calls, twins_update h.slots (twin_idle hm hr),
      asked_release h.asked hm, ?_⟩
    intro hdown
    have hidle := (h.link hdown).2 i
    rw [huse] at hidle
    cases hidle
  · refine ⟨?_, congrArg (· + 1) ha.count⟩
    dsimp only
    rw [callbacks_cons, callbacks_cons, ha.callbacks]

/-- The third timeout in a row with nothing else pending. -/
theorem Sim.expire_last {p : Pair} (h : Sim p) (ha : Agree p) {i : Slot}
    (huse : (p.mock.pending i).inUse = true) (time : ℤ)
    (hmany : timeoutResetThreshold ≤ p.mock.consecutiveTimeouts + 1)
    (halone : ∀ j ≠ i, (p.mock.pending j).inUse = false) :
    Sim ⟨p.mock.dispatchTimeout i, p.real.dispatchTimeout i time, p.asked⟩ ∧
      Agree ⟨p.mock.dispatchTimeout i, p.real.dispatchTimeout i time, p.asked⟩ := by
  have hlive := (h.slots i).live huse
  obtain ⟨m, hm, hmock⟩ :=
    Mock.dispatchTimeout_eq huse hlive.completed.1 hlive.cb_ne hlive.armed.1
  obtain ⟨closing, closed, hdone, hidle, s₀, hpending, htrace, hfailures, hinit, hcalls, hreal⟩ :=
    realReset_eq ((h.slots i).inUse.trans huse) hlive.completed.2 (hlive.cb ▸ hlive.cb_ne)
      hlive.armed.2.1 time (ha.count ▸ hmany)
  have hnothing : s₀.abortAllPending statusConnFailed = s₀ := by
    refine foldl_abortSlot_idle statusConnFailed _ fun j => ?_
    rw [hpending]
    by_cases hj : j = i
    · rw [hj, Function.update_self, hdone, Bool.not_true, Bool.and_false]
    · rw [Function.update_of_ne hj, (h.slots j).inUse, halone j hj, Bool.false_and]
  rw [hnothing, hpending, Function.update_idem, hlive.call, hlive.cb, hlive.priv, hlive.type,
    hlive.service] at hreal
  rw [hmock, hreal]
  constructor
  · refine ⟨h.mockInit, hinit.trans h.realInit, hcalls.trans h.calls,
      twins_update h.slots (twin_idle hm hidle), asked_release h.asked hm,
      fun _ => ⟨?_, fun j => ?_⟩⟩
    · dsimp only
      rw [hfailures, ← ha.count]
      exact hmany
    · dsimp only
      by_cases hj : j = i
      · rw [hj, Function.update_self]
        exact hm
      · rw [Function.update_of_ne hj]
        exact halone j hj
  · refine ⟨?_, ?_⟩
    · dsimp only
      rw [callbacks_cons, callbacks_cons, htrace, ha.callbacks]
    · dsimp only
      rw [hfailures, ha.count]

/-- The third timeout in a row with another request pending: the real HAL calls that one back. -/
theorem Sim.expire_aborts {p : Pair} (h : Sim p) (ha : Agree p) {i j : Slot}
    (huse : (p.mock.pending i).inUse = true) (time : ℤ)
    (hmany : timeoutResetThreshold ≤ p.mock.consecutiveTimeouts + 1) (hji : j ≠ i)
    (hother : (p.mock.pending j).inUse = true) :
    ¬Agree ⟨p.mock.dispatchTimeout i, p.real.dispatchTimeout i time, p.asked⟩ := by
  intro ha'
  have hlive := (h.slots i).live huse
  have hpeer := (h.slots j).live hother
  obtain ⟨m, -, hmock⟩ :=
    Mock.dispatchTimeout_eq huse hlive.completed.1 hlive.cb_ne hlive.armed.1
  obtain ⟨closing, closed, -, -, s₀, hpending, htrace, -, -, -, hreal⟩ :=
    realReset_eq ((h.slots i).inUse.trans huse) hlive.completed.2 (hlive.cb ▸ hlive.cb_ne)
      hlive.armed.2.1 time (ha.count ▸ hmany)
  have hsame : s₀.pending j = p.real.pending j := by rw [hpending, Function.update_of_ne hji]
  have hmore : (callbacks s₀.trace).length <
      (callbacks (s₀.abortAllPending statusConnFailed).trace).length :=
    lt_length_foldl_abortSlot statusConnFailed (List.mem_finRange j)
      (by rw [hsame, (h.slots j).inUse]; exact hother) (by rw [hsame]; exact hpeer.completed.2)
      (by rw [hsame, hpeer.cb]; exact hpeer.cb_ne)
  have hcallbacks := ha'.callbacks
  rw [hmock, hreal] at hcallbacks
  dsimp only at hcallbacks
  rw [callbacks_cons, callbacks_cons] at hcallbacks
  have hlength := congrArg List.length hcallbacks
  rw [htrace, ← ha.callbacks] at hmore
  simp only [List.length_cons] at hlength
  omega

/-- A timeout that both HALs run into. -/
theorem Sim.expireAt {p : Pair} (h : Sim p) (ha : Agree p) {i : Slot}
    (huse : (p.mock.pending i).inUse = true) (time : ℤ) :
    let p' : Pair := ⟨p.mock.dispatchTimeout i, p.real.dispatchTimeout i time, p.asked⟩
    let harmless := p.mock.consecutiveTimeouts + 1 < timeoutResetThreshold ∨
      ∀ j ≠ i, (p.mock.pending j).inUse = false
    (harmless → Sim p') ∧ (Agree p' ↔ harmless) := by
  dsimp only
  by_cases hfew : p.mock.consecutiveTimeouts + 1 < timeoutResetThreshold
  · obtain ⟨hsim, hagree⟩ := h.expire_few ha huse time hfew
    exact ⟨fun _ => hsim, fun _ => Or.inl hfew, fun _ => hagree⟩
  · have hmany := not_lt.1 hfew
    refine ⟨fun hg => (h.expire_last ha huse time hmany (hg.resolve_left hfew)).1, fun hagree => ?_,
      fun hg => (h.expire_last ha huse time hmany (hg.resolve_left hfew)).2⟩
    refine Or.inr fun j hj => ?_
    by_contra hother
    exact h.expire_aborts ha huse time hmany hj (Bool.not_eq_false _ ▸ hother) hagree

/-! ## Runs -/

theorem stores_query : Stores
    (fun resp q =>
      { q with installed := resp.installed, running := resp.running, status := resp.status })
    (fun q => { q with installed := false, running := false }) where
  mock resp q := ⟨resp.installed, resp.running, resp.status, q.startOp, rfl⟩
  real q hinstalled hrunning := ⟨q.startOp, by cases q; cases hinstalled; cases hrunning; rfl⟩

theorem stores_control (start : Bool) : Stores
    (fun resp q => { q with startOp := start, status := resp.status })
    (fun q => { q with startOp := start }) where
  mock resp q := ⟨q.installed, q.running, resp.status, start, rfl⟩
  real _ _ _ := ⟨start, rfl⟩

/-- A request keeps the HALs together precisely when it does not find the connection reset. -/
theorem Sim.service {p : Pair} (h : Sim p) (ha : Agree p) (type : RequestType)
    (name : Option CStr) (cb priv : Ptr) (hfill : Stores mfill rfill) (fail : CStr → ℤ → Callback)
    (env : UpEnv) :
    let p' : Pair := ⟨(p.mock.serviceAsync type name cb priv mfill fail).2,
      (p.real.serviceAsync type name cb priv rfill fail env.connEnv).2, p.ask name⟩
    let harmless := Accepted p name cb → p.real.ctx = true
    (harmless → Sim p') ∧ (Agree p' ↔ harmless) := by
  dsimp only
  refine ⟨fun hg => (h.request type name cb priv hfill fail env hg).1, fun hagree hacc => ?_,
    fun hg => (h.request type name cb priv hfill fail env hg).2 ha⟩
  by_contra hctx
  obtain ⟨hname, -, hcb⟩ := hacc
  obtain ⟨name, rfl⟩ := Option.ne_none_iff_exists'.1 hname
  exact h.request_down ha type hcb priv hfill fail env (Bool.eq_false_iff.2 hctx) hagree

/-- What a test sets up for the mock touches no request. -/
theorem setResponse_frame (m : Mock) (service : CStr) (status : ℤ) (installed running : Bool)
    (delayMs : ℤ) : ∃ responses,
    m.setResponse service status installed running delayMs =
      { m with mockResponses := responses } := by
  unfold Mock.setResponse
  split
  · exact ⟨_, rfl⟩
  · split
    · exact ⟨m.mockResponses, rfl⟩
    · exact ⟨_, rfl⟩

/-- **One step.** A harmless event keeps the invariant, and the HALs go on agreeing precisely when
the event is harmless. -/
theorem Sim.step {p : Pair} (h : Sim p) (ha : Agree p) (e : Event) :
    (Harmless p e → Sim (p.step e)) ∧ (Agree (p.step e) ↔ Harmless p e) := by
  cases e with
  | setResponse service status installed running delayMs =>
    obtain ⟨responses, hset⟩ := setResponse_frame p.mock service status installed running delayMs
    unfold Pair.step
    dsimp only
    rw [hset]
    exact ⟨fun _ => ⟨h.mockInit, h.realInit, h.calls, h.slots, h.asked, h.link⟩,
      fun _ => trivial, fun _ => ⟨ha.1, ha.2⟩⟩
  | setDefaultResponse status installed running delayMs =>
    exact ⟨fun _ => ⟨h.mockInit, h.realInit, h.calls, h.slots, h.asked, h.link⟩,
      fun _ => trivial, fun _ => ⟨ha.1, ha.2⟩⟩
  | query name cb priv env => exact h.service ha .query name cb priv stores_query _ env
  | control name start cb priv env =>
    exact h.service ha .control name cb priv (stores_control start) _ env
  | respond call ret =>
    unfold Pair.step Pair.respond Harmless
    dsimp only
    rw [h.slotOf]
    cases hslot : p.mock.slotOf call with
    | none => exact ⟨fun _ => h, fun _ => nofun, fun _ => ha⟩
    | some i =>
      dsimp only
      by_cases hready : (p.mock.pending i).responseArmed = true ∧
        (p.mock.pending i).status = halStatus ret
      · obtain ⟨harmed, hstatus⟩ := hready
        obtain ⟨hsim, hiff⟩ := h.respondAt ha (inUse_of_slotOf hslot) harmed hstatus
        rw [call_of_slotOf hslot] at hsim hiff
        rw [if_pos (by rw [harmed, decide_eq_true hstatus]; rfl)]
        refine ⟨fun _ => hsim, hiff.trans ⟨fun hg j hj _ _ => ?_, fun hg => ?_⟩⟩
        · obtain rfl := Option.some.inj hj
          exact hg
        · exact hg i rfl harmed hstatus
      · rw [if_neg (by rw [Bool.and_eq_true, decide_eq_true_iff]; exact hready)]
        refine ⟨fun _ => h, fun _ j hj harmed hstatus => ?_, fun _ => ha⟩
        obtain rfl := Option.some.inj hj
        exact absurd ⟨harmed, hstatus⟩ hready
  | expire call time =>
    unfold Pair.step Pair.expire Harmless
    dsimp only
    rw [h.slotOf]
    cases hslot : p.mock.slotOf call with
    | none => exact ⟨fun _ => h, fun _ => nofun, fun _ => ha⟩
    | some i =>
      obtain ⟨hsim, hiff⟩ := h.expireAt ha (inUse_of_slotOf hslot) time
      refine ⟨fun hg => hsim (hg i rfl), hiff.trans ⟨fun hg j hj => ?_, fun hg => hg i rfl⟩⟩
      obtain rfl := Option.some.inj hj
      exact hg

theorem sim_start (env : UpEnv) : Sim (Pair.start env) ∧ Agree (Pair.start env) :=
  ⟨⟨rfl, rfl, rfl, fun _ => twin_idle rfl rfl, nofun, nofun⟩, rfl, rfl⟩

/-- **The mock and the real HAL agree** in all states of a run from their initialisation precisely
when every event of the run is harmless. -/
theorem agree_iff (env : UpEnv) (es : List Event) :
    Throughout Pair.step Agree (Pair.start env) es ↔
      Along Pair.step Harmless (Pair.start env) es :=
  throughout_iff_along_good (I := Sim) (C := fun _ _ => True)
    (fun _ e hi _ h hg => (hi.step h e).1 hg) (fun _ e hi _ h => (hi.step h e).2)
    (sim_start env).1 (sim_start env).2 (along_of_forall (C := fun _ => True) fun _ _ => trivial)

/-- Three ways to part. A failure is answered after a timeout: the mock starts counting anew, the
real HAL does not. Four requests hang: the third timeout calls the fourth request back in the real
HAL, and not in the mock. An installed service has a name of 32 characters: the real HAL does not
find it in the answer. -/
theorem mock_parts_from_real :
    ¬Throughout Pair.step Agree (Pair.start {})
      [.setResponse ['a'] statusOk true true mockDelayHang,
        .setResponse ['b'] statusNotFound false false 10,
        .query (some ['a']) 1 0 {}, .query (some ['b']) 1 0 {},
        .expire 0 3, .respond 1 .notFound] ∧
    ¬Throughout Pair.step Agree (Pair.start {})
      [.setDefaultResponse statusOk true true mockDelayHang,
        .query (some ['a']) 1 0 {}, .query (some ['b']) 1 0 {}, .query (some ['c']) 1 0 {},
        .query (some ['d']) 1 0 {}, .expire 0 3, .expire 1 3, .expire 2 3] ∧
    ¬Throughout Pair.step Agree (Pair.start {})
      [.setDefaultResponse statusOk true true 10,
        .query (some (List.replicate 32 'a')) 1 0 {}, .respond 0 .ok] := by
  decide +kernel

end NanoHat.UbusMock
