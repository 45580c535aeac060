import NanoHat.Adr0005.WorkQueues
import NanoHat.Foundations.Protocol
import NanoHat.Foundations.Runs

/-!
# The ubus HAL of the threaded implementation

`hal/ubus_hal_real.c`: one connection to ubus, opened when it is needed, with a back-off after
failures, and calls of `rc` that block. libubus and the clock are parameters (`Libubus`), and `calls`
records how libubus is called, in order.

Whatever they answer, libubus is called as it may be (`hal_keeps_protocol`), and what an invocation
reports is what `rc` has answered (`invoke_reports`).
-/

namespace NanoHat.Adr0005

open Protocol Runs

/-! ## libubus -/

/-- `UBUS_STATUS_*` of libubus, as far as `is_connection_error` tells them apart. -/
inductive UbusStatus
  | ok
  | connectionFailed
  | noData
  | timeout
  | other
  deriving DecidableEq

/-- An attribute of an answer to `rc list`: whether it is a table, and the boolean `running` of the
table. -/
structure RcAttr where
  table : Bool
  running : Option Bool := none
  deriving DecidableEq

/-- An answer; `none` if it comes without a message. -/
abbrev RcAnswer := Option (List RcAttr)

/-- The methods of `rc`. -/
inductive RcMethod
  | list
  | init
  deriving DecidableEq

/-- What `ubus_invoke` sends to `rc`. -/
structure RcRequest where
  method : RcMethod
  name : CStr
  action : Option CStr := none
  timeoutMs : ℕ
  deriving DecidableEq

/-- A request that was sent, and what came of it. -/
structure Attempt where
  request : RcRequest
  status : UbusStatus
  answers : List RcAnswer
  deriving DecidableEq

/-- A call of libubus and its answer. A connection is known by its address. -/
inductive LibCall
  | connect (ctx : Option ℕ)
  | free (ctx : ℕ)
  | lookup (ctx : ℕ) (status : UbusStatus) (id : UInt32)
  | invoke (ctx : ℕ) (id : UInt32) (attempt : Attempt)
  deriving DecidableEq

/-- What the clock and libubus answer, `ω` being the world behind them, and what the target makes
of a shift that is undefined. -/
structure Libubus (ω : Type*) where
  time : ω → ℤ × ω
  connect : ω → Option ℕ × ω
  lookup : ω → ℕ → (UbusStatus × UInt32) × ω
  invoke : ω → ℕ → UInt32 → RcRequest → (UbusStatus × List RcAnswer) × ω
  undefShift : ℤ

/-- libubus as its caller has to see it: without a connection, or with one and the id that was
looked up on it last. -/
inductive Link
  | closed
  | opened (ctx : ℕ) (id : Option UInt32)
  deriving DecidableEq

/-- The protocol of libubus: no connection while there is one, no call without one, none after it
was freed, and no request to an object that was not looked up on it. -/
def libubusRule : Link → LibCall → Option Link
  | .closed, .connect none => some .closed
  | .closed, .connect (some ctx) => some (.opened ctx none)
  | .opened ctx _, .free ctx' => if ctx' = ctx then some .closed else none
  | .opened ctx _, .lookup ctx' status id =>
    if ctx' = ctx then some (.opened ctx (if status = .ok then some id else none)) else none
  | .opened ctx (some id), .invoke ctx' id' _ =>
    if ctx' = ctx ∧ id' = id then some (.opened ctx (some id)) else none
  | _, _ => none

/-! ## The HAL -/

/-- `is_connection_error` -/
def isConnectionError : UbusStatus → Bool
  | .connectionFailed | .noData | .timeout => true
  | .ok | .other => false

/-- What `rc_list_cb` fills in. -/
structure ServiceFlags where
  installed : Bool := false
  running : Bool := false
  deriving DecidableEq

/-- `rc_list_cb`: the first table counts. -/
def rcListCb (flags : ServiceFlags) : RcAnswer → ServiceFlags
  | none => flags
  | some attrs =>
    match attrs.find? RcAttr.table with
    | none => flags
    | some a =>
      if a.running = some true then { installed := true, running := true }
      else { flags with installed := true }

/-- The static variables of `ubus_hal_real.c`, the world, and the calls of libubus.
`consecutive_successes` is not read. -/
structure UbusHal (ω : Type*) where
  world : ω
  ctx : Option ℕ := none
  rcId : UInt32 := 0
  consecutiveFailures : ℕ := 0
  lastAttemptTime : ℤ := 0
  calls : List LibCall := []

namespace UbusHal

variable {ω : Type*}

/-- `reset_connection` -/
def resetConnection (s : UbusHal ω) : UbusHal ω :=
  match s.ctx with
  | some ctx => { s with ctx := none, rcId := 0, calls := s.calls ++ [.free ctx] }
  | none => { s with rcId := 0 }

/-- `get_backoff_delay`; `1 << k` on a 32-bit `int` is undefined from 31 on. -/
def getBackoffDelay (undefShift : ℤ) (consecutiveFailures : ℕ) : ℤ :=
  if consecutiveFailures = 0 then 0
  else
    let delay := if consecutiveFailures - 1 ≤ 30 then 2 ^ (consecutiveFailures - 1) else undefShift
    if 60 < delay then 60 else delay

variable (lib : Libubus ω)

/-- The part of `ensure_context` that tells whether it is too early for another attempt. -/
def inBackoff (s : UbusHal ω) : Bool × UbusHal ω :=
  if 0 < s.consecutiveFailures then
    let (now, world) := lib.time s.world
    (now - s.lastAttemptTime < getBackoffDelay lib.undefShift s.consecutiveFailures,
      { s with world := world })
  else (false, s)

/-- The part of `ensure_context` that connects. -/
def connect (s : UbusHal ω) : Option ℕ × UbusHal ω :=
  let (now, world) := lib.time s.world
  let (ctx, world) := lib.connect world
  let s := { s with
    world := world, lastAttemptTime := now, ctx := ctx, calls := s.calls ++ [LibCall.connect ctx] }
  match ctx with
  | none => (none, { s with rcId := 0, consecutiveFailures := s.consecutiveFailures + 1 })
  | some ctx => (some ctx, { s with consecutiveFailures := 0 })

/-- `ensure_context`: `none` for -1, and for 0 the connection that `ctx` then is. -/
def ensureContext (s : UbusHal ω) : Option ℕ × UbusHal ω :=
  match s.ctx with
  | some ctx => (some ctx, s)
  | none =>
    match s.inBackoff lib with
    | (true, s) => (none, s)
    | (false, s) => s.connect lib

/-- `ensure_rc_id`: `none` for -1, and for 0 what `ctx` and `rc_id` then are. -/
def ensureRcId (s : UbusHal ω) : Option (ℕ × UInt32) × UbusHal ω :=
  match s.ensureContext lib with
  | (none, s) => (none, s)
  | (some ctx, s) =>
    if s.rcId ≠ 0 then (some (ctx, s.rcId), s)
    else
      let ((status, id), world) := lib.lookup s.world ctx
      let s := { s with world := world, rcId := id, calls := s.calls ++ [.lookup ctx status id] }
      if status = .ok then (some (ctx, id), s) else (none, s.resetConnection)

/-- The part of `query_service` and of `action_service` from `retry` on: one call of `rc`, if there
is a connection. -/
def attempt (request : RcRequest) (s : UbusHal ω) : Option Attempt × UbusHal ω :=
  match s.ensureRcId lib with
  | (none, s) => (none, s)
  | (some (ctx, id), s) =>
    let ((status, answers), world) := lib.invoke s.world ctx id request
    let a : Attempt := ⟨request, status, answers⟩
    (some a, { s with world := world, calls := s.calls ++ [.invoke ctx id a] })

/-- What both share: after a connection error there is another attempt over a new connection, as
often as there are retries. -/
def invokeRc (request : RcRequest) (onAnswer : ServiceFlags → RcAnswer → ServiceFlags)
    (retries : ℕ) (flags : ServiceFlags) (s : UbusHal ω) : ℤ × ServiceFlags × UbusHal ω :=
  match s.attempt lib request with
  | (none, s) => (-1, flags, s)
  | (some a, s) =>
    let flags := a.answers.foldl onAnswer flags
    match isConnectionError a.status, retries with
    | true, retries + 1 => invokeRc request onAnswer retries flags s.resetConnection
    | _, _ => (if a.status = .ok then 0 else -1, flags, s)

/-- `query_service` -/
def queryService (name : CStr) (s : UbusHal ω) : ℤ × ServiceFlags × UbusHal ω :=
  if name = [] then (-1, {}, s)
  else invokeRc lib { method := .list, name := name, timeoutMs := 2000 } rcListCb 1 {} s

/-- `action_service`; nobody listens to the answers. -/
def actionService (name action : CStr) (s : UbusHal ω) : ℤ × UbusHal ω :=
  if name = [] ∨ action = [] then (-1, s)
  else
    let (ret, _, s) := invokeRc lib
      { method := .init, name := name, action := some action, timeoutMs := 5000 }
      (fun flags _ => flags) 1 {} s
    (ret, s)

/-- `real_invoke`: what it fills in besides what it copies from the task. -/
def realInvoke (task : UbusTask) (s : UbusHal ω) : InvokeOutcome × UbusHal ω :=
  match task.action with
  | .query =>
    let (ret, flags, s) := queryService lib task.serviceName s
    ({ success := ret = 0, errorCode := ret, installed := flags.installed,
       running := flags.running }, s)
  | .start =>
    let (ret, s) := actionService lib task.serviceName ['s', 't', 'a', 'r', 't'] s
    ({ success := ret = 0, errorCode := ret, installed := false, running := false }, s)
  | .stop =>
    let (ret, s) := actionService lib task.serviceName ['s', 't', 'o', 'p'] s
    ({ success := ret = 0, errorCode := ret, installed := false, running := false }, s)

/-- `real_init` -/
def realInit (s : UbusHal ω) : UbusHal ω := (s.ensureContext lib).2

/-- `real_cleanup` -/
def realCleanup (s : UbusHal ω) : UbusHal ω :=
  match s.ctx with
  | some ctx => { s with ctx := none, rcId := 0, calls := s.calls ++ [.free ctx] }
  | none => s

/-- A call of the HAL. -/
inductive HalCall
  | init
  | cleanup
  | invoke (task : UbusTask)

def step (s : UbusHal ω) : HalCall → UbusHal ω
  | .init => s.realInit lib
  | .cleanup => s.realCleanup
  | .invoke task => (s.realInvoke lib task).2

/-! ## The protocol of libubus -/

/-- The state of libubus that the static variables stand for. -/
def Agrees (s : UbusHal ω) : Link → Prop
  | .closed => s.ctx = none ∧ s.rcId = 0
  | .opened ctx id => s.ctx = some ctx ∧ (s.rcId ≠ 0 → id = some s.rcId)

/-- libubus was called as it may be, and its state is the one that the static variables stand
for. -/
def Linked (s : UbusHal ω) : Prop :=
  ∃ link, Accepts libubusRule .closed s.calls link ∧ s.Agrees link

variable {s : UbusHal ω}

theorem Linked.closed (h : s.Linked) (hctx : s.ctx = none) :
    Accepts libubusRule .closed s.calls .closed ∧ s.rcId = 0 := by
  obtain ⟨link, haccepts, hagrees⟩ := h
  cases link with
  | closed => exact ⟨haccepts, hagrees.2⟩
  | opened ctx id => rw [hagrees.1] at hctx; cases hctx

theorem Linked.opened (h : s.Linked) {ctx : ℕ} (hctx : s.ctx = some ctx) :
    ∃ id, Accepts libubusRule .closed s.calls (.opened ctx id) ∧ (s.rcId ≠ 0 → id = some s.rcId) := by
  obtain ⟨link, haccepts, hagrees⟩ := h
  cases link with
  | closed => rw [hagrees.1] at hctx; cases hctx
  | opened ctx' id =>
    obtain rfl := Option.some.inj (hctx.symm.trans hagrees.1)
    exact ⟨id, haccepts, hagrees.2⟩

/-- The connection is freed. -/
theorem Linked.free (h : s.Linked) {ctx : ℕ} (hctx : s.ctx = some ctx) :
    Linked { s with ctx := none, rcId := 0, calls := s.calls ++ [.free ctx] } := by
  obtain ⟨id, haccepts, -⟩ := h.opened hctx
  exact ⟨.closed, haccepts.snoc (by simp [libubusRule]), rfl, rfl⟩

theorem Linked.resetConnection (h : s.Linked) : s.resetConnection.Linked := by
  unfold UbusHal.resetConnection
  split
  · rename_i ctx hctx
    exact h.free hctx
  · rename_i hctx
    exact ⟨.closed, (h.closed hctx).1, hctx, rfl⟩

theorem Linked.realCleanup (h : s.Linked) : s.realCleanup.Linked := by
  unfold UbusHal.realCleanup
  split
  · rename_i ctx hctx
    exact h.free hctx
  · exact h

theorem Linked.connect (h : s.Linked) (hctx : s.ctx = none) :
    (s.connect lib).2.Linked ∧
      ∀ ctx, (s.connect lib).1 = some ctx → (s.connect lib).2.ctx = some ctx := by
  obtain ⟨hclosed, hid⟩ := h.closed hctx
  unfold UbusHal.connect
  generalize lib.time s.world = clock, lib.connect = connect
  obtain ⟨now, world⟩ := clock
  dsimp only
  generalize connect world = answer
  obtain ⟨ctx, world⟩ := answer
  cases ctx with
  | none => exact ⟨⟨.closed, hclosed.snoc rfl, rfl, rfl⟩, nofun⟩
  | some ctx =>
    exact ⟨⟨.opened ctx none, hclosed.snoc rfl, rfl, fun hne => absurd hid hne⟩, fun _ heq => heq⟩

/-- `ensure_context` keeps to the protocol, and ends with the connection it returns. -/
theorem Linked.ensureContext (h : s.Linked) :
    (s.ensureContext lib).2.Linked ∧
      ∀ ctx, (s.ensureContext lib).1 = some ctx → (s.ensureContext lib).2.ctx = some ctx := by
  unfold UbusHal.ensureContext
  cases hctx : s.ctx with
  | some ctx => exact ⟨h, fun ctx' heq => hctx.trans heq⟩
  | none =>
    have hback : (s.inBackoff lib).2.Linked ∧ (s.inBackoff lib).2.ctx = none := by
      unfold inBackoff
      split <;> exact ⟨h, hctx⟩
    dsimp only
    generalize s.inBackoff lib = p at hback
    obtain ⟨early, s'⟩ := p
    cases early with
    | true => exact ⟨hback.1, nofun⟩
    | false => exact hback.1.connect lib hback.2

/-- `ensure_rc_id` keeps to the protocol, and ends with the id it returns looked up. -/
theorem Linked.ensureRcId (h : s.Linked) :
    (s.ensureRcId lib).2.Linked ∧
      ∀ ctx id, (s.ensureRcId lib).1 = some (ctx, id) → (s.ensureRcId lib).2.ctx = some ctx ∧
        (s.ensureRcId lib).2.rcId = id ∧
        Accepts libubusRule .closed (s.ensureRcId lib).2.calls (.opened ctx (some id)) := by
  obtain ⟨hlinked, hctx⟩ := h.ensureContext lib
  unfold UbusHal.ensureRcId
  generalize s.ensureContext lib = p, lib.lookup = lookup at hlinked hctx
  obtain ⟨ctx, s'⟩ := p
  cases ctx with
  | none => exact ⟨hlinked, nofun⟩
  | some ctx =>
    have hctx := hctx ctx rfl
    obtain ⟨old, haccepts, hid⟩ := hlinked.opened hctx
    dsimp only at hlinked hctx haccepts hid ⊢
    split
    · rename_i hne
      refine ⟨hlinked, fun ctx' id heq => ?_⟩
      obtain ⟨rfl, rfl⟩ := Prod.mk.inj (Option.some.inj heq)
      exact ⟨hctx, rfl, hid hne ▸ haccepts⟩
    · generalize lookup s'.world ctx = answer
      obtain ⟨⟨status, id⟩, world⟩ := answer
      split
      · rename_i hok
        have hok : status = .ok := hok
        have hlooked : Accepts libubusRule .closed (s'.calls ++ [.lookup ctx status id])
            (.opened ctx (some id)) := haccepts.snoc (by simp [libubusRule, hok])
        refine ⟨⟨.opened ctx (some id), hlooked, hctx, fun _ => rfl⟩, fun ctx' id' heq => ?_⟩
        obtain ⟨rfl, rfl⟩ := Prod.mk.inj (Option.some.inj heq)
        exact ⟨hctx, rfl, hlooked⟩
      · rename_i hfailed
        have hfailed : status ≠ .ok := hfailed
        refine ⟨?_, nofun⟩
        unfold UbusHal.resetConnection
        rw [hctx]
        refine ⟨.closed, ?_, rfl, rfl⟩
        refine Accepts.snoc (m := .opened ctx none) (haccepts.snoc ?_) ?_
        · simp [libubusRule, hfailed]
        · simp [libubusRule]

theorem Linked.attempt (request : RcRequest) (h : s.Linked) :
    (s.attempt lib request).2.Linked := by
  obtain ⟨hlinked, hready⟩ := h.ensureRcId lib
  unfold UbusHal.attempt
  generalize s.ensureRcId lib = p at hlinked hready
  obtain ⟨ready, s'⟩ := p
  cases ready with
  | none => exact hlinked
  | some ready =>
    obtain ⟨ctx, id⟩ := ready
    obtain ⟨hctx, hid, haccepts⟩ := hready ctx id rfl
    exact ⟨.opened ctx (some id), haccepts.snoc (by simp [libubusRule]), hctx, fun _ => hid ▸ rfl⟩

theorem Linked.invokeRc (request : RcRequest) (onAnswer : ServiceFlags → RcAnswer → ServiceFlags)
    (retries : ℕ) (flags : ServiceFlags) (h : s.Linked) :
    (s.invokeRc lib request onAnswer retries flags).2.2.Linked := by
  induction retries generalizing s flags with
  | zero =>
    have hattempt := h.attempt lib request
    unfold UbusHal.invokeRc
    generalize s.attempt lib request = p at hattempt
    obtain ⟨_ | a, s'⟩ := p
    · exact hattempt
    · dsimp only
      cases isConnectionError a.status <;> exact hattempt
  | succ retries ih =>
    have hattempt := h.attempt lib request
    unfold UbusHal.invokeRc
    generalize s.attempt lib request = p at hattempt
    obtain ⟨_ | a, s'⟩ := p
    · exact hattempt
    · dsimp only
      cases isConnectionError a.status with
      | true => exact ih _ hattempt.resetConnection
      | false => exact hattempt

theorem Linked.queryService (name : CStr) (h : s.Linked) :
    (s.queryService lib name).2.2.Linked := by
  unfold UbusHal.queryService
  split
  · exact h
  · exact h.invokeRc lib _ _ _ _

theorem Linked.actionService (name action : CStr) (h : s.Linked) :
    (s.actionService lib name action).2.Linked := by
  unfold UbusHal.actionService
  split
  · exact h
  · exact h.invokeRc lib _ _ _ _

theorem Linked.realInvoke (task : UbusTask) (h : s.Linked) : (s.realInvoke lib task).2.Linked := by
  unfold UbusHal.realInvoke
  cases task.action with
  | query => exact h.queryService lib _
  | start => exact h.actionService lib _ _
  | stop => exact h.actionService lib _ _

theorem Linked.step (h : s.Linked) (c : HalCall) : (s.step lib c).Linked := by
  cases c with
  | init => exact (h.ensureContext lib).1
  | cleanup => exact h.realCleanup
  | invoke task => exact h.realInvoke lib task

/-- A connection was opened. -/
def isOpen : LibCall → Bool
  | .connect (some _) => true
  | _ => false

/-- A connection was freed. -/
def isFree : LibCall → Bool
  | .free _ => true
  | _ => false

/-- The connections of libubus, of which there is at most one. -/
def openCount : Link → ℕ
  | .closed => 0
  | .opened _ _ => 1

theorem openCount_rule (link : Link) (c : LibCall) (link' : Link)
    (h : libubusRule link c = some link') :
    openCount link' + (if isFree c then 1 else 0) = openCount link + if isOpen c then 1 else 0 := by
  cases link with
  | closed =>
    cases c with
    | connect ctx => cases ctx <;> cases h <;> rfl
    | free ctx => cases h
    | lookup ctx status id => cases h
    | invoke ctx id attempt => cases h
  | opened ctx id =>
    cases c with
    | connect ctx' => cases ctx' <;> cases h
    | free ctx' =>
      simp only [libubusRule] at h
      split at h <;> cases h
      rfl
    | lookup ctx' status id' =>
      simp only [libubusRule] at h
      split at h <;> cases h
      rfl
    | invoke ctx' id' attempt =>
      cases id with
      | none => cases h
      | some id =>
        simp only [libubusRule] at h
        split at h <;> cases h
        rfl

/-- **libubus is called as it may be**, whatever it and the clock answer and in whatever order the
HAL is called: there is never more than one connection, it is freed once and not used after that, and
`rc` is only called with the id that was looked up on the connection last. Every connection but the
one that `ctx` is has been freed. -/
theorem hal_keeps_protocol (world : ω) (cs : List HalCall) :
    ∃ link, Accepts libubusRule .closed (run (step lib) { world := world } cs).calls link ∧
      (run (step lib) { world := world } cs).Agrees link ∧
      (run (step lib) { world := world } cs).calls.countP isOpen =
        (run (step lib) { world := world } cs).calls.countP isFree +
          if (run (step lib) { world := world } cs).ctx = none then 0 else 1 := by
  have hstart : Linked { world := world } := ⟨.closed, accepts_nil _, rfl, rfl⟩
  obtain ⟨link, haccepts, hagrees⟩ :=
    run_invariant (P := Linked) (fun _ c h => h.step lib c) hstart cs
  refine ⟨link, haccepts, hagrees, ?_⟩
  have hcount := haccepts.countP openCount_rule
  have hclosed : openCount .closed = 0 := rfl
  have hctx : openCount link = if (run (step lib) { world := world } cs).ctx = none then 0 else 1 := by
    cases link with
    | closed => rw [hagrees.1]; rfl
    | opened ctx id => rw [hagrees.1]; rfl
  omega

/-! ## What an invocation reports -/

/-- The request in a call of libubus. -/
def attemptOf : LibCall → Option Attempt
  | .invoke _ _ attempt => some attempt
  | _ => none

/-- The requests that were sent to `rc`. -/
def sent (s : UbusHal ω) : List Attempt := s.calls.filterMap attemptOf

theorem sent_resetConnection (s : UbusHal ω) : s.resetConnection.sent = s.sent := by
  unfold sent resetConnection
  split
  · simp [attemptOf]
  · rfl

theorem sent_connect (s : UbusHal ω) : (s.connect lib).2.sent = s.sent := by
  unfold connect
  generalize lib.time s.world = clock, lib.connect = connect
  obtain ⟨now, world⟩ := clock
  dsimp only
  generalize connect world = answer
  obtain ⟨ctx, world⟩ := answer
  cases ctx <;> simp [sent, attemptOf]

theorem sent_ensureContext (s : UbusHal ω) : (s.ensureContext lib).2.sent = s.sent := by
  unfold ensureContext
  split
  · rfl
  · have hback : (s.inBackoff lib).2.sent = s.sent := by
      unfold inBackoff
      split <;> rfl
    generalize s.inBackoff lib = p at hback
    obtain ⟨early, s'⟩ := p
    cases early with
    | true => exact hback
    | false => exact (s'.sent_connect lib).trans hback

theorem sent_ensureRcId (s : UbusHal ω) : (s.ensureRcId lib).2.sent = s.sent := by
  have hsent := s.sent_ensureContext lib
  unfold ensureRcId
  generalize s.ensureContext lib = p at hsent
  obtain ⟨_ | ctx, s'⟩ := p
  · exact hsent
  · refine Eq.trans ?_ hsent
    dsimp only
    split
    · rfl
    · split
      · simp [sent, attemptOf]
      · refine (sent_resetConnection _).trans ?_
        simp [sent, attemptOf]

/-- What one attempt sends. -/
theorem sent_attempt (request : RcRequest) (s : UbusHal ω) :
    (s.attempt lib request).2.sent = s.sent ++ (s.attempt lib request).1.toList ∧
      ∀ a ∈ (s.attempt lib request).1, a.request = request := by
  have hsent := s.sent_ensureRcId lib
  unfold attempt
  generalize s.ensureRcId lib = p at hsent
  obtain ⟨_ | ready, s'⟩ := p
  · exact ⟨hsent.trans (List.append_nil _).symm, nofun⟩
  · have hsent : s'.sent = s.sent := hsent
    refine ⟨?_, fun a ha => ?_⟩
    · rw [← hsent]
      simp [sent, attemptOf]
    · obtain rfl := Option.some.inj ha
      rfl

/-- What the attempts `as` of an invocation with `retries` retries are, and what it returns. -/
structure Reports (request : RcRequest) (retries : ℕ) (as : List Attempt) (ret : ℤ) : Prop where
  length_le : as.length ≤ retries + 1
  request : ∀ a ∈ as, a.request = request
  /-- There is another attempt only after a connection error. -/
  retried : ∀ a ∈ as.dropLast, isConnectionError a.status = true
  ret : ret = if as.getLast?.map Attempt.status = some .ok then 0 else -1

theorem invokeRc_reports (request : RcRequest) (onAnswer : ServiceFlags → RcAnswer → ServiceFlags)
    (retries : ℕ) (flags : ServiceFlags) (s : UbusHal ω) :
    ∃ as, (s.invokeRc lib request onAnswer retries flags).2.2.sent = s.sent ++ as ∧
      Reports request retries as (s.invokeRc lib request onAnswer retries flags).1 ∧
      (s.invokeRc lib request onAnswer retries flags).2.1 =
        (as.flatMap Attempt.answers).foldl onAnswer flags := by
  induction retries generalizing s flags with
  | zero =>
    obtain ⟨hsent, hrequest⟩ := s.sent_attempt lib request
    unfold invokeRc
    generalize s.attempt lib request = p at hsent hrequest
    obtain ⟨_ | a, s'⟩ := p
    · exact ⟨[], hsent, ⟨by simp, nofun, nofun, rfl⟩, rfl⟩
    · refine ⟨[a], ?_, ⟨by simp, by simpa using hrequest, nofun, ?_⟩, ?_⟩
      · dsimp only
        cases isConnectionError a.status <;> exact hsent
      · dsimp only
        cases isConnectionError a.status <;> simp
      · dsimp only
        cases isConnectionError a.status <;> simp
  | succ retries ih =>
    obtain ⟨hsent, hrequest⟩ := s.sent_attempt lib request
    unfold invokeRc
    generalize s.attempt lib request = p at hsent hrequest
    obtain ⟨_ | a, s'⟩ := p
    · exact ⟨[], hsent, ⟨by simp, nofun, nofun, rfl⟩, rfl⟩
    have hsent : s'.sent = s.sent ++ [a] := hsent
    cases herror : isConnectionError a.status with
    | false =>
      dsimp only
      rw [herror]
      exact ⟨[a], hsent, ⟨by simp, by simpa using hrequest, nofun, by simp⟩, by simp⟩
    | true =>
      dsimp only
      rw [herror]
      obtain ⟨as, hsent', hreports, hflags⟩ := ih (a.answers.foldl onAnswer flags) s'.resetConnection
      refine ⟨a :: as, ?_, ⟨?_, ?_, ?_, ?_⟩, ?_⟩
      · rw [hsent', sent_resetConnection, hsent, List.append_assoc, List.singleton_append]
      · exact Nat.succ_le_succ hreports.length_le
      · rintro b (_ | ⟨_, hb⟩)
        · exact hrequest a rfl
        · exact hreports.request b hb
      · intro b hb
        cases as with
        | nil => cases hb
        | cons c as =>
          rcases List.mem_cons.1 hb with rfl | hb
          · exact herror
          · exact hreports.retried b hb
      · rw [hreports.ret]
        cases as with
        | nil =>
          have hne : a.status ≠ .ok := by
            intro hok
            rw [hok] at herror
            cases herror
          simp [hne]
        | cons c as => rw [List.getLast?_cons_cons]
      · rw [hflags, List.flatMap_cons, List.foldl_append]

/-- The answer has a table. -/
def listed (answer : RcAnswer) : Bool := (answer.bind (List.find? RcAttr.table)).isSome

/-- The first table of the answer says that the service runs. -/
def saysRunning (answer : RcAnswer) : Bool :=
  ((answer.bind (List.find? RcAttr.table)).bind RcAttr.running) = some true

theorem foldl_rcListCb (answers : List RcAnswer) (flags : ServiceFlags) :
    answers.foldl rcListCb flags =
      ⟨flags.installed || answers.any listed, flags.running || answers.any saysRunning⟩ := by
  induction answers generalizing flags with
  | nil => simp
  | cons answer answers ih =>
    rw [List.foldl_cons, ih, List.any_cons, List.any_cons, ← Bool.or_assoc, ← Bool.or_assoc]
    cases answer with
    | none => simp [rcListCb, listed, saysRunning]
    | some attrs =>
      cases hfind : attrs.find? RcAttr.table with
      | none => simp [rcListCb, listed, saysRunning, hfind]
      | some a =>
        by_cases hrunning : a.running = some true
        · simp [rcListCb, listed, saysRunning, hfind, hrunning]
        · simp [rcListCb, listed, saysRunning, hfind, hrunning]

/-- Nothing is sent for an empty name. -/
theorem reports_nil (request : RcRequest) : Reports request 1 [] (-1) :=
  ⟨Nat.zero_le _, nofun, nofun, rfl⟩

theorem queryService_reports (name : CStr) (s : UbusHal ω) :
    ∃ as, (s.queryService lib name).2.2.sent = s.sent ++ as ∧
      Reports { method := .list, name := name, timeoutMs := 2000 } 1 as
        (s.queryService lib name).1 ∧
      (s.queryService lib name).2.1 =
        ⟨(as.flatMap Attempt.answers).any listed, (as.flatMap Attempt.answers).any saysRunning⟩ := by
  unfold queryService
  split
  · exact ⟨[], (List.append_nil _).symm, reports_nil _, rfl⟩
  · obtain ⟨as, hsent, hreports, hflags⟩ := invokeRc_reports lib
      { method := .list, name := name, timeoutMs := 2000 } rcListCb 1 {} s
    refine ⟨as, hsent, hreports, ?_⟩
    rw [hflags, foldl_rcListCb, Bool.false_or, Bool.false_or]

theorem actionService_reports (name action : CStr) (s : UbusHal ω) :
    ∃ as, (s.actionService lib name action).2.sent = s.sent ++ as ∧
      Reports { method := .init, name := name, action := some action, timeoutMs := 5000 } 1 as
        (s.actionService lib name action).1 := by
  unfold actionService
  split
  · exact ⟨[], (List.append_nil _).symm, reports_nil _⟩
  · obtain ⟨as, hsent, hreports, -⟩ := invokeRc_reports lib
      { method := .init, name := name, action := some action, timeoutMs := 5000 }
      (fun flags _ => flags) 1 {} s
    exact ⟨as, hsent, hreports⟩

end UbusHal

/-- What `rc` is asked for a task. -/
def UbusTask.rcRequest (task : UbusTask) : RcRequest :=
  match task.action with
  | .query => { method := .list, name := task.serviceName, timeoutMs := 2000 }
  | .start =>
    { method := .init, name := task.serviceName, action := some ['s', 't', 'a', 'r', 't'],
      timeoutMs := 5000 }
  | .stop =>
    { method := .init, name := task.serviceName, action := some ['s', 't', 'o', 'p'],
      timeoutMs := 5000 }

namespace UbusHal

variable {ω : Type*} (lib : Libubus ω)

/-- **An invocation reports what `rc` has answered.** It asks `rc` at most twice, always the same, and
the second time only after a connection error; it is successful if the last attempt was, and of a
query it tells what the answers say, those to the first attempt included. -/
theorem invoke_reports (task : UbusTask) (s : UbusHal ω) :
    ∃ as, (s.realInvoke lib task).2.sent = s.sent ++ as ∧
      Reports task.rcRequest 1 as (s.realInvoke lib task).1.errorCode ∧
      ((s.realInvoke lib task).1.success = true ↔ (s.realInvoke lib task).1.errorCode = 0) ∧
      (s.realInvoke lib task).1.installed =
        (task.action = .query && (as.flatMap Attempt.answers).any listed) ∧
      (s.realInvoke lib task).1.running =
        (task.action = .query && (as.flatMap Attempt.answers).any saysRunning) := by
  unfold realInvoke UbusTask.rcRequest
  cases task.action with
  | query =>
    obtain ⟨as, hsent, hreports, hflags⟩ := queryService_reports lib task.serviceName s
    exact ⟨as, hsent, hreports, by simp, by simp [hflags], by simp [hflags]⟩
  | start =>
    obtain ⟨as, hsent, hreports⟩ :=
      actionService_reports lib task.serviceName ['s', 't', 'a', 'r', 't'] s
    exact ⟨as, hsent, hreports, by simp, by simp, by simp⟩
  | stop =>
    obtain ⟨as, hsent, hreports⟩ := actionService_reports lib task.serviceName ['s', 't', 'o', 'p'] s
    exact ⟨as, hsent, hreports, by simp, by simp, by simp⟩

/-- The requests that were answered without an error. -/
def granted (s : UbusHal ω) : List RcRequest :=
  (s.sent.filter fun a => a.status = .ok).map Attempt.request

/-- All attempts but the last ended with a connection error, so at most the last one was granted. -/
theorem Reports.granted {request : RcRequest} {retries : ℕ} {as : List Attempt} {ret : ℤ}
    (h : Reports request retries as ret) :
    (as.filter fun a => a.status = .ok).map Attempt.request = if ret = 0 then [request] else [] := by
  rw [h.ret]
  rcases List.eq_nil_or_concat as with rfl | ⟨bs, b, rfl⟩
  · rfl
  · have hbs : (bs.filter fun a => a.status = .ok) = [] := by
      rw [List.filter_eq_nil_iff]
      intro a ha hok
      have herror := h.retried a (by simpa using ha)
      rw [of_decide_eq_true hok] at herror
      cases herror
    have hb := h.request b (by simp)
    by_cases hok : b.status = .ok
    · simp [hbs, hok, hb]
    · simp [hbs, hok]

/-- An invocation has its request granted once if it is successful, and never if it is not. -/
theorem granted_realInvoke (task : UbusTask) (s : UbusHal ω) :
    (s.realInvoke lib task).2.granted = s.granted ++
      if (s.realInvoke lib task).1.success = true then [task.rcRequest] else [] := by
  obtain ⟨as, hsent, hreports, hsuccess, -, -⟩ := s.invoke_reports lib task
  unfold granted
  rw [hsent, List.filter_append, List.map_append, hreports.granted]
  exact congrArg _ (if_congr hsuccess.symm rfl rfl)

end UbusHal

end NanoHat.Adr0005
