import Mathlib.Tactic.Linarith
import NanoHat.Hal.UbusRealCalls

/-!
# The reconnection back-off of the real ubus HAL

`ensure_context` connects again only when `get_backoff_delay` seconds have passed since
`g_last_attempt_time`. The entries of the trace about the connection (`isLink`) are the calls of
`ubus_connect` and of `reset_connection`; as long as the connection is down the newest of them
fixes the two counters that the back-off reads (`Tracks`), so that every `ubus_connect` has waited
what the newest entry before it asks for (`waited_after`). What that wait amounts to depends on
the failure counter after a failed `ubus_connect` (`backoffOk_iff`), and on the age of the
connection as well after a `reset_connection` (`paced_reset`).
-/

namespace NanoHat.UbusReal

open UbusHal Runs

/-! ## The delay -/

/-- The delay that is meant: doubling from `BACKOFF_BASE_SEC`, up to `BACKOFF_MAX_SEC`. -/
def backoffDelay (n : ℕ) : ℤ := if n = 0 then 0 else min backoffMaxSec (2 ^ (n - 1))

/-- `get_backoff_delay` computes the delay for up to 31 failures. -/
theorem getBackoffDelay_eq (undefShift : ℤ) {n : ℕ} (hn : n ≤ 31) :
    Hal.getBackoffDelay undefShift n = backoffDelay n := by
  have hshift : Hal.shiftBase undefShift (n - 1) = 2 ^ (n - 1) := if_pos (by omega)
  simp only [Hal.getBackoffDelay, backoffDelay, hshift, min_def]
  split
  · rfl
  · split <;> split <;> omega

/-- From 32 failures on it computes what the target makes of the shift. -/
theorem getBackoffDelay_undef {undefShift : ℤ} (hu : undefShift ≤ 0) {n : ℕ} (hn : 31 < n) :
    Hal.getBackoffDelay undefShift n = undefShift := by
  have hshift : Hal.shiftBase undefShift (n - 1) = undefShift := if_neg (by omega)
  have hmax : ¬undefShift > backoffMaxSec := by simp only [backoffMaxSec]; omega
  simp only [Hal.getBackoffDelay, hshift]
  rw [if_neg (by omega), if_neg hmax]

theorem backoffDelay_pos {n : ℕ} (hn : 1 ≤ n) : 1 ≤ backoffDelay n := by
  have hpow : (1 : ℤ) ≤ 2 ^ (n - 1) := one_le_pow₀ (by decide)
  simp only [backoffDelay, backoffMaxSec, if_neg (Nat.one_le_iff_ne_zero.1 hn)]
  exact le_min (by decide) hpow

/-! ## The connection in the trace -/

/-- The entries about the connection. -/
def isLink : Obs → Bool
  | .connect .. => true
  | .reset .. => true
  | _ => false

/-- The newest entry about the connection. -/
def lastLink (trace : List Obs) : Option Obs := trace.find? isLink

/-- What an entry that left the connection down says about the counters. -/
def Tracks : Obs → Hal → Prop
  | .connect time false n, s =>
    s.ctx = false ∧ s.consecutiveFailures = n ∧ s.lastAttemptTime = time ∧ 0 < n
  | .reset _ n a, s => s.ctx = false ∧ s.consecutiveFailures = n ∧ s.lastAttemptTime = a
  | _, _ => True

/-- The wait that an entry imposes on a later `ubus_connect` at `time`. -/
def WaitedSince : Obs → ℤ → Prop
  | .connect t false n, time => ∃ undefShift, t + Hal.getBackoffDelay undefShift n ≤ time
  | .reset _ n a, time => 0 < n → ∃ undefShift, a + Hal.getBackoffDelay undefShift n ≤ time
  | _, _ => True

/-- A `ubus_connect` has waited what the newest entry before it asks for. -/
def Waited : Obs → List Obs → Prop
  | .connect time _ _, past => ∀ o ∈ lastLink past, WaitedSince o time
  | _, _ => True

/-- The invariant: the newest entry tracks the counters, and every `ubus_connect` has waited. -/
structure LinkInv (s : Hal) : Prop where
  tracks : ∀ o ∈ lastLink s.trace, Tracks o s
  waited : Always Waited s.trace

/-- Nothing about the connection is added to the trace. -/
def Hushed (s s' : Hal) : Prop :=
  ∃ os : List Obs, s'.trace = os ++ s.trace ∧ ∀ o ∈ os, isLink o = false

theorem Hushed.refl (s : Hal) : Hushed s s := ⟨[], rfl, by simp⟩

theorem Hushed.trans {s₁ s₂ s₃ : Hal} (h : Hushed s₁ s₂) (h' : Hushed s₂ s₃) : Hushed s₁ s₃ := by
  obtain ⟨os, ht, ho⟩ := h
  obtain ⟨os', ht', ho'⟩ := h'
  refine ⟨os' ++ os, by rw [ht', ht, List.append_assoc], fun o hm => ?_⟩
  exact (List.mem_append.1 hm).elim (ho' o) (ho o)

theorem Hushed.foldl {α : Type*} {f : Hal → α → Hal} (hf : ∀ s a, Hushed s (f s a)) (l : List α)
    (s : Hal) : Hushed s (l.foldl f s) := by
  induction l generalizing s with
  | nil => exact .refl s
  | cons a l ih => exact (hf s a).trans (ih _)

theorem Hushed.lastLink {s s' : Hal} (h : Hushed s s') :
    UbusReal.lastLink s'.trace = UbusReal.lastLink s.trace := by
  obtain ⟨os, ht, ho⟩ := h
  rw [UbusReal.lastLink, ht, List.find?_append, List.find?_eq_none.2 fun o hm => by simp [ho o hm]]
  rfl

theorem waited_of_not_link {o : Obs} (ho : isLink o = false) (past : List Obs) : Waited o past := by
  cases o with
  | connect => cases ho
  | _ => trivial

theorem Hushed.waited {s s' : Hal} (h : Hushed s s') (hw : Always Waited s.trace) :
    Always Waited s'.trace := by
  obtain ⟨os, ht, ho⟩ := h
  rw [ht]
  clear ht
  induction os with
  | nil => exact hw
  | cons o os ih =>
    exact ⟨waited_of_not_link (ho o List.mem_cons_self) _,
      ih fun o' hm => ho o' (List.mem_cons_of_mem _ hm)⟩

/-- A piece of code that is quiet about the connection and, while it is down, leaves the counters
alone. -/
theorem LinkInv.hush {s s' : Hal} (h : LinkInv s) (hq : Hushed s s')
    (hdown : s.ctx = false → s'.ctx = false ∧ s'.consecutiveFailures = s.consecutiveFailures ∧
      s'.lastAttemptTime = s.lastAttemptTime) : LinkInv s' where
  tracks o ho := by
    rw [hq.lastLink] at ho
    have hs := h.tracks o ho
    cases o with
    | connect time ok n =>
      cases ok with
      | true => trivial
      | false =>
        obtain ⟨hctx, hn, ht, hpos⟩ := hs
        obtain ⟨hc, hf, hl⟩ := hdown hctx
        exact ⟨hc, hf.trans hn, hl.trans ht, hpos⟩
    | reset r n a =>
      obtain ⟨hctx, hn, ha⟩ := hs
      obtain ⟨hc, hf, hl⟩ := hdown hctx
      exact ⟨hc, hf.trans hn, hl.trans ha⟩
    | _ => trivial
  waited := hq.waited h.waited

/-! ## The pieces of the code -/

theorem hushed_log (s : Hal) {os : List Obs} (ho : ∀ o ∈ os, isLink o = false) :
    Hushed s (s.log os) := ⟨os, rfl, ho⟩

theorem hushed_setSlot (s : Hal) (i : Slot) (p : PendingRequest) : Hushed s (s.setSlot i p) :=
  ⟨[], rfl, by simp⟩

theorem isLink_userCallback {p : PendingRequest} {installed running success : Bool} {status : ℤ} :
    ∀ o ∈ Hal.userCallback p installed running status success, isLink o = false := by
  intro o ho
  simp only [Hal.userCallback] at ho
  split at ho
  · rw [List.mem_singleton.1 ho]; rfl
  · split at ho
    · rw [List.mem_singleton.1 ho]; rfl
    · simp at ho

theorem hushed_abortAllPending (s : Hal) (status : ℤ) : Hushed s (s.abortAllPending status) := by
  refine Hushed.foldl (fun s i => ?_) _ s
  simp only [Hal.abortSlot]
  split
  · exact (hushed_log s isLink_userCallback).trans (hushed_setSlot _ _ _)
  · exact .refl s

/-- `abort_all_pending` leaves the counters alone. -/
theorem counters_abortAllPending (s : Hal) (status : ℤ) :
    (s.abortAllPending status).consecutiveFailures = s.consecutiveFailures ∧
      (s.abortAllPending status).lastAttemptTime = s.lastAttemptTime := by
  have hstep : ∀ (s : Hal) (i : Slot),
      (s.abortSlot status i).consecutiveFailures = s.consecutiveFailures ∧
        (s.abortSlot status i).lastAttemptTime = s.lastAttemptTime := fun s i => by
    simp only [Hal.abortSlot]
    split <;> exact ⟨rfl, rfl⟩
  simp only [Hal.abortAllPending]
  induction List.finRange maxPendingRequests generalizing s with
  | nil => exact ⟨rfl, rfl⟩
  | cons i l ih =>
    obtain ⟨hf, hl⟩ := ih (s.abortSlot status i)
    exact ⟨hf.trans (hstep s i).1, hl.trans (hstep s i).2⟩

theorem LinkInv.resetConnection {s : Hal} (h : LinkInv s) (time : ℤ) :
    LinkInv (s.resetConnection time) := by
  set s₀ := s.log [.reset time s.consecutiveFailures s.lastAttemptTime] with hs₀
  have hq : Hushed s₀ (s.resetConnection time) := hushed_abortAllPending s₀ statusConnFailed
  obtain ⟨hf, hl⟩ := counters_abortAllPending s₀ statusConnFailed
  refine ⟨fun o ho => ?_, hq.waited ⟨trivial, h.waited⟩⟩
  rw [hq.lastLink] at ho
  obtain rfl : Obs.reset time s.consecutiveFailures s.lastAttemptTime = o := Option.some.inj ho
  exact ⟨rfl, hf, hl⟩

theorem hushed_completeStatus (s : Hal) (ret : UbusStatus) : Hushed s (s.completeStatus ret).2 := by
  cases ret <;> exact ⟨[], rfl, by simp⟩

theorem hushed_queryCompleteCb (s : Hal) (i : Slot) (ret : UbusStatus) :
    Hushed s (s.queryCompleteCb i ret) := by
  simp only [Hal.queryCompleteCb]
  split
  · exact .refl s
  · exact ((hushed_setSlot s _ _).trans (hushed_completeStatus _ ret)).trans
      ((hushed_log _ isLink_userCallback).trans (hushed_setSlot _ _ _))

theorem hushed_dispatchComplete (s : Hal) (i : Slot) (ret : UbusStatus) :
    Hushed s (s.dispatchComplete i ret) := by
  simp only [Hal.dispatchComplete]
  split
  · exact (hushed_setSlot s _ _).trans (hushed_queryCompleteCb _ i ret)
  · exact .refl s

theorem hushed_dispatchData (s : Hal) (i : Slot) (msg : Option (List BlobAttr)) :
    Hushed s (s.dispatchData i msg) := by
  simp only [Hal.dispatchData]
  split
  · cases msg with
    | none => exact .refl s
    | some attrs =>
      simp only [Hal.queryDataCb]
      split
      · exact .refl s
      · exact hushed_setSlot s _ _
  · exact .refl s

theorem hushed_lookupStep (s : Hal) (e : LookupEvent) : Hushed s (s.lookupStep e) := by
  cases e with
  | data i msg => exact hushed_dispatchData s i msg
  | complete i ret => exact hushed_dispatchComplete s i ret
  | rcId id => exact ⟨[], rfl, by simp⟩

/-! ## One event -/

/-- The two clock readings of `ensure_context` are in order. -/
def ConnEnv.Timely (env : ConnEnv) : Prop := env.checkTime ≤ env.attemptTime

/-- The clock does not go back within the event. -/
def Event.Timely : Event → Prop
  | .init env | .query _ _ _ env | .control _ _ _ _ env => env.Timely
  | _ => True

/-- `ensure_context` connects only after the wait. -/
theorem LinkInv.ensureContext {s : Hal} (h : LinkInv s) {env : ConnEnv} (ht : env.Timely) :
    LinkInv (s.ensureContext env).2 := by
  simp only [Hal.ensureContext]
  split
  · exact h
  split
  · exact h
  rename_i hback
  have hwait : 0 < s.consecutiveFailures →
      s.lastAttemptTime + Hal.getBackoffDelay env.undefShift s.consecutiveFailures ≤
        env.attemptTime := fun hpos => by
    have hpassed := not_lt.1 fun hlt => hback ⟨hpos, hlt⟩
    simp only [ConnEnv.Timely] at ht
    omega
  have hw : ∀ ok n, Waited (.connect env.attemptTime ok n) s.trace := by
    intro ok n o ho
    have htr := h.tracks o ho
    cases o with
    | connect t ok' m =>
      cases ok' with
      | true => trivial
      | false =>
        obtain ⟨-, rfl, rfl, hpos⟩ := htr
        exact ⟨_, hwait hpos⟩
    | reset r m a =>
      obtain ⟨-, rfl, rfl⟩ := htr
      exact fun hpos => ⟨_, hwait hpos⟩
    | _ => trivial
  rename_i hctx
  split
  · refine ⟨fun o ho => ?_, ⟨hw true 0, h.waited⟩⟩
    obtain rfl : Obs.connect env.attemptTime true 0 = o := Option.some.inj ho
    trivial
  · refine ⟨fun o ho => ?_, ⟨hw false _, h.waited⟩⟩
    obtain rfl : Obs.connect env.attemptTime false (s.consecutiveFailures + 1) = o :=
      Option.some.inj ho
    exact ⟨by simpa [Hal.log] using hctx, rfl, rfl, Nat.succ_pos _⟩

theorem LinkInv.ensureRcId {s : Hal} (h : LinkInv s) {env : ConnEnv} (ht : env.Timely) :
    LinkInv (s.ensureRcId env).2 := by
  have h₁ := h.ensureContext ht
  simp only [Hal.ensureRcId]
  split
  · exact h₁
  rename_i hneg
  split
  · exact h₁
  have h₂ : LinkInv (env.lookup.foldl Hal.lookupStep (s.ensureContext env).2) :=
    h₁.hush (Hushed.foldl hushed_lookupStep _ _) fun hdown => by
      simp [ctx_of_ensureContext hneg] at hdown
  split
  · exact h₂.resetConnection env.resetTime
  · exact h₂

theorem LinkInv.serviceAsync {s : Hal} (h : LinkInv s) (type : RequestType) (name : Option CStr)
    (cb priv : Ptr) (fill : PendingRequest → PendingRequest) (fail : CStr → ℤ → Callback)
    {env : ConnEnv} (ht : env.Timely) :
    LinkInv (s.serviceAsync type name cb priv fill fail env).2 := by
  have hlog : ∀ {s : Hal} {os : List Obs}, LinkInv s → (∀ o ∈ os, isLink o = false) →
      LinkInv (s.log os) := fun hs ho => hs.hush (hushed_log _ ho) fun hd => ⟨hd, rfl, rfl⟩
  have hset : ∀ {s : Hal} (i : Slot) (p : PendingRequest), LinkInv s → LinkInv (s.setSlot i p) :=
    fun i p hs => hs.hush (hushed_setSlot _ i p) fun hd => ⟨hd, rfl, rfl⟩
  have hcall : LinkInv ({ s with calls := s.calls + 1 }.log [.called s.calls type name cb priv]) :=
    h.hush ⟨[_], rfl, by simp [isLink]⟩ fun hd => ⟨hd, rfl, rfl⟩
  simp only [Hal.serviceAsync]
  cases name with
  | none => exact hlog hcall (by simp [isLink])
  | some name =>
  dsimp only
  split
  · exact hlog hcall (by simp [isLink])
  have hrc := hcall.ensureRcId ht
  split
  · exact hlog hrc (by simp [isLink])
  split
  · exact hlog hrc (by simp [isLink])
  rename_i i s' halloc
  have hs' : LinkInv s' := by
    rw [(Hal.allocRequest_eq_some halloc).2]
    exact hset _ _ hrc
  split
  · exact hlog (hset _ _ (hset _ _ hs')) (by simp [isLink])
  · exact hlog (hset _ _ (hset _ _ hs')) (by simp [isLink])

theorem LinkInv.requestTimeoutCb {s : Hal} (h : LinkInv s) (hctx : s.ctx = true) (i : Slot)
    (time : ℤ) : LinkInv (s.requestTimeoutCb i time) := by
  have hfail : ∀ p rcId, LinkInv { s.setSlot i p with
      consecutiveFailures := s.consecutiveFailures + 1, rcId := rcId } := fun p rcId =>
    h.hush ⟨[], rfl, by simp⟩ fun hd => by simp [hctx] at hd
  have hfin : ∀ s' : Hal, LinkInv s' → LinkInv
      ((s'.log (Hal.userCallback (s'.pending i) false false statusTimeout false)).setSlot i
        { s'.pending i with inUse := false }) := fun s' hs' =>
    hs'.hush ((hushed_log _ isLink_userCallback).trans (hushed_setSlot _ _ _))
      fun hd => ⟨hd, rfl, rfl⟩
  unfold Hal.requestTimeoutCb
  dsimp only
  split
  · exact h
  · apply hfin
    split
    · exact (hfail _ s.rcId).resetConnection time
    · exact hfail _ 0

theorem LinkInv.realCleanup {s : Hal} (h : LinkInv s) : LinkInv s.realCleanup := by
  simp only [Hal.realCleanup]
  split
  · exact h
  have hq : ∀ (s : Hal) (i : Slot), Hushed s (s.cleanupSlot i) := fun s i => by
    simp only [Hal.cleanupSlot]
    split
    · refine (hushed_log s fun o ho => ?_).trans (hushed_setSlot _ _ _)
      split at ho
      · simp at ho
      · rw [List.mem_singleton.1 ho]; rfl
    · exact .refl s
  have hcounters : ∀ (l : List Slot) (s : Hal),
      (l.foldl Hal.cleanupSlot s).consecutiveFailures = s.consecutiveFailures ∧
        (l.foldl Hal.cleanupSlot s).lastAttemptTime = s.lastAttemptTime := fun l => by
    induction l with
    | nil => exact fun s => ⟨rfl, rfl⟩
    | cons i l ih =>
      intro s
      obtain ⟨hf, hl⟩ := ih (s.cleanupSlot i)
      refine ⟨hf.trans ?_, hl.trans ?_⟩ <;> (simp only [Hal.cleanupSlot]; split <;> rfl)
  obtain ⟨hf, hl⟩ := hcounters (List.finRange maxPendingRequests) s
  exact h.hush (Hushed.foldl hq _ s) fun _ => ⟨rfl, hf, hl⟩

/-- Without a connection no answer arrives. -/
theorem dispatchComplete_of_down {s : Hal} (h : Inv s) (hctx : s.ctx = false) (i : Slot)
    (ret : UbusStatus) : s.dispatchComplete i ret = s := by
  have hact : (s.pending i).reqActive = false := by
    by_contra hact
    have := h.mid.ctx i (h.mid.armed_of_active (by simpa using hact)).1
    simp [hctx] at this
  simp [Hal.dispatchComplete, hact]

theorem LinkInv.step {s : Hal} (hi : Inv s) (h : LinkInv s) {e : Event} (ht : e.Timely) :
    LinkInv (step s e) := by
  cases e with
  | init env =>
    simp only [UbusReal.step, Hal.realInit]
    split
    · exact h
    · have h₁ : LinkInv { s with pending := fun _ => {} } :=
        h.hush ⟨[], rfl, by simp⟩ fun hd => ⟨hd, rfl, rfl⟩
      exact (h₁.ensureContext ht).hush ⟨[], rfl, by simp⟩ fun hd => ⟨hd, rfl, rfl⟩
  | cleanup => exact h.realCleanup
  | query name cb priv env => exact h.serviceAsync _ name cb priv _ _ ht
  | control name start cb priv env => exact h.serviceAsync _ name cb priv _ _ ht
  | data i msg =>
    refine h.hush (hushed_dispatchData s i msg) fun hd => ?_
    simp only [UbusReal.step, Hal.dispatchData]
    split
    · cases msg with
      | none => exact ⟨hd, rfl, rfl⟩
      | some attrs => simp only [Hal.queryDataCb]; split <;> exact ⟨hd, rfl, rfl⟩
    · exact ⟨hd, rfl, rfl⟩
  | complete i ret =>
    refine h.hush (hushed_dispatchComplete s i ret) fun hd => ?_
    rw [UbusReal.step, dispatchComplete_of_down hi hd]
    exact ⟨hd, rfl, rfl⟩
  | expire i time =>
    simp only [UbusReal.step, Hal.dispatchTimeout]
    split
    · rename_i harmed
      have hctx := hi.mid.ctx i (hi.mid.armed_of_timeoutArmed harmed).1
      exact (h.hush (hushed_setSlot s _ _) fun hd => ⟨hd, rfl, rfl⟩).requestTimeoutCb hctx i time
    · exact h

/-! ## Runs -/

/-- The clock does not go back within an event of the run. -/
def Timely (es : List Event) : Prop := ∀ e ∈ es, e.Timely

theorem linkInv_initial : LinkInv {} := ⟨fun o ho => by simp [lastLink] at ho, trivial⟩

/-- **Every reconnection has waited.** -/
theorem linkInv_after {es : List Event} (hes : Timely es) : LinkInv (after es) := by
  refine (run_invariant_along (P := fun s => Inv s ∧ LinkInv s) (G := fun _ e => e.Timely)
    (fun s e h he => ⟨(step_refines h.1 e).1, h.2.step h.1 he⟩)
    ⟨inv_initial, linkInv_initial⟩ (along_of_forall hes)).2

/-- In `trace`, a `ubus_connect` whose newest entry before it is `o` comes at `time` or later. -/
def Paced (o : Obs) (time : ℤ) (trace : List Obs) : Prop :=
  ∀ t ok m past, (.connect t ok m :: past) <:+ trace → lastLink past = some o → time ≤ t

theorem LinkInv.waitedSince {s : Hal} (h : LinkInv s) {t : ℤ} {ok : Bool} {m : ℕ}
    {past : List Obs} (hs : (.connect t ok m :: past) <:+ s.trace) {o : Obs}
    (ho : lastLink past = some o) : WaitedSince o t :=
  always_iff_suffix.1 h.waited _ _ hs o ho

/-! ## Failed attempts -/

/-- What is asked of the back-off after `n` failures. -/
structure BackoffOk (n : ℕ) : Prop where
  /-- The shift of `get_backoff_delay` is defined. -/
  shift : ∀ undefShift, n ≠ 0 → Hal.shiftBase undefShift (n - 1) = 2 ^ (n - 1)
  value : ∀ undefShift, Hal.getBackoffDelay undefShift n = backoffDelay n
  /-- After an attempt that makes it `n` failures the next attempt keeps the delay. -/
  paced : ∀ es, Timely es → ∀ t,
    Paced (.connect t false n) (t + backoffDelay n) (after es).trace

/-- **The back-off is right for exactly the failure counters up to 31.** -/
theorem backoffOk_iff (n : ℕ) : BackoffOk n ↔ n ≤ 31 := by
  constructor
  · intro h
    by_contra hn
    -- the delay would be what the target makes of the shift, say -1
    have hvalue := h.value (-1)
    have hpos := backoffDelay_pos (show 1 ≤ n by omega)
    rw [getBackoffDelay_undef (by decide) (by omega)] at hvalue
    omega
  · intro hn
    refine ⟨fun _ _ => if_pos (by omega), fun undefShift => getBackoffDelay_eq undefShift hn, ?_⟩
    intro es hes t t' ok m past hs ho
    obtain ⟨undefShift, hwait⟩ := (linkInv_after hes).waitedSince hs ho
    rwa [getBackoffDelay_eq undefShift hn] at hwait

/-- A call that makes the HAL connect, whatever its state. -/
def retry (s : Hal) (env : ConnEnv) : Event :=
  if s.initialized then .query (some []) 1 0 env else .init env

/-- Past the back-off, an attempt that fails. -/
theorem ensureContext_failed {s : Hal} (hctx : s.ctx = false) {env : ConnEnv}
    (hok : env.connectOk = false)
    (hback : s.lastAttemptTime + Hal.getBackoffDelay env.undefShift s.consecutiveFailures ≤
      env.checkTime) :
    s.ensureContext env = (-1, { s with
      lastAttemptTime := env.attemptTime, rcId := 0,
      consecutiveFailures := s.consecutiveFailures + 1,
      trace := .connect env.attemptTime false (s.consecutiveFailures + 1) :: s.trace }) := by
  have hpass : ¬(0 < s.consecutiveFailures ∧ env.checkTime - s.lastAttemptTime <
      Hal.getBackoffDelay env.undefShift s.consecutiveFailures) := fun h => by omega
  simp only [Hal.ensureContext, hctx, hpass, hok]
  rfl

/-- Past the back-off, a call connects; if that fails it is one more failure. -/
theorem step_retry {s : Hal} (hctx : s.ctx = false) (env : ConnEnv)
    (hok : env.connectOk = false)
    (hback : s.lastAttemptTime + Hal.getBackoffDelay env.undefShift s.consecutiveFailures ≤
      env.checkTime) :
    let s' := step s (retry s env)
    s'.ctx = false ∧ s'.initialized = true ∧ s'.consecutiveFailures = s.consecutiveFailures + 1 ∧
      s'.lastAttemptTime = env.attemptTime ∧
      ∃ os past, s'.trace =
          os ++ .connect env.attemptTime false (s.consecutiveFailures + 1) :: past ∧
        (∀ o ∈ os, isLink o = false) ∧ lastLink past = lastLink s.trace := by
  intro s'
  by_cases hinit : s.initialized = true
  · have hs' : s' = (s.realQueryServiceAsync (some []) 1 0 env).2 := by
      simp only [s', retry, hinit, if_true, step]
    set s₀ := { s with calls := s.calls + 1 }.log [.called s.calls .query (some []) 1 0] with hs₀
    have hens := ensureContext_failed (s := s₀) hctx hok hback
    have hquery : (s.realQueryServiceAsync (some []) 1 0 env).2 =
        (s₀.ensureContext env).2.log [.returned s.calls 0,
          .callback s.calls 1 0 (.query [] false false statusConnFailed)] := by
      have hargs : (!s₀.initialized || decide ((1 : Ptr) = 0)) = false := by
        simp [hs₀, Hal.log, hinit]
      simp only [Hal.realQueryServiceAsync, Hal.serviceAsync, ← hs₀, hargs, Hal.ensureRcId, hens]
      rfl
    rw [hs', hquery, hens]
    exact ⟨hctx, hinit, rfl, rfl, [_, _], _, rfl, by simp [isLink], rfl⟩
  · have hs' : s' = { ({ s with pending := fun _ => {} }.ensureContext env).2 with
        initialized := true } := by
      simp only [s', retry, hinit, if_false, step, Hal.realInit, Bool.false_eq_true]
    have hens := ensureContext_failed (s := { s with pending := fun _ => {} }) hctx hok hback
    rw [hs', hens]
    exact ⟨hctx, rfl, rfl, rfl, [], _, rfl, by simp, rfl⟩

/-- An attempt at `time` that fails. -/
def failing (time undefShift : ℤ) : ConnEnv :=
  { checkTime := time, undefShift := undefShift, attemptTime := time, connectOk := false }

/-- `k + 1` failed attempts a minute apart, from program start. -/
def outage (k : ℕ) : List Event :=
  .init (failing 0 0) ::
    (List.range k).map fun j : ℕ => .query (some []) 1 0 (failing (60 * (j + 1)) 0)

theorem timely_outage (k : ℕ) : Timely (outage k) := by
  intro e he
  rcases List.mem_cons.1 he with rfl | he
  · exact le_rfl
  · obtain ⟨j, -, rfl⟩ := List.mem_map.1 he
    exact le_rfl

theorem getBackoffDelay_le (undefShift : ℤ) (n : ℕ) :
    Hal.getBackoffDelay undefShift n ≤ backoffMaxSec := by
  simp only [Hal.getBackoffDelay]
  split
  · decide
  · split
    · exact le_rfl
    · exact not_lt.1 ‹_›

theorem after_outage (k : ℕ) :
    let s := after (outage k)
    s.ctx = false ∧ s.initialized = true ∧ s.consecutiveFailures = k + 1 ∧
      s.lastAttemptTime = 60 * k ∧
      lastLink s.trace = some (.connect (60 * k) false (k + 1)) := by
  induction k with
  | zero => exact ⟨rfl, rfl, rfl, rfl, rfl⟩
  | succ k ih =>
    obtain ⟨hctx, hinit, hn, hlast, -⟩ := ih
    set s := after (outage k) with hs
    set env : ConnEnv := failing (60 * (k + 1)) 0 with henv
    have hafter : after (outage (k + 1)) = step s (retry s env) := by
      rw [retry, if_pos hinit, hs, after, after, outage, List.range_succ, List.map_append,
        ← List.cons_append, run_append]
      rfl
    have hdelay := getBackoffDelay_le env.undefShift s.consecutiveFailures
    obtain ⟨hctx', hinit', hn', hlast', os, past, htrace, hos, -⟩ :=
      step_retry hctx env rfl (by
        rw [hlast]; simp only [henv, failing, backoffMaxSec] at hdelay ⊢; omega)
    rw [hafter]
    refine ⟨hctx', hinit', by rw [hn', hn], by rw [hlast', henv]; push_cast; rfl, ?_⟩
    rw [htrace, lastLink, List.find?_append, List.find?_eq_none.2 fun o hm => by simp [hos o hm]]
    simp [isLink, hn, henv, failing]

/-- **From 32 failures on the back-off is not kept**: a query in the second of the last attempt
connects again if the target makes a negative delay of the shift. -/
theorem not_paced_outage {k : ℕ} (hk : 31 ≤ k) :
    ¬Paced (.connect (60 * k) false (k + 1)) (60 * k + backoffDelay (k + 1))
      (after (outage k ++ [.query (some []) 1 0 (failing (60 * k) (-2 ^ 31))])).trace := by
  intro hpaced
  obtain ⟨hctx, hinit, hn, hlast, hlink⟩ := after_outage k
  set s := after (outage k) with hs
  set env : ConnEnv := failing (60 * k) (-2 ^ 31) with henv
  have hafter : after (outage k ++ [.query (some []) 1 0 env]) = step s (retry s env) := by
    rw [retry, if_pos hinit, hs, after, run_append]
    rfl
  have hdelay : Hal.getBackoffDelay env.undefShift s.consecutiveFailures = -2 ^ 31 :=
    getBackoffDelay_undef (by simp [henv, failing]) (by omega)
  obtain ⟨-, -, -, -, os, past, htrace, -, hpast⟩ :=
    step_retry hctx env rfl (by rw [hdelay, hlast]; simp only [henv, failing]; omega)
  rw [hafter, htrace] at hpaced
  have hearly := hpaced _ _ _ past (List.suffix_append _ _) (hpast.trans hlink)
  have hpos := backoffDelay_pos (n := k + 1) (by omega)
  simp only [henv, failing] at hearly
  omega

/-- The failing input: the second of the 32nd failed attempt. -/
theorem backoff_fails_at_32 : ¬∀ n, BackoffOk n := fun h => by
  refine not_paced_outage (k := 31) le_rfl ((h 32).paced _ (fun e he => ?_) _)
  rcases List.mem_append.1 he with he | he
  · exact timely_outage 31 e he
  · rw [List.mem_singleton.1 he]; exact le_rfl

/-! ## Resets -/

/-- A reset at `r` with `n` failures of a connection made at `a` is covered by the back-off. -/
def ResetCovered (r : ℤ) (n : ℕ) (a : ℤ) : Prop := a = r ∧ 1 ≤ n ∧ n ≤ 31

/-- The back-off that is meant after a reset with `n` failures. -/
def resetDelay (n : ℕ) : ℤ := max 1 (backoffDelay n)

/-- The clock of the event has reached `r`. -/
def Event.From (r : ℤ) : Event → Prop
  | .init env | .query _ _ _ env | .control _ _ _ _ env => r ≤ env.checkTime
  | _ => True

/-- What is asked of the HAL after a reset at `r` with `n` failures, reached by `es`: however the
run goes on, the next `ubus_connect` keeps the back-off, counted from the reset. -/
def ResetBackoff (es : List Event) (r : ℤ) (n : ℕ) (a : ℤ) : Prop :=
  ∀ fs, Timely fs → (∀ e ∈ fs, e.From r) →
    Paced (.reset r n a) (r + resetDelay n) (after (es ++ fs)).trace

theorem paced_of_resetCovered {es : List Event} (hes : Timely es) {r : ℤ} {n : ℕ} {a : ℤ}
    (hc : ResetCovered r n a) : Paced (.reset r n a) (r + resetDelay n) (after es).trace := by
  obtain ⟨rfl, hpos, hn⟩ := hc
  intro t ok m past hs ho
  obtain ⟨undefShift, hwait⟩ := (linkInv_after hes).waitedSince hs ho hpos
  rwa [getBackoffDelay_eq undefShift hn, ← max_eq_right (backoffDelay_pos hpos)] at hwait

/-- The delay that the code counts from `a` is over before the one counted from `r`. -/
theorem early_of_not_covered {r : ℤ} {n : ℕ} {a : ℤ} (har : a ≤ r) (hc : ¬ResetCovered r n a) :
    max r (a + Hal.getBackoffDelay (-2 ^ 31) n) < r + resetDelay n := by
  have hone : 1 ≤ resetDelay n := le_max_left _ _
  refine max_lt (by omega) ?_
  rcases Nat.lt_or_ge 31 n with hn | hn
  · rw [getBackoffDelay_undef (by decide) hn]; omega
  rw [getBackoffDelay_eq _ hn]
  rcases Nat.eq_zero_or_pos n with rfl | hpos
  · simp only [backoffDelay, if_true]; omega
  · have hne : a ≠ r := fun he => hc ⟨he, hpos, hn⟩
    have hle : backoffDelay n ≤ resetDelay n := le_max_right _ _
    omega

/-- After a reset that is not covered, a call can make the HAL connect too early. -/
theorem not_resetBackoff {es : List Event} (hes : Timely es) {r : ℤ} {n : ℕ} {a : ℤ}
    (hlast : lastLink (after es).trace = some (.reset r n a)) (har : a ≤ r)
    (hc : ¬ResetCovered r n a) : ¬ResetBackoff es r n a := by
  intro hback
  have hearly := early_of_not_covered har hc
  set time := max r (a + Hal.getBackoffDelay (-2 ^ 31) n) with htime
  set e := retry (after es) (failing time (-2 ^ 31)) with he
  obtain ⟨hctx, hn, ha⟩ := (linkInv_after hes).tracks _ hlast
  obtain ⟨-, -, -, -, os, past, htrace, -, hpast⟩ :=
    step_retry hctx (failing time (-2 ^ 31)) rfl (by
      rw [hn, ha]; exact le_max_right _ _)
  have hafter : after (es ++ [e]) = step (after es) e := by rw [after, run_append]; rfl
  have htimely : e.Timely ∧ e.From r := by
    rw [he, retry]
    split
    · exact ⟨le_rfl, le_max_left _ _⟩
    · exact ⟨le_rfl, le_max_left _ _⟩
  have hpaced := hback [e] (fun f hf => by rw [List.mem_singleton.1 hf]; exact htimely.1)
    (fun f hf => by rw [List.mem_singleton.1 hf]; exact htimely.2)
  rw [hafter, he, htrace] at hpaced
  have hle := hpaced _ _ _ past (List.suffix_append _ _) (hpast.trans hlast)
  simp only [failing] at hle
  omega

/-- **The back-off after a reset.** It is counted from the last `ubus_connect`, so it is kept after
a reset precisely when the connection was made in the second of the reset and the failure counter
is between 1 and 31. -/
theorem resetBackoff_iff {es : List Event} (hes : Timely es) {r : ℤ} {n : ℕ} {a : ℤ}
    (hlast : lastLink (after es).trace = some (.reset r n a)) (har : a ≤ r) :
    ResetBackoff es r n a ↔ ResetCovered r n a := by
  constructor
  · intro hback
    by_contra hc
    exact not_resetBackoff hes hlast har hc hback
  · intro hc fs hfs _
    refine paced_of_resetCovered (fun e he => ?_) hc
    exact (List.mem_append.1 he).elim (hes e) (hfs e)

/-- A stuck `rpcd`: the connection is made at 0 s, three queries are sent at 100 s and their timers
expire at 103 s. -/
def stuckRpcd : List Event :=
  let env : ConnEnv := { lookup := [.rcId 7] }
  [.init {}, .query (some []) 1 0 env, .query (some []) 1 0 env, .query (some []) 1 0 env,
    .expire 0 103, .expire 1 103, .expire 2 103]

theorem timely_stuckRpcd : Timely stuckRpcd := by
  simp [Timely, stuckRpcd, Event.Timely, ConnEnv.Timely]

theorem lastLink_stuckRpcd : lastLink (after stuckRpcd).trace = some (.reset 103 3 0) := by
  rfl

/-- The rule at the stuck `rpcd`. -/
theorem resetBackoff_stuckRpcd : ResetBackoff stuckRpcd 103 3 0 ↔ ResetCovered 103 3 0 :=
  resetBackoff_iff timely_stuckRpcd lastLink_stuckRpcd (by decide)

/-- The failing input: after the third timeout the next query connects again at once. -/
theorem reset_not_backed_off : ¬∀ es r n a, Timely es →
    lastLink (after es).trace = some (.reset r n a) → a ≤ r → ResetBackoff es r n a := fun h =>
  not_resetBackoff timely_stuckRpcd lastLink_stuckRpcd (by decide) (by simp [ResetCovered])
    (h _ _ _ _ timely_stuckRpcd lastLink_stuckRpcd (by decide))

end NanoHat.UbusReal
