import NanoHat.Hal.UbusRealCalls

/-!
# What the real ubus HAL records

Between its start and its return a call of `ubus_hal_real.c` records callbacks and what happens to
the connection, and neither calls nor returns; the same holds of what libubus and uloop run
(`Mute`). So every call is recorded once (`CalledOnce`), and its record tells what its callback is
run on.
-/

namespace NanoHat.UbusReal

open UbusHal Runs

/-- An entry about the start or the return of a call. -/
def isCall : Obs → Bool
  | .called .. => true
  | .returned .. => true
  | _ => false

/-- Neither calls nor returns are added to the trace. -/
def Mute (s s' : Hal) : Prop :=
  ∃ os : List Obs, s'.trace = os ++ s.trace ∧ ∀ o ∈ os, isCall o = false

theorem Mute.refl (s : Hal) : Mute s s := ⟨[], rfl, by simp⟩

theorem Mute.trans {s₁ s₂ s₃ : Hal} (h : Mute s₁ s₂) (h' : Mute s₂ s₃) : Mute s₁ s₃ := by
  obtain ⟨os, ht, ho⟩ := h
  obtain ⟨os', ht', ho'⟩ := h'
  refine ⟨os' ++ os, by rw [ht', ht, List.append_assoc], ?_⟩
  intro o hm
  exact (List.mem_append.1 hm).elim (ho' o) (ho o)

theorem Mute.foldl {α : Type*} {f : Hal → α → Hal} (hf : ∀ s a, Mute s (f s a)) (l : List α)
    (s : Hal) : Mute s (l.foldl f s) := by
  induction l generalizing s with
  | nil => exact .refl s
  | cons a l ih => exact (hf s a).trans (ih _)

/-- What leaves the trace alone. -/
theorem mute_of_trace {s s' : Hal} (h : s'.trace = s.trace) : Mute s s' := ⟨[], h, by simp⟩

theorem mute_log (s : Hal) {os : List Obs} (ho : ∀ o ∈ os, isCall o = false) : Mute s (s.log os) :=
  ⟨os, rfl, ho⟩

theorem isCall_userCallback {p : PendingRequest} {installed running success : Bool} {status : ℤ} :
    ∀ o ∈ Hal.userCallback p installed running status success, isCall o = false := by
  intro o ho
  simp only [Hal.userCallback] at ho
  split at ho
  · rw [List.mem_singleton.1 ho]
    rfl
  · split at ho
    · rw [List.mem_singleton.1 ho]
      rfl
    · simp at ho

/-! ## The pieces of the code -/

theorem mute_abortAllPending (s : Hal) (status : ℤ) : Mute s (s.abortAllPending status) := by
  refine Mute.foldl (fun s i => ?_) _ s
  simp only [Hal.abortSlot]
  split
  · exact mute_log s isCall_userCallback
  · exact .refl s

theorem mute_resetConnection (s : Hal) (time : ℤ) : Mute s (s.resetConnection time) := by
  have hlog : Mute s (s.log [.reset time s.consecutiveFailures s.lastAttemptTime]) :=
    mute_log s (by simp [isCall])
  exact hlog.trans (mute_abortAllPending _ statusConnFailed)

theorem mute_ensureContext (s : Hal) (env : ConnEnv) : Mute s (s.ensureContext env).2 := by
  simp only [Hal.ensureContext]
  split
  · exact .refl s
  split
  · exact .refl s
  split
  · exact ⟨[.connect env.attemptTime true 0], rfl, by simp [isCall]⟩
  · exact ⟨[.connect env.attemptTime false (s.consecutiveFailures + 1)], rfl, by simp [isCall]⟩

theorem mute_queryCompleteCb (s : Hal) (i : Slot) (ret : UbusStatus) :
    Mute s (s.queryCompleteCb i ret) := by
  simp only [Hal.queryCompleteCb]
  split
  · exact .refl s
  · cases ret
    all_goals exact ⟨_, rfl, isCall_userCallback⟩

theorem mute_dispatchData (s : Hal) (i : Slot) (msg : Option (List BlobAttr)) :
    Mute s (s.dispatchData i msg) := by
  simp only [Hal.dispatchData]
  split
  · cases msg with
    | none => exact .refl s
    | some attrs =>
      simp only [Hal.queryDataCb]
      split
      · exact .refl s
      · exact mute_of_trace rfl
  · exact .refl s

theorem mute_dispatchComplete (s : Hal) (i : Slot) (ret : UbusStatus) :
    Mute s (s.dispatchComplete i ret) := by
  simp only [Hal.dispatchComplete]
  split
  · exact (mute_of_trace rfl).trans (mute_queryCompleteCb _ i ret)
  · exact .refl s

theorem mute_lookupStep (s : Hal) (e : LookupEvent) : Mute s (s.lookupStep e) := by
  cases e with
  | data i msg => exact mute_dispatchData s i msg
  | complete i ret => exact mute_dispatchComplete s i ret
  | rcId id => exact mute_of_trace rfl

theorem mute_ensureRcId (s : Hal) (env : ConnEnv) : Mute s (s.ensureRcId env).2 := by
  simp only [Hal.ensureRcId]
  have hctx := mute_ensureContext s env
  split
  · exact hctx
  split
  · exact hctx
  have hlookup := hctx.trans (Mute.foldl mute_lookupStep env.lookup _)
  split
  · exact hlookup.trans (mute_resetConnection _ _)
  · exact hlookup

theorem mute_requestTimeoutCb (s : Hal) (i : Slot) (time : ℤ) :
    Mute s (s.requestTimeoutCb i time) := by
  have hreset : ∀ (s' : Hal) (n : ℕ), Mute s s' → Mute s
      (if timeoutResetThreshold ≤ n then
          ({ s' with consecutiveFailures := n } : Hal).resetConnection time
        else { s' with consecutiveFailures := n, rcId := 0 }) := by
    intro s' n h
    split
    · exact (show Mute s { s' with consecutiveFailures := n } from h).trans
        (mute_resetConnection _ time)
    · exact h
  have hfin : ∀ s' : Hal, Mute s s' → Mute s
      ((s'.log (Hal.userCallback (s'.pending i) false false statusTimeout false)).setSlot i
        { s'.pending i with inUse := false }) :=
    fun s' h => h.trans (mute_log s' isCall_userCallback)
  unfold Hal.requestTimeoutCb
  dsimp only
  split
  · exact .refl s
  · exact hfin _ (hreset (s.setSlot i _) _ (mute_of_trace rfl))

theorem mute_dispatchTimeout (s : Hal) (i : Slot) (time : ℤ) :
    Mute s (s.dispatchTimeout i time) := by
  simp only [Hal.dispatchTimeout]
  split
  · exact Mute.trans (mute_of_trace rfl) (mute_requestTimeoutCb _ i time)
  · exact .refl s

theorem mute_realInit (s : Hal) (env : ConnEnv) : Mute s (s.realInit env) := by
  simp only [Hal.realInit]
  split
  · exact .refl s
  · exact (mute_of_trace rfl).trans (mute_ensureContext _ env)

theorem mute_realCleanup (s : Hal) : Mute s s.realCleanup := by
  simp only [Hal.realCleanup]
  split
  · exact .refl s
  · refine (Mute.foldl (fun s i => ?_) (List.finRange maxPendingRequests) s).trans (mute_of_trace rfl)
    simp only [Hal.cleanupSlot]
    split
    · refine mute_log s fun o ho => ?_
      split at ho
      · simp at ho
      · rw [List.mem_singleton.1 ho]
        rfl
    · exact .refl s

/-- What a call records: its start, then callbacks of it and others, then its return. A refused call
runs no callback. -/
theorem trace_serviceAsync (s : Hal) (type : RequestType) (name : Option CStr) (cb priv : Ptr)
    (fill : PendingRequest → PendingRequest) (fail : CStr → ℤ → Callback) (env : ConnEnv) :
    let r := s.serviceAsync type name cb priv fill fail env
    ∃ os : List Obs, r.2.trace =
        .returned s.calls r.1 :: os ++ .called s.calls type name cb priv :: s.trace ∧
      (∀ o ∈ os, isCall o = false) ∧ (r.1 = -1 ∧ os = [] ∨ r.1 = 0) := by
  intro r
  cases name with
  | none => exact ⟨[], rfl, by simp, Or.inl ⟨rfl, rfl⟩⟩
  | some name =>
  simp only [r, Hal.serviceAsync]
  split
  · exact ⟨[], rfl, by simp, Or.inl ⟨rfl, rfl⟩⟩
  obtain ⟨os, ht, ho⟩ := mute_ensureRcId ({ s with calls := s.calls + 1 }.log
    [.called s.calls type (some name) cb priv]) env
  have hfail : ∀ c, ∀ o ∈ Obs.callback s.calls cb priv c :: os, isCall o = false := by
    intro c o hm
    rcases List.mem_cons.1 hm with rfl | hm
    · rfl
    · exact ho o hm
  split
  · exact ⟨_ :: os, congrArg (fun t => Obs.returned _ _ :: Obs.callback _ _ _ _ :: t) ht, hfail _,
      Or.inr rfl⟩
  split
  · exact ⟨_ :: os, congrArg (fun t => Obs.returned _ _ :: Obs.callback _ _ _ _ :: t) ht, hfail _,
      Or.inr rfl⟩
  rename_i i s' halloc
  rw [(Hal.allocRequest_eq_some halloc).2]
  split
  · exact ⟨_ :: os, congrArg (fun t => Obs.returned _ _ :: Obs.callback _ _ _ _ :: t) ht, hfail _,
      Or.inr rfl⟩
  · exact ⟨os, congrArg (fun t => Obs.returned _ _ :: t) ht, ho, Or.inr rfl⟩

/-! ## Every call is recorded once -/

/-- The arguments of a call, by its number. -/
def callOf : Obs → Option (ℕ × RequestType × Option CStr × Ptr × Ptr)
  | .called id type name cb priv => some (id, type, name, cb, priv)
  | _ => none

/-- Each number given out belongs to one recorded call. -/
def CalledOnce (s : Hal) : Prop :=
  (s.trace.filterMap callOf).map Prod.fst = (List.range s.calls).reverse

theorem mem_callOf {t : List Obs} {id : ℕ} {type : RequestType} {name : Option CStr}
    {cb priv : Ptr} (h : .called id type name cb priv ∈ t) :
    (id, type, name, cb, priv) ∈ t.filterMap callOf := List.mem_filterMap.2 ⟨_, h, rfl⟩

theorem CalledOnce.unique {s : Hal} (h : CalledOnce s) {id : ℕ} {type type' : RequestType}
    {name name' : Option CStr} {cb cb' priv priv' : Ptr}
    (hc : .called id type name cb priv ∈ s.trace)
    (hc' : .called id type' name' cb' priv' ∈ s.trace) :
    type = type' ∧ name = name' ∧ cb = cb' ∧ priv = priv' := by
  have hnodup : ((s.trace.filterMap callOf).map Prod.fst).Nodup := by
    rw [show _ = _ from h]
    exact List.nodup_reverse.2 List.nodup_range
  have heq := List.inj_on_of_nodup_map hnodup (mem_callOf hc) (mem_callOf hc') rfl
  simpa using heq

theorem callOf_eq_none {o : Obs} (h : isCall o = false) : callOf o = none := by
  cases o <;> first | rfl | exact nomatch h

theorem returnOf_eq_none {o : Obs} (h : isCall o = false) : returnOf o = none := by
  cases o <;> first | rfl | exact nomatch h

theorem filterMap_mute {β : Type*} {f : Obs → Option β}
    (hf : ∀ {o}, isCall o = false → f o = none) {os t : List Obs}
    (ho : ∀ o ∈ os, isCall o = false) : (os ++ t).filterMap f = t.filterMap f := by
  rw [List.filterMap_append, List.filterMap_eq_nil_iff.2 fun o hm => hf (ho o hm), List.nil_append]

theorem Mute.returned_iff {s s' : Hal} (h : Mute s s') (id : ℕ) (code : ℤ) :
    .returned id code ∈ s'.trace ↔ .returned id code ∈ s.trace := by
  obtain ⟨os, ht, ho⟩ := h
  rw [ht, List.mem_append]
  exact ⟨fun hm => hm.resolve_left fun hos => (nomatch ho _ hos), Or.inr⟩

/-- Without calls the number of calls stays. -/
theorem Mute.calls {s s' : Hal} (hm : Mute s s') (h : Inv s) (h' : Inv s') :
    s'.calls = s.calls := by
  obtain ⟨os, ht, ho⟩ := hm
  have hreturned := h'.returned
  rw [ht, filterMap_mute returnOf_eq_none ho, h.returned] at hreturned
  simpa using (congrArg List.length hreturned).symm

theorem Mute.calledOnce {s s' : Hal} (hm : Mute s s') (h : Inv s) (h' : Inv s')
    (hc : CalledOnce s) : CalledOnce s' := by
  have hcalls := hm.calls h h'
  obtain ⟨os, ht, ho⟩ := hm
  rw [CalledOnce, ht, filterMap_mute callOf_eq_none ho, hcalls]
  exact hc

/-- A call is recorded by its own entry. -/
theorem CalledOnce.call {s s' : Hal} (h : CalledOnce s) {type : RequestType} {name : Option CStr}
    {cb priv : Ptr} {os : List Obs} {r : ℤ}
    (ht : s'.trace = .returned s.calls r :: os ++ .called s.calls type name cb priv :: s.trace)
    (ho : ∀ o ∈ os, isCall o = false) (hcalls : s'.calls = s.calls + 1) : CalledOnce s' := by
  rw [CalledOnce, ht, hcalls, List.cons_append, List.filterMap_cons_none rfl,
    filterMap_mute callOf_eq_none ho, List.range_succ, List.reverse_append]
  exact congrArg (s.calls :: ·) h

/-! ## What callbacks leave open -/

theorem callbackIds_append (os t : List Obs) :
    callbackIds (os ++ t) = callbackIds os ++ callbackIds t := List.filterMap_append

/-- A call that is accepted and not called back. -/
def Open (s : Hal) (id : ℕ) : Prop := .returned id 0 ∈ s.trace ∧ id ∉ callbackIds s.trace

/-- A callback that is run belongs to a call that was made before. -/
theorem Inv.lt_of_callbackIds {s : Hal} (h : Inv s) {id : ℕ} (hid : id ∈ callbackIds s.trace) :
    id < s.calls := by
  obtain ⟨o, ho, hc⟩ := List.mem_filterMap.1 hid
  cases o with
  | callback id' cb priv c =>
    obtain rfl := Option.some.inj hc
    exact ((h.returned_iff _).1 (h.clientPromise.own _ _ _ _ ho).1).1
  | _ => exact nomatch hc

/-! ## Timeouts -/

theorem pending_abortSlot_of_completed {s : Hal} {i : Slot} (hc : (s.pending i).completed = true)
    (status : ℤ) (j : Slot) : (s.abortSlot status j).pending i = s.pending i := by
  simp only [Hal.abortSlot]
  split
  · rename_i hj
    have hij : i ≠ j := by
      rintro rfl
      simp [hc] at hj
    rw [setSlot_ne _ _ hij]
    rfl
  · rfl

/-- A completed request is out of reach of `abort_all_pending`. -/
theorem pending_abortAllPending_of_completed {s : Hal} {i : Slot}
    (hc : (s.pending i).completed = true) (status : ℤ) :
    (s.abortAllPending status).pending i = s.pending i := by
  have hfold : ∀ (l : List Slot) (s' : Hal), (s'.pending i).completed = true →
      (l.foldl (Hal.abortSlot status) s').pending i = s'.pending i := by
    intro l
    induction l with
    | nil => exact fun _ _ => rfl
    | cons j l ih =>
      intro s' hc'
      have hj := pending_abortSlot_of_completed hc' status j
      exact (ih _ (by rw [hj]; exact hc')).trans hj
  exact hfold _ s hc

/-- The timer of a waiting request answers it. -/
theorem mem_callbackIds_dispatchTimeout {s : Hal} (h : Inv s) {i : Slot}
    (hw : (s.pending i).Waiting) (time : ℤ) :
    (s.pending i).call ∈ callbackIds (s.dispatchTimeout i time).trace := by
  obtain ⟨hu, hc, harmed, -, hcb⟩ := (h.mid.waiting_iff i).1 hw
  have hlast : ∀ s' : Hal, (s'.pending i).call = (s.pending i).call → (s'.pending i).cb ≠ 0 →
      (s.pending i).call ∈ callbackIds ((s'.log
        (Hal.userCallback (s'.pending i) false false statusTimeout false)).setSlot i
          { s'.pending i with inUse := false }).trace := by
    intro s' hcall hcb'
    obtain ⟨c, huser, -⟩ := userCallback_eq hcb' false false statusTimeout false
    rw [huser, ← hcall]
    exact List.mem_cons_self
  have hreset : ∀ (s' : Hal) (n : ℕ), (s'.pending i).completed = true →
      (if timeoutResetThreshold ≤ n then
          ({ s' with consecutiveFailures := n } : Hal).resetConnection time
        else { s' with consecutiveFailures := n, rcId := 0 }).pending i = s'.pending i := by
    intro s' n hcompleted
    split
    · exact pending_abortAllPending_of_completed
        (s := Hal.log { s' with consecutiveFailures := n } _) hcompleted statusConnFailed
    · rfl
  have hdone : ∀ (s' : Hal) (n : ℕ), (s'.pending i).completed = true →
      (s'.pending i).call = (s.pending i).call → (s'.pending i).cb ≠ 0 → _ :=
    fun s' n hcompleted hcall hcb' => hlast _ (by rw [hreset s' n hcompleted, hcall])
      (by rw [hreset s' n hcompleted]; exact hcb')
  rw [Hal.dispatchTimeout, if_pos harmed]
  unfold Hal.requestTimeoutCb
  dsimp only
  rw [if_neg (by simp [hu, hc])]
  exact hdone (Hal.setSlot _ i _) _ (by rw [setSlot_self]) (by rw [setSlot_self, setSlot_self])
    (by rw [setSlot_self, setSlot_self]; exact hcb)

end NanoHat.UbusReal
