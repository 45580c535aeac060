import NanoHat.Status.Refresh
import NanoHat.Status.Moves

/-!
# The refresh interval

`sys_status_query_services` is to leave an entry alone for `SERVICE_REFRESH_INTERVAL_MS` after its
last update. The loop reads the clock once and subtracts unsigned numbers, while the HAL may run
callbacks in every turn: an entry that is called back during the loop, after the clock has been
read, carries a timestamp from the future of the loop and looks as if it had not been updated for
ages. `lawful_iff` says that nothing else goes wrong.
-/

namespace NanoHat.Sys

open UbusHal Runs

variable {σ ω : Type*}

/-! ## The loop, turn by turn -/

/-- The state before turn `i` of the loop of `sys_status_query_services`. -/
def turn (s : Sys σ ω) (nowMs : UInt64) (env : ℕ → CallEnv) (i : ℕ) : Sys σ ω :=
  ((List.range i).foldl (Sys.queryService nowMs env) (0, s)).2

/-- Entry `i` before its turn. -/
def entryAt (s : Sys σ ω) (nowMs : UInt64) (env : ℕ → CallEnv) (i : ℕ) : ServiceStatus :=
  (s.turn nowMs env i).status.services i

/-- The HAL is called in turn `i`. -/
def Sends (s : Sys σ ω) (nowMs : UInt64) (env : ℕ → CallEnv) (i : ℕ) : Prop :=
  (s.turn nowMs env i).calls < (s.turn nowMs env (i + 1)).calls

/-- An event, and the clock in the turns of its loop. -/
abbrev ClockedEvent (σ : Type*) := Event σ × (ℕ → UInt64)

/-- The times at which queries have been called back. -/
def stamps (log : List (Obs ω)) : List UInt64 :=
  log.filterMap fun
    | .queryDone _ _ _ a => some a.nowMs
    | _ => none

/-- The clock does not run backwards: it is not behind the callbacks when the loop reads it, nor
behind this reading in the turns of the loop. -/
def Clocked (s : Sys σ ω) : ClockedEvent σ → Prop
  | (.queryServices nowMs _, sendMs) => (∀ t ∈ stamps s.log, t ≤ nowMs) ∧
    ∀ i < s.status.serviceCount, nowMs ≤ sendMs i
  | _ => True

/-- A query is sent only if none is pending, and the last update is `SERVICE_REFRESH_INTERVAL_MS`
back or there is none. -/
def Lawful (s : Sys σ ω) : ClockedEvent σ → Prop
  | (.queryServices nowMs env, sendMs) => ∀ i < s.status.serviceCount, s.Sends nowMs env i →
    (s.entryAt nowMs env i).queryPending = false ∧ ((s.entryAt nowMs env i).lastUpdateMs = 0 ∨
      (s.entryAt nowMs env i).lastUpdateMs.toNat + serviceRefreshIntervalMs.toNat ≤
        (sendMs i).toNat)
  | _ => True

/-- The condition on a call: an entry that comes up for a query has not been called back in this
call at a later time than the one read, unless `SERVICE_REFRESH_INTERVAL_MS` have passed since. -/
def Undisturbed (s : Sys σ ω) : ClockedEvent σ → Prop
  | (.queryServices nowMs env, sendMs) => ∀ i < s.status.serviceCount,
    due (s.entryAt nowMs env i) nowMs = true → (env i).alloc = true →
    (s.entryAt nowMs env i).lastUpdateMs ≠ (s.status.services i).lastUpdateMs →
    nowMs < (s.entryAt nowMs env i).lastUpdateMs →
      (s.entryAt nowMs env i).lastUpdateMs.toNat + serviceRefreshIntervalMs.toNat ≤
        (sendMs i).toNat
  | _ => True

/-! ## Calls of the HAL -/

theorem Delivered.calls {s s' : Sys σ ω} {a : Answer} (h : Delivered s a s') :
    s'.calls = s.calls := by
  cases h with
  | nothing => rfl
  | stale hout => rfl
  | answer hout hi => rfl
  | control hout =>
    unfold serviceControlCb callControlCb
    split <;> split <;> rfl

theorem calls_deliverAll (s : Sys σ ω) (completions : List (ℕ × Answer)) :
    (s.deliverAll completions).calls = s.calls :=
  deliverAll_moves (P := fun s' => s'.calls = s.calls)
    (fun s' call a h => (deliver_cases s' call a).calls.trans h) rfl completions

/-- The HAL is called when the entry is due and there is memory. -/
theorem sends_iff (s : Sys σ ω) (nowMs : UInt64) (env : ℕ → CallEnv) (i : ℕ) :
    s.Sends nowMs env i ↔ due (s.entryAt nowMs env i) nowMs = true ∧ (env i).alloc = true := by
  unfold Sends entryAt turn
  rw [List.range_succ, List.foldl_append, List.foldl_cons, List.foldl_nil]
  generalize (List.range i).foldl (Sys.queryService nowMs env) (0, s) = sent
  obtain ⟨n, s'⟩ := sent
  simp only [Sys.queryService, halCall]
  cases hdue : due (s'.status.services i) nowMs with
  | false => simp
  | true =>
    cases halloc : (env i).alloc with
    | false => simp
    | true =>
      cases href : (env i).refused with
      | true => simp [logs, modify, calls_deliverAll, issue, takeRequestId]
      | false => simp [calls_deliverAll, issue, takeRequestId, logs, modify]

/-! ## Timestamps -/

/-- An entry carries the time of a callback. -/
def Stamped (s : Sys σ ω) : Prop := ∀ i, (s.status.services i).lastUpdateMs = 0 ∨
  (s.status.services i).lastUpdateMs ∈ stamps s.log

/-- Entries keep their timestamps or lose them, and the log grows. -/
theorem Stamped.grow {s s' : Sys σ ω} (h : Stamped s) (hlog : s.log <:+ s'.log)
    (hkeep : ∀ i, (s'.status.services i).lastUpdateMs = 0 ∨
      (s'.status.services i).lastUpdateMs = (s.status.services i).lastUpdateMs) : Stamped s' := by
  intro i
  rcases hkeep i with hzero | heq
  · exact Or.inl hzero
  · rw [heq]
    exact (h i).imp_right fun hm => (hlog.filterMap _).subset hm

/-- A control operation that completes takes the timestamp away. -/
theorem Stamped.control {s : Sys σ ω} (h : Stamped s) (call : ℕ) (a : Answer) (index : ℤ)
    (start : Bool) (cb : Option (ℤ → Bool → ℤ → σ → σ)) :
    Stamped (s.serviceControlCb call a index start cb) := by
  have hclient : ∀ s' : Sys σ ω, Stamped s' → Stamped (s'.callControlCb a index cb) := by
    intro s' h'
    cases cb with
    | none => exact h'
    | some cb => exact h'
  simp only [serviceControlCb]
  refine hclient _ ?_
  split
  · refine h.grow (List.suffix_cons _ _) fun i => ?_
    simp only [logs, modify]
    by_cases hi : i = index.toNat
    · subst hi
      rw [SysStatus.modify_self, lastUpdateMs_writeControl]
      exact Or.inl rfl
    · rw [SysStatus.modify_ne _ hi]
      exact Or.inr rfl
  · exact h

theorem Stamped.deliver (s : Sys σ ω) (call : ℕ) (a : Answer) (h : Stamped s) :
    Stamped (s.deliver call a) := by
  have hd := deliver_cases s call a
  generalize s.deliver call a = s' at hd
  cases hd with
  | nothing => exact h
  | stale hout => exact h.grow (List.suffix_cons _ _) fun i => Or.inr rfl
  | @answer call requestId k service l₁ l₂ i hout hi =>
    intro j
    have hlog : stamps (Obs.queryDone call k (some i) a :: s.log) = a.nowMs :: stamps s.log := rfl
    simp only [logs, modify, hlog]
    by_cases hj : j = i
    · subst hj
      rw [SysStatus.modify_self, lastUpdateMs_writeAnswer]
      exact Or.inr List.mem_cons_self
    · rw [SysStatus.modify_ne _ hj]
      exact (h j).imp_right (List.mem_cons_of_mem _)
  | @control call index start cb service l₁ l₂ hout =>
    have hdrop : Stamped ({ s with outstanding := l₁ ++ l₂ } : Sys σ ω) := h
    exact hdrop.control call a index start cb

theorem Stamped.asked (s : Sys σ ω) (i : ℕ) (nowMs : UInt64) (env : CallEnv) (h : Stamped s) :
    Stamped (s.asked i nowMs env) :=
  h.grow (List.suffix_cons _ _) fun j => Or.inr (issue_keeps s i nowMs j).2

theorem Stamped.unmark (s : Sys σ ω) (i call : ℕ) (h : Stamped s) :
    Stamped ((s.modify i fun svc => { svc with queryPending := false }).logs
      (.queryRefused call)) :=
  h.grow (List.suffix_cons _ _) fun j => Or.inr (unmark_keeps s.status i j).2

theorem Stamped.updateLocal {s : Sys σ ω} (h : Stamped s) (cfg : List CStr) :
    Stamped (s.updateLocal cfg) := by
  have h : Stamped s.sampled := h
  unfold Sys.updateLocal
  generalize s.sampled = s at h ⊢
  dsimp only
  split
  · intro i
    dsimp only
    split
    · exact Or.inl rfl
    · exact h i
  · exact h

theorem Stamped.controlService {s : Sys σ ω} (h : Stamped s) (index : ℤ) (start : Bool)
    (cb : Option (ℤ → Bool → ℤ → σ → σ)) (env : CallEnv) :
    Stamped (s.controlService index start cb env).2 := by
  have hasked : Stamped (s.controlAsked index start cb env) :=
    h.grow (List.suffix_cons _ _) fun i => Or.inr rfl
  have hdone := deliverAll_moves Stamped.deliver hasked env.completions
  rcases controlService_cases s index start cb env with ⟨-, heq⟩ | ⟨-, -, -, -, heq⟩ |
    ⟨-, -, -, -, heq⟩
  · rw [heq]
    exact h
  · rw [heq]
    exact hdone.grow (List.suffix_cons _ _) fun i => Or.inr rfl
  · rw [heq]
    exact hdone

theorem Stamped.turns {s : Sys σ ω} (h : Stamped s) (nowMs : UInt64) (env : ℕ → CallEnv)
    (l : List ℕ) : Stamped (l.foldl (Sys.queryService nowMs env) (0, s)).2 :=
  foldl_queryService (fun _ hsent i =>
    queryService_rule Stamped.asked Stamped.unmark Stamped.deliver nowMs env hsent i) l h

theorem Stamped.step (cfg : List CStr) {s : Sys σ ω} (h : Stamped s) (e : Event σ) :
    Stamped (s.step cfg e) := by
  cases e with
  | updateLocal => exact h.updateLocal cfg
  | queryServices nowMs env => exact h.turns nowMs env _
  | controlService index start cb env => exact h.controlService index start cb env
  | complete call a => exact Stamped.deliver s call a h

/-! ## The exact condition -/

theorem le_of_due {svc : ServiceStatus} {nowMs : UInt64} (h : due svc nowMs = true)
    (hzero : svc.lastUpdateMs ≠ 0) (hle : svc.lastUpdateMs ≤ nowMs) :
    svc.lastUpdateMs.toNat + serviceRefreshIntervalMs.toNat ≤ nowMs.toNat := by
  have hpos : 0 < svc.lastUpdateMs := UInt64.pos_iff_ne_zero.2 hzero
  simp only [due, Bool.and_eq_true, Bool.not_eq_true', decide_eq_true hpos, Bool.true_and,
    decide_eq_false_iff_not, UInt64.not_lt] at h
  have hsub := UInt64.toNat_sub_of_le _ _ hle
  have hinterval := UInt64.le_iff_toNat_le.1 h.2
  rw [hsub] at hinterval
  have hnat := UInt64.le_iff_toNat_le.1 hle
  omega

theorem Stamped.lawful_step_iff {s : Sys σ ω} (h : Stamped s) {e : ClockedEvent σ}
    (hclock : Clocked s e) : Lawful s e ↔ Undisturbed s e := by
  obtain ⟨e, sendMs⟩ := e
  cases e with
  | updateLocal => exact Iff.rfl
  | controlService index start cb env => exact Iff.rfl
  | complete call a => exact Iff.rfl
  | queryServices nowMs env =>
  obtain ⟨hpast, hturns⟩ := hclock
  constructor
  · intro hlaw i hi hdue halloc _ hlater
    have hzero : (s.entryAt nowMs env i).lastUpdateMs ≠ 0 := by
      intro hz
      rw [hz] at hlater
      exact absurd hlater (UInt64.not_lt_zero)
    exact (hlaw i hi ((sends_iff s nowMs env i).2 ⟨hdue, halloc⟩)).2.resolve_left hzero
  · intro hcond i hi hsends
    obtain ⟨hdue, halloc⟩ := (sends_iff s nowMs env i).1 hsends
    refine ⟨queryPending_of_due hdue, ?_⟩
    by_cases hzero : (s.entryAt nowMs env i).lastUpdateMs = 0
    · exact Or.inl hzero
    refine Or.inr ?_
    by_cases hle : (s.entryAt nowMs env i).lastUpdateMs ≤ nowMs
    · exact (le_of_due hdue hzero hle).trans (UInt64.le_iff_toNat_le.1 (hturns i hi))
    · refine hcond i hi hdue halloc (fun heq => hle ?_) (UInt64.not_le.1 hle)
      rw [heq] at hzero ⊢
      exact hpast _ ((h i).resolve_left hzero)

/-- **When queries keep their distance.** In every run under a clock that does not run backwards,
for arbitrary callbacks before and while the HAL is called: every query that
`sys_status_query_services` sends is for an entry that is not pending and was last updated
`SERVICE_REFRESH_INTERVAL_MS` or more before, or never, exactly when no entry comes up for a query
shortly after it has been called back in the same call. -/
theorem lawful_iff (cfg : List CStr) (client : σ) {es : List (ClockedEvent σ)}
    (hclock : Along (fun (s : Sys σ ω) e => s.step cfg e.1) Clocked { client := client } es) :
    Along (fun (s : Sys σ ω) e => s.step cfg e.1) Lawful { client := client } es ↔
      Along (fun (s : Sys σ ω) e => s.step cfg e.1) Undisturbed { client := client } es :=
  along_iff_along_of (I := Stamped) (fun _ e h _ => h.step cfg e.1)
    (fun _ _ h hc => h.lawful_step_iff hc) (fun _ => Or.inl rfl) hclock

/-! ### Concrete runs -/

instance (s : Sys σ ω) (nowMs : UInt64) (env : ℕ → CallEnv) (i : ℕ) :
    Decidable (s.Sends nowMs env i) := inferInstanceAs (Decidable (_ < _))

instance (s : Sys σ ω) : DecidablePred (Clocked s)
  | (.queryServices _ _, _) => inferInstanceAs (Decidable (_ ∧ ∀ i < s.status.serviceCount, _))
  | (.updateLocal, _) => isTrue trivial
  | (.controlService .., _) => isTrue trivial
  | (.complete .., _) => isTrue trivial

instance (s : Sys σ ω) : DecidablePred (Lawful s)
  | (.queryServices _ _, _) => inferInstanceAs (Decidable (∀ i < s.status.serviceCount, _ → _ ∧ _))
  | (.updateLocal, _) => isTrue trivial
  | (.controlService .., _) => isTrue trivial
  | (.complete .., _) => isTrue trivial

instance (s : Sys σ ω) : DecidablePred (Undisturbed s)
  | (.queryServices _ _, _) =>
    inferInstanceAs (Decidable (∀ i < s.status.serviceCount, _ → _ → _ → _ → _))
  | (.updateLocal, _) => isTrue trivial
  | (.controlService .., _) => isTrue trivial
  | (.complete .., _) => isTrue trivial

/-- An event while the clock stands at a time. -/
def atMs (nowMs : UInt64) (e : Event Unit) : ClockedEvent Unit := (e, fun _ => nowMs)

/-- Two services are queried, answered and queried again 5 s later. -/
theorem lawful_twice :
    Along (fun (s : Sys Unit Unit) e => s.step [['a'], ['b']] e.1) Lawful { client := () }
      [atMs 0 .updateLocal, atMs 10000 (.queryServices 10000 fun _ => {}),
        atMs 10010 (.complete 0 { nowMs := 10010 }), atMs 10020 (.complete 1 { nowMs := 10020 }),
        atMs 15020 (.queryServices 15020 fun _ => {})] :=
  (lawful_iff [['a'], ['b']] () (by decide +kernel)).2 (by decide +kernel)

/-- The connection to `rpcd` is lost while the query of the second service is pending: the query of
the first one fails to look `rc` up, and the HAL calls both back at 10103 ms. -/
def lookupFails (i : ℕ) : CallEnv :=
  if i = 0 then { completions := [(1, { status := statusConnFailed, nowMs := 10103 }),
    (3, { status := statusConnFailed, nowMs := 10103 })] }
  else { completions := [(4, { status := statusConnFailed, nowMs := 10103 })] }

/-- The failing input: a round of queries at 10100 ms, after a control operation of the first
service has failed with `NOT_FOUND`. The second service is called back at 10103 ms and queried
again at once. -/
theorem queried_at_once : ¬∀ (cfg : List CStr) (es : List (ClockedEvent Unit)),
    Along (fun (s : Sys Unit Unit) e => s.step cfg e.1) Clocked { client := () } es →
      Along (fun (s : Sys Unit Unit) e => s.step cfg e.1) Lawful { client := () } es := by
  intro h
  have hrun := h [['a'], ['b']]
    [atMs 0 .updateLocal, atMs 10000 (.queryServices 10000 fun _ => {}),
      atMs 10010 (.complete 0 { nowMs := 10010 }), atMs 10020 (.controlService 0 true none {}),
      atMs 10030 (.complete 2 { status := statusNotFound, nowMs := 10030 }),
      atMs 10103 (.queryServices 10100 lookupFails)] (by decide +kernel)
  exact absurd hrun (by decide +kernel)

end NanoHat.Sys
