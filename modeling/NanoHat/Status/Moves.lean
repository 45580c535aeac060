import NanoHat.Status.Queries

/-!
# The moves of the status module

Every operation of `sys_status.c` is a sequence of a few moves: entries are marked and unmarked and
a query is handed to the HAL (`Quiet`), a request is called back (`deliver_cases`), a control
request is handed to the HAL (`controlService_cases`). A property that the moves keep is kept by the
operations (`queryServices_moves`, `deliverAll_moves`); this is how a client of the module shows
what it relies on.
-/

namespace NanoHat.Sys

variable {σ ω : Type*}

/-! ## Queries -/

/-- An entry about a query on its way to the HAL. -/
def IsQueryEntry : Obs ω → Prop
  | .queryCalled .. => True
  | .queryRefused _ => True
  | _ => False

/-- What marking an entry, handing its query to the HAL and unmarking it does, seen by a client. -/
structure Quiet (s s' : Sys σ ω) : Prop where
  client : s'.client = s.client
  count : s'.status.serviceCount = s.status.serviceCount
  name : ∀ i, (s'.status.services i).name = (s.status.services i).name
  running : ∀ i, (s'.status.services i).running = (s.status.services i).running
  calls : s.calls ≤ s'.calls
  outstanding : s'.outstanding = s.outstanding ∨ ∃ service requestId i, s.calls < s'.calls ∧
    s'.outstanding = s.outstanding ++ [⟨s.calls, service, .query requestId i⟩]
  log : s'.log = s.log ∨ ∃ o, IsQueryEntry o ∧ s'.log = o :: s.log

/-- Only queries are added to the requests at the HAL. -/
theorem Quiet.mem_outstanding {s s' : Sys σ ω} (hq : Quiet s s') {r : HalRequest σ}
    (hr : r ∈ s'.outstanding) {index : ℤ} {start : Bool} {cb : Option (ℤ → Bool → ℤ → σ → σ)}
    (hctx : r.ctx = .control index start cb) : r ∈ s.outstanding := by
  rcases hq.outstanding with heq | ⟨service, requestId, i, -, heq⟩
  · exact heq ▸ hr
  · rw [heq] at hr
    rcases List.mem_append.1 hr with hr | hr
    · exact hr
    · obtain rfl := List.mem_singleton.1 hr
      cases hctx

theorem issue_running (s : Sys σ ω) (i : ℕ) (nowMs : UInt64) (j : ℕ) :
    ((s.issue i nowMs).2.status.services j).running = (s.status.services j).running := by
  simp only [issue, takeRequestId, logs, modify]
  exact s.status.modify_keeps ServiceStatus.running rfl j

/-- The state in which the HAL gets the query of entry `i`. -/
def asked (s : Sys σ ω) (i : ℕ) (nowMs : UInt64) (env : CallEnv) : Sys σ ω :=
  let (reqId, s) := s.issue i nowMs
  let r : HalRequest σ := ⟨s.calls, (s.status.services i).name, .query reqId i⟩
  { s with
    calls := s.calls + 1
    outstanding := if env.refused then s.outstanding else s.outstanding ++ [r] }

theorem quiet_asked (s : Sys σ ω) (i : ℕ) (nowMs : UInt64) (env : CallEnv) :
    Quiet s (s.asked i nowMs env) where
  client := rfl
  count := rfl
  name j := (issue_keeps s i nowMs j).1
  running j := issue_running s i nowMs j
  calls := Nat.le_succ _
  outstanding := by
    unfold asked
    split_ifs
    · exact Or.inl rfl
    · exact Or.inr ⟨_, _, _, Nat.lt_succ_self _, rfl⟩
  log := Or.inr ⟨.queryCalled s.calls i, trivial, rfl⟩

theorem quiet_refused (s : Sys σ ω) (i call : ℕ) :
    Quiet s ((s.modify i fun svc => { svc with queryPending := false }).logs
      (.queryRefused call)) where
  client := rfl
  count := rfl
  name j := (unmark_keeps s.status i j).1
  running j := by
    simp only [logs, modify]
    exact s.status.modify_keeps ServiceStatus.running rfl j
  calls := le_rfl
  outstanding := Or.inl rfl
  log := Or.inr ⟨.queryRefused call, trivial, rfl⟩

/-- A turn of the loop of `sys_status_query_services` in moves. -/
theorem queryService_eq (nowMs : UInt64) (env : ℕ → CallEnv) (sent : ℕ × Sys σ ω) (i : ℕ) :
    (Sys.queryService nowMs env sent i).2 = sent.2 ∨
    (Sys.queryService nowMs env sent i).2 =
      (sent.2.asked i nowMs (env i)).deliverAll (env i).completions ∨
    (Sys.queryService nowMs env sent i).2 =
      (((sent.2.asked i nowMs (env i)).deliverAll (env i).completions).modify i
        fun svc => { svc with queryPending := false }).logs (.queryRefused sent.2.calls) := by
  obtain ⟨n, s⟩ := sent
  simp only [Sys.queryService, halCall, asked]
  split
  · exact Or.inl rfl
  split
  · exact Or.inl rfl
  cases (env i).refused with
  | true => exact Or.inr (Or.inr rfl)
  | false => exact Or.inr (Or.inl rfl)

section Moves

variable {P : Sys σ ω → Prop}

theorem deliverAll_moves (hdeliver : ∀ s call a, P s → P (s.deliver call a)) {s : Sys σ ω}
    (h : P s) (completions : List (ℕ × Answer)) : P (s.deliverAll completions) := by
  unfold deliverAll
  induction completions generalizing s with
  | nil => exact h
  | cons c completions ih => exact ih (hdeliver s c.1 c.2 h)

/-- A turn of the loop keeps what its moves keep. -/
theorem queryService_rule (hasked : ∀ s i nowMs env, P s → P (s.asked i nowMs env))
    (hunmark : ∀ s i call, P s → P ((s.modify i fun svc => { svc with queryPending := false }).logs
      (.queryRefused call)))
    (hdeliver : ∀ s call a, P s → P (s.deliver call a)) (nowMs : UInt64) (env : ℕ → CallEnv)
    {sent : ℕ × Sys σ ω} (h : P sent.2) (i : ℕ) : P (Sys.queryService nowMs env sent i).2 := by
  have hdone := deliverAll_moves hdeliver (hasked sent.2 i nowMs (env i) h) (env i).completions
  rcases queryService_eq nowMs env sent i with heq | heq | heq
  · rw [heq]
    exact h
  · rw [heq]
    exact hdone
  · rw [heq]
    exact hunmark _ i _ hdone

/-- What every turn keeps, some turns keep. -/
theorem foldl_queryService {nowMs : UInt64} {env : ℕ → CallEnv}
    (hturn : ∀ sent : ℕ × Sys σ ω, P sent.2 → ∀ i, P (Sys.queryService nowMs env sent i).2)
    (l : List ℕ) {sent : ℕ × Sys σ ω} (h : P sent.2) :
    P (l.foldl (Sys.queryService nowMs env) sent).2 := by
  induction l generalizing sent with
  | nil => exact h
  | cons i l ih => exact ih (hturn sent h i)

/-- **A round of queries** keeps what its moves keep. -/
theorem queryServices_moves (hquiet : ∀ s s', Quiet s s' → P s → P s')
    (hdeliver : ∀ s call a, P s → P (s.deliver call a)) {s : Sys σ ω} (h : P s) (nowMs : UInt64)
    (env : ℕ → CallEnv) : P (s.queryServices nowMs env).2 := by
  have hturn : ∀ sent : ℕ × Sys σ ω, P sent.2 → ∀ i, P (Sys.queryService nowMs env sent i).2 :=
    fun _ hsent i => queryService_rule
      (fun _ _ _ _ => hquiet _ _ (quiet_asked _ _ _ _))
      (fun _ _ _ => hquiet _ _ (quiet_refused _ _ _)) hdeliver nowMs env hsent i
  exact foldl_queryService hturn _ h

end Moves

/-! ## Callbacks -/

/-- What one callback of the HAL does. -/
inductive Delivered (s : Sys σ ω) (a : Answer) : Sys σ ω → Prop
  | nothing : Delivered s a s
  /-- A query is dropped as stale, or its answer is written to an entry. -/
  | stale {call requestId k service l₁ l₂}
      (hout : s.outstanding = l₁ ++ ⟨call, service, .query requestId k⟩ :: l₂) :
    Delivered s a (({ s with outstanding := l₁ ++ l₂ } : Sys σ ω).logs (.queryDone call k none a))
  | answer {call requestId k service l₁ l₂ i}
      (hout : s.outstanding = l₁ ++ ⟨call, service, .query requestId k⟩ :: l₂)
      (hi : i < s.status.serviceCount) :
    Delivered s a ((({ s with outstanding := l₁ ++ l₂ } : Sys σ ω).modify i (writeAnswer a)).logs
      (.queryDone call k (some i) a))
  | control {call index start cb service l₁ l₂}
      (hout : s.outstanding = l₁ ++ ⟨call, service, .control index start cb⟩ :: l₂) :
    Delivered s a (({ s with outstanding := l₁ ++ l₂ } : Sys σ ω).serviceControlCb call a index
      start cb)

theorem deliver_cases (s : Sys σ ω) (call : ℕ) (a : Answer) :
    Delivered s a (s.deliver call a) := by
  unfold deliver
  split
  · exact .nothing
  rename_i r hr
  obtain ⟨rfl, l₁, l₂, hout, herase⟩ := find_split hr
  rw [herase]
  obtain ⟨call, service, ctx⟩ := r
  cases ctx with
  | query requestId k =>
    dsimp only [serviceQueryCb]
    split
    · exact .stale hout
    rename_i i hi
    split
    · exact .stale hout
    · exact .answer hout (lookup_eq_some hi).1
  | control index start cb => exact .control hout

/-! ## Control operations -/

/-- The state in which the HAL gets a control request. -/
def controlAsked (s : Sys σ ω) (index : ℤ) (start : Bool)
    (cb : Option (ℤ → Bool → ℤ → σ → σ)) (env : CallEnv) : Sys σ ω :=
  let r : HalRequest σ :=
    ⟨s.calls, (s.status.services index.toNat).name, .control index start cb⟩
  { s with
    calls := s.calls + 1
    outstanding := if env.refused then s.outstanding else s.outstanding ++ [r]
    log := .controlCalled s.calls index.toNat start :: s.log }

theorem mem_controlAsked {s : Sys σ ω} {index : ℤ} {start : Bool}
    {cb : Option (ℤ → Bool → ℤ → σ → σ)} {env : CallEnv} {r : HalRequest σ}
    (hr : r ∈ (s.controlAsked index start cb env).outstanding) : r ∈ s.outstanding ∨
      r = ⟨s.calls, (s.status.services index.toNat).name, .control index start cb⟩ := by
  change r ∈ (if env.refused then s.outstanding else s.outstanding ++ [_]) at hr
  split at hr
  · exact Or.inl hr
  · exact (List.mem_append.1 hr).imp_right List.mem_singleton.1

/-- `sys_status_control_service` in moves. -/
theorem controlService_cases (s : Sys σ ω) (index : ℤ) (start : Bool)
    (cb : Option (ℤ → Bool → ℤ → σ → σ)) (env : CallEnv) :
    ((index < 0 ∨ index ≥ s.status.serviceCount ∨ env.alloc = false) ∧
      s.controlService index start cb env = (-1, s)) ∨
    (0 ≤ index ∧ index < s.status.serviceCount ∧ env.alloc = true ∧ env.refused = true ∧
      s.controlService index start cb env =
        (-1, ((s.controlAsked index start cb env).deliverAll env.completions).logs
          (.controlRefused s.calls))) ∨
    (0 ≤ index ∧ index < s.status.serviceCount ∧ env.alloc = true ∧ env.refused = false ∧
      s.controlService index start cb env =
        (0, (s.controlAsked index start cb env).deliverAll env.completions)) := by
  unfold controlService
  split
  · rename_i hrange
    exact Or.inl ⟨hrange.imp_right Or.inl, rfl⟩
  rename_i hrange
  obtain ⟨h0, hlt⟩ := not_or.1 hrange
  split
  · rename_i halloc
    exact Or.inl ⟨Or.inr (Or.inr (by simpa using halloc)), rfl⟩
  rename_i halloc
  have ha : env.alloc = true := by simpa using halloc
  cases href : env.refused with
  | true =>
    refine Or.inr (Or.inl ⟨by omega, by omega, ha, rfl, ?_⟩)
    simp only [halCall, href, controlAsked, logs, if_true]
    rfl
  | false =>
    refine Or.inr (Or.inr ⟨by omega, by omega, ha, rfl, ?_⟩)
    simp only [halCall, href, controlAsked, logs, Bool.false_eq_true, if_false]
    rfl

/-! ## The list of services -/

/-- Once the entries are there, `sys_status_update_local` leaves them alone. -/
theorem updateLocal_eq {s : Sys σ ω} {cfg : List CStr} (h : s.status.serviceCount = cfg.length) :
    s.updateLocal cfg = s.sampled := by
  have h : s.sampled.status.serviceCount = cfg.length := h
  unfold updateLocal
  generalize s.sampled = s at h ⊢
  dsimp only
  split
  · rename_i hzero
    rw [hzero] at h
    obtain rfl : cfg = [] := List.eq_nil_of_length_eq_zero h.symm
    obtain ⟨⟨services, serviceCount⟩, _, _, _, _, _, _⟩ := s
    obtain rfl : serviceCount = 0 := hzero
    rfl
  · rfl

/-- Sampling goes unnoticed. -/
theorem quiet_sampled (s : Sys σ ω) : Quiet s s.sampled where
  client := rfl
  count := rfl
  name _ := rfl
  running _ := rfl
  calls := le_rfl
  outstanding := Or.inl rfl
  log := Or.inl rfl

end NanoHat.Sys
