import NanoHat.Status.Queries

/-!
# Queries around a control operation

A successful start or stop writes the new running state and asks for a refresh by setting
`last_update_ms` to 0. `service_query_cb` tells queries apart by their request id only, so that an
answer to a query that was at the HAL at that moment undoes both. If no query that asks for the
entry was at the HAL, neither can happen: every answer written to the entry later on is the
answer to a later query, and the entry stays due until it is asked for again (`controlOk_after`).
-/

namespace NanoHat.Sys

open UbusHal Runs

variable {σ ω : Type*}

/-! ## The invariant -/

/-- No entry with the name of entry `i` has been asked for in this part of the log. -/
def Unasked (s : Sys σ ω) (i : ℕ) (part : List (Obs ω)) : Prop :=
  ∀ call j, .queryCalled call j ∈ part → (s.status.services j).name ≠ (s.status.services i).name

/-- An answer is written to an entry only if its query was sent after every control completion of
the entry at which no query was at the HAL. -/
def WrittenLater : Obs ω → List (Obs ω) → Prop
  | .queryDone call _ (some i) _, past =>
    ∀ c post past', past = post ++ .controlDone c i true [] :: past' →
      ∀ j, .queryCalled call j ∉ past'
  | _, _ => True

/-- The invariant. -/
structure RInv (s : Sys σ ω) : Prop where
  early : s.status.serviceCount = 0 → ∀ r ∈ s.outstanding, ∀ id k, r.ctx ≠ .query id k
  range : ∀ c i success queries, .controlDone c i success queries ∈ s.log →
    i < s.status.serviceCount
  fresh : ∀ call j, .queryCalled call j ∈ s.log → call < s.calls
  later : ∀ r ∈ s.outstanding, ∀ i, s.asksFor i r = true → ∀ c post past,
    s.log = post ++ .controlDone c i true [] :: past → ∀ j, .queryCalled r.call j ∉ past
  due : ∀ i c post past, s.log = post ++ .controlDone c i true [] :: past → s.Unasked i post →
    (s.status.services i).lastUpdateMs = 0 ∧ ∀ r ∈ s.outstanding, s.asksFor i r = false
  written : Always WrittenLater s.log

/-- A request asks for an entry of its own name. -/
theorem name_of_asksFor {s : Sys σ ω} {i : ℕ} {r : HalRequest σ} (h : s.asksFor i r = true) :
    (s.status.services i).name = r.service := by
  cases hctx : r.ctx with
  | query id k =>
    simp only [asksFor, hctx, decide_eq_true_eq] at h
    exact (lookup_eq_some h).2
  | control index start cb => simp [asksFor, hctx] at h

theorem lookup_congr {s s' : SysStatus} (hcount : s'.serviceCount = s.serviceCount)
    (hname : ∀ i, (s'.services i).name = (s.services i).name) (service : CStr) :
    s'.lookup service = s.lookup service := by
  simp only [SysStatus.lookup, hcount, hname]

theorem asksFor_congr {s s' : Sys σ ω} (hcount : s'.status.serviceCount = s.status.serviceCount)
    (hname : ∀ i, (s'.status.services i).name = (s.status.services i).name) (i : ℕ)
    (r : HalRequest σ) : s'.asksFor i r = s.asksFor i r := by
  simp only [asksFor, lookup_congr hcount hname]

/-- A log with a new entry, split at an older one. -/
theorem split_cons {α : Type*} {o x : α} {l post past : List α} (h : o :: l = post ++ x :: past) :
    (post = [] ∧ o = x ∧ l = past) ∨ ∃ post', post = o :: post' ∧ l = post' ++ x :: past := by
  cases post with
  | nil =>
    obtain ⟨rfl, rfl⟩ := List.cons.inj h
    exact Or.inl ⟨rfl, rfl, rfl⟩
  | cons p post =>
    obtain ⟨rfl, rfl⟩ := List.cons.inj h
    exact Or.inr ⟨post, rfl, rfl⟩

/-- A piece of code that adds one entry to the log that is not the call of a query, drops
requests or adds control requests, and changes entries without touching names. `hcontrol` is what
the completion of a control operation has to ensure. -/
theorem RInv.logged {s s' : Sys σ ω} (h : RInv s)
    (hcount : s'.status.serviceCount = s.status.serviceCount)
    (hname : ∀ i, (s'.status.services i).name = (s.status.services i).name)
    (hcalls : s.calls ≤ s'.calls) {o : Obs ω} (hlog : s'.log = o :: s.log)
    (hout : ∀ r ∈ s'.outstanding, r ∈ s.outstanding ∨ ∃ index start cb,
      r.ctx = .control index start cb)
    (hcall : ∀ call j, o ≠ .queryCalled call j) (hwritten : WrittenLater o s.log)
    (hcontrol : ∀ c i success queries, o = .controlDone c i success queries →
      i < s.status.serviceCount ∧ (success = true → queries = [] →
        (s'.status.services i).lastUpdateMs = 0 ∧ ∀ r ∈ s'.outstanding, s.asksFor i r = false))
    (hupdate : ∀ i c post past, s.log = post ++ .controlDone c i true [] :: past →
      s.Unasked i post → (s'.status.services i).lastUpdateMs = 0) : RInv s' := by
  have hunasked : ∀ i post, s'.Unasked i (o :: post) → s.Unasked i post := fun i post hu call j hm => by
    have := hu call j (List.mem_cons_of_mem _ hm)
    rwa [hname, hname] at this
  have hcontrols : ∀ r : HalRequest σ, (∃ index start cb, r.ctx = .control index start cb) →
      ∀ i, s.asksFor i r = false := fun r ⟨index, start, cb, hctx⟩ i => by simp [asksFor, hctx]
  refine ⟨fun hc r hr id k hctx => ?_, fun c i success queries hm => ?_, fun call j hm => ?_,
    fun r hr i ha c post past hs j hm => ?_, fun i c post past hs hu => ?_, ?_⟩
  · rcases hout r hr with hr | ⟨index, start, cb, hctx'⟩
    · exact h.early (hcount ▸ hc) r hr id k hctx
    · simp [hctx'] at hctx
  · rw [hcount]
    rw [hlog] at hm
    rcases List.mem_cons.1 hm with heq | hm
    · exact (hcontrol c i success queries heq.symm).1
    · exact h.range c i success queries hm
  · rw [hlog] at hm
    rcases List.mem_cons.1 hm with heq | hm
    · exact absurd heq.symm (hcall call j)
    · exact lt_of_lt_of_le (h.fresh call j hm) hcalls
  · rw [asksFor_congr hcount hname] at ha
    rw [hlog] at hs
    rcases split_cons hs with ⟨-, ho, rfl⟩ | ⟨post', -, hs'⟩
    · have := ((hcontrol c i true [] ho).2 rfl rfl).2 r hr
      simp [ha] at this
    · rcases hout r hr with hr | hr
      · exact h.later r hr i ha c post' past hs' j hm
      · simp [hcontrols r hr i] at ha
  · rw [hlog] at hs
    rcases split_cons hs with ⟨-, ho, -⟩ | ⟨post', rfl, hs'⟩
    · obtain ⟨hl, hr⟩ := (hcontrol c i true [] ho).2 rfl rfl
      exact ⟨hl, fun r hm => by rw [asksFor_congr hcount hname]; exact hr r hm⟩
    · refine ⟨hupdate i c post' past hs' (hunasked i post' hu), fun r hm => ?_⟩
      rw [asksFor_congr hcount hname]
      rcases hout r hm with hm | hm
      · exact (h.due i c post' past hs' (hunasked i post' hu)).2 r hm
      · exact hcontrols r hm i
  · rw [hlog]
    exact ⟨hwritten, h.written⟩

/-- The call of a query for entry `i`, and the request that it may leave at the HAL. -/
theorem RInv.called {s s' : Sys σ ω} (h : RInv s)
    (hcount : s'.status.serviceCount = s.status.serviceCount)
    (hname : ∀ i, (s'.status.services i).name = (s.status.services i).name)
    (hcalls : s'.calls = s.calls + 1) {i : ℕ} (hi : i < s.status.serviceCount)
    (hlog : s'.log = .queryCalled s.calls i :: s.log)
    (hout : ∀ r ∈ s'.outstanding, r ∈ s.outstanding ∨
      (r.call = s.calls ∧ r.service = (s.status.services i).name))
    (hupdate : ∀ j, (s'.status.services j).lastUpdateMs = (s.status.services j).lastUpdateMs) :
    RInv s' := by
  have hold : ∀ c j post past, s'.log = post ++ .controlDone c j true [] :: past →
      ∃ post', post = .queryCalled s.calls i :: post' ∧
        s.log = post' ++ .controlDone c j true [] :: past := fun c j post past hs => by
    rw [hlog] at hs
    rcases split_cons hs with ⟨-, ho, -⟩ | hs
    · simp at ho
    · exact hs
  refine ⟨fun hc => by omega, fun c j success queries hm => ?_, fun call j hm => ?_,
    fun r hr j ha c post past hs k hm => ?_, fun j c post past hs hu => ?_, ?_⟩
  · rw [hcount]
    rw [hlog] at hm
    rcases List.mem_cons.1 hm with heq | hm
    · simp at heq
    · exact h.range c j success queries hm
  · rw [hcalls]
    rw [hlog] at hm
    rcases List.mem_cons.1 hm with heq | hm
    · rw [(Obs.queryCalled.inj heq).1]
      exact Nat.lt_succ_self _
    · exact Nat.lt_succ_of_lt (h.fresh call j hm)
  · rw [asksFor_congr hcount hname] at ha
    obtain ⟨post', -, hs'⟩ := hold c j post past hs
    rcases hout r hr with hr | ⟨hcall, -⟩
    · exact h.later r hr j ha c post' past hs' k hm
    · have := h.fresh r.call k (by rw [hs']; simp [hm])
      omega
  · obtain ⟨post', rfl, hs'⟩ := hold c j post past hs
    have hu' : s.Unasked j post' := fun call k hm => by
      have := hu call k (List.mem_cons_of_mem _ hm)
      rwa [hname, hname] at this
    obtain ⟨hlast, hr⟩ := h.due j c post' past hs' hu'
    refine ⟨by rw [hupdate, hlast], fun r hm => ?_⟩
    rw [asksFor_congr hcount hname]
    rcases hout r hm with hm | ⟨-, hservice⟩
    · exact hr r hm
    · by_contra ha
      have hji := name_of_asksFor (by simpa using ha)
      have hne := hu s.calls i List.mem_cons_self
      rw [hname, hname] at hne
      exact hne (hservice.symm.trans hji.symm)
  · rw [hlog]
    exact ⟨trivial, h.written⟩

/-! ## Callbacks -/

theorem RInv.query {s : Sys σ ω} (h : RInv s) {l₁ l₂ : List (HalRequest σ)} {r : HalRequest σ}
    (hout : s.outstanding = l₁ ++ r :: l₂) {requestId : UInt32} {k : ℕ}
    (hctx : r.ctx = .query requestId k) (a : Answer) :
    RInv (({ s with outstanding := l₁ ++ l₂ } : Sys σ ω).serviceQueryCb r.call r.service a
      requestId k) := by
  have hmem : r ∈ s.outstanding := by rw [hout]; simp
  have hsub : l₁ ++ l₂ ⊆ s.outstanding := (sublist_split hout).subset
  have hstale : RInv (({ s with outstanding := l₁ ++ l₂ } : Sys σ ω).logs
      (.queryDone r.call k none a)) :=
    h.logged rfl (fun _ => rfl) le_rfl rfl (fun r' hr' => Or.inl (hsub hr')) (by simp) trivial
      (by simp) fun i c post past hs hu => (h.due i c post past hs hu).1
  simp only [serviceQueryCb]
  split
  · exact hstale
  rename_i i hi
  have hasks : s.asksFor i r = true := by simp only [asksFor, hctx]; exact decide_eq_true hi
  split
  · exact hstale
  have hsame : Same s (({ s with outstanding := l₁ ++ l₂ } : Sys σ ω).modify i (writeAnswer a)) :=
    .of_modify rfl (name_writeAnswer a) rfl rfl
  refine h.logged hsame.count hsame.name le_rfl rfl (fun r' hr' => Or.inl (hsub hr')) (by simp)
    ?_ (by simp) fun j c post past hs hu => ?_
  · exact fun c post past hs j => h.later r hmem i hasks c post past hs j
  · have hji : j ≠ i := fun he => by
      have := (h.due j c post past hs hu).2 r hmem
      simp [he, hasks] at this
    simp only [logs, modify, SysStatus.modify_ne _ hji]
    exact (h.due j c post past hs hu).1

theorem RInv.control {s : Sys σ ω} (h : RInv s) (call : ℕ) (a : Answer) (index : ℤ)
    (start : Bool) (cb : Option (ℤ → Bool → ℤ → σ → σ)) :
    RInv (s.serviceControlCb call a index start cb) := by
  have hclient : ∀ s' : Sys σ ω, RInv s' → RInv (s'.callControlCb a index cb) := fun s' h' => by
    cases cb with
    | none => exact h'
    | some cb => exact ⟨h'.early, h'.range, h'.fresh, h'.later, h'.due, h'.written⟩
  simp only [serviceControlCb]
  refine hclient _ ?_
  split
  swap
  · exact h
  rename_i hrange
  have hsame : Same s (s.modify index.toNat (writeControl start a.success)) :=
    .of_modify rfl (name_writeControl start a.success) rfl rfl
  refine h.logged hsame.count hsame.name le_rfl rfl (fun _ hr => Or.inl hr) (by simp) trivial
    (fun c i success queries ho => ?_) fun i c post past hs hu => ?_
  · obtain ⟨-, rfl, -, hq⟩ := Obs.controlDone.inj ho
    refine ⟨by omega, fun _ hnil => ⟨?_, fun r hr => ?_⟩⟩
    · simp only [logs, modify, SysStatus.modify_self, lastUpdateMs_writeControl]
    · rw [hnil, List.map_eq_nil_iff, List.filter_eq_nil_iff] at hq
      simpa using hq r hr
  · by_cases hi : i = index.toNat
    · subst hi
      simp only [logs, modify, SysStatus.modify_self, lastUpdateMs_writeControl]
    · simp only [logs, modify, SysStatus.modify_ne _ hi]
      exact (h.due i c post past hs hu).1

theorem RInv.drop {s : Sys σ ω} (h : RInv s) {l : List (HalRequest σ)}
    (hl : ∀ r ∈ l, r ∈ s.outstanding) : RInv { s with outstanding := l } where
  early hc r hr := h.early hc r (hl r hr)
  range := h.range
  fresh := h.fresh
  later r hr := h.later r (hl r hr)
  due i c post past hs hu :=
    let ⟨hlast, hr⟩ := h.due i c post past hs hu
    ⟨hlast, fun r hm => hr r (hl r hm)⟩
  written := h.written

theorem RInv.deliver {s : Sys σ ω} (h : RInv s) (call : ℕ) (a : Answer) :
    RInv (s.deliver call a) := by
  simp only [Sys.deliver]
  split
  · exact h
  rename_i r hr
  obtain ⟨rfl, l₁, l₂, hout, herase⟩ := find_split hr
  rw [herase]
  cases hctx : r.ctx with
  | query requestId k => exact h.query hout hctx a
  | control index start cb =>
    exact (h.drop (sublist_split hout).subset).control r.call a index start cb

theorem RInv.deliverAll {s : Sys σ ω} (h : RInv s) (completions : List (ℕ × Answer)) :
    RInv (s.deliverAll completions) := by
  simp only [Sys.deliverAll]
  induction completions generalizing s with
  | nil => exact h
  | cons c completions ih => exact ih (h.deliver c.1 c.2)

/-! ## Calls -/

theorem RInv.queryService {sent : ℕ × Sys σ ω} (h : RInv sent.2) {i : ℕ}
    (hi : i < sent.2.status.serviceCount) (nowMs : UInt64) (env : ℕ → CallEnv) :
    RInv (Sys.queryService nowMs env sent i).2 := by
  obtain ⟨n, s⟩ := sent
  simp only [Sys.queryService]
  split
  · exact h
  split
  · exact h
  have hkeeps := issue_keeps s i nowMs
  simp only [halCall]
  by_cases href : (env i).refused = true
  · rw [if_pos href, if_pos (show (-1 : ℤ) < 0 by decide)]
    have hcalled : RInv { (s.issue i nowMs).2 with calls := (s.issue i nowMs).2.calls + 1 } :=
      h.called rfl (fun j => (hkeeps j).1) rfl hi rfl (fun _ hr => Or.inl hr) fun j => (hkeeps j).2
    have hall := hcalled.deliverAll (env i).completions
    exact hall.logged rfl (fun j => (unmark_keeps _ i j).1) le_rfl rfl (fun _ hr => Or.inl hr)
      (by simp) trivial (by simp) fun j c post past hs hu =>
        (unmark_keeps _ i j).2.trans (hall.due j c post past hs hu).1
  · rw [if_neg href, if_neg (show ¬(0 : ℤ) < 0 by decide)]
    have hcalled : RInv { (s.issue i nowMs).2 with
        calls := (s.issue i nowMs).2.calls + 1
        outstanding := (s.issue i nowMs).2.outstanding ++ [⟨(s.issue i nowMs).2.calls,
          ((s.issue i nowMs).2.status.services i).name, .query (s.issue i nowMs).1 i⟩] } := by
      refine h.called rfl (fun j => (hkeeps j).1) rfl hi rfl (fun r hr => ?_) fun j => (hkeeps j).2
      rcases List.mem_append.1 hr with hr | hr
      · exact Or.inl hr
      · rw [List.mem_singleton.1 hr]
        exact Or.inr ⟨rfl, (hkeeps i).1⟩
    exact hcalled.deliverAll _

theorem RInv.controlService {s : Sys σ ω} (h : RInv s) (index : ℤ) (start : Bool)
    (cb : Option (ℤ → Bool → ℤ → σ → σ)) (env : CallEnv) :
    RInv (s.controlService index start cb env).2 := by
  simp only [Sys.controlService]
  split
  · exact h
  split
  · exact h
  have hdue : ∀ {s' : Sys σ ω}, RInv s' → ∀ i c post past,
      s'.log = post ++ .controlDone c i true [] :: past → s'.Unasked i post →
      (s'.status.services i).lastUpdateMs = 0 := fun h' i c post past hs hu =>
    (h'.due i c post past hs hu).1
  simp only [halCall]
  by_cases href : env.refused = true
  · rw [if_pos href, if_pos (show (-1 : ℤ) < 0 by decide)]
    have hcalled : RInv { s.logs (.controlCalled s.calls index.toNat start) with
        calls := s.calls + 1 } :=
      h.logged rfl (fun _ => rfl) (Nat.le_succ _) rfl (fun _ hr => Or.inl hr) (by simp) trivial
        (by simp) (hdue h)
    have hall := hcalled.deliverAll env.completions
    exact hall.logged rfl (fun _ => rfl) le_rfl rfl (fun _ hr => Or.inl hr) (by simp) trivial
      (by simp) (hdue hall)
  · rw [if_neg href, if_neg (show ¬(0 : ℤ) < 0 by decide)]
    have hcalled : RInv { s.logs (.controlCalled s.calls index.toNat start) with
        calls := s.calls + 1
        outstanding := s.outstanding ++
          [⟨s.calls, (s.status.services index.toNat).name, .control index start cb⟩] } := by
      refine h.logged rfl (fun _ => rfl) (Nat.le_succ _) rfl (fun r hr => ?_) (by simp) trivial
        (by simp) (hdue h)
      rcases List.mem_append.1 hr with hr | hr
      · exact Or.inl hr
      · rw [List.mem_singleton.1 hr]
        exact Or.inr ⟨index, start, cb, rfl⟩
    exact hcalled.deliverAll _

theorem RInv.updateLocal {s : Sys σ ω} (h : RInv s) (cfg : List CStr) :
    RInv (s.updateLocal cfg) := by
  have h : RInv s.sampled := ⟨h.early, h.range, h.fresh, h.later, h.due, h.written⟩
  simp only [Sys.updateLocal]
  generalize s.sampled = s at h ⊢
  split
  swap
  · exact h
  rename_i hzero
  have hnone : ∀ c i success queries, .controlDone c i success queries ∉ s.log :=
    fun c i success queries hm => by
      have := h.range c i success queries hm
      omega
  have hearly := h.early hzero
  refine ⟨fun _ => hearly, fun c i success queries hm => absurd hm (hnone c i success queries),
    h.fresh, fun r hr i ha => ?_, fun i c post past hs => ?_, h.written⟩
  · cases hctx : r.ctx with
    | query id k => exact absurd hctx (hearly r hr id k)
    | control index start cb => simp [asksFor, hctx] at ha
  · exact absurd (show Obs.controlDone c i true [] ∈ s.log by rw [show s.log = _ from hs]; simp)
      (hnone c i true [])

theorem rInv_initial (client : σ) : RInv ({ client := client } : Sys σ ω) where
  early _ _ hr := absurd hr List.not_mem_nil
  range _ _ _ _ hm := absurd hm List.not_mem_nil
  fresh _ _ hm := absurd hm List.not_mem_nil
  later _ hr := absurd hr List.not_mem_nil
  due i c post past hs := by simp at hs
  written := trivial

theorem rInv_step (cfg : List CStr) {s : Sys σ ω} (h : RInv s) (e : Event σ) :
    RInv (step cfg s e) := by
  cases e with
  | updateLocal => exact h.updateLocal cfg
  | queryServices nowMs env =>
    exact queryServices_induction (P := RInv) nowMs env _
      (fun _ _ _ hq hi => hq.queryService hi nowMs env) _ h fun i hi => by simpa using hi
  | controlService index start cb env => exact h.controlService index start cb env
  | complete call a => exact h.deliver call a

theorem rInv_after (cfg : List CStr) (client : σ) (es : List (Event σ)) :
    RInv (after cfg client es : Sys σ ω) :=
  run_invariant (P := RInv) (fun _ e h => rInv_step cfg h e) (rInv_initial client) es

/-! ## An entry that is due is asked for -/

/-- Entry `i` is due, and no answer to a query at the HAL can change that. -/
structure Waiting (i : ℕ) (s : Sys σ ω) : Prop where
  idle : (s.status.services i).queryPending = false
  last : (s.status.services i).lastUpdateMs = 0
  quiet : ∀ r ∈ s.outstanding, s.asksFor i r = false

theorem lookup_le {s : SysStatus} {i k : ℕ}
    (h : s.lookup (s.services k).name = some i) : i ≤ k := by
  by_contra hlt
  have := (List.find?_range_eq_some.1 h).2.2 k (by omega)
  simp at this

/-- A callback drops a request and adds to the log. -/
theorem deliver_grows (s : Sys σ ω) (call : ℕ) (a : Answer) :
    (∀ r ∈ (s.deliver call a).outstanding, r ∈ s.outstanding) ∧
      s.log <:+ (s.deliver call a).log := by
  have herase : ∀ r ∈ s.outstanding.eraseP (·.call = call), r ∈ s.outstanding :=
    fun r hr => List.mem_of_mem_eraseP hr
  simp only [Sys.deliver]
  split
  · exact ⟨fun _ hr => hr, List.suffix_rfl⟩
  rename_i r hr
  cases r.ctx with
  | query requestId k =>
    simp only [serviceQueryCb]
    split
    · exact ⟨herase, List.suffix_cons ..⟩
    split
    · exact ⟨herase, List.suffix_cons ..⟩
    · exact ⟨herase, List.suffix_cons ..⟩
  | control index start cb =>
    have hcb : ∀ s' : Sys σ ω, (s'.callControlCb a index cb).outstanding = s'.outstanding ∧
        (s'.callControlCb a index cb).log = s'.log := fun s' => by cases cb <;> exact ⟨rfl, rfl⟩
    simp only [serviceControlCb, hcb]
    split
    · exact ⟨herase, List.suffix_cons ..⟩
    · exact ⟨herase, List.suffix_rfl⟩

theorem deliverAll_grows (s : Sys σ ω) (completions : List (ℕ × Answer)) :
    s.log <:+ (s.deliverAll completions).log := by
  simp only [Sys.deliverAll]
  induction completions generalizing s with
  | nil => exact List.suffix_rfl
  | cons c completions ih => exact (deliver_grows s c.1 c.2).2.trans (ih _)

/-- A turn of the loop adds to the log, the call of the query first if it makes one. -/
theorem queryService_grows (nowMs : UInt64) (env : ℕ → CallEnv) (sent : ℕ × Sys σ ω) (i : ℕ) :
    sent.2.log <:+ (Sys.queryService nowMs env sent i).2.log ∧
      (due (sent.2.status.services i) nowMs = true → (env i).alloc = true →
        (.queryCalled sent.2.calls i :: sent.2.log) <:+
          (Sys.queryService nowMs env sent i).2.log) := by
  obtain ⟨n, s⟩ := sent
  simp only [Sys.queryService]
  split
  · rename_i hdue
    exact ⟨List.suffix_rfl, fun hd => by simp [hd] at hdue⟩
  split
  · rename_i halloc
    exact ⟨List.suffix_rfl, fun _ ha => by simp [ha] at halloc⟩
  simp only [halCall]
  have hcalled : ∀ s' : Sys σ ω, s'.log = .queryCalled s.calls i :: s.log → ∀ completions,
      (.queryCalled s.calls i :: s.log) <:+ (s'.deliverAll completions).log :=
    fun s' hs' completions => hs' ▸ deliverAll_grows s' completions
  by_cases href : (env i).refused = true
  · rw [if_pos href, if_pos (show (-1 : ℤ) < 0 by decide)]
    have hnew := (hcalled { (s.issue i nowMs).2 with calls := (s.issue i nowMs).2.calls + 1 } rfl
      (env i).completions).trans (List.suffix_cons (.queryRefused s.calls) _)
    exact ⟨(List.suffix_cons ..).trans hnew, fun _ _ => hnew⟩
  · rw [if_neg href, if_neg (show ¬(0 : ℤ) < 0 by decide)]
    have hnew := hcalled { (s.issue i nowMs).2 with
      calls := (s.issue i nowMs).2.calls + 1
      outstanding := (s.issue i nowMs).2.outstanding ++ [⟨(s.issue i nowMs).2.calls,
        ((s.issue i nowMs).2.status.services i).name, .query (s.issue i nowMs).1 i⟩] } rfl
      (env i).completions
    exact ⟨(List.suffix_cons ..).trans hnew, fun _ _ => hnew⟩

theorem Waiting.deliver {i : ℕ} {s : Sys σ ω} (h : Waiting i s) (call : ℕ) (a : Answer) :
    Waiting i (s.deliver call a) := by
  have hsame := same_deliver s call a
  have hquiet : ∀ r ∈ (s.deliver call a).outstanding, (s.deliver call a).asksFor i r = false :=
    fun r hr => by
      rw [asksFor_congr hsame.count hsame.name]
      exact h.quiet r ((deliver_grows s call a).1 r hr)
  suffices hentry : ((s.deliver call a).status.services i).queryPending = false ∧
      ((s.deliver call a).status.services i).lastUpdateMs = 0 from ⟨hentry.1, hentry.2, hquiet⟩
  simp only [Sys.deliver]
  split
  · exact ⟨h.idle, h.last⟩
  rename_i r hr
  have hasks := h.quiet r (List.mem_of_find?_eq_some hr)
  cases hctx : r.ctx with
  | query requestId k =>
    simp only [serviceQueryCb]
    split
    · exact ⟨h.idle, h.last⟩
    rename_i j hj
    have hji : i ≠ j := fun he => by
      simp only [asksFor, hctx] at hasks
      exact absurd (show s.status.lookup r.service = some i from he ▸ hj) (by simpa using hasks)
    split
    · exact ⟨h.idle, h.last⟩
    · simp only [logs, modify, SysStatus.modify_ne _ hji]
      exact ⟨h.idle, h.last⟩
  | control index start cb =>
    have hcb : ∀ s' : Sys σ ω, (s'.callControlCb a index cb).status = s'.status := fun s' => by
      cases cb <;> rfl
    simp only [serviceControlCb, hcb]
    split
    · by_cases hi : i = index.toNat
      · subst hi
        simp only [logs, modify, SysStatus.modify_self, lastUpdateMs_writeControl,
          queryPending_writeControl]
        exact ⟨h.idle, trivial⟩
      · simp only [logs, modify, SysStatus.modify_ne _ hi]
        exact ⟨h.idle, h.last⟩
    · exact ⟨h.idle, h.last⟩

theorem Waiting.deliverAll {i : ℕ} {s : Sys σ ω} (h : Waiting i s)
    (completions : List (ℕ × Answer)) : Waiting i (s.deliverAll completions) := by
  simp only [Sys.deliverAll]
  induction completions generalizing s with
  | nil => exact h
  | cons c completions ih => exact ih (h.deliver c.1 c.2)

/-- The turns before its own leave an entry waiting. -/
theorem Waiting.queryService {i k : ℕ} {sent : ℕ × Sys σ ω} (h : Waiting i sent.2) (hki : k < i)
    (nowMs : UInt64) (env : ℕ → CallEnv) :
    Waiting i (Sys.queryService nowMs env sent k).2 := by
  obtain ⟨n, s⟩ := sent
  replace h : Waiting i s := h
  simp only [Sys.queryService]
  split
  · exact h
  split
  · exact h
  have hik : i ≠ k := by omega
  have hentry : (s.issue k nowMs).2.status.services i = s.status.services i := by
    simp only [Sys.issue, takeRequestId, logs, modify, SysStatus.modify_ne _ hik]
  have hasks : ∀ r, (s.issue k nowMs).2.asksFor i r = s.asksFor i r := fun r => by
    refine asksFor_congr ?_ (fun j => (issue_keeps s k nowMs j).1) i r
    rfl
  simp only [halCall]
  by_cases href : (env k).refused = true
  · rw [if_pos href, if_pos (show (-1 : ℤ) < 0 by decide)]
    have hcalled : Waiting i { (s.issue k nowMs).2 with
        calls := (s.issue k nowMs).2.calls + 1 } :=
      ⟨by simp only [hentry, h.idle], by simp only [hentry, h.last],
        fun r hr => (hasks r).trans (h.quiet r hr)⟩
    have hunmark : ∀ s' : Sys σ ω, Waiting i s' → Waiting i
        ((s'.modify k fun svc => { svc with queryPending := false }).logs
          (.queryRefused s.calls)) := fun s' hs' => by
      refine ⟨?_, ?_, fun r hr => ?_⟩
      · simp only [logs, modify, SysStatus.modify_ne _ hik, hs'.idle]
      · simp only [logs, modify, SysStatus.modify_ne _ hik, hs'.last]
      · refine Eq.trans ?_ (hs'.quiet r hr)
        refine asksFor_congr ?_ (fun j => (unmark_keeps _ k j).1) i r
        rfl
    exact hunmark _ (hcalled.deliverAll _)
  · rw [if_neg href, if_neg (show ¬(0 : ℤ) < 0 by decide)]
    have hcalled : Waiting i { (s.issue k nowMs).2 with
        calls := (s.issue k nowMs).2.calls + 1
        outstanding := (s.issue k nowMs).2.outstanding ++ [⟨(s.issue k nowMs).2.calls,
          ((s.issue k nowMs).2.status.services k).name, .query (s.issue k nowMs).1 k⟩] } := by
      refine ⟨by simp only [hentry, h.idle], by simp only [hentry, h.last], fun r hr => ?_⟩
      rcases List.mem_append.1 hr with hr | hr
      · exact (hasks r).trans (h.quiet r hr)
      · by_contra ha
        rw [List.mem_singleton.1 hr] at ha
        have hlookup : (s.issue k nowMs).2.status.lookup
            ((s.issue k nowMs).2.status.services k).name = some i := by
          simpa [asksFor] using ha
        have := lookup_le hlookup
        omega
    exact hcalled.deliverAll _

/-- **A waiting entry is asked for** by `sys_status_query_services`, memory permitting. -/
theorem Waiting.queryServices {i : ℕ} {s : Sys σ ω} (h : Waiting i s)
    (hi : i < s.status.serviceCount) (nowMs : UInt64) {env : ℕ → CallEnv}
    (halloc : (env i).alloc = true) :
    ∃ call new, (s.queryServices nowMs env).2.log = new ++ s.log ∧ .queryCalled call i ∈ new := by
  obtain ⟨l₁, l₂, hrange⟩ := List.append_of_mem (List.mem_range.2 hi)
  have hlt : ∀ k ∈ l₁, k < i := fun k hk => by
    have hsorted := List.pairwise_lt_range (n := s.status.serviceCount)
    rw [hrange, List.pairwise_append] at hsorted
    exact hsorted.2.2 k hk i List.mem_cons_self
  have hbound : ∀ k ∈ l₁ ++ i :: l₂, k < s.status.serviceCount := fun k hk => by
    rw [← hrange] at hk
    exact List.mem_range.1 hk
  simp only [Sys.queryServices, hrange, List.foldl_append, List.foldl_cons]
  obtain ⟨hwait, hcount, q, hq⟩ := queryServices_induction nowMs env l₁
    (P := fun s' => Waiting i s' ∧ s'.status.serviceCount = s.status.serviceCount ∧
      s.log <:+ s'.log)
    (fun sent k hk hp _ => ⟨hp.1.queryService (hlt k hk) nowMs env,
      (queryService_keeps nowMs env sent k).1.trans hp.2.1,
      hp.2.2.trans (queryService_grows nowMs env sent k).1⟩)
    (0, s) ⟨h, rfl, List.suffix_rfl⟩ (fun k hk => hbound k (List.mem_append_left _ hk))
  set sent₁ := l₁.foldl (Sys.queryService nowMs env) (0, s) with hsent₁
  have hdue : due (sent₁.2.status.services i) nowMs = true := by
    simp [due, hwait.idle, hwait.last]
  have hcalled := (queryService_grows nowMs env sent₁ i).2 hdue halloc
  obtain ⟨p, hp⟩ := queryServices_induction nowMs env l₂
    (P := fun s' : Sys σ ω => (Obs.queryCalled sent₁.2.calls i :: sent₁.2.log) <:+ s'.log)
    (fun sent k _ hp _ => hp.trans (queryService_grows nowMs env sent k).1) _ hcalled
    fun k hk => by
      rw [(queryService_keeps nowMs env sent₁ i).1, hcount]
      exact hbound k (List.mem_append_right _ (List.mem_cons_of_mem _ hk))
  refine ⟨sent₁.2.calls, p ++ .queryCalled sent₁.2.calls i :: q, ?_, by simp⟩
  rw [← hp, ← hq, List.append_assoc]
  rfl

/-! ## After a control operation -/

/-- What is asked for once a successful control operation of entry `i` has completed, with `post`
the log since then and `past` the log before. -/
structure ControlOk (s : Sys σ ω) (i : ℕ) (post past : List (Obs ω)) : Prop where
  /-- No answer to a query that was sent before is written to the entry. -/
  written : ∀ call k a, .queryDone call k (some i) a ∈ post → ∀ j, .queryCalled call j ∉ past
  /-- As long as the entry has not been asked for and is not pending, the next
  `sys_status_query_services` asks for it, memory permitting. -/
  refresh : s.Unasked i post → (s.status.services i).queryPending = false →
    ∀ nowMs env, (env i).alloc = true → ∃ call new,
      (s.queryServices nowMs env).2.log = new ++ s.log ∧ .queryCalled call i ∈ new

/-- **After a control operation**: in every run, once a control operation of entry `i` has completed
with success while no query that asks for the entry was at the HAL, no answer to an earlier query is
written to the entry and the refresh is not lost. -/
theorem controlOk_after (cfg : List CStr) (client : σ) (es : List (Event σ)) {c i : ℕ}
    {post past : List (Obs ω)}
    (h : (after cfg client es).log = post ++ .controlDone c i true [] :: past) :
    ControlOk (after cfg client es) i post past := by
  have hinv : RInv (after cfg client es : Sys σ ω) := rInv_after cfg client es
  refine ⟨fun call k a hm j => ?_, fun hu hidle nowMs env halloc => ?_⟩
  · obtain ⟨post₁, post₂, rfl⟩ := List.append_of_mem hm
    have hsuf : (Obs.queryDone call k (some i) a :: (post₂ ++ .controlDone c i true [] :: past)) <:+
        (after cfg client es).log := ⟨post₁, by rw [h, List.append_assoc]; rfl⟩
    exact always_iff_suffix.1 hinv.written _ _ hsuf c post₂ past rfl j
  · obtain ⟨hlast, hquiet⟩ := hinv.due i c post past h hu
    exact Waiting.queryServices ⟨hidle, hlast, hquiet⟩
      (hinv.range c i true [] (by rw [h]; simp)) nowMs halloc

/-- A query is answered, the service is started, and the refresh is sent at once although the answer
is 100 ms old. -/
def queriedAndStarted : List (Event Unit) :=
  [.updateLocal, .queryServices 10000 fun _ => {},
    .complete 0 { installed := true, running := false, nowMs := 10100 },
    .controlService 0 true none {}, .complete 1 { success := true }]

/-- Right after the start a query is sent; its answer is written, and the answer from before the start
is not among those behind it. -/
theorem controlOk_started :
    let stopped : Answer := { installed := true, running := false, nowMs := 10100 }
    let started : Answer := { installed := true, running := true, nowMs := 10300 }
    let past : List (Obs Unit) :=
      [.controlCalled 1 0 true, .queryDone 0 0 (some 0) stopped, .queryCalled 0 0]
    (∃ call new,
      ((after [['a']] () queriedAndStarted : Sys Unit Unit).queryServices 10200 fun _ => {}).2.log =
          new ++ (after [['a']] () queriedAndStarted).log ∧ .queryCalled call 0 ∈ new) ∧
      ControlOk (after [['a']] () (queriedAndStarted ++
        [.queryServices 10200 fun _ => {}, .complete 2 started])) 0
        [.queryDone 2 0 (some 0) started, .queryCalled 2 0] past := by
  intro stopped started past
  have hstarted : (after [['a']] () queriedAndStarted : Sys Unit Unit).log =
      [] ++ .controlDone 1 0 true [] :: past := by rfl
  refine ⟨?_, controlOk_after _ _ _ (c := 1) (by rfl)⟩
  exact (controlOk_after _ _ _ hstarted).refresh nofun rfl 10200 _ rfl

/-- The failing input: a query of the service is at the HAL when its start completes; its answer
then says that the service is stopped. -/
theorem stale_answer_written : ¬∀ (cfg : List CStr) (es : List (Event Unit)) c i queries
    (post past : List (Obs Unit)),
    (after cfg () es).log = post ++ .controlDone c i true queries :: past →
      ControlOk (after cfg () es) i post past := fun h => by
  let stopped : Answer := { installed := true, running := false, nowMs := 10100 }
  have hok := h [['a']] [.updateLocal, .queryServices 10000 fun _ => {},
    .controlService 0 true none {}, .complete 1 { success := true }, .complete 0 stopped] 1 0 [0]
    [.queryDone 0 0 (some 0) stopped] [.controlCalled 1 0 true, .queryCalled 0 0] (by rfl)
  exact hok.written 0 0 stopped (by simp) 0 (by simp)

end NanoHat.Sys
