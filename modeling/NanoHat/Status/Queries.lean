import Mathlib.Data.List.GetD
import Mathlib.Data.List.Nodup
import NanoHat.Status.SysStatus

/-!
# Pending queries

`service_query_cb` finds its entry by name and then by request id, while
`sys_status_query_services` works by index. When the names are pairwise distinct the two agree:
an entry is pending exactly as long as the one query context issued for it is at the HAL
(`pendingOk_after`). `QInv` is the invariant, for a state in the middle of the loop as well: the
entry whose query is just being issued is `busy`, marked as pending without a context.
-/

namespace NanoHat.Sys

open UbusHal Runs

variable {σ ω : Type*}

/-! ## Names -/

/-- The names of the entries are pairwise distinct. -/
def DistinctNames (s : SysStatus) : Prop :=
  ∀ i j, i < s.serviceCount → j < s.serviceCount → (s.services i).name = (s.services j).name →
    i = j

theorem lookup_eq_some {s : SysStatus} {service : CStr} {i : ℕ} (h : s.lookup service = some i) :
    i < s.serviceCount ∧ (s.services i).name = service := by
  have hmem := List.mem_of_find?_eq_some h
  have hname := List.find?_some h
  exact ⟨by simpa using hmem, by simpa using hname⟩

theorem lookup_name {s : SysStatus} (hd : DistinctNames s) {i : ℕ} (hi : i < s.serviceCount) :
    s.lookup (s.services i).name = some i := by
  cases h : s.lookup (s.services i).name with
  | none =>
    have := List.find?_eq_none.1 h i (by simpa using hi)
    simp at this
  | some j =>
    obtain ⟨hj, hname⟩ := lookup_eq_some h
    rw [hd i j hi hj hname.symm]

/-! ## The invariant -/

/-- A request is a query issued for entry `i`. -/
def isQueryFor (i : ℕ) (r : HalRequest σ) : Bool :=
  match r.ctx with
  | .query _ k => k = i
  | .control .. => false

/-- The number of query contexts issued for entry `i` that are at the HAL. -/
def queriesFor (s : Sys σ ω) (i : ℕ) : ℕ := s.outstanding.countP (isQueryFor i)

/-- A query context fits its entry. -/
def Fits (s : Sys σ ω) (r : HalRequest σ) : Prop :=
  ∀ requestId i, r.ctx = .query requestId i →
    i < s.status.serviceCount ∧ r.service = (s.status.services i).name ∧
      requestId = (s.status.services i).requestId ∧ requestId ≠ 0

/-- The invariant; `busy` is the entry whose query is being issued, if any. -/
structure QInv (busy : Option ℕ) (s : Sys σ ω) : Prop where
  next : s.nextRequestId ≠ 0
  distinct : DistinctNames s.status
  fresh : ∀ r ∈ s.outstanding, r.call < s.calls
  nodup : (s.outstanding.map HalRequest.call).Nodup
  fits : ∀ r ∈ s.outstanding, Fits s r
  pending : ∀ i, busy ≠ some i → i < s.status.serviceCount →
    queriesFor s i = (s.status.services i).queryPending.toNat
  busy : ∀ i, busy = some i → queriesFor s i = 0
  written : ∀ call i w a, .queryDone call i w a ∈ s.log → w = some i

variable {busy : Option ℕ}

/-- A change of the entries that keeps names and request ids, and pending flags but for the
busy entry, and says nothing about queries in the log. -/
theorem QInv.congr {s s' : Sys σ ω} (h : QInv busy s) (hnext : s'.nextRequestId = s.nextRequestId)
    (hcount : s'.status.serviceCount = s.status.serviceCount)
    (hname : ∀ i, (s'.status.services i).name = (s.status.services i).name)
    (hid : ∀ i, (s'.status.services i).requestId = (s.status.services i).requestId)
    (hpending : ∀ i, busy ≠ some i →
      (s'.status.services i).queryPending = (s.status.services i).queryPending)
    (hcalls : s'.calls = s.calls) (hout : s'.outstanding = s.outstanding)
    (hlog : ∀ call i w a, .queryDone call i w a ∈ s'.log → .queryDone call i w a ∈ s.log) :
    QInv busy s' where
  next := by rw [hnext]; exact h.next
  distinct i j hi hj hij := by
    rw [hcount] at hi hj
    rw [hname, hname] at hij
    exact h.distinct i j hi hj hij
  fresh := by rw [hout, hcalls]; exact h.fresh
  nodup := by rw [hout]; exact h.nodup
  fits r hr requestId i hctx := by
    rw [hcount, hname, hid]
    exact h.fits r (hout ▸ hr) requestId i hctx
  pending i hb hi := by
    rw [queriesFor, hout, hpending i hb]
    exact h.pending i hb (hcount ▸ hi)
  busy i hb := by rw [queriesFor, hout]; exact h.busy i hb
  written call i w a hm := h.written call i w a (hlog call i w a hm)

/-! ## Callbacks -/

/-- The request that a callback takes off the list. -/
theorem find_split {l : List (HalRequest σ)} {call : ℕ} {r : HalRequest σ}
    (h : l.find? (·.call = call) = some r) : r.call = call ∧ ∃ l₁ l₂, l = l₁ ++ r :: l₂ ∧
      l.eraseP (·.call = call) = l₁ ++ l₂ := by
  obtain ⟨hcall, l₁, l₂, rfl, hnot⟩ := List.find?_eq_some_iff_append.1 h
  refine ⟨by simpa using hcall, l₁, l₂, rfl, ?_⟩
  rw [List.eraseP_append_right _ (fun b hb => by simpa using hnot b hb)]
  simp [show r.call = call by simpa using hcall]

/-- What stays on the list. -/
theorem sublist_split {l l₁ l₂ : List (HalRequest σ)} {r : HalRequest σ} (hout : l = l₁ ++ r :: l₂) :
    (l₁ ++ l₂).Sublist l := by
  rw [hout]
  exact (List.sublist_cons_self r l₂).append_left l₁

theorem queriesFor_split {s : Sys σ ω} {l₁ l₂ : List (HalRequest σ)} {r : HalRequest σ}
    (hout : s.outstanding = l₁ ++ r :: l₂) (i : ℕ) :
    queriesFor s i = (l₁ ++ l₂).countP (isQueryFor i) + (isQueryFor i r).toNat := by
  rw [queriesFor, hout, List.countP_append, List.countP_cons, List.countP_append]
  cases isQueryFor i r
  · rfl
  · simp only [if_true, Bool.toNat_true]
    omega

/-- A smaller list of requests. -/
theorem QInv.drop {s : Sys σ ω} (h : QInv busy s) {l₁ l₂ : List (HalRequest σ)}
    {r : HalRequest σ} (hout : s.outstanding = l₁ ++ r :: l₂)
    (hr : ∀ i, isQueryFor i r = false) : QInv busy { s with outstanding := l₁ ++ l₂ } where
  next := h.next
  distinct := h.distinct
  fresh r' hr' := h.fresh r' ((sublist_split hout).subset hr')
  nodup := h.nodup.sublist ((sublist_split hout).map _)
  fits r' hr' := h.fits r' ((sublist_split hout).subset hr')
  pending i hb hi := by
    have hp := h.pending i hb hi
    rw [queriesFor_split hout, hr i] at hp
    exact hp
  busy i hb := by
    have h0 := h.busy i hb
    rw [queriesFor_split hout, hr i] at h0
    exact h0
  written := h.written

theorem isQueryFor_query {r : HalRequest σ} {requestId : UInt32} {k : ℕ}
    (hctx : r.ctx = .query requestId k) (i : ℕ) : isQueryFor i r = decide (k = i) := by
  simp only [isQueryFor, hctx]

/-- The callback of a query writes to the entry that it was issued for. -/
theorem QInv.serviceQueryCb_eq {s : Sys σ ω} (h : QInv busy s) {l₁ l₂ : List (HalRequest σ)}
    {r : HalRequest σ} (hout : s.outstanding = l₁ ++ r :: l₂) {requestId : UInt32} {k : ℕ}
    (hctx : r.ctx = .query requestId k) (a : Answer) :
    ({ s with outstanding := l₁ ++ l₂ } : Sys σ ω).serviceQueryCb r.call r.service a requestId k =
      (({ s with outstanding := l₁ ++ l₂ } : Sys σ ω).modify k (writeAnswer a)).logs
        (.queryDone r.call k (some k) a) := by
  obtain ⟨hk, hservice, hid, -⟩ := h.fits r (by rw [hout]; simp) requestId k hctx
  have hlookup : s.status.lookup r.service = some k := by
    rw [hservice]
    exact lookup_name h.distinct hk
  simp only [serviceQueryCb, hlookup, hid, ne_eq, not_true_eq_false, if_false]

/-- The answer ends the wait of its entry. -/
theorem QInv.answered {s : Sys σ ω} (h : QInv busy s) {l₁ l₂ : List (HalRequest σ)}
    {r : HalRequest σ} (hout : s.outstanding = l₁ ++ r :: l₂) {requestId : UInt32} {k : ℕ}
    (hctx : r.ctx = .query requestId k) (a : Answer) :
    QInv busy ((({ s with outstanding := l₁ ++ l₂ } : Sys σ ω).modify k (writeAnswer a)).logs
      (.queryDone r.call k (some k) a)) where
  next := h.next
  distinct i j hi hj hij := by
    simp only [logs, modify, s.status.modify_keeps ServiceStatus.name (name_writeAnswer a _)] at hij
    exact h.distinct i j hi hj hij
  fresh r' hr' := h.fresh r' ((sublist_split hout).subset hr')
  nodup := h.nodup.sublist ((sublist_split hout).map _)
  fits r' hr' id i hc := by
    obtain ⟨hi, hservice, hid, hne⟩ := h.fits r' ((sublist_split hout).subset hr') id i hc
    have hname := s.status.modify_keeps (i := k) ServiceStatus.name (name_writeAnswer a _) i
    have hid' := s.status.modify_keeps (i := k) ServiceStatus.requestId
      (requestId_writeAnswer a _) i
    exact ⟨hi, hservice.trans hname.symm, hid.trans hid'.symm, hne⟩
  pending i hb hi := by
    have hp := h.pending i hb hi
    rw [queriesFor_split hout, isQueryFor_query hctx] at hp
    simp only [queriesFor, logs, modify]
    by_cases hik : i = k
    · subst hik
      have hle := Bool.toNat_le (s.status.services i).queryPending
      rw [SysStatus.modify_self, queryPending_writeAnswer, Bool.toNat_false]
      simp only [decide_true, Bool.toNat_true] at hp
      omega
    · rw [decide_eq_false (Ne.symm hik)] at hp
      rw [SysStatus.modify_ne _ hik]
      exact hp
  busy i hb := by
    have h0 := h.busy i hb
    rw [queriesFor_split hout] at h0
    exact (Nat.add_eq_zero_iff.1 h0).1
  written call i w a' hm := by
    rcases List.mem_cons.1 hm with heq | hm
    · obtain ⟨-, rfl, rfl, -⟩ := Obs.queryDone.inj heq
      rfl
    · exact h.written call i w a' hm

theorem QInv.control {s : Sys σ ω} (h : QInv busy s) (call : ℕ) (a : Answer) (index : ℤ)
    (start : Bool) (cb : Option (ℤ → Bool → ℤ → σ → σ)) :
    QInv busy (s.serviceControlCb call a index start cb) := by
  have hclient : ∀ s' : Sys σ ω, QInv busy s' → QInv busy (s'.callControlCb a index cb) :=
    fun s' h' => by
      cases cb with
      | none => exact h'
      | some cb =>
        exact h'.congr rfl rfl (fun _ => rfl) (fun _ => rfl) (fun _ _ => rfl) rfl rfl
          fun _ _ _ _ hm => hm
  simp only [serviceControlCb]
  refine hclient _ ?_
  split
  · refine h.congr rfl rfl
      (s.status.modify_keeps ServiceStatus.name (name_writeControl start a.success _))
      (s.status.modify_keeps ServiceStatus.requestId (requestId_writeControl start a.success _))
      (fun i _ => s.status.modify_keeps ServiceStatus.queryPending
        (queryPending_writeControl start a.success _) i) rfl rfl fun call' i w a' hm => ?_
    rcases List.mem_cons.1 hm with heq | hm
    · simp at heq
    · exact hm
  · exact h

theorem QInv.deliver {s : Sys σ ω} (h : QInv busy s) (call : ℕ) (a : Answer) :
    QInv busy (s.deliver call a) := by
  simp only [Sys.deliver]
  split
  · exact h
  rename_i r hr
  obtain ⟨rfl, l₁, l₂, hout, herase⟩ := find_split hr
  rw [herase]
  cases hctx : r.ctx with
  | query requestId k =>
    simp only
    rw [h.serviceQueryCb_eq hout hctx a]
    exact h.answered hout hctx a
  | control index start cb =>
    exact (h.drop hout fun i => by simp [isQueryFor, hctx]).control r.call a index start cb

theorem QInv.deliverAll {s : Sys σ ω} (h : QInv busy s) (completions : List (ℕ × Answer)) :
    QInv busy (s.deliverAll completions) := by
  simp only [Sys.deliverAll]
  induction completions generalizing s with
  | nil => exact h
  | cons c completions ih => exact ih (h.deliver c.1 c.2)

/-! ## What callbacks leave alone -/

/-- Names, number of entries, request ids given out and call numbers stay. -/
structure Same (s s' : Sys σ ω) : Prop where
  count : s'.status.serviceCount = s.status.serviceCount
  name : ∀ i, (s'.status.services i).name = (s.status.services i).name
  next : s'.nextRequestId = s.nextRequestId
  calls : s'.calls = s.calls

theorem Same.refl (s : Sys σ ω) : Same s s := ⟨rfl, fun _ => rfl, rfl, rfl⟩

theorem Same.trans {s₁ s₂ s₃ : Sys σ ω} (h : Same s₁ s₂) (h' : Same s₂ s₃) : Same s₁ s₃ :=
  ⟨h'.count.trans h.count, fun i => (h'.name i).trans (h.name i), h'.next.trans h.next,
    h'.calls.trans h.calls⟩

/-- A change of one entry that keeps its name. -/
theorem Same.of_modify {s s' : Sys σ ω} {i : ℕ} {f : ServiceStatus → ServiceStatus}
    (hs : s'.status = s.status.modify i f) (hf : ∀ svc, (f svc).name = svc.name)
    (hnext : s'.nextRequestId = s.nextRequestId) (hcalls : s'.calls = s.calls) : Same s s' := by
  refine ⟨by rw [hs]; rfl, fun j => ?_, hnext, hcalls⟩
  rw [hs]
  exact s.status.modify_keeps ServiceStatus.name (hf _) j

theorem same_callControlCb (s : Sys σ ω) (a : Answer) (index : ℤ)
    (cb : Option (ℤ → Bool → ℤ → σ → σ)) : Same s (s.callControlCb a index cb) := by
  cases cb <;> exact ⟨rfl, fun _ => rfl, rfl, rfl⟩

theorem same_deliver (s : Sys σ ω) (call : ℕ) (a : Answer) : Same s (s.deliver call a) := by
  simp only [Sys.deliver]
  split
  · exact .refl s
  rename_i r hr
  cases r.ctx with
  | query requestId k =>
    simp only [serviceQueryCb]
    split
    · exact ⟨rfl, fun _ => rfl, rfl, rfl⟩
    split
    · exact ⟨rfl, fun _ => rfl, rfl, rfl⟩
    · exact .of_modify rfl (name_writeAnswer a) rfl rfl
  | control index start cb =>
    simp only [serviceControlCb]
    refine Same.trans ?_ (same_callControlCb _ a index cb)
    split
    · exact .of_modify rfl (name_writeControl start a.success) rfl rfl
    · exact ⟨rfl, fun _ => rfl, rfl, rfl⟩

theorem same_deliverAll (s : Sys σ ω) (completions : List (ℕ × Answer)) :
    Same s (s.deliverAll completions) := by
  simp only [Sys.deliverAll]
  induction completions generalizing s with
  | nil => exact .refl s
  | cons c completions ih => exact (same_deliver s c.1 c.2).trans (ih _)

/-! ## Issuing a query -/

/-- An accepted request joins the outstanding ones. -/
theorem QInv.accept {s : Sys σ ω} (h : QInv busy s) (service : CStr) (ctx : RequestCtx σ)
    (hfits : Fits s ⟨s.calls, service, ctx⟩)
    (hbusy : ∀ i, isQueryFor i (⟨s.calls, service, ctx⟩ : HalRequest σ) = true ↔ busy = some i)
    (hpend : ∀ i, busy = some i → (s.status.services i).queryPending = true) :
    QInv none { s with calls := s.calls + 1,
                       outstanding := s.outstanding ++ [⟨s.calls, service, ctx⟩] } where
  next := h.next
  distinct := h.distinct
  fresh r hr := by
    rcases List.mem_append.1 hr with hr | hr
    · exact Nat.lt_succ_of_lt (h.fresh r hr)
    · rw [List.mem_singleton.1 hr]; exact Nat.lt_succ_self _
  nodup := by
    rw [List.map_append, List.nodup_append]
    refine ⟨h.nodup, by simp, fun c hc d hd => ?_⟩
    obtain ⟨r, hr, rfl⟩ := List.mem_map.1 hc
    have hlt := h.fresh r hr
    have hd' : d = s.calls := by simpa using hd
    omega
  fits r hr := by
    rcases List.mem_append.1 hr with hr | hr
    · exact h.fits r hr
    · rw [List.mem_singleton.1 hr]; exact hfits
  pending i _ hi := by
    simp only [queriesFor, List.countP_append, List.countP_singleton]
    by_cases hb : busy = some i
    · have h0 := h.busy i hb
      rw [queriesFor] at h0
      rw [h0, if_pos ((hbusy i).2 hb), hpend i hb]
      rfl
    · rw [if_neg fun hq => hb ((hbusy i).1 hq)]
      exact h.pending i hb hi
  busy i hb := by simp at hb
  written := h.written

/-- A refused request leaves the busy entry without a query. -/
theorem QInv.refuse {s : Sys σ ω} {k : ℕ} (h : QInv (some k) s) (o : Obs ω)
    (ho : ∀ call i w a, o ≠ .queryDone call i w a) :
    QInv none ((s.modify k fun svc => { svc with queryPending := false }).logs o) := by
  have hname : ∀ i, ((s.status.modify k fun svc => { svc with queryPending := false }).services
      i).name = (s.status.services i).name := s.status.modify_keeps ServiceStatus.name rfl
  have hid : ∀ i, ((s.status.modify k fun svc => { svc with queryPending := false }).services
      i).requestId = (s.status.services i).requestId :=
    s.status.modify_keeps ServiceStatus.requestId rfl
  refine ⟨h.next, fun i j hi hj hij => ?_, h.fresh, h.nodup, fun r hr id i hc => ?_,
    fun i _ hi => ?_, fun i hb => by simp at hb, fun call i w a' hm => ?_⟩
  · simp only [logs, modify, hname] at hij
    exact h.distinct i j hi hj hij
  · simp only [logs, modify, hname, hid]
    exact h.fits r hr id i hc
  · simp only [logs, modify]
    by_cases hik : i = k
    · subst hik
      rw [SysStatus.modify_self]
      exact h.busy i rfl
    · rw [SysStatus.modify_ne _ hik]
      exact h.pending i (fun hb => hik (Option.some.inj hb).symm) hi
  · rcases List.mem_cons.1 hm with heq | hm
    · exact absurd heq.symm (ho call i w a')
    · exact h.written call i w a' hm

theorem takeRequestId_ne {s : Sys σ ω} (h : s.nextRequestId ≠ 0) :
    s.takeRequestId.1 ≠ 0 ∧ s.takeRequestId.2.nextRequestId ≠ 0 := by
  refine ⟨h, ?_⟩
  simp only [takeRequestId]
  split
  · decide
  · assumption

/-- The state in which the query of entry `i` is handed to the HAL. -/
theorem QInv.issue {s : Sys σ ω} (h : QInv none s) {i : ℕ} (hi : i < s.status.serviceCount)
    (hp : (s.status.services i).queryPending = false) (nowMs : UInt64) :
    let s' := (s.issue i nowMs).2
    QInv (some i) s' ∧ (s'.status.services i).queryPending = true ∧
      Fits s' ⟨s.calls, (s'.status.services i).name, .query (s.issue i nowMs).1 i⟩ := by
  intro s'
  have hzero : queriesFor s i = 0 := by
    rw [h.pending i (by simp) hi, hp]; rfl
  set f : ServiceStatus → ServiceStatus := fun svc => { svc with
    queryPending := true, requestId := (s.issue i nowMs).1, requestTimeMs := nowMs } with hf
  have hself : s'.status.services i = f (s.status.services i) := SysStatus.modify_self s.status i f
  have hne : ∀ j, j ≠ i → s'.status.services j = s.status.services j :=
    fun j hj => SysStatus.modify_ne s.status hj f
  have hname : ∀ j, (s'.status.services j).name = (s.status.services j).name :=
    s.status.modify_keeps (i := i) (f := f) ServiceStatus.name rfl
  refine ⟨⟨(takeRequestId_ne h.next).2, fun j k hj hk hjk => ?_, h.fresh, h.nodup,
    fun r hr id j hc => ?_, fun j hb hj => ?_, fun j hb => ?_, fun call j w a' hm => ?_⟩, ?_, ?_⟩
  · rw [hname, hname] at hjk
    exact h.distinct j k hj hk hjk
  · have hji : j ≠ i := fun he => by
      have : 0 < queriesFor s i := List.countP_pos_iff.2 ⟨r, hr, by simp [isQueryFor, hc, he]⟩
      omega
    rw [hne j hji]
    exact h.fits r hr id j hc
  · have hji : j ≠ i := fun he => hb (by rw [he])
    rw [hne j hji]
    exact h.pending j (by simp) hj
  · obtain rfl : i = j := Option.some.inj hb
    exact hzero
  · rcases List.mem_cons.1 hm with heq | hm
    · simp at heq
    · exact h.written call j w a' hm
  · rw [hself]
  · intro id j hc
    obtain ⟨rfl, rfl⟩ := RequestCtx.query.inj hc
    exact ⟨hi, rfl, by rw [hself], (takeRequestId_ne h.next).1⟩

/-- What marking an entry as pending leaves alone. -/
theorem issue_keeps (s : Sys σ ω) (i : ℕ) (nowMs : UInt64) (j : ℕ) :
    ((s.issue i nowMs).2.status.services j).name = (s.status.services j).name ∧
      ((s.issue i nowMs).2.status.services j).lastUpdateMs =
        (s.status.services j).lastUpdateMs := by
  simp only [Sys.issue, takeRequestId, logs, modify]
  exact ⟨s.status.modify_keeps ServiceStatus.name rfl j,
    s.status.modify_keeps ServiceStatus.lastUpdateMs rfl j⟩

/-- What clearing a pending flag leaves alone. -/
theorem unmark_keeps (s : SysStatus) (i j : ℕ) :
    let s' := s.modify i fun svc => { svc with queryPending := false }
    (s'.services j).name = (s.services j).name ∧
      (s'.services j).lastUpdateMs = (s.services j).lastUpdateMs :=
  ⟨s.modify_keeps ServiceStatus.name rfl j, s.modify_keeps ServiceStatus.lastUpdateMs rfl j⟩

/-- A turn of the loop leaves the list of services alone. -/
theorem queryService_keeps (nowMs : UInt64) (env : ℕ → CallEnv) (sent : ℕ × Sys σ ω) (i : ℕ) :
    let s' := (Sys.queryService nowMs env sent i).2
    s'.status.serviceCount = sent.2.status.serviceCount ∧
      ∀ j, (s'.status.services j).name = (sent.2.status.services j).name := by
  obtain ⟨n, s⟩ := sent
  simp only [Sys.queryService]
  split
  · exact ⟨rfl, fun _ => rfl⟩
  split
  · exact ⟨rfl, fun _ => rfl⟩
  have hkeeps := issue_keeps s i nowMs
  simp only [halCall]
  by_cases href : (env i).refused = true
  · rw [if_pos href, if_pos (show (-1 : ℤ) < 0 by decide)]
    have hall := same_deliverAll { (s.issue i nowMs).2 with calls := (s.issue i nowMs).2.calls + 1 }
      (env i).completions
    exact ⟨hall.count, fun j => (unmark_keeps _ i j).1.trans ((hall.name j).trans (hkeeps j).1)⟩
  · rw [if_neg href, if_neg (show ¬(0 : ℤ) < 0 by decide)]
    have hall := same_deliverAll { (s.issue i nowMs).2 with
      calls := (s.issue i nowMs).2.calls + 1
      outstanding := (s.issue i nowMs).2.outstanding ++ [⟨(s.issue i nowMs).2.calls,
        ((s.issue i nowMs).2.status.services i).name, .query (s.issue i nowMs).1 i⟩] }
      (env i).completions
    exact ⟨hall.count, fun j => (hall.name j).trans (hkeeps j).1⟩

/-- What every turn of the loop keeps holds after some of its turns. -/
theorem queryServices_induction {P : Sys σ ω → Prop} (nowMs : UInt64) (env : ℕ → CallEnv)
    (l : List ℕ)
    (hstep : ∀ sent, ∀ i ∈ l, P sent.2 → i < sent.2.status.serviceCount →
      P (Sys.queryService nowMs env sent i).2) (sent : ℕ × Sys σ ω) (h : P sent.2)
    (hl : ∀ i ∈ l, i < sent.2.status.serviceCount) :
    P (l.foldl (Sys.queryService nowMs env) sent).2 := by
  induction l generalizing sent with
  | nil => exact h
  | cons i l ih =>
    refine ih (fun sent j hj => hstep sent j (List.mem_cons_of_mem _ hj)) _
      (hstep sent i List.mem_cons_self h (hl i List.mem_cons_self)) fun j hj => ?_
    rw [(queryService_keeps nowMs env sent i).1]
    exact hl j (List.mem_cons_of_mem _ hj)

theorem queryPending_of_due {svc : ServiceStatus} {nowMs : UInt64} (h : due svc nowMs = true) :
    svc.queryPending = false := by
  simp only [due, Bool.and_eq_true, Bool.not_eq_true'] at h
  exact h.1

/-- One turn of the loop of `sys_status_query_services`. -/
theorem QInv.queryService {sent : ℕ × Sys σ ω} (h : QInv none sent.2) {i : ℕ}
    (hi : i < sent.2.status.serviceCount) (nowMs : UInt64) (env : ℕ → CallEnv) :
    QInv none (Sys.queryService nowMs env sent i).2 := by
  obtain ⟨n, s⟩ := sent
  simp only [Sys.queryService]
  split
  · exact h
  rename_i hdue
  split
  · exact h
  obtain ⟨hq, hpend, hfits⟩ := h.issue hi (queryPending_of_due (by simpa using hdue)) nowMs
  have hcalls : (s.issue i nowMs).2.calls = s.calls := rfl
  rw [← hcalls] at hfits
  generalize (s.issue i nowMs).1 = reqId at hfits ⊢
  generalize (s.issue i nowMs).2 = s' at hq hpend hfits ⊢
  simp only [halCall]
  by_cases href : (env i).refused = true
  · rw [if_pos href, if_pos (show (-1 : ℤ) < 0 by decide)]
    have hnext : QInv (some i) { s' with calls := s'.calls + 1 } :=
      ⟨hq.next, hq.distinct, fun r hr => Nat.lt_succ_of_lt (hq.fresh r hr), hq.nodup, hq.fits,
        hq.pending, hq.busy, hq.written⟩
    exact (hnext.deliverAll _).refuse _ (by simp)
  · rw [if_neg href, if_neg (show ¬(0 : ℤ) < 0 by decide)]
    have hacc := hq.accept (s'.status.services i).name (.query reqId i) hfits
      (fun j => by simp [isQueryFor, eq_comm]) (fun j hj => by rw [← Option.some.inj hj]; exact hpend)
    exact hacc.deliverAll _

/-! ## Calls -/

theorem QInv.queryServices {s : Sys σ ω} (h : QInv none s) (nowMs : UInt64)
    (env : ℕ → CallEnv) : QInv none (s.queryServices nowMs env).2 :=
  queryServices_induction (P := QInv none) nowMs env _
    (fun _ _ _ hq hi => hq.queryService hi nowMs env) _ h fun i hi => by simpa using hi

theorem QInv.controlService {s : Sys σ ω} (h : QInv none s) (index : ℤ) (start : Bool)
    (cb : Option (ℤ → Bool → ℤ → σ → σ)) (env : CallEnv) :
    QInv none (s.controlService index start cb env).2 := by
  have hlog : ∀ (s' : Sys σ ω) (o : Obs ω), QInv none s' →
      (∀ call i w a, o ≠ .queryDone call i w a) → QInv none (s'.logs o) := fun s' o h' ho =>
    h'.congr rfl rfl (fun _ => rfl) (fun _ => rfl) (fun _ _ => rfl) rfl rfl fun call i w a hm =>
      (List.mem_cons.1 hm).resolve_left fun heq => ho call i w a heq.symm
  simp only [Sys.controlService]
  split
  · exact h
  split
  · exact h
  have hcalled := hlog s (.controlCalled s.calls index.toNat start) h (by simp)
  simp only [halCall]
  by_cases href : env.refused = true
  · rw [if_pos href, if_pos (show (-1 : ℤ) < 0 by decide)]
    refine hlog _ _ (QInv.deliverAll ?_ _) (by simp)
    exact ⟨hcalled.next, hcalled.distinct, fun r hr => Nat.lt_succ_of_lt (hcalled.fresh r hr),
      hcalled.nodup, hcalled.fits, hcalled.pending, hcalled.busy, hcalled.written⟩
  · rw [if_neg href, if_neg (show ¬(0 : ℤ) < 0 by decide)]
    exact (hcalled.accept _ (.control index start cb) (fun id i hc => by simp at hc)
      (fun i => by simp [isQueryFor]) (fun i hi => by simp at hi)).deliverAll _

theorem QInv.updateLocal {s : Sys σ ω} (h : QInv none s) {cfg : List CStr} (hnodup : cfg.Nodup)
    (hname : ∀ name ∈ cfg, name.length < serviceNameMaxLen) : QInv none (s.updateLocal cfg) := by
  have h : QInv none s.sampled := ⟨h.next, h.distinct, h.fresh, h.nodup, h.fits, h.pending, h.busy,
    h.written⟩
  simp only [Sys.updateLocal]
  generalize s.sampled = s at h ⊢
  split
  swap
  · exact h
  rename_i hzero
  have hnone : ∀ r ∈ s.outstanding, ∀ i, isQueryFor i r = false := fun r hr i => by
    cases hctx : r.ctx with
    | query id k =>
      have := (h.fits r hr id k hctx).1
      omega
    | control index start cb => simp [isQueryFor, hctx]
  have hcount : ∀ i, s.outstanding.countP (isQueryFor i) = 0 := fun i => by
    rw [List.countP_eq_zero]
    exact fun r hr => by simp [hnone r hr i]
  have hcopy : ∀ i, i < cfg.length → strncpy serviceNameMaxLen (cfg.getD i []) = cfg.getD i [] :=
    fun i hi => by
      have hlen := hname _ (List.getElem_mem hi)
      rw [List.getD_eq_getElem _ _ hi, strncpy, List.take_of_length_le (by omega)]
  refine ⟨h.next, fun i j hi hj hij => ?_, h.fresh, h.nodup, fun r hr id k hc => ?_,
    fun i _ hi => ?_, fun i hb => by simp at hb, h.written⟩
  · simp only at hi hj hij
    rw [if_pos hi, if_pos hj, hcopy i hi, hcopy j hj, List.getD_eq_getElem _ _ hi,
      List.getD_eq_getElem _ _ hj] at hij
    exact (hnodup.getElem_inj_iff).1 hij
  · have := (h.fits r hr id k hc).1
    omega
  · simp only at hi ⊢
    rw [if_pos hi]
    exact hcount i

theorem qInv_initial (client : σ) : QInv none ({ client := client } : Sys σ ω) where
  next := show (1 : UInt32) ≠ 0 by decide
  distinct i _ hi := absurd hi (Nat.not_lt_zero i)
  fresh _ hr := absurd hr List.not_mem_nil
  nodup := List.nodup_nil
  fits _ hr := absurd hr List.not_mem_nil
  pending i _ hi := absurd hi (Nat.not_lt_zero i)
  busy _ hb := by simp at hb
  written _ _ _ _ hm := absurd hm List.not_mem_nil

theorem qInv_after {cfg : List CStr} (hnodup : cfg.Nodup)
    (hname : ∀ name ∈ cfg, name.length < serviceNameMaxLen) (client : σ) (es : List (Event σ)) :
    QInv none (after cfg client es : Sys σ ω) := by
  refine run_invariant (P := QInv none) (fun s e h => ?_) (qInv_initial client) es
  cases e with
  | updateLocal => exact h.updateLocal hnodup hname
  | queryServices nowMs env => exact h.queryServices nowMs env
  | controlService index start cb env => exact h.controlService index start cb env
  | complete call a => exact h.deliver call a

/-! ## The flag and the context -/

/-- What `query_pending` means. -/
structure PendingOk (s : Sys σ ω) : Prop where
  /-- An entry is pending if and only if exactly one query context issued for it is at the HAL;
  there is never more than one. -/
  pending : ∀ i < s.status.serviceCount,
    ((s.status.services i).queryPending = true ↔ queriesFor s i = 1) ∧ queriesFor s i ≤ 1
  /-- The context carries the request id of the entry, which is not `0`. -/
  id : ∀ r ∈ s.outstanding, ∀ requestId i, r.ctx = .query requestId i →
    i < s.status.serviceCount ∧ requestId = (s.status.services i).requestId ∧ requestId ≠ 0
  /-- Its completion ends the wait of that entry and of no other. -/
  clears : ∀ r ∈ s.outstanding, ∀ requestId i, r.ctx = .query requestId i → ∀ a,
    ((s.deliver r.call a).status.services i).queryPending = false ∧
      ∀ j ≠ i, ((s.deliver r.call a).status.services j).queryPending =
        (s.status.services j).queryPending
  /-- So has every completion so far, those within a call of the HAL included. -/
  cleared : ∀ call i w a, .queryDone call i w a ∈ s.log → w = some i

theorem QInv.clears {s : Sys σ ω} (h : QInv none s) {r : HalRequest σ} (hr : r ∈ s.outstanding)
    {requestId : UInt32} {i : ℕ} (hctx : r.ctx = .query requestId i) (a : Answer) :
    ((s.deliver r.call a).status.services i).queryPending = false ∧
      ∀ j ≠ i, ((s.deliver r.call a).status.services j).queryPending =
        (s.status.services j).queryPending := by
  have hfind : s.outstanding.find? (·.call = r.call) = some r := by
    cases hf : s.outstanding.find? (·.call = r.call) with
    | none =>
      have := List.find?_eq_none.1 hf r hr
      simp at this
    | some r' =>
      have hcall : r'.call = r.call := by simpa using List.find?_some hf
      rw [List.inj_on_of_nodup_map h.nodup (List.mem_of_find?_eq_some hf) hr hcall]
  obtain ⟨-, l₁, l₂, hout, herase⟩ := find_split hfind
  have hdeliver : s.deliver r.call a =
      (({ s with outstanding := l₁ ++ l₂ } : Sys σ ω).modify i (writeAnswer a)).logs
        (.queryDone r.call i (some i) a) := by
    rw [Sys.deliver, hfind]
    simp only [hctx]
    rw [herase, h.serviceQueryCb_eq hout hctx a]
  rw [hdeliver]
  refine ⟨?_, fun j hj => ?_⟩
  · simp only [logs, modify, SysStatus.modify_self, queryPending_writeAnswer]
  · simp only [logs, modify, SysStatus.modify_ne _ hj]

theorem QInv.pendingOk {s : Sys σ ω} (h : QInv none s) : PendingOk s where
  pending i hi := by
    have hp := h.pending i (by simp) hi
    cases hq : (s.status.services i).queryPending <;> simp [hp, hq]
  id r hr requestId i hctx :=
    let ⟨hi, _, hid, hne⟩ := h.fits r hr requestId i hctx
    ⟨hi, hid, hne⟩
  clears _ hr _ _ hctx a := h.clears hr hctx a
  cleared := h.written

/-- **Distinct names suffice.** -/
theorem pendingOk_of_nodup {servicesStr : CStr} (h : (serviceConfigInit servicesStr).Nodup)
    (client : σ) (es : List (Event σ)) :
    PendingOk (after (serviceConfigInit servicesStr) client es : Sys σ ω) :=
  (qInv_after h (fun _ hm => ((ServiceConfig.valid_serviceConfigInit servicesStr).name _ hm).2)
    client es).pendingOk

/-! ## Repeated names -/

/-- The request for entry `i` of a first round of queries. -/
def firstRequest (σ : Type*) (cfg : List CStr) (i : ℕ) : HalRequest σ :=
  ⟨i, strncpy serviceNameMaxLen (cfg.getD i []), .query (UInt32.ofNat (i + 1)) i⟩

/-- A first round of queries in which every request is accepted, after `n` turns of the loop. -/
structure Asked (cfg : List CStr) (n : ℕ) (s : Sys σ ω) : Prop where
  count : s.status.serviceCount = cfg.length
  name : ∀ i < cfg.length, (s.status.services i).name = strncpy serviceNameMaxLen (cfg.getD i [])
  asked : ∀ i < n, (s.status.services i).queryPending = true ∧
    (s.status.services i).requestId = UInt32.ofNat (i + 1)
  rest : ∀ i, n ≤ i → (s.status.services i).queryPending = false ∧
    (s.status.services i).lastUpdateMs = 0
  next : s.nextRequestId = UInt32.ofNat (n + 1)
  calls : s.calls = n
  outstanding : s.outstanding = (List.range n).map (firstRequest σ cfg)

theorem asked_zero (cfg : List CStr) (client : σ) :
    Asked cfg 0 (({ client := client } : Sys σ ω).updateLocal cfg) where
  count := rfl
  name i hi := by simp only [Sys.updateLocal, sampled, if_true]; rw [if_pos hi]
  asked i hi := absurd hi (Nat.not_lt_zero i)
  rest i _ := by
    simp only [Sys.updateLocal, sampled, if_true]
    split <;> exact ⟨rfl, rfl⟩
  next := rfl
  calls := rfl
  outstanding := rfl

theorem ofNat_succ_ne_zero : ∀ n < 8, UInt32.ofNat (n + 1) + 1 ≠ 0 := by decide

theorem Asked.queryService {cfg : List CStr} {n k : ℕ} {s : Sys σ ω} (h : Asked cfg n s)
    (hn : n < cfg.length) (hlen : cfg.length ≤ 8) :
    Asked cfg (n + 1) (Sys.queryService 10000 (fun _ => {}) (k, s) n).2 := by
  obtain ⟨hp, hl⟩ := h.rest n le_rfl
  have hdue : due (s.status.services n) 10000 = true := by simp [due, hp, hl]
  have hid : s.nextRequestId + 1 ≠ 0 := by
    rw [h.next]; exact ofNat_succ_ne_zero n (by omega)
  simp only [Sys.queryService, hdue, issue, takeRequestId, if_neg hid, halCall]
  set f : ServiceStatus → ServiceStatus := fun svc => { svc with
    queryPending := true, requestId := s.nextRequestId, requestTimeMs := 10000 } with hf
  have hself : (s.status.modify n f).services n = f (s.status.services n) :=
    SysStatus.modify_self s.status n f
  have hne : ∀ i, i ≠ n → (s.status.modify n f).services i = s.status.services i :=
    fun i hi => SysStatus.modify_ne s.status hi f
  have hname : ∀ i, ((s.status.modify n f).services i).name = (s.status.services i).name :=
    s.status.modify_keeps ServiceStatus.name rfl
  refine ⟨h.count, fun i hi => (hname i).trans (h.name i hi), fun i hi => ?_, fun i hi => ?_, ?_,
    by simp [h.calls, modify, logs, deliverAll], ?_⟩
  · show ((s.status.modify n f).services i).queryPending = true ∧
      ((s.status.modify n f).services i).requestId = _
    by_cases hin : i = n
    · rw [hin, hself]
      exact ⟨rfl, h.next⟩
    · rw [hne i hin]
      exact h.asked i (by omega)
  · show ((s.status.modify n f).services i).queryPending = false ∧
      ((s.status.modify n f).services i).lastUpdateMs = 0
    rw [hne i (by omega)]
    exact h.rest i (by omega)
  · show s.nextRequestId + 1 = _
    rw [h.next, ← UInt32.ofNat_one, ← UInt32.ofNat_add]
  · show s.outstanding ++ [_] = _
    rw [h.outstanding, List.range_succ, List.map_append]
    congr 1
    simp only [List.map_cons, List.map_nil, firstRequest]
    rw [← h.name n hn, ← hname n, ← h.next, ← h.calls]
    rfl

theorem asked_round {cfg : List CStr} (hlen : cfg.length ≤ 8) (client : σ) :
    Asked cfg cfg.length
      (after cfg client [.updateLocal, .queryServices 10000 fun _ => {}] : Sys σ ω) := by
  set s₀ := ({ client := client } : Sys σ ω).updateLocal cfg with hs₀
  have h₀ : Asked cfg 0 s₀ := asked_zero cfg client
  have hfold : ∀ n, n ≤ cfg.length →
      Asked cfg n ((List.range n).foldl (Sys.queryService 10000 fun _ => {}) (0, s₀)).2 := by
    intro n
    induction n with
    | zero => exact fun _ => h₀
    | succ n ih =>
      intro hn
      rw [List.range_succ, List.foldl_append]
      exact (ih (by omega)).queryService (by omega) hlen
  have hround := hfold cfg.length le_rfl
  rw [← h₀.count] at hround
  exact h₀.count ▸ hround

/-- After a first round, the answer for the second of two entries of one name is stale: it finds
the first of them. -/
theorem not_clears_of_eq {cfg : List CStr} {s : Sys σ ω} (h : Asked cfg cfg.length s) {a b : ℕ}
    (hb : b < cfg.length) (hab : a < b) (hlen : cfg.length ≤ 8)
    (heq : cfg.getD a [] = cfg.getD b []) :
    ((s.deliver b {}).status.services b).queryPending = true := by
  have hfind : s.outstanding.find? (·.call = b) = some (firstRequest σ cfg b) := by
    rw [h.outstanding, List.find?_map]
    have : (List.range cfg.length).find? (fun i => decide ((firstRequest σ cfg i).call = b)) =
        some b := List.find?_range_eq_some.2 ⟨by simp [firstRequest], by simpa using hb,
          fun j hj => by simpa [firstRequest] using Nat.ne_of_lt hj⟩
    rw [Function.comp_def, this]
    rfl
  simp only [Sys.deliver, hfind, firstRequest, serviceQueryCb]
  split
  · exact (h.asked b hb).1
  rename_i j hj
  have hja : j ≤ a := by
    by_contra hlt
    have := (List.find?_range_eq_some.1 hj).2.2 a (by omega)
    have hname := h.name a (by omega)
    rw [heq] at hname
    simp [hname] at this
  have hid : (s.status.services j).requestId ≠ UInt32.ofNat (b + 1) := by
    rw [(h.asked j (by omega)).2]
    intro he
    have := congrArg UInt32.toNat he
    simp only [UInt32.toNat_ofNat'] at this
    omega
  rw [if_pos hid]
  exact (h.asked b hb).1

/-- **The flag is right for exactly the lists without repeated names.** -/
theorem pendingOk_iff (servicesStr : CStr) (client : σ) :
    (∀ es, PendingOk (after (serviceConfigInit servicesStr) client es : Sys σ ω)) ↔
      (serviceConfigInit servicesStr).Nodup := by
  have hvalid := ServiceConfig.valid_serviceConfigInit servicesStr
  constructor
  · intro hok
    rw [List.Nodup, List.pairwise_iff_getElem]
    intro a b ha hb hab heq
    set s : Sys σ ω := after (serviceConfigInit servicesStr) client
      [.updateLocal, .queryServices 10000 fun _ => {}] with hs
    have hround : Asked _ _ s := asked_round hvalid.length client
    have hpend : PendingOk s := hok [.updateLocal, .queryServices 10000 fun _ => {}]
    have hmem : firstRequest σ (serviceConfigInit servicesStr) b ∈ s.outstanding := by
      rw [hround.outstanding]
      exact List.mem_map_of_mem (List.mem_range.2 hb)
    have hclear := (hpend.clears _ hmem _ b rfl {}).1
    have hstale := not_clears_of_eq hround hb hab hvalid.length
      (by rw [List.getD_eq_getElem _ _ ha, List.getD_eq_getElem _ _ hb, heq])
    rw [show (firstRequest σ (serviceConfigInit servicesStr) b).call = b from rfl, hstale] at hclear
    simp at hclear
  · exact fun hnodup es => pendingOk_of_nodup hnodup client es

/-- The failing input: a service listed twice. -/
theorem pending_for_ever : ¬∀ (servicesStr : CStr) (es : List (Event Unit)),
    PendingOk (after (serviceConfigInit servicesStr) () es : Sys Unit Unit) := fun h => by
  have hcfg : serviceConfigInit ['a', ',', 'a'] = [['a'], ['a']] := by decide
  have hround : Asked [['a'], ['a']] 2 (after [['a'], ['a']] ()
      [.updateLocal, .queryServices 10000 fun _ => {}] : Sys Unit Unit) := asked_round (by decide) ()
  have hstale := not_clears_of_eq hround (a := 0) (b := 1) (by decide) (by decide) (by decide) rfl
  have hpend := h ['a', ',', 'a'] [.updateLocal, .queryServices 10000 fun _ => {}]
  rw [hcfg] at hpend
  have hclear := (hpend.clears (firstRequest Unit [['a'], ['a']] 1) ?_ _ 1 rfl {}).1
  · rw [show (firstRequest Unit [['a'], ['a']] 1).call = 1 from rfl, hstale] at hclear
    simp at hclear
  · rw [hround.outstanding]
    exact List.mem_map_of_mem (List.mem_range.2 (by decide))

end NanoHat.Sys
