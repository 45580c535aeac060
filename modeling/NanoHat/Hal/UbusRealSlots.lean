import NanoHat.Foundations.Ledger
import NanoHat.Hal.UbusReal

/-!
# The slots of the real ubus HAL

Every request accepted by `ubus_hal_real.c` sits in a slot until its callback has run. At a return
to the event loop a slot is `Idle` or `Armed`; while `request_timeout_cb` runs, the slot whose
timer fired is `Closing`, which is what keeps `abort_all_pending` away from it. `Mid` states this
for a state in the middle of a function, `ledger` reads the calls off the slots and the trace, and
`Keeps` says of a piece of the code that it keeps `Mid` and amounts to steps of that ledger. The
result is that the HAL refines a ledger of one-shot obligations (`step_refines`).
-/

namespace NanoHat.UbusReal

open UbusHal Runs

/-! ## The states of a slot -/

namespace PendingRequest

/-- At rest: not in use, no timer, no request at libubus. -/
def Idle (p : PendingRequest) : Prop :=
  p.inUse = false ∧ p.timeoutArmed = false ∧ p.reqActive = false

/-- Waiting: in use and not completed, with timer and request pending. -/
def Armed (p : PendingRequest) : Prop :=
  p.inUse = true ∧ p.completed = false ∧ p.timeoutArmed = true ∧ p.reqActive = true ∧ p.cb ≠ 0

/-- Completed with its callback still to run. -/
def Closing (p : PendingRequest) : Prop :=
  p.inUse = true ∧ p.completed = true ∧ p.timeoutArmed = false ∧ p.reqActive = false ∧ p.cb ≠ 0

theorem idle_default : Idle {} := ⟨rfl, rfl, rfl⟩

theorem Armed.not_idle {p : PendingRequest} (h : p.Armed) : ¬p.Idle := fun hi => by
  simpa [h.1] using hi.1

theorem Closing.not_armed {p : PendingRequest} (h : p.Closing) : ¬p.Armed := fun ha => by
  simpa [h.2.1] using ha.2.1

theorem Idle.not_armed {p : PendingRequest} (h : p.Idle) : ¬p.Armed := fun ha => ha.not_idle h

end PendingRequest

open PendingRequest

/-! ## What the trace says about calls -/

/-- The numbers an observation closes. -/
def closedOf : Obs → Option (ℕ × Fate)
  | .callback id .. => some (id, .answered)
  | .returned id code => if code = -1 then some (id, .refused) else none
  | .abandoned id => some (id, .abandoned)
  | _ => none

/-- The return codes recorded. -/
def returnOf : Obs → Option (ℕ × ℤ)
  | .returned id code => some (id, code)
  | _ => none

/-- A callback is run on the function, the `priv`, the kind and the service of its own call. -/
def Answers : Obs → List Obs → Prop
  | .callback id cb priv c, past =>
    ∃ name, .called id c.type (some name) cb priv ∈ past ∧
      (c.service = name ∨ c.service = strncpy 32 name)
  | _, _ => True

/-- The call a slot was filled from. -/
def FilledFrom (p : PendingRequest) (trace : List Obs) : Prop :=
  ∃ name, .called p.call p.type (some name) p.cb p.priv ∈ trace ∧ p.service = strncpy 32 name

/-- The calls whose callback has not run: those of the armed slots, and those of `extra`, which
the running function has in hand. -/
def openCalls (extra : Set ℕ) (s : Hal) : Set ℕ :=
  {k | k ∈ extra ∨ ∃ i, (s.pending i).Armed ∧ (s.pending i).call = k}

/-- The ledger of the HAL. -/
def ledger (extra : Set ℕ) (s : Hal) : Ledger :=
  ⟨s.calls, openCalls extra s, s.trace.filterMap closedOf⟩

/-- The states in the middle of a function: `busy` is the slot whose timer fired, if any, and
`extra` are the calls in hand. -/
structure Mid (busy : Option Slot) (extra : Set ℕ) (s : Hal) : Prop where
  slots : ∀ i, busy ≠ some i → (s.pending i).Idle ∨ (s.pending i).Armed
  closing : ∀ i, busy = some i → (s.pending i).Closing ∧ (s.pending i).call ∈ extra
  ctx : ∀ i, (s.pending i).Armed → s.ctx = true
  inj : ∀ i j, (s.pending i).Armed → (s.pending j).Armed →
    (s.pending i).call = (s.pending j).call → i = j
  fresh : ∀ i, (s.pending i).Armed → (s.pending i).call ∉ extra
  filled : ∀ i, (s.pending i).inUse = true → FilledFrom (s.pending i) s.trace
  answers : Always Answers s.trace

variable {busy : Option Slot} {extra : Set ℕ}

/-- From `s` to `s'` the ledger makes steps, no call is made or returned from, and
`g_initialized` stays. -/
structure Progress (extra : Set ℕ) (s s' : Hal) : Prop where
  steps : Ledger.Steps (ledger extra s) (ledger extra s')
  calls : s'.calls = s.calls
  initialized : s'.initialized = s.initialized
  returns : s'.trace.filterMap returnOf = s.trace.filterMap returnOf
  grows : s.trace <:+ s'.trace

theorem Progress.refl (s : Hal) : Progress extra s s := ⟨.refl, rfl, rfl, rfl, List.suffix_rfl⟩

theorem Progress.trans {s₁ s₂ s₃ : Hal} (h : Progress extra s₁ s₂) (h' : Progress extra s₂ s₃) :
    Progress extra s₁ s₃ :=
  ⟨h.steps.trans h'.steps, h'.calls.trans h.calls, h'.initialized.trans h.initialized,
    h'.returns.trans h.returns, h.grows.trans h'.grows⟩

/-- `f` keeps `Mid` and makes progress. -/
def Keeps (busy : Option Slot) (extra : Set ℕ) (f : Hal → Hal) : Prop :=
  ∀ s, Mid busy extra s → Mid busy extra (f s) ∧ Progress extra s (f s)

theorem FilledFrom.mono {p : PendingRequest} {t : List Obs} (os : List Obs)
    (h : FilledFrom p t) : FilledFrom p (os ++ t) :=
  let ⟨name, hc, hs⟩ := h
  ⟨name, List.mem_append_right os hc, hs⟩

/-- A slot whose request is at libubus is armed. -/
theorem Mid.armed_of_active {s : Hal} (h : Mid busy extra s) {i : Slot}
    (hi : (s.pending i).reqActive = true) : (s.pending i).Armed ∧ busy ≠ some i := by
  by_cases hb : busy = some i
  · simp [(h.closing i hb).1.2.2.2.1] at hi
  · rcases h.slots i hb with hidle | harmed
    · simp [hidle.2.2] at hi
    · exact ⟨harmed, hb⟩

/-- A slot whose timer is pending is armed. -/
theorem Mid.armed_of_timeoutArmed {s : Hal} (h : Mid busy extra s) {i : Slot}
    (hi : (s.pending i).timeoutArmed = true) : (s.pending i).Armed ∧ busy ≠ some i := by
  by_cases hb : busy = some i
  · simp [(h.closing i hb).1.2.2.1] at hi
  · rcases h.slots i hb with hidle | harmed
    · simp [hidle.2.1] at hi
    · exact ⟨harmed, hb⟩

/-- A slot in use and not completed is armed. -/
theorem Mid.armed_of_live {s : Hal} (h : Mid busy extra s) {i : Slot}
    (hu : (s.pending i).inUse = true) (hc : (s.pending i).completed = false) :
    (s.pending i).Armed ∧ busy ≠ some i := by
  by_cases hb : busy = some i
  · simp [(h.closing i hb).1.2.1] at hc
  · rcases h.slots i hb with hidle | harmed
    · simp [hidle.1] at hu
    · exact ⟨harmed, hb⟩

/-! ## Composing pieces of code -/

theorem Keeps.comp {f g : Hal → Hal} (hf : Keeps busy extra f) (hg : Keeps busy extra g) :
    Keeps busy extra fun s => g (f s) := fun s h => by
  obtain ⟨h₁, p₁⟩ := hf s h
  obtain ⟨h₂, p₂⟩ := hg (f s) h₁
  exact ⟨h₂, p₁.trans p₂⟩

theorem Keeps.foldl {α : Type*} {f : Hal → α → Hal} (hf : ∀ a, Keeps busy extra fun s => f s a)
    (l : List α) : Keeps busy extra fun s => l.foldl f s := by
  induction l with
  | nil => exact fun s h => ⟨h, .refl s⟩
  | cons a l ih => exact (hf a).comp ih

/-- What touches neither slots, calls nor trace, and opens a connection only without armed slots,
keeps everything. -/
theorem Mid.congr {s s' : Hal} (h : Mid busy extra s) (hp : s'.pending = s.pending)
    (ht : s'.trace = s.trace) (hctx : ∀ i, (s.pending i).Armed → s'.ctx = s.ctx) :
    Mid busy extra s' where
  slots := by rw [hp]; exact h.slots
  closing := by rw [hp]; exact h.closing
  ctx i hi := by rw [hp] at hi; rw [hctx i hi]; exact h.ctx i hi
  inj := by rw [hp]; exact h.inj
  fresh := by rw [hp]; exact h.fresh
  filled := by rw [hp, ht]; exact h.filled
  answers := by rw [ht]; exact h.answers

theorem ledger_congr {s s' : Hal} (hp : s'.pending = s.pending) (ht : s'.trace = s.trace)
    (hc : s'.calls = s.calls) : ledger extra s' = ledger extra s := by
  simp only [ledger, openCalls, hp, ht, hc]

/-- An observation about something else than calls. -/
theorem Mid.log {s : Hal} (h : Mid busy extra s) {o : Obs} (ha : Answers o s.trace) :
    Mid busy extra (s.log [o]) where
  slots := h.slots
  closing := h.closing
  ctx := h.ctx
  inj := h.inj
  fresh := h.fresh
  filled i hi := (h.filled i hi).mono [o]
  answers := ⟨ha, h.answers⟩

theorem keeps_log {o : Obs} (ha : ∀ past, Answers o past) (hc : closedOf o = none)
    (hr : returnOf o = none) : Keeps busy extra fun s => s.log [o] := fun s h => by
  refine ⟨h.log (ha _), ?_, rfl, rfl, by simp [Hal.log, hr], List.suffix_cons ..⟩
  simp only [ledger, openCalls, Hal.log, List.cons_append, List.nil_append,
    List.filterMap_cons_none hc]
  exact .refl

/-! ## Closing a request -/

@[simp] theorem setSlot_self (s : Hal) (i : Slot) (p : PendingRequest) :
    (s.setSlot i p).pending i = p := Function.update_self ..

@[simp] theorem setSlot_setSlot (s : Hal) (i : Slot) (p q : PendingRequest) :
    (s.setSlot i p).setSlot i q = s.setSlot i q := by simp [Hal.setSlot]

theorem setSlot_ne (s : Hal) {i j : Slot} (p : PendingRequest) (h : j ≠ i) :
    (s.setSlot i p).pending j = s.pending j := Function.update_of_ne h ..

/-- The user callback of a request that carries one is run once, on its own arguments. -/
theorem userCallback_eq {p : PendingRequest} (hcb : p.cb ≠ 0) (installed running : Bool)
    (status : ℤ) (success : Bool) :
    ∃ c : Callback, Hal.userCallback p installed running status success =
      [.callback p.call p.cb p.priv c] ∧ c.type = p.type ∧ c.service = p.service := by
  cases ht : p.type with
  | query => exact ⟨.query p.service installed running status,
      by simp [Hal.userCallback, ht, hcb], rfl, rfl⟩
  | control => exact ⟨.control p.service success status,
      by simp [Hal.userCallback, ht, hcb], rfl, rfl⟩

/-- The callback of a request is admissible for the call its slot was filled from. -/
theorem FilledFrom.answers {p : PendingRequest} {t : List Obs} (h : FilledFrom p t) {c : Callback}
    (ht : c.type = p.type) (hs : c.service = p.service) :
    Answers (.callback p.call p.cb p.priv c) t := by
  obtain ⟨name, hc, hn⟩ := h
  exact ⟨name, ht ▸ hc, Or.inr (hs.trans hn)⟩

theorem openCalls_setSlot_idle {s s' : Hal} {i : Slot} {p : PendingRequest}
    (h : Mid busy extra s) (hi : (s.pending i).Armed) (hp : p.Idle)
    (hs : s'.pending = Function.update s.pending i p) :
    openCalls extra s' = openCalls extra s \ {(s.pending i).call} := by
  ext k
  simp only [openCalls, hs, Set.mem_ofPred_eq, Set.mem_sdiff, Set.mem_singleton_iff]
  constructor
  · rintro (hk | ⟨j, hj, rfl⟩)
    · exact ⟨Or.inl hk, fun he => h.fresh i hi (he ▸ hk)⟩
    · by_cases hji : j = i
      · subst hji
        rw [Function.update_self] at hj
        exact absurd hj hp.not_armed
      · rw [Function.update_of_ne hji] at hj ⊢
        exact ⟨Or.inr ⟨j, hj, rfl⟩, fun he => hji (h.inj j i hj hi he)⟩
  · rintro ⟨hk | ⟨j, hj, rfl⟩, hne⟩
    · exact Or.inl hk
    · have hji : j ≠ i := fun he => hne (he ▸ rfl)
      exact Or.inr ⟨j, by rwa [Function.update_of_ne hji], by rw [Function.update_of_ne hji]⟩

/-- **Closing an armed slot**: recording an observation that closes its call and putting the slot
at rest. -/
theorem Mid.close {s : Hal} (h : Mid busy extra s) {i : Slot} (hi : (s.pending i).Armed)
    {p : PendingRequest} (hp : p.Idle) {o : Obs} {f : Fate}
    (ho : closedOf o = some ((s.pending i).call, f)) (hr : returnOf o = none)
    (ha : Answers o s.trace) {s' : Hal} (hs' : s' = (s.log [o]).setSlot i p) :
    Mid busy extra s' ∧ Progress extra s s' := by
  subst hs'
  have hb : busy ≠ some i := fun hb => (h.closing i hb).1.not_armed hi
  refine ⟨⟨fun j hj => ?_, fun j hj => ?_, fun j hj => ?_, fun j k hj hk he => ?_,
    fun j hj => ?_, fun j hj => ?_, ⟨ha, h.answers⟩⟩, ?_, rfl, rfl, by simp [Hal.setSlot, Hal.log, hr],
    List.suffix_cons ..⟩
  · by_cases hji : j = i
    · subst hji; exact Or.inl (by simpa using hp)
    · rw [setSlot_ne _ _ hji]; exact h.slots j hj
  · have hji : j ≠ i := fun he => hb (he ▸ hj)
    rw [setSlot_ne _ _ hji]; exact h.closing j hj
  · by_cases hji : j = i
    · subst hji; exact absurd (by simpa using hj) hp.not_armed
    · rw [setSlot_ne _ _ hji] at hj; exact h.ctx j hj
  · by_cases hji : j = i
    · subst hji; exact absurd (by simpa using hj) hp.not_armed
    · by_cases hki : k = i
      · subst hki; exact absurd (by simpa using hk) hp.not_armed
      · rw [setSlot_ne _ _ hji] at hj he
        rw [setSlot_ne _ _ hki] at hk he
        exact h.inj j k hj hk he
  · by_cases hji : j = i
    · subst hji; exact absurd (by simpa using hj) hp.not_armed
    · rw [setSlot_ne _ _ hji] at hj ⊢; exact h.fresh j hj
  · by_cases hji : j = i
    · subst hji; simp [hp.1] at hj
    · rw [setSlot_ne _ _ hji] at hj ⊢; exact (h.filled j hj).mono [o]
  · have hopen : openCalls extra ((s.log [o]).setSlot i p) =
        openCalls extra s \ {(s.pending i).call} := openCalls_setSlot_idle h hi hp rfl
    have hclose : ledger extra ((s.log [o]).setSlot i p) =
        (ledger extra s).close (s.pending i).call f :=
      Ledger.ext rfl hopen (by simp [ledger, Ledger.close, Hal.setSlot, Hal.log, ho])
    rw [hclose]
    exact .single (.close f (Or.inr ⟨i, hi, rfl⟩))

/-! ## The pieces of the code -/

theorem keeps_abortSlot (status : ℤ) (i : Slot) :
    Keeps busy extra fun s => s.abortSlot status i := fun s h => by
  by_cases hlive : (s.pending i).inUse = true ∧ (s.pending i).completed = false
  · obtain ⟨harmed, -⟩ := h.armed_of_live hlive.1 hlive.2
    obtain ⟨c, hc, ht, hs⟩ := userCallback_eq harmed.2.2.2.2 false false status false
    have hout : s.abortSlot status i = (s.log [.callback (s.pending i).call (s.pending i).cb
        (s.pending i).priv c]).setSlot i { s.pending i with
          completed := true, timeoutArmed := false, reqActive := false, inUse := false } := by
      simp [Hal.abortSlot, hlive, hc, h.ctx i harmed]
    exact h.close harmed ⟨rfl, rfl, rfl⟩ (f := .answered) rfl rfl
      ((h.filled i harmed.1).answers ht hs) hout
  · have hsame : s.abortSlot status i = s := by
      simp only [Hal.abortSlot]
      rw [if_neg (by simpa using hlive)]
    simp only [hsame]
    exact ⟨h, .refl s⟩

theorem keeps_abortAllPending (status : ℤ) :
    Keeps busy extra fun s => s.abortAllPending status :=
  Keeps.foldl (keeps_abortSlot status) _

theorem not_armed_abortSlot {status : ℤ} {s : Hal} {i j : Slot}
    (h : ((s.abortSlot status i).pending j).Armed) : j ≠ i ∧ (s.pending j).Armed := by
  by_cases hlive : (s.pending i).inUse = true ∧ (s.pending i).completed = false
  · by_cases hji : j = i
    · subst hji
      exact absurd h.1 (by simp [Hal.abortSlot, hlive])
    · refine ⟨hji, ?_⟩
      simpa [Hal.abortSlot, hlive, setSlot_ne _ _ hji, Hal.log] using h
  · have hsame : s.abortSlot status i = s := by
      simp only [Hal.abortSlot]
      rw [if_neg (by simpa using hlive)]
    rw [hsame] at h
    exact ⟨fun he => hlive (he ▸ ⟨h.1, h.2.1⟩), h⟩

theorem not_armed_foldl_abortSlot {status : ℤ} (l : List Slot) {s : Hal} {j : Slot}
    (h : ((l.foldl (Hal.abortSlot status) s).pending j).Armed) :
    j ∉ l ∧ (s.pending j).Armed := by
  induction l generalizing s with
  | nil => exact ⟨List.not_mem_nil, h⟩
  | cons i l ih =>
    obtain ⟨hl, h'⟩ := ih h
    obtain ⟨hji, h''⟩ := not_armed_abortSlot h'
    exact ⟨by simp [hji, hl], h''⟩

/-- After `abort_all_pending` no request is waiting. -/
theorem not_armed_abortAllPending (status : ℤ) (s : Hal) (j : Slot) :
    ¬((s.abortAllPending status).pending j).Armed := fun h =>
  (not_armed_foldl_abortSlot _ h).1 (List.mem_finRange j)

theorem progress_congr {s s' : Hal} (hp : s'.pending = s.pending) (ht : s'.trace = s.trace)
    (hc : s'.calls = s.calls) (hi : s'.initialized = s.initialized) : Progress extra s s' :=
  ⟨by rw [ledger_congr hp ht hc], hc, hi, by rw [ht], ht ▸ List.suffix_rfl⟩

theorem keeps_resetConnection (time : ℤ) :
    Keeps busy extra fun s => s.resetConnection time := by
  refine fun s h => ?_
  have hlog : Keeps busy extra fun s =>
      s.log [.reset time s.consecutiveFailures s.lastAttemptTime] := fun s h =>
    keeps_log (o := .reset time s.consecutiveFailures s.lastAttemptTime)
      (fun _ => trivial) rfl rfl s h
  obtain ⟨h', hp⟩ := hlog.comp (keeps_abortAllPending statusConnFailed) s h
  exact ⟨h'.congr rfl rfl fun i hi => absurd hi (not_armed_abortAllPending _ _ i),
    hp.trans (progress_congr rfl rfl rfl rfl)⟩

theorem keeps_ensureContext (env : ConnEnv) :
    Keeps busy extra fun s => (s.ensureContext env).2 := fun s h => by
  simp only [Hal.ensureContext]
  split
  · exact ⟨h, .refl s⟩
  rename_i hctx
  have hnone : ∀ i, ¬(s.pending i).Armed := fun i hi => hctx (h.ctx i hi)
  split
  · exact ⟨h, .refl s⟩
  split
  · have h₁ : Mid busy extra
        { s with lastAttemptTime := env.attemptTime, ctx := true, consecutiveFailures := 0 } :=
      h.congr rfl rfl fun i hi => absurd hi (hnone i)
    obtain ⟨h₂, p₂⟩ := keeps_log (o := .connect env.attemptTime true 0)
      (fun _ => trivial) rfl rfl _ h₁
    exact ⟨h₂, (progress_congr rfl rfl rfl rfl : Progress extra s
      { s with lastAttemptTime := env.attemptTime, ctx := true, consecutiveFailures := 0 }).trans p₂⟩
  · have h₁ : Mid busy extra
        { s with lastAttemptTime := env.attemptTime, rcId := 0,
                 consecutiveFailures := s.consecutiveFailures + 1 } :=
      h.congr rfl rfl fun i hi => absurd hi (hnone i)
    obtain ⟨h₂, p₂⟩ := keeps_log (o := .connect env.attemptTime false (s.consecutiveFailures + 1))
      (fun _ => trivial) rfl rfl _ h₁
    exact ⟨h₂, (progress_congr rfl rfl rfl rfl : Progress extra s
      { s with lastAttemptTime := env.attemptTime, rcId := 0,
               consecutiveFailures := s.consecutiveFailures + 1 }).trans p₂⟩

/-- A slot that keeps all but its parsed answer keeps everything. -/
theorem Mid.answerSlot {s : Hal} (h : Mid busy extra s) (i : Slot) (installed running : Bool) :
    Mid busy extra
      (s.setSlot i { s.pending i with installed := installed, running := running }) ∧
    Progress extra s
      (s.setSlot i { s.pending i with installed := installed, running := running }) := by
  set s' := s.setSlot i { s.pending i with installed := installed, running := running } with hs'
  have harmed : ∀ j, (s'.pending j).Armed ↔ (s.pending j).Armed := fun j => by
    by_cases hji : j = i
    · subst hji; simp [hs', Armed]
    · rw [hs', setSlot_ne _ _ hji]
  have hcall : ∀ j, (s'.pending j).call = (s.pending j).call := fun j => by
    by_cases hji : j = i
    · subst hji; simp [hs']
    · rw [hs', setSlot_ne _ _ hji]
  refine ⟨⟨fun j hj => ?_, fun j hj => ?_, fun j hj => h.ctx j ((harmed j).1 hj),
    fun j k hj hk he => ?_, fun j hj => ?_, fun j hj => ?_, h.answers⟩, ?_⟩
  · rw [harmed]
    by_cases hji : j = i
    · subst hji; simpa [hs', Idle] using h.slots j hj
    · rw [hs', setSlot_ne _ _ hji]; exact h.slots j hj
  · rw [hcall]
    by_cases hji : j = i
    · subst hji; simpa [hs', Closing] using h.closing j hj
    · rw [hs', setSlot_ne _ _ hji]; exact h.closing j hj
  · rw [hcall, hcall] at he
    exact h.inj j k ((harmed j).1 hj) ((harmed k).1 hk) he
  · rw [hcall]; exact h.fresh j ((harmed j).1 hj)
  · by_cases hji : j = i
    · subst hji
      simpa [hs', FilledFrom, Hal.setSlot] using h.filled j (by simpa [hs'] using hj)
    · rw [hs', setSlot_ne _ _ hji] at hj ⊢; exact h.filled j hj
  · have hopen : openCalls extra s' = openCalls extra s := by
      ext k; simp only [openCalls, harmed, hcall]
    exact ⟨by rw [Ledger.ext (x := ledger extra s') (y := ledger extra s) rfl hopen rfl],
      rfl, rfl, rfl, List.suffix_rfl⟩

theorem keeps_dispatchData (i : Slot) (msg : Option (List BlobAttr)) :
    Keeps busy extra fun s => s.dispatchData i msg := fun s h => by
  simp only [Hal.dispatchData]
  split
  · cases msg with
    | none => exact ⟨h, .refl s⟩
    | some attrs =>
      simp only [Hal.queryDataCb]
      split
      · exact ⟨h, .refl s⟩
      · split
        · exact h.answerSlot i true true
        · exact h.answerSlot i true (s.pending i).running
  · exact ⟨h, .refl s⟩

/-- The counters of `query_complete_cb` touch neither slots, connection, calls nor trace. -/
theorem completeStatus_snd (s : Hal) (ret : UbusStatus) :
    ∃ failures rcId, (s.completeStatus ret).2 =
      { s with consecutiveFailures := failures, rcId := rcId } := by
  cases ret <;> exact ⟨_, _, rfl⟩

/-- `query_complete_cb` on a waiting request: the counters, the callback, the slot at rest. -/
theorem queryCompleteCb_eq {s : Hal} {i : Slot} (hu : (s.pending i).inUse = true)
    (hc : (s.pending i).completed = false) (hcb : (s.pending i).cb ≠ 0) (ret : UbusStatus) :
    ∃ failures rcId c, c.type = (s.pending i).type ∧ c.service = (s.pending i).service ∧
      s.queryCompleteCb i ret =
        { (s.log [.callback (s.pending i).call (s.pending i).cb (s.pending i).priv c]).setSlot i
            { s.pending i with completed := true, timeoutArmed := false, inUse := false } with
          consecutiveFailures := failures, rcId := rcId } := by
  set s₁ := s.setSlot i { s.pending i with completed := true, timeoutArmed := false } with hs₁
  obtain ⟨failures, rcId, hcs⟩ := completeStatus_snd s₁ ret
  obtain ⟨c, hcall, ht, hs⟩ := userCallback_eq hcb (s.pending i).installed (s.pending i).running
    (s₁.completeStatus ret).1 (decide ((s₁.completeStatus ret).1 = statusOk))
  refine ⟨failures, rcId, c, ht, hs, ?_⟩
  simp only [Hal.queryCompleteCb]
  rw [if_neg (by simp [hu, hc]), ← hs₁, hcall, hcs]
  simp [hs₁, Hal.setSlot, Hal.log]

theorem keeps_dispatchComplete (i : Slot) (ret : UbusStatus) :
    Keeps busy extra fun s => s.dispatchComplete i ret := fun s h => by
  by_cases hact : (s.pending i).reqActive = true
  · obtain ⟨harmed, -⟩ := h.armed_of_active hact
    set s₁ := s.setSlot i { s.pending i with reqActive := false } with hs₁
    have hp : s₁.pending i = { s.pending i with reqActive := false } := setSlot_self ..
    obtain ⟨failures, rcId, c, ht, hs, heq⟩ := queryCompleteCb_eq (s := s₁) (i := i)
      (by rw [hp]; exact harmed.1) (by rw [hp]; exact harmed.2.1)
      (by rw [hp]; exact harmed.2.2.2.2) ret
    rw [hp] at ht hs heq
    have hout : s.dispatchComplete i ret =
        { (s.log [.callback (s.pending i).call (s.pending i).cb (s.pending i).priv c]).setSlot i
            { s.pending i with
              reqActive := false, completed := true, timeoutArmed := false, inUse := false } with
          consecutiveFailures := failures, rcId := rcId } := by
      rw [Hal.dispatchComplete, if_pos hact, ← hs₁, heq]
      simp [hs₁, Hal.setSlot, Hal.log]
    obtain ⟨h', hpr⟩ := h.close harmed (p := { s.pending i with
        reqActive := false, completed := true, timeoutArmed := false, inUse := false })
      ⟨rfl, rfl, rfl⟩ (f := .answered) rfl rfl ((h.filled i harmed.1).answers ht hs) rfl
    simp only [hout]
    exact ⟨h'.congr rfl rfl fun _ _ => rfl, hpr.trans (progress_congr rfl rfl rfl rfl)⟩
  · have hsame : s.dispatchComplete i ret = s := by simp [Hal.dispatchComplete, hact]
    simp only [hsame]
    exact ⟨h, .refl s⟩

theorem keeps_lookupStep (e : LookupEvent) : Keeps busy extra fun s => s.lookupStep e := by
  cases e with
  | data i msg => exact keeps_dispatchData i msg
  | complete i ret => exact keeps_dispatchComplete i ret
  | rcId id => exact fun s h => ⟨h.congr rfl rfl fun _ _ => rfl, progress_congr rfl rfl rfl rfl⟩

theorem keeps_ensureRcId (env : ConnEnv) :
    Keeps busy extra fun s => (s.ensureRcId env).2 := fun s h => by
  obtain ⟨h₁, p₁⟩ := keeps_ensureContext env s h
  simp only [Hal.ensureRcId]
  split
  · exact ⟨h₁, p₁⟩
  split
  · exact ⟨h₁, p₁⟩
  obtain ⟨h₂, p₂⟩ := Keeps.foldl keeps_lookupStep env.lookup _ h₁
  split
  · obtain ⟨h₃, p₃⟩ := keeps_resetConnection env.resetTime _ h₂
    exact ⟨h₃, (p₁.trans p₂).trans p₃⟩
  · exact ⟨h₂, p₁.trans p₂⟩

/-! ## The timeout of a request -/

/-- `request_timeout_cb` takes its request in hand: the slot is closing, the ledger unchanged. -/
theorem Mid.startClosing {s : Hal} (h : Mid none ∅ s) {i : Slot} (hi : (s.pending i).Armed) :
    Mid (some i) {(s.pending i).call} (s.setSlot i
        { s.pending i with timeoutArmed := false, completed := true, reqActive := false }) ∧
      ledger {(s.pending i).call} (s.setSlot i
        { s.pending i with timeoutArmed := false, completed := true, reqActive := false }) =
      ledger ∅ s := by
  set q : PendingRequest :=
    { s.pending i with timeoutArmed := false, completed := true, reqActive := false } with hq
  have hclosing : q.Closing := ⟨hi.1, rfl, rfl, rfl, hi.2.2.2.2⟩
  have harmed : ∀ j, ((s.setSlot i q).pending j).Armed → j ≠ i ∧ (s.pending j).Armed := by
    intro j hj
    by_cases hji : j = i
    · subst hji; exact absurd (by simpa using hj) hclosing.not_armed
    · rw [setSlot_ne _ _ hji] at hj; exact ⟨hji, hj⟩
  refine ⟨⟨fun j hj => ?_, fun j hj => ?_, fun j hj => h.ctx j (harmed j hj).2,
    fun j k hj hk he => ?_, fun j hj => ?_, fun j hj => ?_, h.answers⟩, ?_⟩
  · have hji : j ≠ i := fun he => hj (he ▸ rfl)
    rw [setSlot_ne _ _ hji]; exact h.slots j (by simp)
  · obtain rfl := Option.some.inj hj
    rw [setSlot_self]; exact ⟨hclosing, rfl⟩
  · obtain ⟨hji, hj⟩ := harmed j hj
    obtain ⟨hki, hk⟩ := harmed k hk
    rw [setSlot_ne _ _ hji, setSlot_ne _ _ hki] at he
    exact h.inj j k hj hk he
  · obtain ⟨hji, hj⟩ := harmed j hj
    rw [setSlot_ne _ _ hji]
    exact fun he => hji (h.inj j i hj hi he)
  · by_cases hji : j = i
    · subst hji; simpa [hq, FilledFrom, Hal.setSlot] using h.filled j hi.1
    · rw [setSlot_ne _ _ hji] at hj ⊢; exact h.filled j hj
  · refine Ledger.ext rfl ?_ rfl
    ext k
    simp only [ledger, openCalls, Set.mem_ofPred_eq, Set.mem_singleton_iff,
      Set.mem_empty_iff_false, false_or]
    constructor
    · rintro (rfl | ⟨j, hj, rfl⟩)
      · exact ⟨i, hi, rfl⟩
      · obtain ⟨hji, hj⟩ := harmed j hj
        exact ⟨j, hj, by rw [setSlot_ne _ _ hji]⟩
    · rintro ⟨j, hj, rfl⟩
      by_cases hji : j = i
      · subst hji; exact Or.inl rfl
      · exact Or.inr ⟨j, by rwa [setSlot_ne _ _ hji], by rw [setSlot_ne _ _ hji]⟩

/-- The last lines of `request_timeout_cb`: the callback of the closing slot, and its release. -/
theorem Mid.finishClosing {s : Hal} {i : Slot} {k : ℕ} (h : Mid (some i) {k} s) :
    let s' := (s.log (Hal.userCallback (s.pending i) false false statusTimeout false)).setSlot i
      { s.pending i with inUse := false }
    Mid none ∅ s' ∧ Ledger.Steps (ledger {k} s) (ledger ∅ s') ∧
      s'.trace.filterMap returnOf = s.trace.filterMap returnOf ∧ s.trace <:+ s'.trace := by
  obtain ⟨hclosing, hk⟩ := h.closing i rfl
  obtain ⟨c, hc, ht, hs⟩ := userCallback_eq hclosing.2.2.2.2 false false statusTimeout false
  have hcall : (s.pending i).call = k := hk
  intro s'
  have hs' : s' = (s.log [.callback (s.pending i).call (s.pending i).cb (s.pending i).priv c]).setSlot
      i { s.pending i with inUse := false } := by rw [← hc]
  have hidle : ({ s.pending i with inUse := false } : PendingRequest).Idle :=
    ⟨rfl, hclosing.2.2.1, hclosing.2.2.2.1⟩
  have harmed : ∀ j, (s'.pending j).Armed → j ≠ i ∧ (s.pending j).Armed := by
    intro j hj
    by_cases hji : j = i
    · subst hji
      rw [hs', setSlot_self] at hj
      exact absurd hj hidle.not_armed
    · rw [hs', setSlot_ne _ _ hji] at hj; exact ⟨hji, hj⟩
  have hne : ∀ j, j ≠ i → s'.pending j = s.pending j := fun j hji => by
    rw [hs', setSlot_ne _ _ hji]; rfl
  refine ⟨⟨fun j _ => ?_, fun j hj => by simp at hj, fun j hj => ?_, fun j l hj hl he => ?_,
    fun j hj => id, fun j hj => ?_, ?_⟩, ?_, by rw [hs']; exact List.filterMap_cons_none rfl, by rw [hs']; exact List.suffix_cons ..⟩
  · by_cases hji : j = i
    · subst hji; rw [hs', setSlot_self]; exact Or.inl hidle
    · rw [hne j hji]; exact h.slots j fun he => hji (Option.some.inj he).symm
  · have := h.ctx j (harmed j hj).2
    rwa [hs']
  · obtain ⟨hji, hj⟩ := harmed j hj
    obtain ⟨hli, hl⟩ := harmed l hl
    rw [hne j hji, hne l hli] at he
    exact h.inj j l hj hl he
  · by_cases hji : j = i
    · subst hji; rw [hs', setSlot_self] at hj; simp at hj
    · rw [hne j hji] at hj ⊢; rw [hs']; exact (h.filled j hj).mono [_]
  · rw [hs']; exact ⟨(h.filled i hclosing.1).answers ht hs, h.answers⟩
  · have hclose : ledger ∅ s' = (ledger {k} s).close k .answered := by
      refine Ledger.ext (by rw [hs']; rfl) ?_ (by rw [hs', hcall]; rfl)
      ext l
      simp only [ledger, Ledger.close, openCalls, Set.mem_ofPred_eq, Set.mem_empty_iff_false,
        false_or, Set.mem_sdiff, Set.mem_singleton_iff]
      constructor
      · rintro ⟨j, hj, rfl⟩
        obtain ⟨hji, hj⟩ := harmed j hj
        rw [hne j hji]
        exact ⟨Or.inr ⟨j, hj, rfl⟩, fun he => h.fresh j hj he⟩
      · rintro ⟨rfl | ⟨j, hj, rfl⟩, hl⟩
        · exact absurd rfl hl
        · have hji : j ≠ i := fun he => hl (he ▸ hcall)
          exact ⟨j, by rwa [hne j hji], by rw [hne j hji]⟩
    rw [hclose]
    exact .single (.close .answered (Or.inl rfl))

/-- **One timeout.** Whatever else it resets on the way, `request_timeout_cb` answers its own
request once. -/
theorem Mid.dispatchTimeout {s : Hal} (h : Mid none ∅ s) (i : Slot) (time : ℤ) :
    Mid none ∅ (s.dispatchTimeout i time) ∧ Progress ∅ s (s.dispatchTimeout i time) := by
  by_cases harm : (s.pending i).timeoutArmed = true
  · obtain ⟨harmed, -⟩ := h.armed_of_timeoutArmed harm
    obtain ⟨h₂, hl₂⟩ := h.startClosing harmed
    set s₂ := s.setSlot i
      { s.pending i with timeoutArmed := false, completed := true, reqActive := false } with hs₂
    set s₃ : Hal := { s₂ with consecutiveFailures := s₂.consecutiveFailures + 1 } with hs₃
    set s₄ := if timeoutResetThreshold ≤ s₃.consecutiveFailures then s₃.resetConnection time
      else { s₃ with rcId := 0 } with hs₄
    have hkeep : Mid (some i) {(s.pending i).call} s₄ ∧ Progress {(s.pending i).call} s₂ s₄ := by
      have h₃ : Mid (some i) {(s.pending i).call} s₃ := h₂.congr rfl rfl fun _ _ => rfl
      have p₃ : Progress {(s.pending i).call} s₂ s₃ := progress_congr rfl rfl rfl rfl
      rw [hs₄]
      split
      · obtain ⟨h₄, p₄⟩ := keeps_resetConnection time s₃ h₃
        exact ⟨h₄, p₃.trans p₄⟩
      · exact ⟨h₃.congr rfl rfl fun _ _ => rfl, p₃.trans (progress_congr rfl rfl rfl rfl)⟩
    obtain ⟨h₅, hst, hret, hgr⟩ := hkeep.1.finishClosing
    have hout : s.dispatchTimeout i time =
        (s₄.log (Hal.userCallback (s₄.pending i) false false statusTimeout false)).setSlot i
          { s₄.pending i with inUse := false } := by
      have hone : (s.setSlot i { s.pending i with timeoutArmed := false }).setSlot i
          { s.pending i with timeoutArmed := false, completed := true, reqActive := false } = s₂ := by
        simp [hs₂, Hal.setSlot]
      simp only [Hal.dispatchTimeout, harm, if_true, Hal.requestTimeoutCb, setSlot_self]
      rw [if_neg (by simp [harmed.1, harmed.2.1])]
      have hctx : (s.setSlot i { s.pending i with timeoutArmed := false }).ctx = true :=
        h.ctx i harmed
      simp only [hctx, if_true, hone]
      rfl
    rw [hout]
    refine ⟨h₅, ?_, ?_, ?_, hret.trans hkeep.2.returns, hkeep.2.grows.trans hgr⟩
    · rw [← hl₂]; exact hkeep.2.steps.trans hst
    · exact hkeep.2.calls
    · exact hkeep.2.initialized
  · have hsame : s.dispatchTimeout i time = s := by simp [Hal.dispatchTimeout, harm]
    rw [hsame]
    exact ⟨h, .refl s⟩

end NanoHat.UbusReal
