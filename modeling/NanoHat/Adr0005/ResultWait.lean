import Mathlib.Data.Finset.Insert
import Mathlib.Data.Finset.Erase
import Mathlib.Data.Finset.Card
import Mathlib.Data.List.Nodup
import NanoHat.Adr0005.EventWait
import NanoHat.Adr0005.WorkQueues

/-!
# Waiting for a result

The threads around a result queue: one is in `result_queue_wait`, any number of others are in
`result_queue_push`, `result_queue_try_pop`, `result_queue_close`, `result_queue_mark_abandoned` and
`result_queue_clear_abandoned`. A push looks for its request among the abandoned ones before it
touches the ring, and makes room in a full ring by dropping an abandoned result, each under
`abandoned_lock`.

Whoever waits is woken for what comes (`result_wait_wakes`), and no result is lost unless its
request was abandoned (`result_wait_keeps`). The array of abandoned ids is a set of bounded size
(`abandoned_is_set`).
-/

namespace NanoHat.Adr0005

open FirstMatch Runs EventCount

/-! ## The abandoned requests -/

/-- `RESULT_QUEUE_MAX_ABANDONED` -/
def resultQueueMaxAbandoned : ℕ := 16

/-- `result_queue_mark_abandoned`: what becomes of `abandoned_ids`. -/
def markAbandoned (ids : List UInt32) (requestId : UInt32) : List UInt32 :=
  if ids.length < resultQueueMaxAbandoned then
    if ids.contains requestId then ids else ids ++ [requestId]
  else ids

/-- `result_queue_clear_abandoned`: the last id takes the place of the one that goes. -/
def clearAbandoned (ids : List UInt32) (requestId : UInt32) : List UInt32 :=
  match ids.idxOf? requestId with
  | some i => (ids.set i (ids.getLast?.getD requestId)).dropLast
  | none => ids

inductive AbandonCall
  | mark (requestId : UInt32)
  | clear (requestId : UInt32)

def abandonStep (ids : List UInt32) : AbandonCall → List UInt32
  | .mark requestId => markAbandoned ids requestId
  | .clear requestId => clearAbandoned ids requestId

/-- What the array stands for: a set that takes no more than `RESULT_QUEUE_MAX_ABANDONED` ids. -/
def abandonSetStep (ids : Finset UInt32) : AbandonCall → Finset UInt32
  | .mark requestId => if ids.card < resultQueueMaxAbandoned then insert requestId ids else ids
  | .clear requestId => ids.erase requestId

/-- The array `ids` lists the set `set`. -/
def Lists (ids : List UInt32) (set : Finset UInt32) : Prop :=
  ids.Nodup ∧ ∀ requestId, requestId ∈ ids ↔ requestId ∈ set

theorem Lists.length {ids : List UInt32} {set : Finset UInt32} (h : Lists ids set) :
    ids.length = set.card := by
  have hset : ids.toFinset = set := by
    ext requestId
    rw [List.mem_toFinset]
    exact h.2 requestId
  rw [← hset, List.toFinset_card_of_nodup h.1]

theorem Lists.mark {ids : List UInt32} {set : Finset UInt32} (h : Lists ids set)
    (requestId : UInt32) :
    Lists (markAbandoned ids requestId) (abandonSetStep set (.mark requestId)) := by
  unfold markAbandoned abandonSetStep
  rw [h.length]
  dsimp only
  split
  · cases hmem : ids.contains requestId with
    | true =>
      have hmem := (h.2 requestId).1 (List.contains_iff_mem.1 hmem)
      rw [if_pos rfl, Finset.insert_eq_of_mem hmem]
      exact h
    | false =>
      have hnot : requestId ∉ ids := by simpa using hmem
      rw [if_neg Bool.false_ne_true]
      refine ⟨List.nodup_append.2 ⟨h.1, List.nodup_singleton _, ?_⟩, fun id => ?_⟩
      · rintro a ha b hb rfl
        rw [List.mem_singleton.1 hb] at ha
        exact hnot ha
      · rw [List.mem_append, List.mem_singleton, Finset.mem_insert, h.2 id]
        exact or_comm
  · exact h

/-- The place of the first id that matches. -/
theorem idxOf?_append_cons {pre post : List UInt32} {requestId : UInt32} (hpre : requestId ∉ pre) :
    (pre ++ requestId :: post).idxOf? requestId = some pre.length := by
  rw [List.idxOf?, List.findIdx?_append, List.findIdx?_eq_none_iff.2]
  · simp [List.findIdx?_cons]
  · intro id hid
    simpa using fun h : id = requestId => hpre (h ▸ hid)

/-- What is left is what was before and behind the id. -/
theorem clearAbandoned_perm {pre post : List UInt32} {requestId : UInt32}
    (hpre : requestId ∉ pre) :
    (clearAbandoned (pre ++ requestId :: post) requestId).Perm (pre ++ post) := by
  unfold clearAbandoned
  rw [idxOf?_append_cons hpre]
  dsimp only
  rw [List.set_append_right _ _ (Nat.le_refl _), Nat.sub_self, List.set_cons_zero]
  rcases List.eq_nil_or_concat post with rfl | ⟨front, last, rfl⟩
  · simp
  · have hlast : (pre ++ requestId :: (front ++ [last])).getLast? = some last := by
      rw [← List.cons_append, ← List.append_assoc, List.getLast?_concat]
    rw [List.concat_eq_append, hlast, Option.getD_some]
    have hdrop : (pre ++ last :: (front ++ [last])).dropLast = pre ++ last :: front := by
      rw [List.dropLast_append_of_ne_nil (by simp), List.dropLast_cons_of_ne_nil (by simp)]
      simp
    rw [hdrop]
    exact (List.perm_append_singleton last front).symm.append_left pre

theorem Lists.clear {ids : List UInt32} {set : Finset UInt32} (h : Lists ids set)
    (requestId : UInt32) :
    Lists (clearAbandoned ids requestId) (abandonSetStep set (.clear requestId)) := by
  by_cases hmem : requestId ∈ ids
  · obtain ⟨pre, post, rfl, hpre⟩ := List.eq_append_cons_of_mem hmem
    have hperm : (clearAbandoned (pre ++ requestId :: post) requestId).Perm (pre ++ post) :=
      clearAbandoned_perm hpre
    obtain ⟨hnot, hnodup⟩ := List.nodup_middle.1 h.1 |> List.nodup_cons.1
    refine ⟨hperm.nodup_iff.2 hnodup, fun id => ?_⟩
    rw [hperm.mem_iff, abandonSetStep, Finset.mem_erase, ← h.2 id]
    have hsplit : id ∈ pre ++ requestId :: post ↔ id = requestId ∨ id ∈ pre ++ post := by
      rw [List.perm_middle.mem_iff, List.mem_cons]
    rw [hsplit]
    constructor
    · intro hid
      exact ⟨fun heq => hnot (heq ▸ hid), Or.inr hid⟩
    · rintro ⟨hne, hid⟩
      exact hid.resolve_left hne
  · have hnone : ids.idxOf? requestId = none := List.idxOf?_eq_none_iff.2 hmem
    have hset : requestId ∉ set := fun hin => hmem ((h.2 requestId).2 hin)
    rw [clearAbandoned, hnone, abandonSetStep, Finset.erase_eq_of_notMem hset]
    exact h

/-- **The array of abandoned ids is a set of bounded size**, whatever is marked and cleared, and in
whatever order: no id is in it twice, and a request is found in it precisely when the set has it. -/
theorem abandoned_is_set (calls : List AbandonCall) :
    (run abandonStep [] calls).Nodup ∧ ∀ requestId,
      requestId ∈ run abandonStep [] calls ↔ requestId ∈ run abandonSetStep ∅ calls := by
  have hlists : ∀ {ids : List UInt32} {set : Finset UInt32}, Lists ids set →
      Lists (run abandonStep ids calls) (run abandonSetStep set calls) := by
    intro ids set h
    induction calls generalizing ids set with
    | nil => exact h
    | cons call calls ih =>
      refine ih ?_
      cases call with
      | mark requestId => exact h.mark requestId
      | clear requestId => exact h.clear requestId
  exact hlists ⟨List.nodup_nil, fun _ => by simp⟩

theorem mem_markAbandoned {ids : List UInt32} {requestId id : UInt32}
    (h : id ∈ markAbandoned ids requestId) : id ∈ ids ∨ id = requestId := by
  unfold markAbandoned at h
  split at h
  · split at h
    · exact Or.inl h
    · rw [List.mem_append, List.mem_singleton] at h
      exact h
  · exact Or.inl h

theorem mem_clearAbandoned {ids : List UInt32} {requestId id : UInt32}
    (h : id ∈ clearAbandoned ids requestId) : id ∈ ids := by
  by_cases hmem : requestId ∈ ids
  · obtain ⟨pre, post, rfl, hpre⟩ := List.eq_append_cons_of_mem hmem
    rw [List.perm_middle.mem_iff]
    exact List.mem_cons_of_mem _ ((clearAbandoned_perm hpre).mem_iff.1 h)
  · rwa [clearAbandoned, List.idxOf?_eq_none_iff.2 hmem] at h

/-! ## The threads -/

/-- A result queue, and what happened to the results, in order: those that were accepted, those that
were taken and those that were dropped from the ring; and the requests ever marked. -/
structure ResultTraffic where
  ring : RingQueue UbusResult
  stats : ResultQueueStats := {}
  abandonedIds : List UInt32 := []
  accepted : List UbusResult := []
  popped : List UbusResult := []
  discarded : List UbusResult := []
  marked : List UInt32 := []

/-- Where a thread is in one of the functions. -/
inductive ResultPlace
  | push (result : UbusResult)
  /-- The request of the result was not among the abandoned ones. -/
  | place (result : UbusResult)
  /-- The ring was full. -/
  | replace (result : UbusResult)
  /-- What is to be counted: a push, a push that dropped an abandoned result, a result that was
  dropped, an abandoned one that was. -/
  | countPush
  | countReplaced
  | countDrop
  | countAbandoned
  | tryPop
  | countPop
  | mark (requestId : UInt32)
  | clear (requestId : UInt32)

namespace ResultTraffic

def isAbandoned (t : ResultTraffic) (result : UbusResult) : Bool :=
  t.abandonedIds.contains result.requestId

/-- `ring_queue_pop` -/
def take (t : ResultTraffic) : Option UbusResult × ResultTraffic :=
  (t.ring.pop.1, { t with ring := t.ring.pop.2, popped := t.popped ++ t.ring.pop.1.toList })

def countPop (t : ResultTraffic) : ResultTraffic := { t with stats.pops := t.stats.pops + 1 }

/-- What a thread does with the queue, and what it does then. -/
def act (t : ResultTraffic) : ResultPlace → Next ResultPlace × ResultTraffic
  | .push result =>
    (.more (if t.isAbandoned result then .countAbandoned else .place result), t)
  | .place result =>
    match t.ring.push result with
    | (.ok, ring) =>
      (.more .countPush, { t with ring := ring, accepted := t.accepted ++ [result] })
    | (.dropped, ring) => (.more (.replace result), { t with ring := ring })
    | (_, ring) => (.done, { t with ring := ring })
  | .replace result =>
    match t.ring.replaceFirstIf t.isAbandoned result with
    | (true, ring) =>
      (.more .countReplaced, { t with
        ring := ring, accepted := t.accepted ++ [result]
        discarded := t.discarded ++ (t.ring.items.find? t.isAbandoned).toList })
    | (false, ring) => (.more .countDrop, { t with ring := ring })
  | .countPush => (.signal, { t with stats.pushes := t.stats.pushes + 1 })
  | .countReplaced =>
    (.signal, { t with
      stats.pushes := t.stats.pushes + 1, stats.dropsAbandoned := t.stats.dropsAbandoned + 1 })
  | .countDrop => (.done, { t with stats.drops := t.stats.drops + 1 })
  | .countAbandoned =>
    (.done, { t with stats.dropsAbandoned := t.stats.dropsAbandoned + 1 })
  | .tryPop =>
    match t.take with
    | (some _, t) => (.more .countPop, t)
    | (none, t) => (.done, t)
  | .countPop => (.done, t.countPop)
  | .mark requestId =>
    (.done, { t with
      abandonedIds := markAbandoned t.abandonedIds requestId, marked := t.marked ++ [requestId] })
  | .clear requestId =>
    (.done, { t with abandonedIds := clearAbandoned t.abandonedIds requestId })

end ResultTraffic

namespace ResultPlace

/-- Where a call starts. -/
def isCall : ResultPlace → Bool
  | .push _ | .tryPop | .mark _ | .clear _ => true
  | _ => false

/-- Under `wait_lock`. -/
def locked : ResultPlace → Bool
  | .countPush | .countReplaced | .countDrop | .countAbandoned | .countPop => true
  | _ => false

/-- A signal will follow. -/
def Owes : ResultPlace → Prop
  | .countPush | .countReplaced => True
  | _ => False

end ResultPlace

/-- The result queue as its threads share it. -/
def resultThreads : Resource ResultTraffic UbusResult ResultPlace where
  take := ResultTraffic.take
  act := fun place t => t.act place
  entry := ResultPlace.isCall
  locked := ResultPlace.locked
  tally := some ResultTraffic.countPop

/-- The threads around a result queue after the steps `es`. -/
def resultThreadsAfter {ι : Type*} [DecidableEq ι] (q : ResultQueue)
    (es : List (Event ResultPlace ι)) : State ResultTraffic UbusResult ResultPlace ι :=
  run (EventCount.step resultThreads) { res := { ring := q.ring } } es

/-! ## The resource -/

theorem ready_resultThreads (t : ResultTraffic) : resultThreads.Ready t ↔ t.ring.count ≠ 0 :=
  t.ring.pop_ne_none

/-- Whoever adds a result to the ring counts it and signals. -/
theorem resultThreads_lawful : resultThreads.Lawful ResultPlace.Owes where
  act place t hready := by
    cases place with
    | place result =>
      rw [ready_resultThreads] at hready ⊢
      have hcount := t.ring.count_push result
      simp only [resultThreads, ResultTraffic.act] at hready ⊢
      generalize t.ring.push result = p at hready hcount ⊢
      obtain ⟨answer, ring⟩ := p
      cases answer with
      | ok => exact Or.inr trivial
      | merged => exact Or.inl (hcount.resolve_right nofun ▸ hready)
      | dropped => exact Or.inl (hcount.resolve_right nofun ▸ hready)
      | err => exact Or.inl (hcount.resolve_right nofun ▸ hready)
    | replace result =>
      rw [ready_resultThreads] at hready ⊢
      have hcount := t.ring.count_replaceFirstIf t.isAbandoned result
      simp only [resultThreads, ResultTraffic.act] at hready ⊢
      generalize t.ring.replaceFirstIf t.isAbandoned result = p at hready hcount ⊢
      obtain ⟨found, ring⟩ := p
      cases found with
      | true => exact Or.inr trivial
      | false => exact Or.inl (hcount ▸ hready)
    | tryPop =>
      rw [ready_resultThreads] at hready ⊢
      refine Or.inl (RingQueue.count_ne_zero_of_pop (show t.take.2.ring.count ≠ 0 from ?_))
      simp only [resultThreads, ResultTraffic.act] at hready
      split at hready
      · rename_i htake
        rwa [htake]
      · rename_i htake
        rwa [htake]
    | _ => exact Or.inl hready
  owed place t howes := by cases place <;> trivial
  take t hnot hready := by
    rw [ready_resultThreads] at hready hnot
    exact hnot (RingQueue.count_ne_zero_of_pop hready)

/-! ## What becomes of the results -/

namespace ResultTraffic

/-- The ring is as `result_queue_init` set it up. -/
abbrev Good (t : ResultTraffic) : Prop := t.ring.SetUp .rejectNew none

/-- What the queue keeps of the results. -/
structure Kept (t : ResultTraffic) : Prop where
  perm : t.accepted.Perm (t.popped ++ t.discarded ++ t.ring.items)
  /-- In order, as long as none was dropped. -/
  order : t.discarded = [] → t.popped ++ t.ring.items = t.accepted
  /-- Those that were dropped had been abandoned. -/
  discarded : ∀ result ∈ t.discarded, result.requestId ∈ t.marked
  abandoned : ∀ requestId ∈ t.abandonedIds, requestId ∈ t.marked

variable {t : ResultTraffic}

theorem Kept.of_items (h : t.Kept) {t' : ResultTraffic} (hitems : t'.ring.items = t.ring.items)
    (haccepted : t'.accepted = t.accepted) (hpopped : t'.popped = t.popped)
    (hdiscarded : t'.discarded = t.discarded) (hids : t'.abandonedIds = t.abandonedIds)
    (hmarked : t'.marked = t.marked) : t'.Kept where
  perm := by rw [hitems, haccepted, hpopped, hdiscarded]; exact h.perm
  order := by rw [hitems, haccepted, hpopped, hdiscarded]; exact h.order
  discarded := by rw [hdiscarded, hmarked]; exact h.discarded
  abandoned := by rw [hids, hmarked]; exact h.abandoned

theorem Kept.append (h : t.Kept) {result : UbusResult} {ring : RingQueue UbusResult}
    (hitems : ring.items = t.ring.items ++ [result]) :
    Kept { t with ring := ring, accepted := t.accepted ++ [result] } where
  perm := by
    dsimp only
    rw [hitems, ← List.append_assoc]
    exact h.perm.append_right _
  order hnone := by
    dsimp only
    rw [hitems, ← List.append_assoc, h.order hnone]
  discarded := h.discarded
  abandoned := h.abandoned

/-- A result takes the place of an abandoned one. -/
theorem Kept.replace (h : t.Kept) {result existing : UbusResult} {pre post : List UbusResult}
    {ring : RingQueue UbusResult} (hold : t.ring.items = pre ++ existing :: post)
    (habandoned : t.isAbandoned existing = true) (hitems : ring.items = pre ++ result :: post) :
    Kept { t with
      ring := ring, accepted := t.accepted ++ [result], discarded := t.discarded ++ [existing] }
    where
  perm := by
    dsimp only
    have hperm := h.perm
    rw [hold] at hperm
    rw [hitems]
    refine (hperm.append_right [result]).trans ?_
    simp only [List.append_assoc, List.cons_append, List.nil_append]
    refine List.Perm.append_left _ (List.Perm.append_left _ ?_)
    -- what is left is to move `existing` to the front and `result` from the end into its place
    refine List.perm_middle.trans (List.Perm.cons _ (List.Perm.append_left _ ?_))
    exact List.perm_append_singleton result post
  order hnone := absurd hnone (by simp)
  discarded r hr := by
    rcases List.mem_append.1 hr with hr | hr
    · exact h.discarded r hr
    · rw [List.mem_singleton.1 hr]
      exact h.abandoned _ (List.contains_iff_mem.1 habandoned)
  abandoned := h.abandoned

theorem take_keeps (h : t.Good ∧ t.Kept) : t.take.2.Good ∧ t.take.2.Kept := by
  obtain ⟨hgood, hkept⟩ := h
  have hold := hgood.wellFormed.toList_pop
  refine ⟨hgood.of_sameKind hgood.wellFormed.pop.1, ?_, fun hnone => ?_, hkept.discarded,
    hkept.abandoned⟩
  · refine hkept.perm.trans ?_
    rw [← hold]
    simp only [take, List.append_assoc]
    refine List.Perm.append_left _ ?_
    rw [← List.append_assoc, ← List.append_assoc]
    exact List.perm_append_comm.append_right _
  · refine Eq.trans ?_ (hkept.order hnone)
    rw [← hold, ← List.append_assoc]
    rfl

theorem act_keeps (h : t.Good ∧ t.Kept) (place : ResultPlace) :
    (t.act place).2.Good ∧ (t.act place).2.Kept := by
  obtain ⟨hgood, hkept⟩ := h
  have hcount : ∀ stats, Good { t with stats := stats } ∧ Kept { t with stats := stats } :=
    fun _ => ⟨hgood, hkept.of_items rfl rfl rfl rfl rfl rfl⟩
  cases place with
  | push result => exact ⟨hgood, hkept⟩
  | place result =>
    obtain ⟨hring, hpushed⟩ := hgood.wellFormed.push result
    simp only [act]
    generalize t.ring.push result = p at hring hpushed
    obtain ⟨answer, ring⟩ := p
    dsimp only at hring hpushed
    generalize hitems : ring.items = items at hpushed
    cases hpushed with
    | merged hpolicy hmerge hupdate =>
      rw [hgood.policy] at hpolicy
      cases hpolicy
    | appended hno hfree => exact ⟨hgood.of_sameKind hring, hkept.append hitems⟩
    | overwrote hno hfull hpolicy =>
      rw [hgood.policy] at hpolicy
      cases hpolicy
    | dropped hno hfull hpolicy =>
      exact ⟨hgood.of_sameKind hring, hkept.of_items hitems rfl rfl rfl rfl rfl⟩
  | replace result =>
    obtain ⟨hring, hreplaced⟩ := hgood.wellFormed.replaceFirstIf t.isAbandoned result
    simp only [act]
    generalize t.ring.replaceFirstIf t.isAbandoned result = p at hring hreplaced
    obtain ⟨found, ring⟩ := p
    dsimp only at hring hreplaced
    rcases hreplaced with
      ⟨rfl, pre, existing, post, hold, hpre, habandoned, hitems⟩ | ⟨rfl, -, hitems⟩
    · have hfind : t.ring.items.find? t.isAbandoned = some existing := by
        rw [hold, List.find?_append, List.find?_eq_none.2 (by simpa using hpre)]
        simp [habandoned]
      refine ⟨hgood.of_sameKind hring, ?_⟩
      dsimp only
      rw [hfind]
      exact hkept.replace hold habandoned hitems
    · exact ⟨hgood.of_sameKind hring, hkept.of_items hitems rfl rfl rfl rfl rfl⟩
  | tryPop =>
    have htake := take_keeps ⟨hgood, hkept⟩
    simp only [act]
    generalize t.take = p at htake
    obtain ⟨out, t'⟩ := p
    cases out <;> exact htake
  | mark requestId =>
    refine ⟨hgood, hkept.perm, hkept.order, fun r hr => ?_,
      fun id hid => ?_⟩
    · exact List.mem_append_left _ (hkept.discarded r hr)
    · rcases mem_markAbandoned hid with hid | rfl
      · exact List.mem_append_left _ (hkept.abandoned id hid)
      · exact List.mem_append_right _ (List.mem_singleton_self _)
  | clear requestId =>
    exact ⟨hgood, hkept.perm, hkept.order, hkept.discarded,
      fun id hid => hkept.abandoned id (mem_clearAbandoned hid)⟩
  | _ => exact hcount _

/-- What `result_queue_wait` would take is the oldest result. -/
theorem Good.take (h : t.Good) : t.take.1 = t.ring.items.head? := h.wellFormed.pop.2.1

end ResultTraffic

/-! ## Runs -/

section

variable {malloc : Option (ℕ → UbusResult)} {capacity : ℕ} {q : ResultQueue} {ι : Type*}
  [DecidableEq ι]

theorem kept_resultThreadsAfter (hinit : resultQueueInit malloc capacity = some q)
    (es : List (Event ResultPlace ι)) :
    (resultThreadsAfter q es).res.Good ∧ (resultThreadsAfter q es).res.Kept := by
  obtain ⟨hgood, hempty⟩ := ResultQueue.good_init hinit
  have hempty : q.ring.items = [] := hempty
  refine res_run (R := resultThreads) (I := fun t => t.Good ∧ t.Kept)
    (fun place t ht => ResultTraffic.act_keeps ht place)
    (fun t ht => ResultTraffic.take_keeps ht) ?_ ⟨hgood.ring, ?_⟩ es
  · intro f hf t ht
    obtain rfl := Option.some.inj hf
    exact ResultTraffic.act_keeps ht .countPop
  · refine ⟨?_, fun _ => ?_, fun r hr => (nomatch hr), fun id hid => (nomatch hid)⟩
    · dsimp only
      rw [hempty]
      exact List.Perm.refl _
    · dsimp only
      rw [hempty]
      rfl

/-- **No result is slept through, and whoever waits for one gets it.** After any steps of the
threads, as long as the queue has signalled fewer than `2 ^ 64` times: `result_queue_wait` sleeps
while no other thread is about to signal only if the queue is empty and open; and if the others are
idle while it holds results or is closed, it returns within six steps of its own, with the oldest
result if it is open and the call has not made up its mind before. -/
theorem result_wait_wakes (hinit : resultQueueInit malloc capacity = some q)
    {es : List (Event ResultPlace ι)} {s : State ResultTraffic UbusResult ResultPlace ι}
    (hs : resultThreadsAfter q es = s) (hb : s.bumps < 2 ^ 64) :
    (s.consumer = .asleep → ¬s.Ringing ResultPlace.Owes →
        s.res.ring.items = [] ∧ s.isClosed = false) ∧
      (s.Quiet → s.consumer ≠ .idle → s.res.ring.items ≠ [] ∨ s.isClosed = true →
        ∃ out, Returns resultThreads 6 s out ∧
          (s.consumer.decided = false → s.isClosed = false → s.timeoutMs ≠ 0 →
            out = s.res.ring.items.head?)) := by
  subst hs
  have hinv : Inv resultThreads ResultPlace.Owes (resultThreadsAfter q es) :=
    (inv_initial _).run resultThreads_lawful es hb
  have hgood := (kept_resultThreadsAfter hinit es).1
  generalize resultThreadsAfter q es = s at hb hinv hgood
  have hready : resultThreads.Ready s.res ↔ s.res.ring.items ≠ [] :=
    (ready_resultThreads s.res).trans RingQueue.items_ne_nil.symm
  refine ⟨fun hc hquiet => ?_, fun hquiet hbusy hrc => ?_⟩
  · obtain ⟨hnot, hopen⟩ := hinv.asleep hc hquiet
    exact ⟨not_not.1 (mt hready.2 hnot), hopen⟩
  · obtain ⟨out, hreturns, hout⟩ := hinv.returns hb hquiet (hrc.imp_left hready.2) hbusy
    exact ⟨out, hreturns, fun hd ho ht => (hout hd ho ht).trans hgood.take⟩

/-- The result of request 1 fills the queue; the request is abandoned, and the result of request 2 is
pushed while `result_queue_wait` is called. -/
def replacedMeanwhile : List (Event ResultPlace Unit) :=
  .call () (.push { serviceName := [], action := .query, requestId := 1 }) ::
    List.replicate 7 (.produce ()) ++
    .call () (.mark 1) :: .produce () ::
    .call () (.push { serviceName := [], action := .query, requestId := 2 }) ::
    .wait (-1) :: .consume :: List.replicate 8 (.produce ())

/-- It returns the second result. -/
theorem result_wait_wakes_replaced :
    ∃ q, resultQueueInit (some fun _ => { serviceName := [], action := .start, requestId := 0 }) 1 =
        some q ∧
      Returns resultThreads 6 (resultThreadsAfter q replacedMeanwhile)
        (some { serviceName := [], action := .query, requestId := 2 }) := by
  have hinit : resultQueueInit
      (some fun _ => { serviceName := [], action := .start, requestId := 0 }) 1 = some _ := rfl
  refine ⟨_, hinit, ?_⟩
  obtain ⟨out, hreturns, hout⟩ := (result_wait_wakes hinit
    (rfl : resultThreadsAfter _ replacedMeanwhile = _) (by decide +kernel)).2
    (fun _ => rfl) (by intro h; cases h) (Or.inl (by decide +kernel))
  rw [hout rfl rfl (by decide +kernel)] at hreturns
  exact hreturns

/-- **No result is lost unless its request was abandoned.** After any steps of the threads, the
results that `result_queue_push` accepted are, up to their order, those that were taken, those that
were dropped from the ring and those that wait; a result that was dropped answers a request that had
been marked, and as long as none was dropped the order is kept. -/
theorem result_wait_keeps (hinit : resultQueueInit malloc capacity = some q)
    {es : List (Event ResultPlace ι)} {s : State ResultTraffic UbusResult ResultPlace ι}
    (hs : resultThreadsAfter q es = s) :
    s.res.accepted.Perm (s.res.popped ++ s.res.discarded ++ s.res.ring.items) ∧
      (∀ result ∈ s.res.discarded, result.requestId ∈ s.res.marked) ∧
      (s.res.discarded = [] → s.res.popped ++ s.res.ring.items = s.res.accepted) := by
  subst hs
  obtain ⟨hperm, horder, hdiscarded, -⟩ := (kept_resultThreadsAfter hinit es).2
  exact ⟨hperm, hdiscarded, horder⟩

/-- The first result was dropped for the second. -/
theorem result_wait_keeps_replaced :
    ∃ q, resultQueueInit (some fun _ => { serviceName := [], action := .start, requestId := 0 }) 1 =
        some q ∧
      (resultThreadsAfter q replacedMeanwhile).res.discarded.map UbusResult.requestId = [1] ∧
      ∀ result ∈ (resultThreadsAfter q replacedMeanwhile).res.discarded,
        result.requestId ∈ (resultThreadsAfter q replacedMeanwhile).res.marked := by
  have hinit : resultQueueInit
      (some fun _ => { serviceName := [], action := .start, requestId := 0 }) 1 = some _ := rfl
  exact ⟨_, hinit, rfl, (result_wait_keeps hinit rfl).2.1⟩

end

end NanoHat.Adr0005
