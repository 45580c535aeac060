import Mathlib.Algebra.Group.Nat.Defs
import NanoHat.Foundations.Runs
import NanoHat.Status.Format

/-!
# Network statistics

`update_network_stats` of `sys_status.c`. A sample is what one call reads: the two clocks, the lines
of `/proc/net/route` (if it is due and can be opened) and of `/proc/net/dev`, each as `sscanf` reads
it. A speed should be the growth of one interface's counter since the sample before. The code keeps
the counters without the interface that they belong to; `speeds_lawful_iff` is the exact condition on
the samples of a run under which all the same every speed is that.
-/

namespace NanoHat

open UbusHal

/-- What is read of a line of `/proc/net/route`. -/
structure RouteEntry where
  iface : CStr
  dest : UInt32
  gateway : UInt32

/-- What is read of a line of `/proc/net/dev`. -/
structure NetDevice where
  iface : CStr
  rx : UInt64
  tx : UInt64

/-- What one call of `update_network_stats` reads. -/
structure NetSample where
  /-- `get_time_ms` -/
  nowMs : UInt64
  /-- `time` -/
  nowSec : ℤ
  /-- `none` if `/proc/net/route` cannot be opened -/
  routes : Option (List RouteEntry) := none
  devices : List NetDevice := []

/-- The network part of `struct sys_status_ctx`. -/
structure NetCtx where
  prevRxBytes : UInt64 := 0
  prevTxBytes : UInt64 := 0
  prevNetTimeMs : UInt64 := 0
  cachedGwIface : CStr := []
  gwCacheTime : ℤ := 0
  /-- `fp_net` is not `NULL` -/
  fpNet : Bool

/-- The network part of `sys_status_t`. -/
structure NetStatus where
  gateway : CStr := []
  rxBytes : UInt64 := 0
  txBytes : UInt64 := 0
  rxSpeed : UInt64 := 0
  txSpeed : UInt64 := 0

namespace NetSample

/-- The bytes of an address, in the order of the kernel. -/
def ipText (gateway : UInt32) : CStr :=
  decimal (gateway &&& 0xFF).toNat ++ '.' :: decimal ((gateway >>> 8) &&& 0xFF).toNat ++
    '.' :: decimal ((gateway >>> 16) &&& 0xFF).toNat ++
      '.' :: decimal ((gateway >>> 24) &&& 0xFF).toNat

/-- The refresh of the gateway interface and its address. -/
def refreshGateway (sample : NetSample) (ctx : NetCtx) (status : NetStatus) :
    NetCtx × NetStatus :=
  let route := sample.routes.bind fun routes => routes.find? fun r => r.dest = 0
  let iface := match route with
    | some r => strncpy 16 r.iface
    | none => []
  let gateway := match route with
    | some r => if r.gateway ≠ 0 then strncpy 16 (ipText r.gateway) else []
    | none => []
  ({ ctx with
      cachedGwIface := if iface = [] then "eth0".toList else iface
      gwCacheTime := sample.nowSec },
    { status with gateway := if gateway = [] then "--".toList else gateway })

/-- The part of `update_network_stats` about the gateway interface, which is looked up anew after 30
seconds. -/
def chooseInterface (sample : NetSample) (ctx : NetCtx) (status : NetStatus) :
    NetCtx × NetStatus :=
  if ctx.cachedGwIface = [] ∨ sample.nowSec - ctx.gwCacheTime ≥ 30 then
    sample.refreshGateway ctx status
  else (ctx, status)

/-- The line of an interface. -/
def device (sample : NetSample) (iface : CStr) : Option NetDevice :=
  sample.devices.find? fun d => d.iface = iface

/-- The part of `update_network_stats` that reads the traffic of the interface. -/
def readTraffic (sample : NetSample) (iface : CStr) (status : NetStatus) : NetStatus :=
  match sample.device iface with
  | some d => { status with rxBytes := d.rx, txBytes := d.tx }
  | none => status

/-- The new speed of one direction. -/
def speed (elapsedMs bytes prevBytes oldSpeed : UInt64) : UInt64 :=
  if 0 < elapsedMs ∧ prevBytes ≤ bytes then (bytes - prevBytes) * 1000 / elapsedMs else oldSpeed

/-- The part of `update_network_stats` that calculates the speeds. -/
def calculateSpeeds (sample : NetSample) (ctx : NetCtx) (status : NetStatus) : NetStatus :=
  if 0 < ctx.prevNetTimeMs ∧ ctx.prevNetTimeMs < sample.nowMs then
    let elapsedMs := sample.nowMs - ctx.prevNetTimeMs
    { status with
      rxSpeed := speed elapsedMs status.rxBytes ctx.prevRxBytes status.rxSpeed
      txSpeed := speed elapsedMs status.txBytes ctx.prevTxBytes status.txSpeed }
  else status

/-- `update_network_stats`. -/
def updateNetworkStats (sample : NetSample) (ctx : NetCtx) (status : NetStatus) :
    NetCtx × NetStatus :=
  if !ctx.fpNet then (ctx, status)
  else
    let (ctx, status) := sample.chooseInterface ctx status
    let status := sample.readTraffic ctx.cachedGwIface status
    let status := sample.calculateSpeeds ctx status
    ({ ctx with
        prevRxBytes := status.rxBytes
        prevTxBytes := status.txBytes
        prevNetTimeMs := sample.nowMs }, status)

end NetSample

/-! ## The law -/

/-- What a call has sampled: the interface, its line if it has one, and the time. -/
structure Sampled where
  iface : CStr
  device : Option NetDevice
  nowMs : UInt64

/-- The state of a run, with the samples so far, newest first. -/
structure NetRun where
  ctx : NetCtx
  status : NetStatus := {}
  sampled : List Sampled := []

namespace NetRun

open NetSample

/-- The state after `sys_status_init` and before the first call. -/
def start (fpNet : Bool) : NetRun where
  ctx := { fpNet := fpNet }

/-- What a call samples. -/
def sample (s : NetRun) (e : NetSample) : Sampled :=
  let iface := (e.chooseInterface s.ctx s.status).1.cachedGwIface
  { iface := iface
    device := e.device iface
    nowMs := e.nowMs }

/-- The state after a call. -/
def step (s : NetRun) (e : NetSample) : NetRun :=
  let (ctx, status) := e.updateNetworkStats s.ctx s.status
  { ctx := ctx
    status := status
    sampled := if s.ctx.fpNet then s.sample e :: s.sampled else s.sampled }

/-- The growth of a counter between two samples of one interface, per second; nothing if the
interface has changed or is missing, or if the counter went backwards. -/
def growthBetween (counter : NetDevice → UInt64) (prev cur : Sampled) : ℕ :=
  if prev.iface = cur.iface then
    match prev.device, cur.device with
    | some d₀, some d =>
      ((counter d).toNat - (counter d₀).toNat) * 1000 / (cur.nowMs.toNat - prev.nowMs.toNat)
    | _, _ => 0
  else 0

/-- The growth of a counter between the last two samples. -/
def growth (counter : NetDevice → UInt64) : List Sampled → ℕ
  | cur :: prev :: _ => growthBetween counter prev cur
  | _ => 0

/-- The speeds are the growth of the counters. -/
structure Lawful (s : NetRun) : Prop where
  rx : s.status.rxSpeed.toNat = growth NetDevice.rx s.sampled
  tx : s.status.txSpeed.toNat = growth NetDevice.tx s.sampled

/-- The previous sample has read the interface of this one. -/
def SameDevice (s : NetRun) (e : NetSample) : Prop :=
  ∃ prev ∈ s.sampled.head?, prev.iface = (s.sample e).iface ∧ prev.device.isSome = true

/-- A counter is fair in a sample: it has gone back and the speed shown is 0 anyway, or it has grown
by less than makes a byte per second, or it belongs to the line that the previous sample has read
(and that was not at the time 0, which stands for no previous sample). -/
def FairCounter (s : NetRun) (e : NetSample) (counter prevBytes oldSpeed : UInt64) : Prop :=
  counter < prevBytes ∧ oldSpeed = 0 ∨
    prevBytes ≤ counter ∧
      ((counter.toNat - prevBytes.toNat) * 1000 < e.nowMs.toNat - s.ctx.prevNetTimeMs.toNat ∨
        (s.SameDevice e ↔ s.ctx.prevNetTimeMs ≠ 0))

/-- Both counters are fair, if the interface has a line. -/
def Fair (s : NetRun) (e : NetSample) : Prop :=
  s.ctx.fpNet = true → ∀ d ∈ (s.sample e).device,
    s.FairCounter e d.rx s.ctx.prevRxBytes s.status.rxSpeed ∧
      s.FairCounter e d.tx s.ctx.prevTxBytes s.status.txSpeed

instance (s : NetRun) (e : NetSample) : Decidable (s.SameDevice e) :=
  inferInstanceAs (Decidable (∃ prev ∈ s.sampled.head?, _))

instance (s : NetRun) (e : NetSample) (counter prevBytes oldSpeed : UInt64) :
    Decidable (s.FairCounter e counter prevBytes oldSpeed) :=
  inferInstanceAs (Decidable (_ ∨ _))

instance (s : NetRun) (e : NetSample) : Decidable (s.Fair e) :=
  inferInstanceAs (Decidable (_ → ∀ d ∈ (s.sample e).device, _))

/-- A sample that comes after the one before, with counters that a product with 1000 does not wrap. -/
def Orderly (s : NetRun) (e : NetSample) : Prop :=
  (∀ prev ∈ s.sampled.head?, prev.nowMs < e.nowMs) ∧
    ∀ d ∈ e.devices, d.rx.toNat < 2 ^ 54 ∧ d.tx.toNat < 2 ^ 54

/-! ## One counter -/

variable {s : NetRun} {e : NetSample}

/-- The new speed of a direction, from the counter that was read and the one kept. -/
def newSpeed (s : NetRun) (e : NetSample) (counter : Option UInt64)
    (prevBytes oldSpeed : UInt64) : UInt64 :=
  if 0 < s.ctx.prevNetTimeMs ∧ s.ctx.prevNetTimeMs < e.nowMs then
    speed (e.nowMs - s.ctx.prevNetTimeMs) (counter.getD prevBytes) prevBytes oldSpeed
  else oldSpeed

/-- The growth of a counter since the sample before, per second. -/
def rate (s : NetRun) (e : NetSample) (counter prevBytes : UInt64) : ℕ :=
  (counter.toNat - prevBytes.toNat) * 1000 / (e.nowMs.toNat - s.ctx.prevNetTimeMs.toNat)

theorem speed_toNat {elapsedMs bytes prevBytes : UInt64} (hpos : 0 < elapsedMs)
    (hle : prevBytes ≤ bytes) (hb : bytes.toNat < 2 ^ 54) (oldSpeed : UInt64) :
    (speed elapsedMs bytes prevBytes oldSpeed).toNat =
      (bytes.toNat - prevBytes.toNat) * 1000 / elapsedMs.toNat := by
  have hmul : (1000 : UInt64).toNat = 1000 := rfl
  unfold speed
  rw [if_pos ⟨hpos, hle⟩, UInt64.toNat_div, UInt64.toNat_mul, UInt64.toNat_sub_of_le _ _ hle, hmul,
    Nat.mod_eq_of_lt (by omega)]

/-- What the code shows for a direction whose counter has been read. -/
theorem newSpeed_toNat {counter prevBytes oldSpeed : UInt64}
    (hzero : s.ctx.prevNetTimeMs = 0 → oldSpeed = 0)
    (hlater : s.ctx.prevNetTimeMs ≠ 0 → s.ctx.prevNetTimeMs < e.nowMs)
    (hb : counter.toNat < 2 ^ 54) :
    (s.newSpeed e (some counter) prevBytes oldSpeed).toNat =
      if s.ctx.prevNetTimeMs = 0 then 0
      else if prevBytes ≤ counter then s.rate e counter prevBytes else oldSpeed.toNat := by
  unfold newSpeed
  by_cases ht : s.ctx.prevNetTimeMs = 0
  · rw [if_pos ht, ht, if_neg (fun h => UInt64.lt_irrefl 0 h.1), hzero ht]
    rfl
  · have hlt := hlater ht
    have hle := UInt64.le_of_lt hlt
    rw [if_neg ht, if_pos ⟨UInt64.pos_iff_ne_zero.2 ht, hlt⟩, Option.getD_some]
    by_cases hgrown : prevBytes ≤ counter
    · have hpos : 0 < e.nowMs - s.ctx.prevNetTimeMs := by
        rw [UInt64.lt_iff_toNat_lt, UInt64.toNat_sub_of_le _ _ hle]
        exact Nat.sub_pos_of_lt (UInt64.lt_iff_toNat_lt.1 hlt)
      rw [if_pos hgrown, speed_toNat hpos hgrown hb, UInt64.toNat_sub_of_le _ _ hle]
      rfl
    · rw [if_neg hgrown]
      unfold speed
      rw [if_neg fun h => hgrown h.2]

/-- What the law asks for a direction whose counter has been read. -/
theorem growth_eq {c : NetDevice → UInt64} {d : NetDevice} {prevBytes : UInt64}
    (hd : (s.sample e).device = some d)
    (hlast : ∀ prev ∈ s.sampled.head?, s.ctx.prevNetTimeMs = prev.nowMs ∧
      ∀ d₀ ∈ prev.device, prevBytes = c d₀) :
    (s.SameDevice e → growth c (s.sample e :: s.sampled) = s.rate e (c d) prevBytes) ∧
      (¬s.SameDevice e → growth c (s.sample e :: s.sampled) = 0) := by
  unfold SameDevice
  cases hs : s.sampled with
  | nil =>
    refine ⟨?_, fun _ => rfl⟩
    rintro ⟨prev, hprev, -⟩
    cases hprev
  | cons prev rest =>
    obtain ⟨htime, hkept⟩ := hlast prev (by rw [hs]; rfl)
    change (_ → growthBetween c prev (s.sample e) = _) ∧ (_ → growthBetween c prev (s.sample e) = _)
    unfold growthBetween
    by_cases hiface : prev.iface = (s.sample e).iface
    · rw [if_pos hiface, hd]
      cases hprev : prev.device with
      | none =>
        refine ⟨?_, fun _ => rfl⟩
        rintro ⟨p, hp, -, hsome⟩
        obtain rfl := Option.some.inj hp
        rw [hprev] at hsome
        cases hsome
      | some d₀ =>
        refine ⟨fun _ => ?_, fun hnot => absurd ?_ hnot⟩
        · unfold rate
          rw [hkept d₀ hprev, htime]
          rfl
        · exact ⟨prev, rfl, hiface, by rw [hprev]; rfl⟩
    · rw [if_neg hiface]
      refine ⟨?_, fun _ => rfl⟩
      rintro ⟨p, hp, heq, -⟩
      obtain rfl := Option.some.inj hp
      exact absurd heq hiface

theorem rate_eq_zero_iff {counter prevBytes : UInt64} (hlt : s.ctx.prevNetTimeMs < e.nowMs) :
    s.rate e counter prevBytes = 0 ↔
      (counter.toNat - prevBytes.toNat) * 1000 < e.nowMs.toNat - s.ctx.prevNetTimeMs.toNat := by
  have hlt := UInt64.lt_iff_toNat_lt.1 hlt
  unfold rate
  rw [Nat.div_eq_zero_iff]
  omega

/-- A counter that has gone back has not grown. -/
theorem rate_of_lt {counter prevBytes : UInt64} (h : counter < prevBytes) :
    s.rate e counter prevBytes = 0 := by
  have h := UInt64.lt_iff_toNat_lt.1 h
  unfold rate
  rw [Nat.sub_eq_zero_of_le (Nat.le_of_lt h), Nat.zero_mul, Nat.zero_div]

/-- What the code shows if the interface is missing. -/
theorem newSpeed_none {prevBytes oldSpeed : UInt64}
    (hzero : s.ctx.prevNetTimeMs = 0 → oldSpeed = 0)
    (hlater : s.ctx.prevNetTimeMs ≠ 0 → s.ctx.prevNetTimeMs < e.nowMs) :
    s.newSpeed e none prevBytes oldSpeed = 0 := by
  unfold newSpeed
  by_cases ht : s.ctx.prevNetTimeMs = 0
  · rw [ht, if_neg (fun h => UInt64.lt_irrefl 0 h.1), hzero ht]
  · have hlt := hlater ht
    have hpos : 0 < e.nowMs - s.ctx.prevNetTimeMs := by
      rw [UInt64.lt_iff_toNat_lt, UInt64.toNat_sub_of_le _ _ (UInt64.le_of_lt hlt)]
      exact Nat.sub_pos_of_lt (UInt64.lt_iff_toNat_lt.1 hlt)
    rw [if_pos ⟨UInt64.pos_iff_ne_zero.2 ht, hlt⟩, Option.getD_none]
    unfold speed
    rw [if_pos ⟨hpos, UInt64.le_refl _⟩, UInt64.sub_self, UInt64.zero_mul, UInt64.zero_div]

theorem growth_none (c : NetDevice → UInt64) (hd : (s.sample e).device = none) :
    growth c (s.sample e :: s.sampled) = 0 := by
  cases s.sampled with
  | nil => rfl
  | cons prev rest =>
    change growthBetween c prev (s.sample e) = 0
    unfold growthBetween
    rw [hd]
    split
    · cases prev.device <;> rfl
    · rfl

theorem fairCounter_of_lt {counter prevBytes oldSpeed : UInt64} (h : counter < prevBytes) :
    s.FairCounter e counter prevBytes oldSpeed ↔ oldSpeed = 0 :=
  ⟨fun hf => (hf.resolve_right fun hc => UInt64.not_le.2 h hc.1).2, fun hold => Or.inl ⟨h, hold⟩⟩

theorem fairCounter_of_le {counter prevBytes oldSpeed : UInt64} (h : prevBytes ≤ counter)
    (hlt : s.ctx.prevNetTimeMs < e.nowMs) : s.FairCounter e counter prevBytes oldSpeed ↔
      s.rate e counter prevBytes = 0 ∨ (s.SameDevice e ↔ s.ctx.prevNetTimeMs ≠ 0) := by
  rw [rate_eq_zero_iff hlt]
  exact ⟨fun hf => (hf.resolve_left fun hc => UInt64.not_le.2 hc.1 h).2, fun hc => Or.inr ⟨h, hc⟩⟩

/-- **One counter**: the speed shown is the growth precisely if the counter is fair. -/
theorem newSpeed_iff {c : NetDevice → UInt64} {d : NetDevice} {prevBytes oldSpeed : UInt64}
    (hd : (s.sample e).device = some d)
    (hzero : s.ctx.prevNetTimeMs = 0 → oldSpeed = 0)
    (hlast : ∀ prev ∈ s.sampled.head?, s.ctx.prevNetTimeMs = prev.nowMs ∧
      ∀ d₀ ∈ prev.device, prevBytes = c d₀)
    (hlater : s.SameDevice e ∨ s.ctx.prevNetTimeMs ≠ 0 → s.ctx.prevNetTimeMs < e.nowMs)
    (hb : (c d).toNat < 2 ^ 54) :
    (s.newSpeed e (some (c d)) prevBytes oldSpeed).toNat = growth c (s.sample e :: s.sampled) ↔
      s.FairCounter e (c d) prevBytes oldSpeed := by
  obtain ⟨hsame, hother⟩ := growth_eq hd hlast
  rw [newSpeed_toNat hzero (fun h => hlater (Or.inr h)) hb]
  by_cases hback : c d < prevBytes
  · have hgrowth : growth c (s.sample e :: s.sampled) = 0 := by
      by_cases h : s.SameDevice e
      · rw [hsame h, rate_of_lt hback]
      · exact hother h
    rw [fairCounter_of_lt hback, hgrowth, if_neg (UInt64.not_le.2 hback)]
    by_cases ht : s.ctx.prevNetTimeMs = 0
    · rw [if_pos ht]
      exact iff_of_true rfl (hzero ht)
    · rw [if_neg ht]
      exact (UInt64.toNat_inj : oldSpeed.toNat = (0 : UInt64).toNat ↔ _)
  have hgrown := UInt64.not_lt.1 hback
  rw [if_pos hgrown]
  by_cases h : s.SameDevice e
  · rw [hsame h, fairCounter_of_le hgrown (hlater (Or.inl h))]
    by_cases ht : s.ctx.prevNetTimeMs = 0
    · rw [if_pos ht, eq_comm]
      exact ⟨Or.inl, fun h' => h'.resolve_right fun h'' => h''.1 h ht⟩
    · rw [if_neg ht]
      exact iff_of_true rfl (Or.inr (iff_of_true h ht))
  · rw [hother h]
    by_cases ht : s.ctx.prevNetTimeMs = 0
    · rw [if_pos ht]
      exact iff_of_true rfl (Or.inr ⟨hgrown, Or.inr (iff_of_false h fun hne => hne ht)⟩)
    · rw [if_neg ht, fairCounter_of_le hgrown (hlater (Or.inr ht))]
      exact ⟨Or.inl, fun h' => h'.resolve_right fun h'' => h (h''.2 ht)⟩

/-! ## Steps -/

/-- What holds between two calls. -/
structure Inv (s : NetRun) : Prop where
  bytes : s.status.rxBytes = s.ctx.prevRxBytes ∧ s.status.txBytes = s.ctx.prevTxBytes
  zero : s.ctx.prevNetTimeMs = 0 → s.status.rxSpeed = 0 ∧ s.status.txSpeed = 0
  first : s.sampled = [] → s.ctx.prevNetTimeMs = 0
  last : ∀ prev ∈ s.sampled.head?, s.ctx.prevNetTimeMs = prev.nowMs ∧
    ∀ d ∈ prev.device, s.ctx.prevRxBytes = d.rx ∧ s.ctx.prevTxBytes = d.tx

/-- What `chooseInterface` leaves alone. -/
theorem chooseInterface_keeps (e : NetSample) (ctx : NetCtx) (status : NetStatus) :
    (e.chooseInterface ctx status).1 = { ctx with
        cachedGwIface := (e.chooseInterface ctx status).1.cachedGwIface
        gwCacheTime := (e.chooseInterface ctx status).1.gwCacheTime } ∧
      (e.chooseInterface ctx status).2 = { status with
        gateway := (e.chooseInterface ctx status).2.gateway } := by
  unfold chooseInterface
  split
  · exact ⟨rfl, rfl⟩
  · exact ⟨rfl, rfl⟩

theorem readTraffic_eq (e : NetSample) (iface : CStr) (status : NetStatus) :
    e.readTraffic iface status = { status with
      rxBytes := ((e.device iface).map NetDevice.rx).getD status.rxBytes
      txBytes := ((e.device iface).map NetDevice.tx).getD status.txBytes } := by
  unfold readTraffic
  split
  · rename_i d hd
    rw [hd]
    rfl
  · rename_i hd
    rw [hd]
    rfl

theorem calculateSpeeds_eq (e : NetSample) (ctx : NetCtx) (status : NetStatus) :
    e.calculateSpeeds ctx status = { status with
      rxSpeed := if 0 < ctx.prevNetTimeMs ∧ ctx.prevNetTimeMs < e.nowMs then
        speed (e.nowMs - ctx.prevNetTimeMs) status.rxBytes ctx.prevRxBytes status.rxSpeed
        else status.rxSpeed
      txSpeed := if 0 < ctx.prevNetTimeMs ∧ ctx.prevNetTimeMs < e.nowMs then
        speed (e.nowMs - ctx.prevNetTimeMs) status.txBytes ctx.prevTxBytes status.txSpeed
        else status.txSpeed } := by
  unfold calculateSpeeds
  split
  · rfl
  · rfl

/-- A call with `/proc/net/dev` open. -/
theorem step_eq (h : Inv s) (hopen : s.ctx.fpNet = true) (e : NetSample) :
    let rxBytes := ((s.sample e).device.map NetDevice.rx).getD s.ctx.prevRxBytes
    let txBytes := ((s.sample e).device.map NetDevice.tx).getD s.ctx.prevTxBytes
    s.step e =
      { ctx :=
          { prevRxBytes := rxBytes
            prevTxBytes := txBytes
            prevNetTimeMs := e.nowMs
            cachedGwIface := (s.sample e).iface
            gwCacheTime := (e.chooseInterface s.ctx s.status).1.gwCacheTime
            fpNet := true }
        status :=
          { gateway := (e.chooseInterface s.ctx s.status).2.gateway
            rxBytes := rxBytes
            txBytes := txBytes
            rxSpeed := s.newSpeed e ((s.sample e).device.map NetDevice.rx) s.ctx.prevRxBytes
              s.status.rxSpeed
            txSpeed := s.newSpeed e ((s.sample e).device.map NetDevice.tx) s.ctx.prevTxBytes
              s.status.txSpeed }
        sampled := s.sample e :: s.sampled } := by
  intro rxBytes txBytes
  obtain ⟨hctx, hstatus⟩ := chooseInterface_keeps e s.ctx s.status
  have hsample : (s.sample e).device =
    e.device (e.chooseInterface s.ctx s.status).1.cachedGwIface := rfl
  have hiface : (s.sample e).iface = (e.chooseInterface s.ctx s.status).1.cachedGwIface := rfl
  unfold step updateNetworkStats
  rw [if_pos hopen, if_neg (by rw [hopen]; exact Bool.false_ne_true)]
  dsimp only
  rw [calculateSpeeds_eq, readTraffic_eq, ← hsample, ← hiface]
  generalize e.chooseInterface s.ctx s.status = r at *
  obtain ⟨ctx, status⟩ := r
  dsimp only at hctx hstatus hsample hiface ⊢
  rw [hctx, hstatus]
  dsimp only
  rw [h.bytes.1, h.bytes.2, hopen, ← hiface]
  rfl

/-- A call without `/proc/net/dev`. -/
theorem step_closed (hopen : ¬s.ctx.fpNet = true) (e : NetSample) : s.step e = s := by
  unfold step updateNetworkStats
  rw [if_neg hopen, if_pos (by simpa using hopen)]

theorem Inv.step (h : Inv s) (hlater : ∀ prev ∈ s.sampled.head?, prev.nowMs < e.nowMs) :
    Inv (s.step e) := by
  by_cases hopen : s.ctx.fpNet = true
  · rw [step_eq h hopen]
    refine ⟨⟨rfl, rfl⟩, fun hnow => ?_, nofun, fun prev hprev => ?_⟩
    · have hzero : e.nowMs = 0 := hnow
      have hnil : s.sampled = [] := by
        cases hs : s.sampled with
        | nil => rfl
        | cons prev rest =>
          have hlt := hlater prev (by rw [hs]; rfl)
          rw [hzero] at hlt
          exact absurd hlt UInt64.not_lt_zero
      obtain ⟨hrx, htx⟩ := h.zero (h.first hnil)
      unfold newSpeed
      rw [h.first hnil, if_neg (fun hc => UInt64.lt_irrefl 0 hc.1),
        if_neg (fun hc => UInt64.lt_irrefl 0 hc.1)]
      exact ⟨hrx, htx⟩
    · obtain rfl := Option.some.inj hprev
      refine ⟨rfl, fun d hd => ?_⟩
      rw [Option.mem_def.1 hd]
      exact ⟨rfl, rfl⟩
  · rw [step_closed hopen]
    exact h

/-- The sample before, if there is one, came earlier. -/
theorem Inv.later (h : Inv s) (hlater : ∀ prev ∈ s.sampled.head?, prev.nowMs < e.nowMs)
    (hany : s.SameDevice e ∨ s.ctx.prevNetTimeMs ≠ 0) : s.ctx.prevNetTimeMs < e.nowMs := by
  have hne : s.sampled ≠ [] := by
    rintro hnil
    rcases hany with ⟨prev, hprev, -⟩ | hpos
    · rw [hnil] at hprev
      cases hprev
    · exact hpos (h.first hnil)
  obtain ⟨prev, rest, hs⟩ := List.exists_cons_of_ne_nil hne
  have hprev : prev ∈ s.sampled.head? := by rw [hs]; rfl
  rw [(h.last prev hprev).1]
  exact hlater prev hprev

theorem lawful_step_eq (h : Inv s) (hopen : s.ctx.fpNet = true) (e : NetSample) :
    (s.step e).Lawful ↔
      (s.newSpeed e ((s.sample e).device.map NetDevice.rx) s.ctx.prevRxBytes
          s.status.rxSpeed).toNat = growth NetDevice.rx (s.sample e :: s.sampled) ∧
        (s.newSpeed e ((s.sample e).device.map NetDevice.tx) s.ctx.prevTxBytes
          s.status.txSpeed).toNat = growth NetDevice.tx (s.sample e :: s.sampled) := by
  rw [step_eq h hopen]
  exact ⟨fun hl => ⟨hl.rx, hl.tx⟩, fun hl => ⟨hl.1, hl.2⟩⟩

theorem Inv.lawful_step_iff (h : Inv s) (hc : s.Orderly e) (hlaw : s.Lawful) :
    (s.step e).Lawful ↔ s.Fair e := by
  unfold Fair
  by_cases hopen : s.ctx.fpNet = true
  · have hlater := h.later hc.1
    rw [lawful_step_eq h hopen]
    cases hd : (s.sample e).device with
    | none =>
      rw [Option.map_none, Option.map_none,
        newSpeed_none (fun ht => (h.zero ht).1) fun ht => hlater (Or.inr ht),
        newSpeed_none (fun ht => (h.zero ht).2) fun ht => hlater (Or.inr ht),
        growth_none _ hd, growth_none _ hd]
      exact iff_of_true ⟨rfl, rfl⟩ fun _ _ hnone => by cases hnone
    | some d =>
      obtain ⟨hrx, htx⟩ := hc.2 d (List.mem_of_find?_eq_some hd)
      have hlast := fun prev hprev => (h.last prev hprev).2
      have htime := fun prev hprev => (h.last prev hprev).1
      rw [Option.map_some, Option.map_some,
        newSpeed_iff hd (fun ht => (h.zero ht).1)
          (fun prev hprev => ⟨htime prev hprev, fun d₀ hd₀ => (hlast prev hprev d₀ hd₀).1⟩)
          hlater hrx,
        newSpeed_iff hd (fun ht => (h.zero ht).2)
          (fun prev hprev => ⟨htime prev hprev, fun d₀ hd₀ => (hlast prev hprev d₀ hd₀).2⟩)
          hlater htx]
      refine ⟨fun hf _ d' hd' => ?_, fun hf => hf hopen d rfl⟩
      obtain rfl := Option.some.inj hd'
      exact hf
  · rw [step_closed hopen]
    exact iff_of_true hlaw fun hc => absurd hc hopen

/-! ## Runs -/

theorem head_step (s : NetRun) (e : NetSample) : ∀ prev ∈ (s.step e).sampled.head?,
    prev.nowMs = e.nowMs ∨ prev ∈ s.sampled.head? := by
  intro prev hprev
  by_cases hopen : s.ctx.fpNet = true
  · unfold step at hprev
    rw [if_pos hopen] at hprev
    exact Or.inl (congrArg Sampled.nowMs (Option.some.inj hprev)).symm
  · rw [step_closed hopen] at hprev
    exact Or.inr hprev

/-- Samples at increasing times come one after the other. -/
theorem orderly_along {es : List NetSample}
    (hbelow : ∀ e ∈ es, ∀ d ∈ e.devices, d.rx.toNat < 2 ^ 54 ∧ d.tx.toNat < 2 ^ 54)
    (htimes : (es.map NetSample.nowMs).Pairwise (· < ·))
    (hfirst : ∀ prev ∈ s.sampled.head?, ∀ e ∈ es, prev.nowMs < e.nowMs) :
    Runs.Along step Orderly s es := by
  induction es generalizing s with
  | nil => trivial
  | cons e es ih =>
    obtain ⟨hnext, htimes⟩ := List.pairwise_cons.1 htimes
    refine ⟨⟨fun prev hprev => hfirst prev hprev e List.mem_cons_self,
      hbelow e List.mem_cons_self⟩, ih (fun e' he' => hbelow e' (.tail _ he')) htimes ?_⟩
    intro prev hprev e' he'
    rcases head_step s e prev hprev with heq | hprev
    · rw [heq]
      exact hnext _ (List.mem_map_of_mem he')
    · exact hfirst prev hprev e' (.tail _ he')

/-- **When the speeds are right.** In a run whose samples come at increasing times and whose counters
stay below `2 ^ 54`, every speed shown is the growth of one interface's counter since the sample
before, precisely if the counters of every sample are fair. -/
theorem speeds_lawful_iff (fpNet : Bool) (es : List NetSample)
    (htimes : (es.map NetSample.nowMs).Pairwise (· < ·))
    (hbelow : ∀ e ∈ es, ∀ d ∈ e.devices, d.rx.toNat < 2 ^ 54 ∧ d.tx.toNat < 2 ^ 54) :
    Runs.Throughout step Lawful (start fpNet) es ↔ Runs.Along step Fair (start fpNet) es :=
  Runs.throughout_iff_along_of (I := Inv) (fun _ _ h hc _ => h.step hc.1)
    (fun _ _ h hc hlaw => h.lawful_step_iff hc hlaw)
    ⟨⟨rfl, rfl⟩, fun _ => ⟨rfl, rfl⟩, fun _ => rfl, fun _ hprev => by cases hprev⟩ ⟨rfl, rfl⟩
    (orderly_along hbelow htimes fun _ hprev => by cases hprev)

/-- A sample of two interfaces, the default route going over `iface`. -/
def twoDevices (nowMs : UInt64) (nowSec : ℤ) (iface : CStr) (rx₀ rx₁ : UInt64) : NetSample where
  nowMs := nowMs
  nowSec := nowSec
  routes := some [⟨iface, 0, 0⟩]
  devices := [⟨"eth0".toList, rx₀, 0⟩, ⟨"wwan0".toList, rx₁, 0⟩]

/-- One interface throughout, growing by 100000 bytes a second. -/
theorem speeds_lawful_eth0 :
    let es := [twoDevices 1000 1 "eth0".toList 1000000 5000000,
      twoDevices 3000 3 "eth0".toList 1200000 5000000]
    (Runs.run step (start true) es).status.rxSpeed = 100000 ∧
      Runs.Throughout step Lawful (start true) es :=
  ⟨by decide, (speeds_lawful_iff true _ (by decide) (by decide)).2 (by decide)⟩

/-- The failing input: the default route moves from one interface to the other. -/
theorem route_changed :
    let es := [twoDevices 1000 1 "eth0".toList 1000000 5000000,
      twoDevices 31000 31 "wwan0".toList 1000000 5000000]
    (es.map NetSample.nowMs).Pairwise (· < ·) ∧
      (∀ e ∈ es, ∀ d ∈ e.devices, d.rx.toNat < 2 ^ 54 ∧ d.tx.toNat < 2 ^ 54) ∧
      (Runs.run step (start true) es).status.rxSpeed = 133333 ∧
      ¬Runs.Throughout step Lawful (start true) es := by
  refine ⟨by decide, by decide, by decide, fun h => ?_⟩
  exact absurd h.2.2.rx (by decide)

end NetRun

end NanoHat
