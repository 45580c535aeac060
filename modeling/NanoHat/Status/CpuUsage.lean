import Mathlib.Algebra.Order.Field.Basic
import Mathlib.Tactic.Linarith
import NanoHat.Foundations.Rounding
import NanoHat.Foundations.Runs

/-!
# CPU usage

`update_cpu_usage` of `sys_status.c`, over a rounding of its floating-point results. The usage is a
percentage as long as the idle time does not grow by more than the total does (`percentage_iff`,
`percentage_after`); `iowait` may go down, and then the unsigned difference is a huge number.
-/

namespace NanoHat

open Rounding

/-- The fields that are read of the first line of `/proc/stat`. -/
structure CpuLine where
  user : UInt64 := 0
  nice : UInt64 := 0
  system : UInt64 := 0
  idle : UInt64 := 0
  iowait : UInt64 := 0
  irq : UInt64 := 0
  softirq : UInt64 := 0

namespace CpuLine

/-- `total`. -/
def total (line : CpuLine) : UInt64 :=
  line.user + line.nice + line.system + line.idle + line.iowait + line.irq + line.softirq

/-- `idle_all`. -/
def idleAll (line : CpuLine) : UInt64 := line.idle + line.iowait

end CpuLine

/-- The part of `struct sys_status_ctx` about the CPU, and `cpu_usage`. -/
structure CpuState where
  prevIdle : UInt64 := 0
  prevTotal : UInt64 := 0
  /-- `fp_stat` is not `NULL` -/
  fpStat : Bool
  cpuUsage : ℚ := 0

namespace CpuState

/-- The usage that is computed, if the totals let it. -/
def computed (rnd : Rounding) (s : CpuState) (line : CpuLine) : Option ℚ :=
  if 0 < s.prevTotal then
    let totalDiff := line.total - s.prevTotal
    let idleDiff := line.idleAll - s.prevIdle
    if 0 < totalDiff then
      some (rnd (100 * rnd (1 - rnd (rnd idleDiff.toNat / rnd totalDiff.toNat))))
    else none
  else none

/-- `update_cpu_usage`; a line that cannot be read or parsed is `none`. -/
def updateCpuUsage (rnd : Rounding) (s : CpuState) (line : Option CpuLine) : CpuState :=
  if !s.fpStat then s
  else
    match line with
    | none => s
    | some line =>
      { s with
        cpuUsage := (s.computed rnd line).getD s.cpuUsage
        prevTotal := line.total
        prevIdle := line.idleAll }

/-- The idle time has not grown by more than the total. -/
def IdleWithin (s : CpuState) (line : CpuLine) : Prop :=
  line.idleAll - s.prevIdle ≤ line.total - s.prevTotal

instance (s : CpuState) (line : CpuLine) : Decidable (s.IdleWithin line) :=
  inferInstanceAs (Decidable (_ ≤ _))

/-- A value that is a percentage. -/
def Percentage (usage : ℚ) : Prop := 0 ≤ usage ∧ usage ≤ 100

theorem percentage_share_iff {idle total : ℕ} (hpos : 0 < total) :
    Percentage (100 * (1 - (idle : ℚ) / total)) ↔ idle ≤ total := by
  have hpos : (0 : ℚ) < total := by exact_mod_cast hpos
  have hnonneg : (0 : ℚ) ≤ idle / total := div_nonneg (Nat.cast_nonneg _) hpos.le
  have hshare : (idle : ℚ) / total ≤ 1 ↔ idle ≤ total := by
    rw [div_le_one hpos]
    exact_mod_cast Iff.rfl
  unfold Percentage
  rw [← hshare]
  constructor
  · rintro ⟨h, -⟩
    linarith
  · intro h
    constructor <;> linarith

/-- What is computed from a line is a percentage precisely if the idle time is within the total. -/
theorem percentage_computed_iff {s : CpuState} {line : CpuLine} (hprev : 0 < s.prevTotal)
    (htotal : s.prevTotal ≠ line.total) :
    (∀ usage ∈ s.computed exact line, Percentage usage) ↔ s.IdleWithin line := by
  have hdiff : 0 < line.total - s.prevTotal := by
    refine UInt64.pos_iff_ne_zero.2 fun hzero => htotal ?_
    rw [← UInt64.sub_add_cancel line.total s.prevTotal, hzero, UInt64.zero_add]
  have hpos : 0 < (line.total - s.prevTotal).toNat := UInt64.lt_iff_toNat_lt.1 hdiff
  unfold computed IdleWithin
  rw [if_pos hprev]
  dsimp only
  rw [if_pos hdiff]
  simp only [Option.mem_some, forall_eq', exact_apply]
  rw [percentage_share_iff hpos, UInt64.le_iff_toNat_le]

/-- A call that parses a line. -/
theorem updateCpuUsage_some {s : CpuState} (hopen : s.fpStat = true) (rnd : Rounding)
    (line : CpuLine) : s.updateCpuUsage rnd (some line) =
      { s with
        cpuUsage := (s.computed rnd line).getD s.cpuUsage
        prevTotal := line.total
        prevIdle := line.idleAll } := by
  unfold updateCpuUsage
  rw [if_neg (by rw [hopen]; exact Bool.false_ne_true)]

/-- **Two lines.** Of two lines that have been parsed one after the other and whose totals differ, the
usage computed is a percentage precisely if the idle time has not grown by more than the total; after
a total of 0 none is computed. -/
theorem percentage_iff (s : CpuState) (hopen : s.fpStat = true) (prev cur : CpuLine)
    (htotal : prev.total ≠ cur.total) :
    (∀ usage ∈ (s.updateCpuUsage exact (some prev)).computed exact cur, Percentage usage) ↔
      prev.total = 0 ∨ cur.idleAll - prev.idleAll ≤ cur.total - prev.total := by
  rw [updateCpuUsage_some hopen]
  by_cases hzero : prev.total = 0
  · unfold computed
    rw [if_neg (by rw [hzero]; exact UInt64.lt_irrefl 0)]
    exact iff_of_true (fun _ h => by cases h) (Or.inl hzero)
  · rw [percentage_computed_iff (UInt64.pos_iff_ne_zero.2 hzero) htotal]
    exact ⟨Or.inr, fun h => h.resolve_left hzero⟩

/-- Of 100 ticks 40 were idle. -/
theorem percentage_busy :
    let s := CpuState.updateCpuUsage exact { fpStat := true } (some { user := 100, idle := 1000 })
    s.computed exact { user := 160, idle := 1040 } = some 60 ∧
      ∀ usage ∈ s.computed exact { user := 160, idle := 1040 }, Percentage usage :=
  ⟨by decide +kernel, (percentage_iff { fpStat := true } rfl { user := 100, idle := 1000 }
    { user := 160, idle := 1040 } (by decide)).2 (by decide)⟩

/-- The failing input: `iowait` goes down by a tick while `user` grows by 50. -/
theorem iowait_down :
    let prev : CpuLine := { idle := 1000, iowait := 100 }
    let cur : CpuLine := { user := 50, idle := 1000, iowait := 99 }
    prev.total < cur.total ∧
      ¬∀ usage ∈ (CpuState.updateCpuUsage exact { fpStat := true } (some prev)).computed exact cur,
        Percentage usage := by
  intro prev cur
  refine ⟨by decide, fun h => ?_⟩
  have hshare := (percentage_computed_iff (by decide) (by decide)).1 h
  exact absurd hshare (by decide)

/-! ## Runs -/

/-- What is asked of a line, if a usage is computed from it. -/
def Fair (s : CpuState) (line : Option CpuLine) : Prop :=
  s.fpStat = true → ∀ l ∈ line, 0 < s.prevTotal → s.prevTotal ≠ l.total → s.IdleWithin l

theorem percentage_step {s : CpuState} (h : Percentage s.cpuUsage) (line : Option CpuLine) :
    Percentage (s.updateCpuUsage exact line).cpuUsage ↔ s.Fair line := by
  unfold Fair
  by_cases hopen : s.fpStat = true
  · cases line with
    | none =>
      have heq : s.updateCpuUsage exact none = s := by
        unfold updateCpuUsage
        split <;> rfl
      rw [heq]
      exact iff_of_true h fun _ _ hl => by cases hl
    | some line =>
      rw [updateCpuUsage_some hopen]
      simp only [Option.mem_some, forall_eq', hopen, true_imp_iff]
      by_cases hprev : 0 < s.prevTotal
      · by_cases htotal : s.prevTotal = line.total
        · have hnone : s.computed exact line = none := by
            unfold computed
            rw [if_pos hprev, htotal, UInt64.sub_self]
            exact if_neg (UInt64.lt_irrefl 0)
          rw [hnone]
          exact iff_of_true h fun _ hne => absurd htotal hne
        · rw [← percentage_computed_iff hprev htotal]
          cases hc : s.computed exact line with
          | none => exact iff_of_true h fun _ _ _ hu => by cases hu
          | some usage =>
            simp only [Option.getD_some, Option.mem_some, forall_eq']
            exact ⟨fun hu _ _ => hu, fun hu => hu hprev htotal⟩
      · have hnone : s.computed exact line = none := if_neg hprev
        rw [hnone]
        exact iff_of_true h fun hpos => absurd hpos hprev
  · have heq : s.updateCpuUsage exact line = s := by
      unfold updateCpuUsage
      rw [if_pos (by simpa using hopen)]
    rw [heq]
    exact iff_of_true h fun hc => absurd hc hopen

/-- In a run from the start, what is shown is a percentage all the time precisely if every line that
a usage is computed from has its idle time within the total. -/
theorem percentage_after (fpStat : Bool) (lines : List (Option CpuLine)) :
    Runs.Throughout (updateCpuUsage exact) (fun s => Percentage s.cpuUsage) { fpStat := fpStat }
        lines ↔ Runs.Along (updateCpuUsage exact) Fair { fpStat := fpStat } lines := by
  have hzero : Percentage 0 := ⟨le_rfl, by norm_num⟩
  exact Runs.throughout_iff_along (P := fun s : CpuState => Percentage s.cpuUsage)
    (I := fun _ => True) (fun _ _ _ _ => trivial) (fun _ line _ h => percentage_step h line) trivial
    hzero lines

end CpuState

end NanoHat
