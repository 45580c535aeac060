import NanoHat.Foundations.Rounding
import NanoHat.Hal.UbusHal

/-!
# Texts

The conversions of `snprintf` that the pages use, with an `unsigned long` of 64 bits, and the two
functions of `sys_status.c` that format a duration and a speed. An uptime is never cut off
(`formatUptime_fits`).
-/

namespace NanoHat

/-- `snprintf` into an array of `n` bytes. -/
def snprintf (n : ℕ) (text : CStr) : CStr := text.take (n - 1)

theorem snprintf_of_length {n : ℕ} {text : CStr} (h : text.length < n) : snprintf n text = text :=
  List.take_of_length_le (Nat.le_sub_one_of_lt h)

/-- `%u` and `%lu`. -/
def decimal (v : ℕ) : CStr := (Nat.repr v).toList

theorem length_decimal_le {v k : ℕ} (hk : 0 < k) (hv : v < 10 ^ k) : (decimal v).length ≤ k := by
  unfold decimal
  rw [String.length_toList]
  exact (Nat.length_repr_le_iff hk).2 hv

/-- `%d`. -/
def signedDecimal (v : ℤ) : CStr := if v < 0 then '-' :: decimal v.natAbs else decimal v.natAbs

/-- The natural number nearest to a value that is not negative, the even one of two. -/
def roundHalfEven (q : ℚ) : ℕ :=
  let n := q.floor.toNat
  let rest := q - n
  if rest < 1 / 2 ∨ rest = 1 / 2 ∧ n % 2 = 0 then n else n + 1

/-- `%f` with a width and a precision. -/
def fixed (width prec : ℕ) (q : ℚ) : CStr :=
  let scaled := roundHalfEven ((if q < 0 then -q else q) * 10 ^ prec)
  let whole := decimal (scaled / 10 ^ prec)
  let digits :=
    if prec = 0 then whole
    else whole ++ '.' :: (decimal (scaled % 10 ^ prec)).leftpad prec '0'
  (if q < 0 then '-' :: digits else digits).leftpad width ' '

/-- What `sys_status_format_uptime` prints. -/
def uptimeText (uptimeSec : UInt32) : CStr :=
  let days := uptimeSec / 86400
  let hours := uptimeSec % 86400 / 3600
  let mins := uptimeSec % 3600 / 60
  let time := decimal hours.toNat ++ "h ".toList ++ decimal mins.toNat ++ "m".toList
  if 0 < days then decimal days.toNat ++ "d ".toList ++ time else time

/-- `sys_status_format_uptime`. -/
def formatUptime (uptimeSec : UInt32) (buflen : ℕ) : CStr := snprintf buflen (uptimeText uptimeSec)

/-- An uptime fits in the array of the home page. -/
theorem formatUptime_fits (uptimeSec : UInt32) :
    formatUptime uptimeSec 16 = uptimeText uptimeSec := by
  have hlt := uptimeSec.toNat_lt
  have hdays : (decimal (uptimeSec / 86400).toNat).length ≤ 5 := by
    refine length_decimal_le (by decide) ?_
    change uptimeSec.toNat / 86400 < 10 ^ 5
    omega
  have hhours : (decimal (uptimeSec % 86400 / 3600).toNat).length ≤ 2 := by
    refine length_decimal_le (by decide) ?_
    change uptimeSec.toNat % 86400 / 3600 < 10 ^ 2
    omega
  have hmins : (decimal (uptimeSec % 3600 / 60).toNat).length ≤ 2 := by
    refine length_decimal_le (by decide) ?_
    change uptimeSec.toNat % 3600 / 60 < 10 ^ 2
    omega
  refine snprintf_of_length ?_
  unfold uptimeText
  dsimp only
  split
  · simp only [List.length_append, show "d ".toList.length = 2 from rfl,
      show "h ".toList.length = 2 from rfl, show "m".toList.length = 1 from rfl]
    omega
  · simp only [List.length_append, show "h ".toList.length = 2 from rfl,
      show "m".toList.length = 1 from rfl]
    omega

/-- `sys_status_format_speed_bps`, over a rounding of `double`. -/
def formatSpeedBps (rnd : Rounding) (bytesPerSec : UInt64) (buflen : ℕ) : CStr :=
  let bitsPerSec := bytesPerSec * 8
  snprintf buflen <|
    if bitsPerSec ≥ 1000000 then fixed 0 1 (rnd (rnd bitsPerSec.toNat / 1000000)) ++ "Mb/s".toList
    else if bitsPerSec ≥ 1000 then fixed 0 1 (rnd (rnd bitsPerSec.toNat / 1000)) ++ "Kb/s".toList
    else decimal bitsPerSec.toNat ++ "b/s".toList

end NanoHat
