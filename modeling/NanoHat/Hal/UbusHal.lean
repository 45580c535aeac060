import Mathlib.Data.Int.Notation
import Mathlib.Data.Nat.Notation

/-!
# The ubus HAL interface

What `ubus_hal.h` fixes for every implementation: the status codes and the arguments handed to
the two kinds of callback. C strings are lists of characters (the bytes before the NUL), pointers
are numbers with `0` for `NULL`.
-/

namespace NanoHat

/-- A C string: its bytes before the terminating NUL. -/
abbrev CStr := List Char

/-- A pointer; `0` is `NULL`. -/
abbrev Ptr := ℕ

/-- `strncpy(dst, src, n - 1); dst[n - 1] = '\0'` on an array of `n` bytes. -/
def strncpy (n : ℕ) (src : CStr) : CStr := src.take (n - 1)

namespace UbusHal

/-! The status codes `UBUS_HAL_STATUS_*`. -/

def statusOk : ℤ := 0
def statusNotFound : ℤ := 5
def statusTimeout : ℤ := 7
def statusConnFailed : ℤ := 4
def statusError : ℤ := -1

/-- The two kinds of request. -/
inductive RequestType
  | query
  | control
  deriving DecidableEq

/-- What a callback is called with, its `priv` apart: `ubus_query_cb` and `ubus_control_cb`. -/
inductive Callback
  | query (service : CStr) (installed running : Bool) (status : ℤ)
  | control (service : CStr) (success : Bool) (status : ℤ)
  deriving DecidableEq

/-- The kind of request a callback belongs to. -/
def Callback.type : Callback → RequestType
  | .query .. => .query
  | .control .. => .control

/-- The service a callback names. -/
def Callback.service : Callback → CStr
  | .query s .. => s
  | .control s .. => s

end UbusHal

end NanoHat
