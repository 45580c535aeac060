import Mathlib.Data.Int.Notation

/-!
# Animations

The animation state of `anim.h` and its end. Times are the 64-bit milliseconds of the source, so
that an elapsed time is a difference modulo `2 ^ 64`. The threaded implementation has the same code
with other durations, which are therefore an argument.
-/

namespace NanoHat

/-- `anim_type_t`. -/
inductive AnimType
  | none
  | slideLeft
  | slideRight
  | titleShake
  | enterMode
  | exitMode
  deriving DecidableEq

/-- `anim_state_t`. -/
structure AnimState where
  type : AnimType := .none
  startMs : UInt64 := 0
  fromPage : ℤ := 0
  toPage : ℤ := 0
  deriving DecidableEq

/-- `ANIM_SLIDE_DURATION_MS`, `ANIM_SHAKE_DURATION_MS` and `ANIM_MODE_DURATION_MS`. -/
structure AnimDurations where
  slideMs : UInt64
  shakeMs : UInt64
  modeMs : UInt64

/-- The duration of a type. -/
def AnimDurations.of (d : AnimDurations) : AnimType → UInt64
  | .none => 0
  | .slideLeft | .slideRight => d.slideMs
  | .titleShake => d.shakeMs
  | .enterMode | .exitMode => d.modeMs

/-- The durations of `anim.h`. -/
def animDurations : AnimDurations where
  slideMs := 250
  shakeMs := 400
  modeMs := 250

namespace AnimType

/-- A page slides in. -/
def isSlide (t : AnimType) : Bool := t = .slideLeft || t = .slideRight

/-- `ANIM_*_DURATION_MS` of a type. -/
def duration (t : AnimType) : UInt64 := animDurations.of t

@[simp] theorem isSlide_none : isSlide .none = false := rfl
@[simp] theorem isSlide_slideLeft : isSlide .slideLeft = true := rfl
@[simp] theorem isSlide_slideRight : isSlide .slideRight = true := rfl
@[simp] theorem isSlide_titleShake : isSlide .titleShake = false := rfl
@[simp] theorem isSlide_enterMode : isSlide .enterMode = false := rfl
@[simp] theorem isSlide_exitMode : isSlide .exitMode = false := rfl

end AnimType

namespace AnimState

/-- `anim_is_complete`, for given durations. -/
def isCompleteWith (d : AnimDurations) (a : AnimState) (nowMs : UInt64) : Bool :=
  if a.type = .none then true else d.of a.type ≤ nowMs - a.startMs

/-- `anim_is_complete`. -/
def animIsComplete (a : AnimState) (nowMs : UInt64) : Bool := a.isCompleteWith animDurations nowMs

theorem animIsComplete_of_none {a : AnimState} (h : a.type = .none) (nowMs : UInt64) :
    a.animIsComplete nowMs = true := if_pos h

theorem animIsComplete_of_ne_none {a : AnimState} (h : a.type ≠ .none) (nowMs : UInt64) :
    a.animIsComplete nowMs = decide (a.type.duration ≤ nowMs - a.startMs) := if_neg h

end AnimState

end NanoHat
