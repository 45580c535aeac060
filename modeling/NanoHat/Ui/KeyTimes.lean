import NanoHat.Ui.AnimProgress
import NanoHat.Ui.PageControllerInvariant
import NanoHat.Ui.Pages

/-!
# Key times

A key press carries the time of its edge, and the controller compares it with times that came from
other key presses and from the tick clock. While an animation runs, keys are ignored, unless their
time lies before the start of the animation (`ignoresKeys_iff`).
-/

namespace NanoHat.PageController

variable {σ : Type*} {pc pc' : PageController σ}

/-! ## Keys during an animation -/

/-- The duration of the active animation has not elapsed since its start. -/
def Running (pc : PageController σ) (nowMs : UInt64) : Prop :=
  nowMs.toNat < pc.anim.startMs.toNat + pc.anim.type.duration.toNat

instance (pc : PageController σ) (nowMs : UInt64) : Decidable (pc.Running nowMs) :=
  inferInstanceAs (Decidable (_ < _))

/-- A key press changes nothing but the activity time. -/
def Ignores (pc : PageController σ) (key : UInt8) (longPress : Bool) (nowMs : UInt64) : Prop :=
  pc.handleKey key longPress nowMs = (false, { pc with lastActivityMs := nowMs })

/-- A key press that is acted on leaves no animation, or one that starts with it. -/
theorem KeyEffect.anim {nowMs : UInt64} (he : KeyEffect pc nowMs pc')
    (hnone : pc.anim.type = .none) : pc'.anim.type = .none ∨ pc'.anim.startMs = nowMs := by
  cases he with
  | stay globals startMs => exact Or.inl hnone
  | sleep hmode => exact Or.inl hnone
  | slide d hd hmode =>
    unfold switchPage
    split
    · exact Or.inl hnone
    split
    · exact Or.inl hnone
    · exact Or.inr rfl
  | tryEnter startMs =>
    unfold tryEnterMode exitEnterMode
    split
    · dsimp only
      split <;> exact Or.inr rfl
    split
    · exact Or.inl hnone
    split
    · exact Or.inr rfl
    · dsimp only
      split <;> exact Or.inr rfl

theorem ignores_of_busy (hon : pc.screenState = .on) (hanim : pc.anim.type ≠ .none)
    {nowMs : UInt64} (hbusy : pc.anim.animIsComplete nowMs = false) (key : UInt8)
    (longPress : Bool) : pc.Ignores key longPress nowMs := by
  unfold Ignores handleKey
  dsimp only
  rw [if_neg (by rw [hon]; exact ScreenState.noConfusion), if_pos ⟨hanim, by rw [hbusy]; rfl⟩]

/-- **Keys during an animation.** The two judgements of the end of an animation agree, and a key
press is ignored while the animation runs, precisely if the times are in order. -/
theorem ignoresKeys_iff :
    (∀ (a : AnimState) (nowMs : UInt64), a.type ≠ .none → (a.Agrees nowMs ↔ a.InOrder nowMs)) ∧
      ∀ (pc : PageController σ) (key : UInt8) (longPress : Bool) (nowMs : UInt64),
        pc.screenState = .on → pc.anim.type ≠ .none →
          ((pc.Running nowMs → pc.Ignores key longPress nowMs) ↔ pc.anim.InOrder nowMs) := by
  refine ⟨fun a nowMs h => AnimState.agrees_iff h, fun pc key longPress nowMs hon hanim => ?_⟩
  constructor
  · intro hignores
    by_contra hnot
    obtain ⟨hbehind, hwrapped⟩ := not_or.1 hnot
    have hlt := UInt64.lt_iff_toNat_lt.1 (UInt64.not_le.1 hbehind)
    have hsame : (pc.handleKey key longPress nowMs).2 = { pc with lastActivityMs := nowMs } :=
      congrArg Prod.snd (hignores (by unfold Running; omega))
    have hcomplete : pc.anim.animIsComplete nowMs = true :=
      (AnimState.animIsComplete_iff hanim).2 (UInt64.not_lt.1 hwrapped)
    rcases handleKey_cases pc key longPress nowMs with ⟨hoff, -⟩ | ⟨-, hbusy, -⟩ | ⟨-, -, he⟩
    · rw [hon] at hoff
      cases hoff
    · rw [hcomplete] at hbusy
      cases hbusy
    · rw [hsame] at he
      rcases he.anim rfl with hnone | hstart
      · exact hanim hnone
      · have hstart : pc.anim.startMs.toNat = nowMs.toNat := congrArg UInt64.toNat hstart
        omega
  · intro horder hrunning
    refine ignores_of_busy hon hanim ?_ key longPress
    rw [Bool.eq_false_iff, ne_eq, AnimState.animIsComplete_iff hanim, UInt64.not_le]
    rcases horder with hle | hlt
    · rw [UInt64.lt_iff_toNat_lt, UInt64.toNat_sub_of_le _ _ hle]
      have hle := UInt64.le_iff_toNat_le.1 hle
      unfold Running at hrunning
      omega
    · exact hlt

/-- The services page is entered at 1800 ms and left again by a tick at 31800 ms. -/
def leftByTick : PageController PagesState :=
  after (pagesGetList 1) ⟨false, {}⟩ [.key keyK3 false 1000, .tick 1300, .key keyK3 false 1400,
    .tick 1700, .key keyK2 true 1800, .tick 2100, .tick 31800]

/-- A key in time is ignored. -/
theorem ignoresKeys_inTime :
    leftByTick.anim.Agrees 31900 ∧ leftByTick.Ignores keyK1 false 31900 :=
  ⟨(@ignoresKeys_iff PagesState).1 _ 31900 (by decide) |>.2 (by decide),
    (ignoresKeys_iff.2 leftByTick keyK1 false 31900 (by decide) (by decide)).2 (by decide)
      (by decide)⟩

/-- The failing input: a key whose edge came a millisecond before the tick that left enter mode. -/
theorem early_key_handled :
    leftByTick.screenState = .on ∧ leftByTick.anim.type = .exitMode ∧
      leftByTick.Running 31799 ∧ ¬leftByTick.anim.Agrees 31799 ∧
      ¬leftByTick.Ignores keyK1 false 31799 := by
  refine ⟨by decide, by decide, by decide, fun h => ?_, fun h => ?_⟩
  · exact absurd ((AnimState.agrees_iff (by decide)).1 h) (by decide)
  · exact absurd (congrArg Prod.fst h) (by decide)

end NanoHat.PageController
