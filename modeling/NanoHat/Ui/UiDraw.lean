import Mathlib.Algebra.Order.Ring.Int
import Mathlib.Data.Int.ConditionallyCompleteOrder
import Mathlib.Order.Interval.Set.Basic
import Mathlib.Tactic.Linarith
import Mathlib.Tactic.Positivity
import Mathlib.Tactic.Ring
import NanoHat.Hal.UbusHal
import NanoHat.Ui.AnimProgress

/-!
# Drawing helpers

`ui_draw.c`: strings, boxes and lines at a signed column, of which the part on the screen is passed to
u8g2. A helper yields what it does in order, the calls of u8g2 (with the positions before they are
narrowed to `u8g2_uint_t`) and its own accesses to the string. Boxes and lines are clipped exactly
(`clipSpan_eq`). A string is moved on by whole characters, counted in widths of `0`, which is right
as long as that is the advance of the font (`skipped_iff`).
-/

namespace NanoHat

open UbusHal

/-- What a helper does; a string pointer is a string and the offset from its start. -/
inductive DrawOp
  /-- the byte at the pointer is read -/
  | read (s : CStr) (offset : ℕ)
  | drawStr (x y : ℤ) (s : CStr) (offset : ℕ)
  | drawUTF8 (x y : ℤ) (s : CStr)
  | drawBox (x y w h : ℤ)
  | drawHLine (x y w : ℤ)
  | drawFrame (x y w h : ℤ)
  deriving DecidableEq

/-- The byte at an offset from the start of a string in memory, `past` being what lies behind its
terminator. -/
def byteAt (past : ℕ → Char) (s : CStr) (offset : ℕ) : Char :=
  ((s ++ ['\x00'])[offset]?).getD (past offset)

/-- `ui_draw_str`, for the widths of strings in the current font. -/
def uiDrawStr (strWidth : CStr → ℤ) (past : ℕ → Char) (x y : ℤ) (s : CStr) : List DrawOp :=
  let width := strWidth s
  if x ≥ screenWidth ∨ x + width ≤ 0 then []
  else if x ≥ 0 then [.drawStr x y s 0]
  else
    let charW := strWidth ['0']
    if charW ≤ 0 then []
    else
      let skip := ((-x).tdiv charW).toNat
      let drawX := x + skip * charW
      if byteAt past s skip = '\x00' then [.read s skip]
      else [.read s skip, .drawStr (if drawX < 0 then 0 else drawX) y s skip]

/-- `ui_draw_utf8`. -/
def uiDrawUtf8 (strWidth : CStr → ℤ) (x y : ℤ) (s : CStr) : List DrawOp :=
  let width := strWidth s
  if x ≥ screenWidth ∨ x + width ≤ 0 then []
  else [.drawUTF8 (if x < 0 then 0 else x) y s]

/-- The columns that `ui_draw_box` and `ui_draw_hline` pass on, as a start and a width. -/
def clipSpan (x w : ℤ) : Option (ℤ × ℤ) :=
  if w ≤ 0 then none
  else if x + w ≤ 0 ∨ x ≥ screenWidth then none
  else
    let (x0, w) := if x < 0 then (0, w + x) else (x, w)
    let w := if x0 + w > screenWidth then screenWidth - x0 else w
    if w ≤ 0 then none else some (x0, w)

/-- `ui_draw_box`. -/
def uiDrawBox (x y w h : ℤ) : List DrawOp :=
  if h ≤ 0 then []
  else
    match clipSpan x w with
    | none => []
    | some (x0, w) => [.drawBox x0 y w h]

/-- `ui_draw_hline`. -/
def uiDrawHline (x y w : ℤ) : List DrawOp :=
  match clipSpan x w with
  | none => []
  | some (x0, w) => [.drawHLine x0 y w]

/-! ## Clipping -/

/-- The columns of the screen. -/
def screenColumns : Set ℤ := Set.Ico 0 screenWidth

theorem mem_Ico_inter_screen {x w c : ℤ} : c ∈ Set.Ico x (x + w) ∩ screenColumns ↔
    x ≤ c ∧ c < x + w ∧ 0 ≤ c ∧ c < screenWidth := by
  unfold screenColumns
  rw [Set.mem_inter_iff, Set.mem_Ico, Set.mem_Ico, and_assoc]

/-- What is left of a request that reaches the screen. -/
theorem clipSpan_some {x w : ℤ} (hw : 0 < w) (hleft : 0 < x + w) (hright : x < screenWidth) :
    clipSpan x w = some (max x 0, min (x + w) screenWidth - max x 0) := by
  have hscreen : screenWidth = 128 := rfl
  unfold clipSpan
  rw [if_neg (by omega), if_neg (by omega)]
  by_cases hx : x < 0
  · rw [if_pos hx]
    dsimp only
    split_ifs <;> first | omega | (congr 2 <;> omega)
  · rw [if_neg hx]
    dsimp only
    split_ifs <;> first | omega | (congr 2 <;> omega)

theorem clipSpan_none {x w : ℤ} (h : w ≤ 0 ∨ x + w ≤ 0 ∨ screenWidth ≤ x) :
    clipSpan x w = none := by
  unfold clipSpan
  split
  · rfl
  · rw [if_pos (by omega)]

/-- **Clipping is exact**: the columns passed on are those of the request that are on the screen, and
there are none only if there are none. -/
theorem clipSpan_eq (x w : ℤ) :
    (∀ x0 w', clipSpan x w = some (x0, w') →
      0 ≤ x0 ∧ x0 < screenWidth ∧ 0 < w' ∧ x0 + w' ≤ screenWidth ∧
        Set.Ico x0 (x0 + w') = Set.Ico x (x + w) ∩ screenColumns) ∧
      (clipSpan x w = none ↔ Set.Ico x (x + w) ∩ screenColumns = ∅) := by
  have hscreen : screenWidth = 128 := rfl
  by_cases hon : 0 < w ∧ 0 < x + w ∧ x < screenWidth
  · obtain ⟨hw, hleft, hright⟩ := hon
    rw [clipSpan_some hw hleft hright]
    constructor
    · intro x0 w' heq
      obtain ⟨rfl, rfl⟩ := Prod.mk.inj (Option.some.inj heq)
      refine ⟨by omega, by omega, by omega, by omega, ?_⟩
      ext c
      rw [mem_Ico_inter_screen, Set.mem_Ico]
      omega
    · refine iff_of_false (Option.some_ne_none _) fun hempty => ?_
      have hmem : max x 0 ∈ Set.Ico x (x + w) ∩ screenColumns := by
        rw [mem_Ico_inter_screen]
        omega
      rw [hempty] at hmem
      exact hmem
  · rw [clipSpan_none (by omega)]
    refine ⟨nofun, iff_of_true rfl ?_⟩
    ext c
    rw [mem_Ico_inter_screen]
    refine iff_of_false (fun hc => ?_) id
    omega

/-! ## Strings -/

/-- A font whose characters all have one advance; the visible part of a character is what counts for
the last one. -/
structure MonoFont where
  advance : ℕ
  visible : Char → ℕ
  visible_pos : ∀ c, 0 < visible c
  visible_le : ∀ c, visible c ≤ advance

/-- `u8g2_GetStrWidth`. -/
def MonoFont.strWidth (font : MonoFont) (s : CStr) : ℤ :=
  match s.getLast? with
  | none => 0
  | some c => font.advance * (s.length - 1) + font.visible c

/-- The characters before an offset lie within the string, and left of the screen. -/
def LeftOf (font : MonoFont) (x : ℤ) (s : CStr) (offset : ℕ) : Prop :=
  offset ≤ s.length ∧ ∀ i c, i < offset → s[i]? = some c →
    x + font.advance * i + font.visible c ≤ 0

/-- What is asked of an access to the string: the pointer is in the string, and it has skipped only
characters left of the screen. -/
def DrawOp.SkipsOk (font : MonoFont) (x : ℤ) : DrawOp → Prop
  | .read s offset => LeftOf font x s offset
  | .drawStr _ _ s offset => LeftOf font x s offset
  | _ => True

/-- All accesses of `ui_draw_str` to the string are right. -/
def SkipsOk (font : MonoFont) (past : ℕ → Char) (x y : ℤ) (s : CStr) : Prop :=
  ∀ op ∈ uiDrawStr font.strWidth past x y s, op.SkipsOk font x

/-- The number of widths of `0` that a string starts left of the screen. -/
def skipCount (font : MonoFont) (x : ℤ) : ℕ := (-x).toNat / font.visible '0'

/-- The string starts on the screen or is off it; or it starts by less than the width of `0` left of
it; or it has as many characters as `skipCount`, and the last of these ends left of the screen. -/
def Skippable (font : MonoFont) (x : ℤ) (s : CStr) : Prop :=
  0 ≤ x ∨ x + font.strWidth s ≤ 0 ∨ ∀ j, skipCount font x = j + 1 →
    ∃ c, s[j]? = some c ∧ x + font.advance * j + font.visible c ≤ 0

variable {font : MonoFont} {past : ℕ → Char} {x y : ℤ} {s : CStr}

theorem strWidth_zero (font : MonoFont) : font.strWidth ['0'] = font.visible '0' := by
  change (font.advance : ℤ) * (1 - 1) + font.visible '0' = font.visible '0'
  rw [sub_self, mul_zero, zero_add]

theorem strWidth_le (font : MonoFont) (s : CStr) : font.strWidth s ≤ font.advance * s.length := by
  unfold MonoFont.strWidth
  cases s.getLast? with
  | none =>
    dsimp only
    positivity
  | some c =>
    have hle : (font.visible c : ℤ) ≤ font.advance := by exact_mod_cast font.visible_le c
    dsimp only
    linarith

theorem skip_eq (hx : x < 0) :
    ((-x).tdiv (font.strWidth ['0'])).toNat = skipCount font x := by
  obtain ⟨m, hm⟩ := Int.eq_ofNat_of_zero_le (show 0 ≤ -x by omega)
  unfold skipCount
  rw [strWidth_zero, hm, ← Int.ofNat_tdiv, Int.toNat_natCast, Int.toNat_natCast]

/-- Of the characters skipped the last one decides. -/
theorem leftOf_iff {k : ℕ} : LeftOf font x s k ↔ ∀ j, k = j + 1 →
    ∃ c, s[j]? = some c ∧ x + font.advance * j + font.visible c ≤ 0 := by
  constructor
  · rintro ⟨hlen, hleft⟩ j rfl
    exact ⟨s[j], List.getElem?_eq_getElem hlen, hleft j s[j] (Nat.lt_succ_self j)
      (List.getElem?_eq_getElem hlen)⟩
  · intro h
    cases k with
    | zero => exact ⟨Nat.zero_le _, fun i _ hi => absurd hi (Nat.not_lt_zero i)⟩
    | succ j =>
      obtain ⟨c, hc, hlast⟩ := h j rfl
      refine ⟨(List.getElem?_eq_some_iff.1 hc).1, fun i c' hi hc' => ?_⟩
      rcases Nat.lt_succ_iff_lt_or_eq.1 hi with hi | rfl
      · have hle : (font.visible c' : ℤ) ≤ font.advance := by exact_mod_cast font.visible_le c'
        have hmul : (font.advance : ℤ) * (i + 1) ≤ font.advance * j :=
          mul_le_mul_of_nonneg_left (by exact_mod_cast hi) (by positivity)
        have hpos : (0 : ℤ) ≤ font.visible c := by positivity
        linarith
      · rw [hc] at hc'
        obtain rfl := Option.some.inj hc'
        exact hlast

/-- The accesses to a string are right precisely if the last character skipped is left of the
screen. -/
theorem skipsOk_iff (font : MonoFont) (past : ℕ → Char) (x y : ℤ) (s : CStr) :
    SkipsOk font past x y s ↔ Skippable font x s := by
  unfold SkipsOk Skippable uiDrawStr
  dsimp only
  by_cases hoff : x ≥ screenWidth ∨ x + font.strWidth s ≤ 0
  · rw [if_pos hoff]
    refine iff_of_true (fun op hop => by cases hop) ?_
    have hscreen : screenWidth = 128 := rfl
    exact hoff.imp (fun h => by omega) Or.inl
  rw [if_neg hoff]
  by_cases hx : x ≥ 0
  · rw [if_pos hx]
    refine iff_of_true (fun op hop => ?_) (Or.inl hx)
    obtain rfl := List.mem_singleton.1 hop
    exact leftOf_iff.2 fun j hj => by omega
  have hpos : ¬font.strWidth ['0'] ≤ 0 := by
    rw [strWidth_zero]
    have h := font.visible_pos '0'
    omega
  rw [if_neg hx, if_neg hpos, skip_eq (Int.not_le.1 hx)]
  have hcond : (0 ≤ x ∨ x + font.strWidth s ≤ 0 ∨ ∀ j, skipCount font x = j + 1 →
      ∃ c, s[j]? = some c ∧ x + font.advance * j + font.visible c ≤ 0) ↔
        LeftOf font x s (skipCount font x) := by
    rw [leftOf_iff, or_iff_right hx, or_iff_right fun h => hoff (Or.inr h)]
  rw [hcond]
  split
  · exact List.forall_mem_singleton
  · refine List.forall_mem_cons.trans ⟨And.left, fun h => ⟨h, fun op hop => ?_⟩⟩
    obtain rfl := List.mem_singleton.1 hop
    exact h

/-- A string that reaches the screen has room for the characters skipped, if the width of `0` is the
advance. -/
theorem skippable_of_full (hfull : font.visible '0' = font.advance) (x : ℤ) (s : CStr) :
    Skippable font x s := by
  unfold Skippable
  by_cases hx : 0 ≤ x
  · exact Or.inl hx
  by_cases hoff : x + font.strWidth s ≤ 0
  · exact Or.inr (Or.inl hoff)
  refine Or.inr (Or.inr fun j hj => ?_)
  have hwidth := strWidth_le font s
  have hskip : font.advance * (j + 1) ≤ (-x).toNat := by
    rw [← hj, ← hfull]
    exact Nat.mul_div_le _ _
  have hskip : (font.advance : ℤ) * (j + 1) ≤ -x := by
    have h : ((font.advance * (j + 1) : ℕ) : ℤ) ≤ ((-x).toNat : ℤ) := by exact_mod_cast hskip
    rw [Int.toNat_of_nonneg (by omega)] at h
    exact_mod_cast h
  have hlen : j < s.length := by
    have hlt : (font.advance : ℤ) * (j + 1) < font.advance * s.length := by linarith
    have hlt : font.advance * (j + 1) < font.advance * s.length := by exact_mod_cast hlt
    exact Nat.lt_of_succ_lt (Nat.lt_of_mul_lt_mul_left hlt)
  have hle : (font.visible s[j] : ℤ) ≤ font.advance := by exact_mod_cast font.visible_le s[j]
  exact ⟨s[j], List.getElem?_eq_getElem hlen, by linarith⟩

/-- Zeros that are one column short of being off the screen. -/
theorem not_skippable_of_narrow (hnarrow : font.visible '0' < font.advance) :
    ¬Skippable font (1 - font.strWidth (List.replicate (font.visible '0' + 2) '0'))
      (List.replicate (font.visible '0' + 2) '0') := by
  have hv := font.visible_pos '0'
  generalize hvis : font.visible '0' = v at hv hnarrow ⊢
  have hwidth : font.strWidth (List.replicate (v + 2) '0') =
      ((font.advance * (v + 1) + v : ℕ) : ℤ) := by
    unfold MonoFont.strWidth
    rw [List.getLast?_replicate, if_neg (by omega), List.length_replicate]
    dsimp only
    rw [hvis]
    push_cast
    ring
  have hskip : v + 3 ≤ skipCount font (1 - font.strWidth (List.replicate (v + 2) '0')) := by
    unfold skipCount
    rw [hwidth, hvis, Nat.le_div_iff_mul_le hv]
    have hmul : (v + 1) * (v + 1) ≤ font.advance * (v + 1) := Nat.mul_le_mul_right _ hnarrow
    have hsquare : (v + 3) * v + 1 = (v + 1) * (v + 1) + v := by ring
    omega
  have hpos : 0 < font.advance * (v + 1) := Nat.mul_pos (by omega) (by omega)
  rintro (h | h | h)
  · rw [hwidth] at h
    omega
  · omega
  · obtain ⟨j, hj⟩ := Nat.exists_eq_add_of_le hskip
    obtain ⟨c, hc, -⟩ := h (v + 2 + j) (by omega)
    rw [List.getElem?_replicate, if_neg (by omega)] at hc
    cases hc

/-- The fonts for which `ui_draw_str` is right for every string and position. -/
theorem skipsOk_font_iff (font : MonoFont) :
    (∀ past x y s, SkipsOk font past x y s) ↔ font.visible '0' = font.advance := by
  constructor
  · intro h
    by_contra hne
    have hnarrow := Nat.lt_of_le_of_ne (font.visible_le '0') hne
    exact not_skippable_of_narrow hnarrow ((skipsOk_iff font (fun _ => 'x') _ 0 _).1 (h _ _ _ _))
  · exact fun h past x y s => (skipsOk_iff font past x y s).2 (skippable_of_full h x s)

/-- **Skipped characters.** For every font, string and position, `ui_draw_str` keeps its pointer in the
string and skips only characters left of the screen, precisely if the last one skipped is; and it does
so for all strings and positions precisely if the visible width of `0` is the advance of the font. -/
theorem skipped_iff (font : MonoFont) :
    (∀ past x y s, SkipsOk font past x y s ↔ Skippable font x s) ∧
      ((∀ past x y s, SkipsOk font past x y s) ↔ font.visible '0' = font.advance) :=
  ⟨skipsOk_iff font, skipsOk_font_iff font⟩

/-- A font of advance 8 that shows 7 columns of every character. -/
def narrowFont : MonoFont where
  advance := 8
  visible _ := 7
  visible_pos _ := by decide
  visible_le _ := by decide

/-- The failing input: nine characters, of which the last ends in the first column. -/
theorem skip_past_end : (DrawOp.read "123456789".toList 10) ∈
      uiDrawStr narrowFont.strWidth (fun _ => 'x') (-70) 12 "123456789".toList ∧
    ¬SkipsOk narrowFont (fun _ => 'x') (-70) 12 "123456789".toList := by
  have hread : (DrawOp.read "123456789".toList 10) ∈
      uiDrawStr narrowFont.strWidth (fun _ => 'x') (-70) 12 "123456789".toList := by decide
  refine ⟨hread, fun h => ?_⟩
  exact absurd (h _ hread).1 (by decide)

end NanoHat
