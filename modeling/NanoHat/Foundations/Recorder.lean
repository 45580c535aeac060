import Mathlib.Control.Monad.Writer

/-!
# Recording programs

Programs over a state that record what they do. `Emits P` says of a program that whatever state it
starts in, all that it records satisfies `P`; it is shown rule by rule along the program.
-/

namespace NanoHat

/-- A program over the state `σ` that records entries `ω`. -/
abbrev Recorder (σ ω : Type) := WriterT (List ω) (StateM σ)

namespace Recorder

variable {σ ω α β : Type} {P : ω → Prop} {s : σ}

/-- What a program records when it starts in a state. -/
def recorded (m : Recorder σ ω α) (s : σ) : List ω := (m.run s).1.2

/-- Records one entry, which may depend on the state. -/
def emit (f : σ → ω) : Recorder σ ω Unit := do
  let s ← get
  tell [f s]

/-- A statement under a condition. -/
def when (c : Prop) [Decidable c] (m : Recorder σ ω Unit) : Recorder σ ω Unit :=
  if c then m else pure ()

/-- All entries that the program records satisfy `P`. -/
def Emits (P : ω → Prop) (m : Recorder σ ω α) : Prop := ∀ s, ∀ o ∈ m.recorded s, P o

theorem recorded_bind (m : Recorder σ ω α) (f : α → Recorder σ ω β) (s : σ) :
    (m >>= f).recorded s = m.recorded s ++ (f (m.run s).1.1).recorded (m.run s).2 := rfl

theorem emits_pure (a : α) : Emits P (pure a : Recorder σ ω α) := fun _ _ ho => by cases ho

/-- A part of the state is read. -/
theorem emits_get (f : σ → α) : Emits P (f <$> get : Recorder σ ω α) := fun _ _ ho => by cases ho

theorem emits_set (s : σ) : Emits P (set s : Recorder σ ω PUnit) := fun _ _ ho => by cases ho

theorem emits_emit {f : σ → ω} (h : ∀ s, P (f s)) : Emits P (emit f) := by
  intro s o ho
  obtain rfl := List.mem_singleton.1 (show o ∈ [f s] from ho)
  exact h s

theorem Emits.bind {m : Recorder σ ω α} {f : α → Recorder σ ω β} (hm : Emits P m)
    (hf : ∀ a, Emits P (f a)) : Emits P (m >>= f) := by
  intro s o ho
  rw [recorded_bind] at ho
  rcases List.mem_append.1 ho with ho | ho
  · exact hm s o ho
  · exact hf _ _ o ho

/-- One statement after another. -/
theorem Emits.seq {m : Recorder σ ω α} {m' : Recorder σ ω β} (hm : Emits P m)
    (hm' : Emits P m') : Emits P (m >>= fun _ => m') :=
  hm.bind fun _ => hm'

theorem Emits.when {c : Prop} [Decidable c] {m : Recorder σ ω Unit} (hm : c → Emits P m) :
    Emits P (when c m) := by
  unfold Recorder.when
  split
  · exact hm ‹_›
  · exact emits_pure ()

theorem Emits.forM {f : β → Recorder σ ω PUnit} {l : List β} (h : ∀ b ∈ l, Emits P (f b)) :
    Emits P (forM l f) := by
  induction l with
  | nil => exact emits_pure PUnit.unit
  | cons b l ih =>
    rw [List.forM_cons]
    exact (h b List.mem_cons_self).seq (ih fun b' hb' => h b' (.tail _ hb'))

end Recorder

end NanoHat
