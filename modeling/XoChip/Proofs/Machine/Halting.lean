import XoChip.Proofs.Invariant
import XoChip.Proofs.Machine.Verdict

/-!
# Halts

A step that halts changes nothing but the program counter and the record of the halt. A machine
that has halted stands still from then on, whatever keys are pressed and however far the clock
goes.
-/

namespace XoChip

/-! ## Sound requests -/

def Effect.sound? : Effect → Option SoundRequest
  | .sound request => some request
  | .notice _ => none

namespace Context

variable {c : Context}

/-- What the sound sink has been asked for, the oldest request first. -/
def sounds (c : Context) : List SoundRequest := c.effects.toList.filterMap Effect.sound?

@[simp] theorem sounds_tell (n : Notice) : (c.tell n).sounds = c.sounds := by
  simp [sounds, tell, emit, Effect.sound?]

@[simp] theorem sounds_press (n : UInt8) : (c.press n).sounds = c.sounds := by
  unfold press
  split
  · exact sounds_tell _
  · rfl

@[simp] theorem sounds_release (n : UInt8) : (c.release n).sounds = c.sounds := by
  unfold release
  split
  · exact sounds_tell _
  · rfl

end Context

namespace Console

/-! ## The step that halts -/

variable {s t u : Console} {reason : Halt}

/-- A halt is recorded, with the program counter behind the instruction, and told. -/
theorem step_eq_of_halts (running : s.state.halted = none) (h : s.step.1 = .halts reason) :
    s.step.2 =
      { machine :=
          { s.machine with
            state := { s.state with pc := s.state.pc + 2, halted := some reason }
            drew := false }
        context :=
          (s.context.tell (.executing s.state.pc s.state.word)).tell (.halted reason) } := by
  have refused := State.judge_eq_error_iff.2 ((step_halts_iff running).1 h)
  rw [step_of_error running refused]
  rfl

/-- Executing an instruction is no halt. -/
theorem halted_execute (s : Console) (pc : UInt16) (i : Instruction) :
    (s.execute pc i).2.state.halted = s.state.halted := by
  rw [state_execute]

theorem halted_step (h : ∀ reason, s.step.1 ≠ .halts reason) : s.step.2.state.halted = none := by
  cases hs : s.state.halted with
  | some reason =>
    have halts := h reason
    rw [step_of_halted hs] at halts
    exact absurd rfl halts
  | none =>
    cases hn : s.state.next with
    | error reason =>
      have halts := h reason
      rw [step_of_error hs hn] at halts
      exact absurd rfl halts
    | ok i =>
      rw [step_of_ok hs hn, halted_execute]
      exact hs

/-! ## Machines that have halted -/

/-- Looking for a key on behalf of an instruction that waits for one. -/
def Move.isWait : Move → Bool
  | .poll _ => true
  | .await .. => true
  | _ => false

theorem tick_of_halted (h : s.state.halted = some reason) (n : Nat) :
    tick (n + 1) s = (.halts reason, s) := by
  simp only [tick, step_of_halted h]

/-- The machine, its random generator, the display and the requests to the sound sink are the
    same. -/
structure Still (s t : Console) : Prop where
  machine : t.machine = s.machine
  display : t.context.display = s.context.display
  sounds : t.context.sounds = s.context.sounds

theorem Still.refl (s : Console) : Still s s := ⟨rfl, rfl, rfl⟩

theorem Still.trans (h : Still s t) (h' : Still t u) : Still s u where
  machine := h'.machine.trans h.machine
  display := h'.display.trans h.display
  sounds := h'.sounds.trans h.sounds

theorem still_press (s : Console) (n : UInt8) : Still s (s.perform (.press n)).2 :=
  ⟨rfl, Context.display_press _ n, Context.sounds_press n⟩

theorem still_release (s : Console) (n : UInt8) : Still s (s.perform (.release n)).2 :=
  ⟨rfl, Context.display_release _ n, Context.sounds_release n⟩

theorem still_perform (h : s.state.halted = some reason) {m : Move} (plain : m.isWait = false) :
    Still s (s.perform m).2 := by
  cases m with
  | step =>
    rw [perform, step_of_halted h]
    exact .refl s
  | tick count =>
    cases count with
    | zero => exact .refl s
    | succ n =>
      rw [perform, tick_of_halted h]
      exact .refl s
  | poll wait => cases plain
  | await wait cancelled => cases plain
  | press n => exact still_press s n
  | release n => exact still_release s n
  | advance nanos => exact ⟨rfl, rfl, rfl⟩

theorem still_run (h : s.state.halted = some reason) {ms : List Move}
    (plain : ∀ m ∈ ms, m.isWait = false) : Still s (run ms s) := by
  induction ms generalizing s with
  | nil => exact .refl s
  | cons m ms ih =>
    rw [List.forall_mem_cons] at plain
    have first := still_perform h plain.1
    have halted : (s.perform m).2.state.halted = some reason := by
      rw [state, first.machine]
      exact h
    exact first.trans (ih halted plain.2)

/-- A halt is all that a step does which halts, and it is final: later steps and batches report it
    again and do nothing. A step that does not halt leaves a machine that has not halted. -/
theorem halt_atomic_and_final (s : Console) :
    (∀ reason, s.state.halted = none → s.step.1 = .halts reason →
      reason.pc = s.state.pc ∧
      s.step.2 =
        { machine :=
            { s.machine with
              state := { s.state with pc := s.state.pc + 2, halted := some reason }
              drew := false }
          context :=
            (s.context.tell (.executing s.state.pc s.state.word)).tell (.halted reason) } ∧
      s.step.2.context.sounds = s.context.sounds ∧
      ∀ ms : List Move, (∀ m ∈ ms, m.isWait = false) →
        let t := run ms s.step.2
        t.step = (.halts reason, t) ∧ tick 0 t = (.ran, t) ∧
          (∀ n, tick (n + 1) t = (.halts reason, t)) ∧ Still s.step.2 t) ∧
    ((∀ reason, s.step.1 ≠ .halts reason) → s.step.2.state.halted = none) := by
  refine ⟨?_, halted_step⟩
  intro reason running h
  have after := step_eq_of_halts running h
  refine ⟨((step_halts_iff running).1 h).pc_eq, after, ?_, ?_⟩
  · rw [after, Context.sounds_tell, Context.sounds_tell]
  · intro ms plain t
    have halted : s.step.2.state.halted = some reason := by rw [after]
    have still : Still s.step.2 t := still_run halted plain
    have halted_now : t.state.halted = some reason := by
      rw [state, still.machine]
      exact halted
    exact ⟨step_of_halted halted_now, rfl, tick_of_halted halted_now, still⟩

/-- A return without a call, and a host that goes on with the machine. -/
theorem halt_atomic_and_final_underflow :
    let s : Console :=
      { machine :=
          { state := { memory := Memory.blank.write 0x201 0xEE, delay := .expired 0 }
            dialect := {}, random := .ofSeed 0 }
        context := {} }
    let t := run [.step, .press 5, .advance 40000000, .release 5, .tick 3] s.step.2
    s.state.halted = none ∧ s.step.1 = .halts (.underflow 0x200) ∧
      s.step.2.state.pc = 0x202 ∧ t.step = (.halts (.underflow 0x200), t) ∧
      t.machine = s.step.2.machine := by
  intro s t
  have word_eq : s.state.word = 0x00EE := by
    simp only [s, State.word, Memory.readWord, Memory.read_write, Memory.read_blank]
    decide
  have halts : s.step.1 = .halts (.underflow 0x200) := by
    rw [step_halts_iff rfl]
    exact State.refuses_underflow_iff.2 ⟨word_eq, rfl⟩
  obtain ⟨-, after, -, final⟩ := (halt_atomic_and_final s).1 _ rfl halts
  obtain ⟨again, -, -, still⟩ := final [.step, .press 5, .advance 40000000, .release 5, .tick 3]
    (by decide)
  refine ⟨rfl, halts, ?_, again, still.machine⟩
  rw [after]
  rfl

end Console

end XoChip
