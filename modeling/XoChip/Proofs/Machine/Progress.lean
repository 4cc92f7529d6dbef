import XoChip.Proofs.Machine.KeyWait
import XoChip.Proofs.Run

/-!
# Whole instructions

A machine that others take over in the middle of a run is of use to them only between two
instructions. `Console.Advances` counts the instructions that a machine executes when it is left to
itself. An instruction that waits for a key is executed when the key is stored. Until then the
machine stands on it, and it has a wait of its own: the one that the instruction began, moved on by
nothing but looking for the key. `Console.Interrupts` says what becomes of a wait that is given up.
-/

namespace XoChip

/-! ## What a host does to the surroundings -/

/-- What a host does to the surroundings of a machine without asking the machine. -/
inductive Deed
  | press (n : UInt8)
  | release (n : UInt8)
  | advance (nanos : Nat)
  | call (c : Display.Call)
  /-- Work off the effects that have come together. -/
  | workOff
  deriving DecidableEq

def Context.perform (c : Context) : Deed → Context
  | .press n => c.press n
  | .release n => c.release n
  | .advance nanos => { c with clock := c.clock.advance nanos }
  | .call call => { c with display := c.display.perform call }
  | .workOff => { c with effects := #[] }

/-! ## Waits that go on -/

/-- What a machine waits for at the end of a batch. -/
def Outcome.wait? : Outcome → Option KeyWait
  | awaits wait => some wait
  | ran | halts _ => none

namespace KeyWait

/-- The instruction of a wait is the one at the program counter, and it has not been completed. -/
structure Pending (w : KeyWait) (s : State) : Prop where
  running : s.halted = none
  pc : s.pc = w.pc
  word : s.word = Word.ofNibbles 0xF w.register 0x0 0xA

theorem Pending.setWatch {w : KeyWait} {s : State} (h : w.Pending s) (watch : Watch) :
    Pending ⟨w.register, w.pc, watch⟩ s :=
  ⟨h.running, h.pc, h.word⟩

theorem pending_of_awaits {s : Console} {w : KeyWait} (running : s.state.halted = none)
    (h : s.step.1 = .awaits w) : w.Pending s.step.2.state := by
  obtain ⟨word, eq⟩ := (Console.step_awaits_iff running).1 h
  have pc : s.state.pc = w.pc := by rw [eq]
  rw [Console.step_of_awaitKey running word]
  exact ⟨running, pc, word⟩

/-- Looking for a key neither stops a machine nor revives one. -/
theorem halted_await (w : KeyWait) (cancelled : Bool) (s : Console) :
    (w.await cancelled s).2.2.state.halted = s.state.halted := by
  rcases hp : s.context.keypad.poll w.watch with ⟨_ | key, watch⟩
  · rw [await_of_none hp]
  · rw [await_of_some hp]
    rfl

end KeyWait

namespace Console

variable {s : Console} {k : Nat}

/-! ## What a batch records -/

/-- What the end of a batch that began in `s` says of the machine after it. -/
def Records (s : Console) (outcome : Outcome) (t : Console) : Prop :=
  match outcome with
  | .ran => t.state.halted = s.state.halted
  | .awaits wait => s.state.halted = none ∧ wait.Pending t.state
  | .halts reason => t.state.halted = some reason

theorem records_step (s : Console) : s.Records s.step.1 s.step.2 := by
  cases running : s.state.halted with
  | some reason =>
    rw [step_of_halted running]
    exact running
  | none =>
    cases h : s.step.1 with
    | ran =>
      have goes_on : s.step.2.state.halted = none := halted_step (by simp [h])
      exact goes_on.trans running.symm
    | awaits wait => exact ⟨running, KeyWait.pending_of_awaits running h⟩
    | halts reason =>
      rw [step_eq_of_halts running h]
      rfl

theorem Records.of_step {outcome : Outcome} {t : Console} (h : s.step.2.Records outcome t)
    (same : s.step.2.state.halted = s.state.halted) : s.Records outcome t := by
  cases outcome with
  | ran => exact Eq.trans h same
  | awaits wait => exact ⟨same ▸ h.1, h.2⟩
  | halts reason => exact h

theorem records_tick (n : Nat) (s : Console) : s.Records (tick n s).1 (tick n s).2 := by
  induction n generalizing s with
  | zero => rfl
  | succ n ih =>
    have first := records_step s
    by_cases ran : s.step.1 = .ran
    · have same : s.step.2.state.halted = s.state.halted := by
        rw [ran] at first
        exact first
      cases ends : s.step.2.endsBatch with
      | true =>
        rw [tick_succ_of_endsBatch n ran ends]
        exact same
      | false =>
        rw [tick_succ_of_ran n ran ends]
        exact (ih s.step.2).of_step same
    · rw [tick_succ_of_stops n ran]
      exact first

/-! ## Counting instructions -/

/-- A machine that is left to itself executes `k` instructions, each of them as a whole. It may wait
    for a key before and after. -/
inductive Advances (wait? : Option KeyWait) (s : Console) : Nat → Option KeyWait → Console → Prop
  | refl : Advances wait? s 0 wait? s
  /-- An instruction that runs or halts is executed in a step. -/
  | step {k : Nat} {t : Console} (before : Advances wait? s k none t)
      (running : t.state.halted = none) (whole : ∀ wait, t.step.1 ≠ .awaits wait) :
      Advances wait? s (k + 1) none t.step.2
  /-- An instruction that waits has not been executed when it begins to wait, -/
  | waits {k : Nat} {t : Console} {wait : KeyWait} (before : Advances wait? s k none t)
      (running : t.state.halted = none) (awaits : t.step.1 = .awaits wait) :
      Advances wait? s k (some wait) t.step.2
  /-- nor when it has looked for a key in vain, -/
  | looks {k : Nat} {t : Console} {wait : KeyWait} (before : Advances wait? s k (some wait) t)
      (blocked : (wait.await false t).1 = .blocked) :
      Advances wait? s k (some (wait.await false t).2.1) (wait.await false t).2.2
  /-- but when a key has come for it. -/
  | key {k : Nat} {t : Console} {wait : KeyWait} {key : Key}
      (before : Advances wait? s k (some wait) t)
      (came : (wait.await false t).1 = .released key) :
      Advances wait? s (k + 1) none (wait.await false t).2.2

/-- A machine that is taken from where it is executes at most the instruction for which it has been
    waiting. Otherwise it stays on that instruction, and the wait is over. -/
inductive Interrupts : Option KeyWait → Console → Nat → Console → Prop
  | free {s : Console} : Interrupts none s 0 s
  | givenUp {s : Console} {wait : KeyWait} (nothing : (wait.await true s).1 = .interrupted) :
      Interrupts (some wait) s 0 (wait.await true s).2.2
  | completed {s : Console} {wait : KeyWait} {key : Key}
      (came : (wait.await true s).1 = .released key) :
      Interrupts (some wait) s 1 (wait.await true s).2.2

variable {wait? wait?' : Option KeyWait} {t : Console}

theorem Advances.exists_tick (before : Advances wait? s k none t) (n : Nat) :
    ∃ l, Advances wait? s l (tick n t).1.wait? (tick n t).2 := by
  induction n generalizing k t with
  | zero => exact ⟨k, before⟩
  | succ n ih =>
    cases running : t.state.halted with
    | some reason =>
      have stands := step_of_halted running
      rw [tick_succ_of_stops n (by rw [stands]; nofun), stands]
      exact ⟨k, before⟩
    | none =>
      cases outcome : t.step.1 with
      | ran =>
        have stepped := before.step running (by simp [outcome])
        cases ends : t.step.2.endsBatch with
        | true =>
          rw [tick_succ_of_endsBatch n outcome ends]
          exact ⟨k + 1, stepped⟩
        | false =>
          rw [tick_succ_of_ran n outcome ends]
          exact ih stepped
      | awaits wait =>
        rw [tick_succ_of_stops n (by simp [outcome]), outcome]
        exact ⟨k, before.waits running outcome⟩
      | halts reason =>
        rw [tick_succ_of_stops n (by simp [outcome]), outcome]
        exact ⟨k + 1, before.step running (by simp [outcome])⟩

/-- A machine that waits stands on the instruction that waits. -/
theorem Advances.pending (advances : Advances wait? s k wait?' t)
    (h : ∀ wait, wait? = some wait → wait.Pending s.state) :
    ∀ wait, wait?' = some wait → wait.Pending t.state := by
  induction advances with
  | refl => exact h
  | step | key => nofun
  | waits before running awaits =>
    rintro _ ⟨⟩
    exact KeyWait.pending_of_awaits running awaits
  | @looks k t wait before blocked ih =>
    rintro _ ⟨⟩
    rcases hp : t.context.keypad.poll wait.watch with ⟨_ | key, watch⟩
    · rw [KeyWait.await_of_none hp]
      exact (ih wait rfl).setWatch watch
    · rw [KeyWait.await_of_some hp] at blocked
      cases blocked

end Console

end XoChip
