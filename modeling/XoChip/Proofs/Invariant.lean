import XoChip.Proofs.Display.Invariant
import XoChip.Proofs.Machine.Step
import XoChip.Proofs.Snapshot.Restore

/-!
# Machines stay well formed

What every reachable machine has in common: the call stack is not deeper than it has slots, and
the display is well formed. Sixty-four slots, sixteen registers and 65536 bytes of memory are part
of the types. A machine just made is well formed, every act of the host keeps it so, and by
induction so does every session.
-/

namespace XoChip

/-! ## The surroundings -/

namespace Context

@[simp] theorem display_press (c : Context) (n : UInt8) : (c.press n).display = c.display := by
  unfold press
  split <;> rfl

@[simp] theorem display_release (c : Context) (n : UInt8) : (c.release n).display = c.display := by
  unfold release
  split <;> rfl

@[simp] theorem display_await (c : Context) (w : Watch) (cancelled : Bool) :
    (c.await w cancelled).2.2.display = c.display := by
  unfold await
  split <;> rfl

end Context

namespace Console

/-- The depth of the call stack is one that the stack can have, and the display is well formed. -/
structure WellFormed (s : Console) : Prop where
  depth : s.state.stack.depth ≤ CallStack.capacity
  display : s.context.display.WellFormed

theorem Started.wellFormed {s : Console} (h : s.Started) : s.WellFormed := by
  cases h with
  | @loaded program state _ _ context fits =>
    refine ⟨?_, Display.wellFormed_reset⟩
    unfold State.load at fits
    split at fits
    · cases fits
      exact Nat.zero_le _
    · cases fits
  | restored _ _ _ accepted =>
    obtain ⟨depth, display, -⟩ := Snapshot.restore_eq_ok_iff.1 accepted
    exact ⟨depth, display⟩

namespace WellFormed

variable {s : Console}

/-- Only the call stack and the display matter. -/
theorem congr {t : Console} (h : s.WellFormed) (stack : t.state.stack = s.state.stack)
    (display : t.context.display = s.context.display) : t.WellFormed where
  depth := stack ▸ h.depth
  display := display ▸ h.display

/-- An admitted instruction keeps the call stack within its slots. -/
theorem depth_execute (h : s.WellFormed) {pc : UInt16} {i : Instruction}
    (admits : ∀ nnn, i = .call nnn → s.state.stack.isFull = false) :
    (s.execute pc i).2.state.stack.depth ≤ CallStack.capacity := by
  have depth := h.depth
  rw [stack_execute]
  split
  · exact Nat.le_trans (Nat.sub_le _ _) depth
  · next nnn =>
    have free := admits nnn rfl
    simp only [CallStack.isFull, beq_eq_false_iff_ne] at free
    simp only [CallStack.push]
    omega
  · exact depth

theorem display_execute (h : s.WellFormed) (pc : UInt16) (i : Instruction) :
    (s.execute pc i).2.context.display.WellFormed := by
  have display := h.display
  rw [Console.display_execute]
  split
  · exact display.clear
  · exact display.scrollDown _
  · exact display.scrollUp _
  · exact display.scrollRight
  · exact display.scrollLeft
  · exact display.setHires _
  · exact display.setHires _
  · exact display.select _
  · exact display.draw _ _ _ _
  · exact display

theorem step (h : s.WellFormed) : s.step.2.WellFormed := by
  have fetched : s.fetch.WellFormed := h.congr rfl rfl
  apply step_induction h
  · intro reason
    exact h.congr rfl rfl
  · intro i admits
    refine ⟨fetched.depth_execute ?_, fetched.display_execute _ _⟩
    rintro nnn rfl
    exact admits.1

theorem tick (h : s.WellFormed) (n : Nat) : (tick n s).2.WellFormed :=
  tick_induction (fun _ => step) n h

theorem poll (h : s.WellFormed) (w : KeyWait) : (w.poll s).2.2.WellFormed := by
  unfold KeyWait.poll
  split
  · exact h
  · exact h.congr rfl rfl

theorem await (h : s.WellFormed) (w : KeyWait) (cancelled : Bool) :
    (w.await cancelled s).2.2.WellFormed := by
  have display := Context.display_await s.context w.watch cancelled
  unfold KeyWait.await
  split
  · next heq =>
    rw [heq] at display
    exact h.congr rfl display
  · next heq =>
    rw [heq] at display
    exact h.congr rfl display

theorem perform (h : s.WellFormed) (m : Move) : (s.perform m).2.WellFormed := by
  cases m with
  | step => exact h.step
  | tick count => exact h.tick count
  | poll wait => exact h.poll wait
  | await wait cancelled => exact h.await wait cancelled
  | press n => exact h.congr rfl (Context.display_press _ n)
  | release n => exact h.congr rfl (Context.display_release _ n)
  | advance nanos => exact h.congr rfl rfl

theorem run (h : s.WellFormed) (ms : List Move) : (Console.run ms s).WellFormed := by
  induction ms generalizing s with
  | nil => exact h
  | cons m ms ih => exact ih (h.perform m)

theorem call (h : s.WellFormed) (c : Display.Call) :
    (s.mapDisplay (·.perform c)).WellFormed where
  depth := h.depth
  display := h.display.perform c

end WellFormed

end Console

/-! ## Sessions -/

namespace Session

/-- The machine is well formed, and so is every picture that the host has in hand. -/
structure WellFormed (s : Session) : Prop where
  console : s.console.WellFormed
  frames : ∀ f ∈ s.frames, f.WellFormed

/-- A host that has a machine just made and no pictures yet. -/
theorem wellFormed_start {c : Console} (h : c.Started) :
    WellFormed { console := c } where
  console := h.wellFormed
  frames := by simp

namespace WellFormed

variable {s : Session}

theorem recycled (h : s.WellFormed) (index : Option Nat) :
    ∀ f ∈ s.recycled index, f.WellFormed := by
  intro f hf
  cases index with
  | none => cases hf
  | some k => exact h.frames f (List.mem_of_getElem? hf)

/-- Every act of the host keeps a session well formed. -/
theorem perform (h : s.WellFormed) (a : Act) : (s.perform a).WellFormed := by
  cases a with
  | move m => exact ⟨h.console.perform m, h.frames⟩
  | call c => exact ⟨h.console.call c, h.frames⟩
  | compose width height plane1 plane2 =>
    refine ⟨h.console, ?_⟩
    intro f hf
    rcases List.mem_append.1 hf with old | new
    · exact h.frames f old
    · exact Frame.wellFormed_of_ofPlanes? (Option.mem_toList.1 new)
  | take index =>
    refine ⟨h.console, ?_⟩
    intro f hf
    rcases List.mem_append.1 hf with old | new
    · exact h.frames f old
    · rw [List.mem_singleton.1 new, Display.nextFrame,
        Frame.copyInto_eq h.console.display.frame (h.recycled index)]
      exact h.console.display.frame

theorem run (h : s.WellFormed) (as : List Act) : (Session.run as s).WellFormed := by
  induction as generalizing s with
  | nil => exact h
  | cons a as ih => exact ih (h.perform a)

end WellFormed

end Session

end XoChip
