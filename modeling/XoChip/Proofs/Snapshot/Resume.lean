import XoChip.Proofs.Alike
import XoChip.Proofs.Invariant
import XoChip.Proofs.Snapshot.Text

/-!
# Saving and resuming

A machine that was captured goes on as if it had not been. A machine that is restored from the bytes
of the capture goes on like the one that was saved, unless a part of a tick was pending on the delay
timer; then its timer is behind by at most one tick.
-/

namespace XoChip

namespace Console

/-! ## The mark of the delay timer -/

/-- The value of the delay timer belongs to a moment that has passed. -/
def Marked (s : Console) : Prop := s.state.delay.mark ≤ s.now

variable {s : Console}

/-- The delay timer of a machine just made has just been set. -/
theorem Started.marked (h : s.Started) : s.Marked := by
  cases h with
  | @loaded program state _ _ context fits =>
    unfold State.load at fits
    split at fits
    · cases fits
      exact Nat.le_refl _
    · cases fits
  | restored _ _ _ accepted =>
    obtain ⟨-, -, delay, -⟩ := Snapshot.restore_eq_ok_iff.1 accepted
    rw [Marked, state, delay]
    exact Nat.le_refl _

namespace Marked

theorem execute (h : s.Marked) (pc : UInt16) (i : Instruction) : (s.execute pc i).2.Marked := by
  by_cases hread : ∃ x, i = .readDelay x
  · obtain ⟨x, rfl⟩ := hread
    exact Timer.mark_settle_le s.state.delay h
  by_cases hset : ∃ x, i = .setDelay x
  · obtain ⟨x, rfl⟩ := hset
    exact Nat.le_refl s.now
  have delay := delay_execute s pc (fun x hx => hread ⟨x, hx⟩) (fun x hx => hset ⟨x, hx⟩)
  rw [Marked, delay, now_execute]
  exact h

theorem step (h : s.Marked) : s.step.2.Marked := by
  apply step_induction h
  · intro reason
    exact h
  · intro i _
    have fetched : s.fetch.Marked := h
    exact fetched.execute s.state.pc i

/-- A move that does not turn back the clock leaves the mark behind it. -/
theorem perform (h : s.Marked) {m : Move} (forward : s.now ≤ (s.perform m).2.now) :
    (s.perform m).2.Marked := by
  have passed : ∀ t : Console, t.state.delay = s.state.delay → s.now ≤ t.now → t.Marked := by
    intro t delay le
    rw [Marked, delay]
    exact Nat.le_trans h le
  cases m with
  | step => exact h.step
  | tick count => exact tick_induction (fun _ => step) count h
  | poll wait =>
    refine passed _ ?_ forward
    show (wait.poll s).2.2.state.delay = s.state.delay
    unfold KeyWait.poll
    split <;> rfl
  | await wait cancelled =>
    refine passed _ ?_ forward
    show (wait.await cancelled s).2.2.state.delay = s.state.delay
    unfold KeyWait.await
    split <;> rfl
  | press | release | advance => exact passed _ rfl forward

end Marked

end Console

/-- On a clock that never went back, the value of the delay timer belongs to the past. -/
theorem Session.marked_run {s : Session} (h : s.console.Marked) {as : List Act}
    (forward : Forward as s) : (run as s).console.Marked := by
  induction as generalizing s with
  | nil => exact h
  | cons a as ih =>
    obtain ⟨now, later⟩ := forward
    refine ih ?_ later
    cases a with
    | move m => exact h.perform now
    | call | compose | take => exact h

/-! ## Resuming -/

namespace Console

/-- A capture of the machine, and its state after that. -/
def capture (s : Console) : Snapshot × State := Snapshot.capture s.state s.context.display s.now

/-- A machine with the given state and display that goes on in place of another one. -/
def resume (s : Console) (state : State) (display : Display) : Console where
  machine := { state, dialect := s.machine.dialect, random := s.machine.random }
  context := { s.context with display }

/-- No part of a tick is pending on the delay timer: it has expired, or whole ticks have passed
    since its mark. -/
def OnTick (s : Console) : Prop :=
  s.state.delay.left s.now = 0 ∨ ∃ k, s.now = s.state.delay.mark + k * tickNanos

/-- Saving a machine and resuming from its bytes, onto the display `d` and with the given state. -/
structure Resumes (s : Console) (d : Display) (state : State) : Prop where
  /-- The bytes of the capture are read, and accepted together with the screen of the machine. -/
  restored : ∃ snapshot, Snapshot.ofBytes s.capture.1.toBytes = .ok snapshot ∧
    snapshot.restoreOnto s.now d = (.ok state, s.context.display)
  /-- Only the delay timer may differ, -/
  same : state = { s.state with delay := state.delay }
  /-- and it shows the same. -/
  reading : state.delay.left s.now = s.state.delay.left s.now
  /-- The capture itself is not noticed. -/
  captured : s.Indistinct (s.setState s.capture.2)
  /-- Neither is that the machine was replaced, unless a part of a tick was pending. -/
  resumed : s.OnTick → s.Indistinct (s.resume state s.context.display)

/-- A well-formed machine can be saved and resumed, with its delay timer set anew. -/
theorem WellFormed.resumes {s : Console} (h : s.WellFormed) (d : Display) :
    s.Resumes d { s.state with delay := .start (s.state.delay.left s.now) s.now } where
  restored := by
    refine ⟨s.capture.1, ?_, ?_⟩
    · rw [Snapshot.ofBytes_eq_decode, Snapshot.decode_encode]
    · rw [Snapshot.restoreOnto_eq, capture, Snapshot.restore_capture h.depth h.display]
  same := rfl
  reading := Timer.left_start _ _
  captured := by
    have settled := Timer.agreeFrom_settle s.now s.state.delay
    exact (Alike.intro _ s.machine.drew settled).indistinct
  resumed := by
    intro onTick
    exact (Alike.intro _ false (Timer.agreeFrom_start onTick)).indistinct

end Console

namespace Session

/-- Whatever a host has done with a machine, saving it and resuming from the bytes cannot be noticed
    but for a delay of at most one tick, and not even that if no part of a tick was pending. -/
theorem resume_transparent {c : Console} (h : c.Started) (as : List Act) (d : Display) :
    let m := (run as { console := c }).console
    ∃ state, m.Resumes d state ∧
      (Forward as { console := c } → m.state.delay.BehindFrom m.now state.delay) := by
  refine ⟨_, ((wellFormed_start h).run as).console.resumes d, ?_⟩
  intro forward
  exact Timer.behindFrom_start _ (marked_run h.marked forward)

/-- A program that sets its delay timer to five ticks, saved in the middle of the second one and
    resumed on a large screen. -/
theorem resume_transparent_mid_tick :
    ∃ start, State.load [0x60, 0x05, 0xF0, 0x15] 0 = .ok start ∧
      let c : Console := ⟨{ state := start, dialect := {}, random := .ofSeed 0 }, {}⟩
      let as : List Act := [.move (.tick 2), .move (.advance 25000000)]
      let m := (run as { console := c }).console
      ∃ state, m.Resumes (Display.reset.setHires true) state ∧
        m.state.delay.BehindFrom m.now state.delay := by
  obtain ⟨start, loaded⟩ : ∃ start, State.load [0x60, 0x05, 0xF0, 0x15] 0 = .ok start := ⟨_, rfl⟩
  refine ⟨start, loaded, ?_⟩
  intro c as m
  have ticked : (Console.tick 2 c).2.now = 0 := Console.now_tick c 2
  have forward : Forward as { console := c } := by
    refine ⟨?_, ?_, trivial⟩
    · exact Nat.zero_le _
    · show (Console.tick 2 c).2.now ≤ _
      rw [ticked]
      exact Nat.zero_le _
  obtain ⟨state, resumes, behind⟩ :=
    resume_transparent (.loaded {} (.ofSeed 0) {} loaded) as (Display.reset.setHires true)
  exact ⟨state, resumes, behind forward⟩

end Session

end XoChip
