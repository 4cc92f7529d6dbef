import XoChip.Proofs.Machine.Step
import XoChip.Proofs.Run
import XoChip.Proofs.Timer

/-!
# Machines that cannot be told apart

Two things about a machine can be seen only through others: the moment to which the value of the
delay timer belongs, and whether the last instruction drew a sprite. `Console.view` leaves them out.
Machines that are alike but for these, and whose timers agree from now on, give the same answers for
as long as time moves forward, and stay alike.
-/

namespace XoChip

/-- Arithmetic does not look at the delay timer. -/
theorem State.alu_delay (s : State) (delay : Timer) (d : Dialect) (op : AluOp) (x y : Register) :
    ({ s with delay } : State).alu d op x y = { s.alu d op x y with delay } := by
  cases op with
  | copy => rfl
  | or | and | xor =>
    simp only [alu, setLogic]
    split <;> rfl
  | add | sub | subFrom | shiftRight | shiftLeft =>
    simp only [alu, setWithFlag]
    split <;> rfl

/-- Waiting for a key does not move the clock. -/
theorem Context.clock_await (c : Context) (w : Watch) (cancelled : Bool) :
    (c.await w cancelled).2.2.clock = c.clock := by
  unfold await
  split <;> rfl

namespace Console

/-- The same machine with another delay timer. -/
def withDelay (s : Console) (delay : Timer) : Console := s.setState { s.state with delay }

/-- The same machine with another note of whether it drew. -/
def withDrew (s : Console) (drew : Bool) : Console := { s with machine := { s.machine with drew } }

/-- What can be seen of a machine now. -/
def view (s : Console) : Console :=
  (s.withDelay (.start (s.state.delay.left s.now) s.now)).withDrew false

/-- `Alike s t`: from now on, `t` cannot be told from `s`. -/
inductive Alike (s : Console) : Console → Prop
  | intro (delay : Timer) (drew : Bool) (agree : Timer.AgreeFrom s.now s.state.delay delay) :
      Alike s ((s.withDelay delay).withDrew drew)

variable {s t : Console}

theorem Alike.refl (s : Console) : Alike s s :=
  .intro s.state.delay s.machine.drew (.refl _ _)

/-- Machines that are alike look the same. -/
theorem Alike.view_eq (h : Alike s t) : t.view = s.view := by
  obtain ⟨delay, drew, agree⟩ := h
  have reading : delay.left s.now = s.state.delay.left s.now := (agree s.now (Nat.le_refl _)).symm
  show (s.withDelay (.start (delay.left s.now) s.now)).withDrew false = s.view
  rw [reading]
  rfl

/-! ## Steps -/

theorem now_execute (s : Console) (pc : UInt16) (i : Instruction) :
    (s.execute pc i).2.now = s.now := by
  cases i <;> rfl

/-- A machine at work does not move the clock. -/
theorem now_tick (s : Console) (n : Nat) : (tick n s).2.now = s.now := by
  have step : ∀ t : Console, t.now = s.now → t.step.2.now = s.now := by
    intro t same
    refine step_induction (P := fun u => u.now = s.now) same (fun _ => same) ?_
    intro i _
    exact (now_execute t.fetch t.state.pc i).trans same
  exact tick_induction step n rfl

/-- An instruction that does not concern the delay timer passes it on. -/
theorem execute_withDelay (s : Console) (delay : Timer) (pc : UInt16) {i : Instruction}
    (hread : ∀ x, i ≠ .readDelay x) (hset : ∀ x, i ≠ .setDelay x) :
    (s.withDelay delay).execute pc i =
      ((s.execute pc i).1, (s.execute pc i).2.withDelay delay) := by
  cases i with
  | readDelay x => exact absurd rfl (hread x)
  | setDelay x => exact absurd rfl (hset x)
  | alu op x y =>
    have same := State.alu_delay s.state delay s.machine.dialect op x y
    exact congrArg (fun u => (Outcome.ran, s.setState u)) same
  | skipIfByte | skipUnlessByte | skipIfEqual | skipUnlessEqual | skipIfKey | skipUnlessKey =>
    simp only [execute, mapState, setState, State.skipIf_eq]
    rfl
  | _ => rfl

theorem delay_execute (s : Console) (pc : UInt16) {i : Instruction}
    (hread : ∀ x, i ≠ .readDelay x) (hset : ∀ x, i ≠ .setDelay x) :
    (s.execute pc i).2.state.delay = s.state.delay := by
  rw [state_execute]
  dsimp only
  split
  · exact absurd rfl (hread _)
  · exact absurd rfl (hset _)
  · rfl

/-- What an instruction does with timers that agree: they agree again, and nothing else shows. -/
theorem exists_execute_withDelay (s : Console) {delay : Timer} (pc : UInt16) (i : Instruction)
    (agree : Timer.AgreeFrom s.now s.state.delay delay) :
    ∃ delay', (s.withDelay delay).execute pc i =
        ((s.execute pc i).1, (s.execute pc i).2.withDelay delay') ∧
      Timer.AgreeFrom s.now (s.execute pc i).2.state.delay delay' := by
  by_cases hread : ∃ x, i = .readDelay x
  · obtain ⟨x, rfl⟩ := hread
    have reading : (delay.settle s.now).ticks = (s.state.delay.settle s.now).ticks :=
      (agree s.now (Nat.le_refl _)).symm
    refine ⟨delay.settle s.now, ?_, ?_⟩
    · show (Outcome.ran, s.setState (({ s.state with delay := delay.settle s.now } : State).set x
        (delay.settle s.now).ticks)) = _
      rw [reading]
      rfl
    · exact ((Timer.agreeFrom_settle _ _).symm.trans agree).trans (Timer.agreeFrom_settle _ _)
  by_cases hset : ∃ x, i = .setDelay x
  · obtain ⟨x, rfl⟩ := hset
    exact ⟨_, rfl, .refl _ _⟩
  have hread' := fun x h => hread ⟨x, h⟩
  have hset' := fun x h => hset ⟨x, h⟩
  refine ⟨delay, execute_withDelay s delay pc hread' hset', ?_⟩
  rw [delay_execute s pc hread' hset']
  exact agree

/-- A step of machines that are alike has the same outcome. If it ran they agree afterwards on
    whether they drew. -/
theorem Alike.step (h : Alike s t) :
    t.step.1 = s.step.1 ∧ Alike s.step.2 t.step.2 ∧
      (s.step.1 = .ran → t.step.2.machine.drew = s.step.2.machine.drew) := by
  have unchanged := h
  obtain ⟨delay, drew, agree⟩ := h
  cases hs : s.state.halted with
  | some reason =>
    have ht : ((s.withDelay delay).withDrew drew).state.halted = some reason := hs
    rw [step_of_halted hs, step_of_halted ht]
    exact ⟨rfl, unchanged, nofun⟩
  | none =>
    have ht : ((s.withDelay delay).withDrew drew).state.halted = none := hs
    cases hn : s.state.next with
    | error reason =>
      have hn' : ((s.withDelay delay).withDrew drew).state.next = .error reason := hn
      rw [step_of_error hs hn, step_of_error ht hn']
      exact ⟨rfl, .intro delay false agree, nofun⟩
    | ok i =>
      have hn' : ((s.withDelay delay).withDrew drew).state.next = .ok i := hn
      rw [step_of_ok hs hn, step_of_ok ht hn']
      obtain ⟨delay', execute, agree'⟩ := exists_execute_withDelay s.fetch s.state.pc i agree
      have same : ((s.withDelay delay).withDrew drew).fetch.execute s.state.pc i =
        ((s.fetch.execute s.state.pc i).1, (s.fetch.execute s.state.pc i).2.withDelay delay') :=
        execute
      rw [← now_execute s.fetch s.state.pc i] at agree'
      show (((s.withDelay delay).withDrew drew).fetch.execute s.state.pc i).1 = _ ∧
        Alike _ (((s.withDelay delay).withDrew drew).fetch.execute s.state.pc i).2 ∧
        (_ → (((s.withDelay delay).withDrew drew).fetch.execute s.state.pc i).2.machine.drew = _)
      rw [same]
      exact ⟨rfl, .intro delay' _ agree', fun _ => rfl⟩

theorem Alike.endsBatch_eq (h : Alike s t) (same : t.machine.drew = s.machine.drew) :
    t.endsBatch = s.endsBatch := by
  obtain ⟨delay, drew, agree⟩ := h
  have hdrew : drew = s.machine.drew := same
  rw [hdrew]
  rfl

/-- Batches of machines that are alike end the same way. -/
theorem Alike.tick (h : Alike s t) (n : Nat) :
    (Console.tick n t).1 = (Console.tick n s).1 ∧
      Alike (Console.tick n s).2 (Console.tick n t).2 := by
  induction n generalizing s t with
  | zero => exact ⟨rfl, h⟩
  | succ n ih =>
    obtain ⟨outcome, alike, drew⟩ := h.step
    unfold Console.tick
    generalize hs : s.step = a at *
    generalize ht : t.step = b at *
    obtain ⟨o, s'⟩ := a
    obtain ⟨o', t'⟩ := b
    cases outcome
    cases o with
    | ran =>
      dsimp only
      rw [alike.endsBatch_eq (drew rfl)]
      split
      · exact ⟨rfl, alike⟩
      · exact ih alike
    | awaits wait => exact ⟨rfl, alike⟩
    | halts reason => exact ⟨rfl, alike⟩

/-! ## Key waits and moves -/

theorem Alike.context_eq (h : Alike s t) : t.context = s.context := by
  obtain ⟨delay, drew, agree⟩ := h
  rfl

/-- The surroundings may change in the same way, as long as time moves forward. -/
theorem Alike.setContext (h : Alike s t) (c : Context) (forward : s.now ≤ c.clock.now) :
    Alike { s with context := c } { t with context := c } := by
  obtain ⟨delay, drew, agree⟩ := h
  exact .intro delay drew (agree.mono forward)

theorem Alike.resolve (h : Alike s t) (w : KeyWait) (k : Key) :
    Alike (w.resolve k s) (w.resolve k t) := by
  obtain ⟨delay, drew, agree⟩ := h
  exact .intro delay drew agree

theorem Alike.poll (h : Alike s t) (w : KeyWait) :
    (w.poll t).1 = (w.poll s).1 ∧ (w.poll t).2.1 = (w.poll s).2.1 ∧
      Alike (w.poll s).2.2 (w.poll t).2.2 := by
  unfold KeyWait.poll
  rw [h.context_eq]
  obtain ⟨key, watch⟩ := s.context.keypad.poll w.watch
  cases key with
  | none => exact ⟨rfl, rfl, h⟩
  | some k => exact ⟨rfl, rfl, h.resolve w k⟩

theorem Alike.await (h : Alike s t) (w : KeyWait) (cancelled : Bool) :
    (w.await cancelled t).1 = (w.await cancelled s).1 ∧
      (w.await cancelled t).2.1 = (w.await cancelled s).2.1 ∧
      Alike (w.await cancelled s).2.2 (w.await cancelled t).2.2 := by
  have clock := Context.clock_await s.context w.watch cancelled
  unfold KeyWait.await
  rw [h.context_eq]
  generalize s.context.await w.watch cancelled = result at clock
  obtain ⟨result, watch, context⟩ := result
  have moved := h.setContext context (Nat.le_of_eq (congrArg Clock.now clock).symm)
  cases result with
  | released k => exact ⟨rfl, rfl, moved.resolve w k⟩
  | interrupted | blocked => exact ⟨rfl, rfl, moved⟩

/-- A move that does not turn back the clock has the same answer on machines that are alike, and
    they are alike after it. -/
theorem Alike.perform (h : Alike s t) {m : Move} (forward : s.now ≤ (s.perform m).2.now) :
    (t.perform m).1 = (s.perform m).1 ∧ Alike (s.perform m).2 (t.perform m).2 := by
  cases m with
  | step =>
    obtain ⟨outcome, alike, -⟩ := h.step
    exact ⟨congrArg Answer.outcome outcome, alike⟩
  | tick count =>
    obtain ⟨outcome, alike⟩ := h.tick count
    exact ⟨congrArg Answer.outcome outcome, alike⟩
  | poll wait =>
    obtain ⟨stored, wait', alike⟩ := h.poll wait
    refine ⟨?_, alike⟩
    show Answer.polled _ _ = Answer.polled _ _
    rw [stored, wait']
  | await wait cancelled =>
    obtain ⟨result, wait', alike⟩ := h.await wait cancelled
    refine ⟨?_, alike⟩
    show Answer.awaited _ _ = Answer.awaited _ _
    rw [result, wait']
  | press n | release n | advance nanos =>
    simp only [Console.perform, h.context_eq]
    exact ⟨trivial, h.setContext _ forward⟩

/-- Machines that are alike answer every sequence of moves in the same way, and look the same after
    it. -/
theorem Alike.run (h : Alike s t) {ms : List Move} (forward : Forward ms s) :
    answers ms t = answers ms s ∧ Alike (Console.run ms s) (Console.run ms t) := by
  induction ms generalizing s t with
  | nil => exact ⟨rfl, h⟩
  | cons m ms ih =>
    obtain ⟨now, later⟩ := forward
    obtain ⟨answer, alike⟩ := h.perform now
    obtain ⟨rest, alike⟩ := ih alike later
    refine ⟨?_, alike⟩
    rw [answers, answers, answer, rest]

/-- Whatever a host does from now on while time moves forward, it gets the same answers from both
    machines and sees the same of them. -/
def Indistinct (s t : Console) : Prop :=
  ∀ ms, Forward ms s →
    answers ms t = answers ms s ∧ (Console.run ms t).view = (Console.run ms s).view

theorem Alike.indistinct (h : Alike s t) : Indistinct s t := by
  intro ms forward
  obtain ⟨same, alike⟩ := h.run forward
  exact ⟨same, alike.view_eq⟩

end Console

end XoChip
