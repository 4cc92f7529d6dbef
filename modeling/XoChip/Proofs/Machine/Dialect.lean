import XoChip.Proofs.Machine.Verdict
import XoChip.Proofs.Run

/-!
# Where dialects make a difference

A toggle makes a difference to the instructions that it is about, and `Toggle.Governs` says by word
which these are. Toggles that are not implemented make none, over whole runs. The toggle on vertical
blanks makes none to instructions, but it ends batches.
-/

namespace XoChip

/-- The words at which a toggle decides what the instruction does. -/
def Toggle.Governs (w : UInt16) : Toggle → Prop
  | jumpByVX => Word.family w = 0xB
  | logicResetsVF =>
    Word.family w = 0x8 ∧ (Word.n w = 0x1 ∨ Word.n w = 0x2 ∨ Word.n w = 0x3)
  | resultOverFlag =>
    Word.family w = 0x8 ∧ Word.x w = 0xF ∧
      (Word.n w = 0x4 ∨ Word.n w = 0x5 ∨ Word.n w = 0x6 ∨ Word.n w = 0x7 ∨ Word.n w = 0xE)
  | _ => False

instance decidableGoverns (w : UInt16) : (t : Toggle) → Decidable (t.Governs w)
  | .jumpByVX => inferInstanceAs (Decidable (_ = _))
  | .logicResetsVF => inferInstanceAs (Decidable (_ ∧ _))
  | .resultOverFlag => inferInstanceAs (Decidable (_ ∧ _))
  | .shiftXOnly | .memoryIncrementByX | .memoryIUnchanged | .spriteWrap | .vsyncDraw =>
    inferInstanceAs (Decidable False)

theorem Toggle.Governs.implemented {t : Toggle} {w : UInt16} (h : t.Governs w) :
    t.implemented = true := by
  cases t with
  | jumpByVX | logicResetsVF | resultOverFlag => rfl
  | _ => exact h.elim

/-- The toggle on vertical blanks is not about instructions. -/
theorem Toggle.Governs.ne_vsyncDraw {t : Toggle} {w : UInt16} (h : t.Governs w) :
    t ≠ .vsyncDraw := by
  rintro rfl
  exact h

/-! ## States under two dialects -/

namespace State

variable {d e : Dialect} {w : UInt16}

theorem set_comm (s : State) {x y : Register} (ne : x ≠ y) (a b : UInt8) :
    (s.set x a).set y b = (s.set y b).set x a := by
  simp only [set]
  rw [Vector.set_comm a b (Fin.val_ne_of_ne ne)]

/-- The order in which result and flag are put down matters only in `VF`. -/
theorem setWithFlag_congr (s : State) {x : Register} (result : UInt8) (flag : Bool)
    (same : x = .flag → e.resultOverFlag = d.resultOverFlag) :
    s.setWithFlag e x result flag = s.setWithFlag d x result flag := by
  by_cases hx : x = .flag
  · simp only [setWithFlag, same hx]
  · simp only [setWithFlag, s.set_comm hx, ite_self]

theorem alu_congr (s : State) {op : AluOp} {x y : Register}
    (stands : Instruction.decode? w = some (.alu op x y))
    (agree : ∀ t : Toggle, t.Governs w → e.get t = d.get t) :
    s.alu e op x y = s.alu d op x y := by
  have written := Instruction.encode_of_decode? stands
  have family : Word.family w = 0x8 := by rw [← written]; exact Word.family_ofNibbles
  have first : Word.x w = x := by rw [← written]; exact Word.x_ofNibbles
  have last : Word.n w = op.nibble := by rw [← written]; exact Word.n_ofNibbles
  cases op with
  | copy => rfl
  | or | and | xor =>
    have same : e.logicResetsVF = d.logicResetsVF :=
      agree .logicResetsVF ⟨family, by simp [last, AluOp.nibble]⟩
    simp only [alu, setLogic, same]
  | add | sub | subFrom | shiftRight | shiftLeft =>
    apply setWithFlag_congr
    intro hx
    exact agree .resultOverFlag ⟨family, first.trans hx, by simp [last, AluOp.nibble]⟩

theorem jumpPlus_congr (s : State) {nnn : UInt16}
    (stands : Instruction.decode? w = some (.jumpPlus nnn))
    (agree : ∀ t : Toggle, t.Governs w → e.get t = d.get t) :
    s.jumpPlus e nnn = s.jumpPlus d nnn := by
  have family : Word.family w = 0xB := by
    rw [← Instruction.encode_of_decode? stands]
    exact Word.family_ofAddress
  have same : e.jumpByVX = d.jumpByVX := agree .jumpByVX family
  simp only [jumpPlus, same]

end State

namespace Console

/-- The same machine under another dialect. -/
def withDialect (s : Console) (e : Dialect) : Console :=
  { s with machine := { s.machine with dialect := e } }

variable {s : Console} {e : Dialect}

/-! ## Steps -/

theorem execute_withDialect (pc : UInt16) {w : UInt16} {i : Instruction}
    (stands : Instruction.decode? w = some i)
    (agree : ∀ t : Toggle, t.Governs w → e.get t = s.machine.dialect.get t) :
    (s.withDialect e).execute pc i =
      ((s.execute pc i).1, (s.execute pc i).2.withDialect e) := by
  cases i with
  | alu op x y =>
    have same := s.state.alu_congr stands agree
    exact congrArg (fun t => (Outcome.ran, (s.setState t).withDialect e)) same
  | jumpPlus nnn =>
    have same := s.state.jumpPlus_congr stands agree
    exact congrArg (fun t => (Outcome.ran, (s.setState t).withDialect e)) same
  | _ => rfl

/-- A step is the same under two dialects that agree on the toggles that govern its word. -/
theorem step_withDialect
    (agree : ∀ t : Toggle, t.Governs s.state.word → e.get t = s.machine.dialect.get t) :
    (s.withDialect e).step = (s.step.1, s.step.2.withDialect e) := by
  cases hs : s.state.halted with
  | some reason =>
    have hs' : (s.withDialect e).state.halted = some reason := hs
    rw [step_of_halted hs, step_of_halted hs']
  | none =>
    have hs' : (s.withDialect e).state.halted = none := hs
    cases hn : s.state.next with
    | error reason =>
      have hn' : (s.withDialect e).state.next = .error reason := hn
      rw [step_of_error hs hn, step_of_error hs' hn']
      rfl
    | ok i =>
      have hn' : (s.withDialect e).state.next = .ok i := hn
      have stands := (State.judge_eq_ok_iff.1 hn).1
      have agree' : ∀ t : Toggle, t.Governs s.state.word →
          e.get t = s.fetch.machine.dialect.get t := agree
      rw [step_of_ok hs hn, step_of_ok hs' hn']
      exact execute_withDialect s.state.pc stands agree'

/-! ## Batches and runs -/

/-- Toggles that are not implemented make no difference to a batch. -/
theorem tick_withDialect (n : Nat)
    (agree : ∀ t : Toggle, t.implemented = true → e.get t = s.machine.dialect.get t) :
    tick n (s.withDialect e) = ((tick n s).1, (tick n s).2.withDialect e) := by
  induction n generalizing s with
  | zero => rfl
  | succ n ih =>
    have stepped : (s.withDialect e).step = (s.step.1, s.step.2.withDialect e) :=
      step_withDialect fun t governs => agree t governs.implemented
    have ran_eq : (s.withDialect e).step.1 = s.step.1 := by rw [stepped]
    have vsync : e.vsyncDraw = s.step.2.machine.dialect.vsyncDraw := by
      rw [dialect_step]
      exact agree .vsyncDraw rfl
    have ends_eq : (s.withDialect e).step.2.endsBatch = s.step.2.endsBatch := by
      rw [stepped, endsBatch, endsBatch, ← vsync]
      rfl
    by_cases ran : s.step.1 = .ran
    · cases ends : s.step.2.endsBatch with
      | true =>
        rw [tick_succ_of_endsBatch n ran ends,
          tick_succ_of_endsBatch n (ran_eq.trans ran) (ends_eq.trans ends), stepped]
      | false =>
        rw [tick_succ_of_ran n ran ends,
          tick_succ_of_ran n (ran_eq.trans ran) (ends_eq.trans ends), stepped]
        apply ih
        rw [dialect_step]
        exact agree
    · have stops : (s.withDialect e).step.1 ≠ .ran := by
        rw [ran_eq]
        exact ran
      rw [tick_succ_of_stops n ran, tick_succ_of_stops n stops, stepped]

theorem poll_withDialect (w : KeyWait) :
    w.poll (s.withDialect e) =
      ((w.poll s).1, (w.poll s).2.1, (w.poll s).2.2.withDialect e) := by
  unfold KeyWait.poll
  rcases hp : s.context.keypad.poll w.watch with ⟨key | k, watch⟩
  · have hp' : (s.withDialect e).context.keypad.poll w.watch = (none, watch) := hp
    rw [hp']
  · have hp' : (s.withDialect e).context.keypad.poll w.watch = (some k, watch) := hp
    rw [hp']
    rfl

theorem await_withDialect (w : KeyWait) (cancelled : Bool) :
    w.await cancelled (s.withDialect e) =
      ((w.await cancelled s).1, (w.await cancelled s).2.1,
        (w.await cancelled s).2.2.withDialect e) := by
  unfold KeyWait.await
  rcases ha : s.context.await w.watch cancelled with ⟨result, watch, context⟩
  have ha' : (s.withDialect e).context.await w.watch cancelled = (result, watch, context) := ha
  rw [ha']
  cases result with
  | released k => rfl
  | interrupted | blocked => rfl

/-- Toggles that are not implemented make no difference to what a host does with a machine. -/
theorem perform_withDialect (m : Move)
    (agree : ∀ t : Toggle, t.implemented = true → e.get t = s.machine.dialect.get t) :
    (s.withDialect e).perform m = ((s.perform m).1, (s.perform m).2.withDialect e) := by
  cases m with
  | step =>
    simp only [perform, step_withDialect fun t governs => agree t governs.implemented]
  | tick count => simp only [perform, tick_withDialect count agree]
  | poll wait => simp only [perform, poll_withDialect]
  | await wait cancelled => simp only [perform, await_withDialect]
  | press | release | advance => rfl

@[simp] theorem dialect_perform (s : Console) (m : Move) :
    (s.perform m).2.machine.dialect = s.machine.dialect := by
  cases m with
  | step => exact dialect_step s
  | tick count =>
    exact tick_induction (P := fun t => t.machine.dialect = s.machine.dialect)
      (fun t same => (dialect_step t).trans same) count rfl
  | poll wait =>
    rcases wait.poll_cases s with same | ⟨k, stored⟩
    · rw [perform, same]
    · rw [perform, stored]
      rfl
  | await wait cancelled =>
    rcases wait.await_cases cancelled s with same | ⟨k, stored⟩
    · rw [perform, same]
    · rw [perform, stored]
      rfl
  | press | release | advance => rfl

theorem run_withDialect (ms : List Move)
    (agree : ∀ t : Toggle, t.implemented = true → e.get t = s.machine.dialect.get t) :
    answers ms (s.withDialect e) = answers ms s ∧
      run ms (s.withDialect e) = (run ms s).withDialect e := by
  induction ms generalizing s with
  | nil => exact ⟨rfl, rfl⟩
  | cons m ms ih =>
    have agree' : ∀ t : Toggle, t.implemented = true →
        e.get t = (s.perform m).2.machine.dialect.get t := by
      rw [dialect_perform]
      exact agree
    obtain ⟨same, last⟩ := ih agree'
    simp only [answers, run, perform_withDialect m agree, same, last, and_self]

/-! ## Toggles that matter -/

/-- A machine that is about to run a program, with some registers set. -/
def ready (program : List UInt8) (v : Registers) : Console where
  machine :=
    { state := { v, memory := Memory.blank.writeMany programStart program, delay := .expired 0 }
      dialect := {}, random := .ofSeed 0 }
  context := {}

/-- The same machine with a toggle set the other way. -/
def flip (s : Console) (t : Toggle) : Console :=
  s.withDialect (s.machine.dialect.set t (!s.machine.dialect.get t))

/-- Whether a toggle is on can be told from a step or from a batch, the dialect itself apart. -/
def Distinguishes (s : Console) (t : Toggle) : Prop :=
  (s.flip t).step ≠ (s.step.1, s.step.2.flip t) ∨
    ∃ n, tick n (s.flip t) ≠ ((tick n s).1, (tick n s).2.flip t)

/-- `B100` with `V1` set. -/
theorem distinguishes_jumpByVX :
    (ready [0xB1, 0x00] (Registers.blank.set 1 1)).Distinguishes .jumpByVX := by
  left
  intro same
  have pc_eq := congrArg (fun r : Outcome × Console => r.2.state.pc) same
  revert pc_eq
  decide +kernel

/-- `8011` with `VF` set. -/
theorem distinguishes_logicResetsVF :
    (ready [0x80, 0x11] (Registers.blank.set 15 1)).Distinguishes .logicResetsVF := by
  left
  intro same
  have flag_eq := congrArg (fun r : Outcome × Console => r.2.state.get .flag) same
  revert flag_eq
  decide +kernel

/-- `8F04` with `VF` set. -/
theorem distinguishes_resultOverFlag :
    (ready [0x8F, 0x04] (Registers.blank.set 15 1)).Distinguishes .resultOverFlag := by
  left
  intro same
  have flag_eq := congrArg (fun r : Outcome × Console => r.2.state.get .flag) same
  revert flag_eq
  decide +kernel

/-- `D001`, and a halt behind it. -/
theorem distinguishes_vsyncDraw :
    (ready [0xD0, 0x01] Registers.blank).Distinguishes .vsyncDraw := by
  right
  refine ⟨2, ?_⟩
  intro same
  have outcome_eq := congrArg Prod.fst same
  revert outcome_eq
  decide +kernel

/-- Toggles act where they are declared to. Those that are not implemented make no difference to any
    run; a step depends on a toggle only if the toggle governs its word; and every toggle that is
    implemented can be told from what some machine does. -/
theorem toggles_exact :
    (∀ (s : Console) (e : Dialect),
      (∀ t : Toggle, t.implemented = true → e.get t = s.machine.dialect.get t) →
        ∀ ms, answers ms (s.withDialect e) = answers ms s ∧
          run ms (s.withDialect e) = (run ms s).withDialect e) ∧
    (∀ (s : Console) (e : Dialect),
      (∀ t : Toggle, t.Governs s.state.word → e.get t = s.machine.dialect.get t) →
        (s.withDialect e).step = (s.step.1, s.step.2.withDialect e)) ∧
    ∀ t : Toggle, t.implemented = true → ∃ s : Console, s.Distinguishes t := by
  refine ⟨fun s e agree ms => run_withDialect ms agree, fun s e agree => step_withDialect agree, ?_⟩
  intro t implemented
  cases t with
  | jumpByVX => exact ⟨_, distinguishes_jumpByVX⟩
  | logicResetsVF => exact ⟨_, distinguishes_logicResetsVF⟩
  | resultOverFlag => exact ⟨_, distinguishes_resultOverFlag⟩
  | vsyncDraw => exact ⟨_, distinguishes_vsyncDraw⟩
  | shiftXOnly | memoryIncrementByX | memoryIUnchanged | spriteWrap => cases implemented

/-- A shift and a store under a dialect that has its own ideas of both, and a jump that `V1` is to
    be added to, but is not. -/
theorem toggles_exact_shift :
    let s := ready [0x81, 0x26, 0xF1, 0x55, 0xB1, 0x00] (Registers.blank.set 1 3)
    let e : Dialect :=
      { shiftXOnly := true, memoryIncrementByX := true, memoryIUnchanged := true,
        spriteWrap := true }
    answers [.tick 2, .step] (s.withDialect e) = answers [.tick 2, .step] s ∧
      run [.tick 2, .step] (s.withDialect e) = (run [.tick 2, .step] s).withDialect e ∧
      (s.withDialect { jumpByVX := true }).step =
        (s.step.1, s.step.2.withDialect { jumpByVX := true }) := by
  intro s e
  obtain ⟨unseen, exact_step, -⟩ := toggles_exact
  have implemented_agree : ∀ t : Toggle, t.implemented = true →
      e.get t = s.machine.dialect.get t := by
    intro t
    cases t <;> decide
  obtain ⟨same, last⟩ := unseen s e implemented_agree [.tick 2, .step]
  refine ⟨same, last, exact_step s _ ?_⟩
  have word_eq : s.state.word = 0x8126 := by decide +kernel
  rw [word_eq]
  intro t
  cases t <;> decide

end Console

end XoChip
