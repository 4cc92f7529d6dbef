import XoChip.Proofs.Invariant
import XoChip.Proofs.Machine.Verdict

/-!
# Calls and returns

The addresses in use on the call stack are a bounded stack in the textbook sense: a call pushes the
address behind it, a return pops the newest address and goes there, and no other instruction has
anything to do with it. So whatever a subroutine does, as long as it does not return too often, the
return that ends it finds the stack as the call left it.
-/

namespace XoChip

/-! ## Stacks of addresses -/

namespace CallStack

/-- What is done to a list of addresses, the newest of which is the last. -/
inductive Op
  | push (a : UInt16)
  | pop (a : UInt16)
  deriving DecidableEq, Repr

/-- An address is pushed only if there is room, and it is popped only if it is the newest one. -/
def Op.apply? (as : List UInt16) : Op → Option (List UInt16)
  | push a => if as.length < capacity then some (as ++ [a]) else none
  | pop a => if as.getLast? = some a then some as.dropLast else none

/-- Do one operation after the other. -/
def replay? (ops : List Op) (as : List UInt16) : Option (List UInt16) := ops.foldlM Op.apply? as

theorem replay?_singleton (op : Op) (as : List UInt16) : replay? [op] as = op.apply? as := by
  simp [replay?]

/-- An operation that leaves so many addresses that the first ones may be among them has left those
    alone. -/
theorem Op.isPrefix_apply {op : Op} {as bs cs : List UInt16} (h : op.apply? bs = some cs)
    (below : as <+: bs) (le : as.length ≤ cs.length) : as <+: cs := by
  cases op with
  | push a =>
    obtain ⟨-, pushed⟩ := Option.ite_none_right_eq_some.1 h
    cases pushed
    exact below.trans (List.prefix_append _ _)
  | pop a =>
    obtain ⟨-, popped⟩ := Option.ite_none_right_eq_some.1 h
    cases popped
    rw [List.length_dropLast] at le
    rw [List.dropLast_eq_take, List.prefix_take_iff]
    exact ⟨below, le⟩

variable {s : CallStack}

theorem length_toList (bounded : s.depth ≤ capacity) : s.toList.length = s.depth := by
  rw [toList, List.length_take, Vector.length_toList]
  exact Nat.min_eq_left bounded

theorem toList_push (free : s.depth < capacity) (a : UInt16) :
    (s.push a).toList = s.toList ++ [a] := by
  have lt : s.depth < (s.slots.toList.set s.depth a).length := by
    rw [List.length_set, Vector.length_toList]
    exact free
  rw [toList, toList, push, Vector.toList_setIfInBounds, ← List.take_append_getElem lt,
    List.getElem_set_self, List.take_set_of_le (Nat.le_refl _)]

theorem toList_pop (bounded : s.depth ≤ capacity) : s.pop.toList = s.toList.dropLast := by
  rw [List.dropLast_eq_take, length_toList bounded, toList, toList, List.take_take, pop,
    Nat.min_eq_left (Nat.sub_le _ _)]

theorem getLast?_toList (used : s.isEmpty = false) (bounded : s.depth ≤ capacity) :
    s.toList.getLast? = some s.top := by
  have pos : s.depth ≠ 0 := by simpa [isEmpty] using used
  have lt : s.depth - 1 < 64 := by
    simp only [capacity] at bounded
    omega
  rw [toList, List.getLast?_take, if_neg pos, top]
  simp [lt]

end CallStack

namespace Console

/-! ## Single steps -/

/-- The next step halts. -/
def halts (s : Console) : Bool :=
  match s.step.1 with
  | .halts _ => true
  | _ => false

/-- The next step is a call, `2NNN`, that does not halt. -/
def Calls (s : Console) : Prop := s.halts = false ∧ Word.family s.state.word = 0x2

/-- The next step is a return, `00EE`, that does not halt. -/
def Returns (s : Console) : Prop := s.halts = false ∧ s.state.word = 0x00EE

instance (s : Console) : Decidable s.Calls := inferInstanceAs (Decidable (_ ∧ _))

instance (s : Console) : Decidable s.Returns := inferInstanceAs (Decidable (_ ∧ _))

/-- What the next step does to the addresses on the call stack. -/
def stackOp (s : Console) : Option CallStack.Op :=
  if s.Calls then some (.push (s.state.pc + 2))
  else if s.Returns then some (.pop s.step.2.state.pc)
  else none

variable {s t : Console}

theorem halts_of_executed {pc : UInt16} {i : Instruction} (h : s.step = t.execute pc i) :
    s.halts = false := by
  rw [halts, h, outcome_execute]
  cases i <;> rfl

/-- A step that does not halt executes the instruction at the program counter. -/
theorem executed_of_halts (h : s.halts = false) :
    ∃ i, Instruction.decode? s.state.word = some i ∧ s.state.Admits i ∧
      s.step = s.fetch.execute s.state.pc i := by
  cases hs : s.state.halted with
  | some reason =>
    rw [halts, step_of_halted hs] at h
    cases h
  | none =>
    rcases step_cases hs with ⟨reason, refused⟩ | executed
    · rw [halts, refused] at h
      cases h
    · exact executed

/-- A call has room for the address behind it and pushes that. -/
theorem stack_of_calls (h : s.WellFormed) (calls : s.Calls) :
    s.state.stack.depth < CallStack.capacity ∧
      s.step.2.state.stack.toList = s.state.stack.toList ++ [s.state.pc + 2] := by
  obtain ⟨i, stands, admits, executed⟩ := executed_of_halts calls.1
  have call : i = .call (Word.nnn s.state.word) := by
    rw [Instruction.decode?_eq_call_iff.2 ⟨calls.2, rfl⟩] at stands
    exact (Option.some.inj stands).symm
  subst call
  have free : s.state.stack.depth < CallStack.capacity := by
    have bounded := h.depth
    have not_full := admits.1
    simp only [CallStack.isFull, beq_eq_false_iff_ne] at not_full
    omega
  refine ⟨free, ?_⟩
  rw [executed, stack_execute]
  exact CallStack.toList_push free _

/-- A return goes to the newest address and pops it. -/
theorem stack_of_returns (h : s.WellFormed) (returns : s.Returns) :
    s.state.stack.toList.getLast? = some s.step.2.state.pc ∧
      s.step.2.state.stack.toList = s.state.stack.toList.dropLast := by
  obtain ⟨i, stands, used, executed⟩ := executed_of_halts returns.1
  have ret : i = .ret := by
    rw [Instruction.decode?_eq_ret_iff.2 returns.2] at stands
    exact (Option.some.inj stands).symm
  subst ret
  rw [executed]
  exact ⟨CallStack.getLast?_toList used h.depth, CallStack.toList_pop h.depth⟩

/-- No other step touches the call stack. -/
theorem stack_of_neither (calls : ¬ s.Calls) (returns : ¬ s.Returns) :
    s.step.2.state.stack = s.state.stack := by
  cases hs : s.state.halted with
  | some reason => rw [step_of_halted hs]
  | none =>
    rcases step_cases hs with ⟨reason, refused⟩ | ⟨i, stands, -, executed⟩
    · rw [refused]
      rfl
    · have goes_on := halts_of_executed executed
      rw [executed, stack_execute]
      split
      · exact absurd ⟨goes_on, Instruction.decode?_eq_ret_iff.1 stands⟩ returns
      · exact absurd ⟨goes_on, (Instruction.decode?_eq_call_iff.1 stands).1⟩ calls
      · rfl

/-- A step does to the addresses on the call stack what is said of it. -/
theorem replay?_stackOp (h : s.WellFormed) :
    CallStack.replay? s.stackOp.toList s.state.stack.toList =
      some s.step.2.state.stack.toList := by
  unfold stackOp
  split
  · next calls =>
    obtain ⟨free, pushed⟩ := stack_of_calls h calls
    rw [← CallStack.length_toList h.depth] at free
    rw [Option.toList_some, CallStack.replay?_singleton, CallStack.Op.apply?, if_pos free, pushed]
  · next calls =>
    split
    · next returns =>
      obtain ⟨top, popped⟩ := stack_of_returns h returns
      rw [Option.toList_some, CallStack.replay?_singleton, CallStack.Op.apply?, if_pos top, popped]
    · next returns =>
      rw [stack_of_neither calls returns]
      rfl

/-! ## Runs -/

/-- A batch of steps. Runs are taken step by step here. -/
def Move.isTick : Move → Bool
  | .tick _ => true
  | _ => false

/-- What a move does to the addresses on the call stack. Only steps execute instructions. -/
def moveOp (s : Console) : Move → Option CallStack.Op
  | .step => s.stackOp
  | _ => none

/-- What a run does to the addresses on the call stack. -/
def stackOps : List Move → Console → List CallStack.Op
  | [], _ => []
  | m :: ms, s => (s.moveOp m).toList ++ stackOps ms (s.perform m).2

theorem replay?_moveOp (h : s.WellFormed) {m : Move} (stepwise : m.isTick = false) :
    CallStack.replay? (s.moveOp m).toList s.state.stack.toList =
      some (s.perform m).2.state.stack.toList := by
  cases m with
  | step => exact replay?_stackOp h
  | tick count => cases stepwise
  | poll wait =>
    rw [perform]
    rcases wait.poll_cases s with same | ⟨k, stored⟩
    · rw [same]
      rfl
    · rw [stored]
      rfl
  | await wait cancelled =>
    rw [perform]
    rcases wait.await_cases cancelled s with same | ⟨k, stored⟩
    · rw [same]
      rfl
    · rw [stored]
      rfl
  | press | release | advance => rfl

/-- The call stack of a run is what becomes of the addresses on it under the operations of the
    run. -/
theorem replay?_stackOps (h : s.WellFormed) {ms : List Move}
    (stepwise : ∀ m ∈ ms, m.isTick = false) :
    CallStack.replay? (stackOps ms s) s.state.stack.toList =
      some (run ms s).state.stack.toList := by
  induction ms generalizing s with
  | nil => rfl
  | cons m ms ih =>
    rw [List.forall_mem_cons] at stepwise
    have now := replay?_moveOp h stepwise.1
    have later := ih (h.perform m) stepwise.2
    rw [CallStack.replay?] at now
    rw [stackOps, CallStack.replay?, List.foldlM_append, now]
    exact later

/-! ## Subroutines -/

/-- A move that leaves the call stack deep enough leaves the oldest addresses alone. -/
theorem isPrefix_perform (h : s.WellFormed) {m : Move} (stepwise : m.isTick = false)
    {as : List UInt16} (below : as <+: s.state.stack.toList)
    (deep : as.length ≤ (s.perform m).2.state.stack.depth) :
    as <+: (s.perform m).2.state.stack.toList := by
  have replayed := replay?_moveOp h stepwise
  rw [← CallStack.length_toList (h.perform m).depth] at deep
  cases hop : s.moveOp m with
  | none =>
    rw [hop] at replayed
    rw [← Option.some.inj replayed]
    exact below
  | some op =>
    rw [hop, Option.toList_some, CallStack.replay?_singleton] at replayed
    exact op.isPrefix_apply replayed below deep

theorem isPrefix_run (h : s.WellFormed) {ms : List Move} (stepwise : ∀ m ∈ ms, m.isTick = false)
    {as : List UInt16} (below : as <+: s.state.stack.toList)
    (deep : ∀ bs, bs <+: ms → as.length ≤ (run bs s).state.stack.depth) :
    as <+: (run ms s).state.stack.toList := by
  induction ms generalizing s with
  | nil => exact below
  | cons m ms ih =>
    rw [List.forall_mem_cons] at stepwise
    have now : as.length ≤ (s.perform m).2.state.stack.depth :=
      deep [m] (List.prefix_append [m] ms)
    apply ih (h.perform m) stepwise.2 (isPrefix_perform h stepwise.1 below now)
    intro bs before
    exact deep (m :: bs) (List.cons_prefix_cons.2 ⟨rfl, before⟩)

/-- The return that ends a subroutine goes behind the call and leaves the stack as it was before the
    call. -/
theorem return_of_call (h : s.WellFormed) (calls : s.Calls) {ms : List Move}
    (stepwise : ∀ m ∈ ms, m.isTick = false)
    (deep : ∀ bs, bs <+: ms → s.state.stack.depth + 1 ≤ (run bs s.step.2).state.stack.depth)
    (returns : (run ms s.step.2).Returns)
    (level : (run ms s.step.2).state.stack.depth = s.state.stack.depth + 1) :
    (run ms s.step.2).step.2.state.pc = s.state.pc + 2 ∧
      (run ms s.step.2).step.2.state.stack.toList = s.state.stack.toList := by
  obtain ⟨-, pushed⟩ := stack_of_calls h calls
  have wellFormed := h.step.run ms
  have length : (s.state.stack.toList ++ [s.state.pc + 2]).length = s.state.stack.depth + 1 := by
    rw [List.length_append, CallStack.length_toList h.depth]
    rfl
  have kept : s.state.stack.toList ++ [s.state.pc + 2] <+:
      (run ms s.step.2).state.stack.toList := by
    apply isPrefix_run h.step stepwise
    · exact pushed ▸ List.prefix_rfl
    · intro bs before
      rw [length]
      exact deep bs before
  have same : s.state.stack.toList ++ [s.state.pc + 2] = (run ms s.step.2).state.stack.toList := by
    apply kept.eq_of_length
    rw [length, CallStack.length_toList wellFormed.depth, level]
  obtain ⟨top, popped⟩ := stack_of_returns wellFormed returns
  rw [← same, List.getLast?_concat] at top
  rw [← same, List.dropLast_concat] at popped
  exact ⟨(Option.some.inj top).symm, popped⟩

/-- Over every run, the addresses on the call stack are a stack of no more than sixty-four return
    addresses, which calls push and returns pop. A return at the depth of a subroutine, if the stack
    was never less deep since the call, continues behind that call, with the stack as it was. -/
theorem callStack_lifo (h : s.WellFormed) (ms : List Move)
    (stepwise : ∀ m ∈ ms, m.isTick = false) :
    CallStack.replay? (stackOps ms s) s.state.stack.toList =
        some (run ms s).state.stack.toList ∧
      (run ms s).state.stack.depth ≤ 64 ∧
      (s.Calls →
        let d := s.state.stack.depth
        let t := run ms s.step.2
        (∀ bs, bs <+: ms → d + 1 ≤ (run bs s.step.2).state.stack.depth) →
        t.Returns → t.state.stack.depth = d + 1 →
          t.step.2.state.pc = s.state.pc + 2 ∧ t.step.2.state.stack.depth = d ∧
            t.step.2.state.stack.toList = s.state.stack.toList) := by
  refine ⟨replay?_stackOps h stepwise, (h.run ms).depth, ?_⟩
  intro calls d t deep returns level
  obtain ⟨behind, same⟩ := return_of_call h calls stepwise deep returns level
  refine ⟨behind, ?_, same⟩
  have depth := congrArg List.length same
  rw [CallStack.length_toList (h.step.run ms).step.depth, CallStack.length_toList h.depth] at depth
  exact depth

/-- A subroutine that calls another one, and the way back to the first call. -/
theorem callStack_lifo_nested :
    let program := [0x22, 0x04, 0x00, 0xFD, 0x22, 0x08, 0x00, 0xEE, 0x00, 0xEE]
    let s : Console :=
      { machine :=
          { state := { memory := Memory.blank.writeMany 0x200 program, delay := .expired 0 }
            dialect := {}, random := .ofSeed 0 }
        context := {} }
    let t := run [.step, .step] s.step.2
    s.WellFormed ∧ s.Calls ∧ t.Returns ∧ t.step.2.state.pc = 0x202 ∧
      t.step.2.state.stack.toList = [] := by
  intro program s t
  have wellFormed : s.WellFormed := ⟨Nat.zero_le _, Display.wellFormed_reset⟩
  have calls : s.Calls := by decide +kernel
  have returns : t.Returns := by decide +kernel
  have deep : ∀ bs, bs <+: [.step, .step] → 0 + 1 ≤ (run bs s.step.2).state.stack.depth := by
    intro bs before
    simp only [List.prefix_cons_iff, List.prefix_nil] at before
    rcases before with rfl | ⟨_, rfl, rfl | ⟨_, rfl, rfl⟩⟩
    · decide +kernel
    · decide +kernel
    · decide +kernel
  have level : t.state.stack.depth = 0 + 1 := by decide +kernel
  obtain ⟨-, -, back⟩ := callStack_lifo wellFormed [.step, .step] (by decide)
  obtain ⟨behind, -, same⟩ := back calls deep returns level
  exact ⟨wellFormed, calls, returns, behind, same⟩

end Console

end XoChip
