import XoChip.Proofs.Machine.Halting

/-!
# Traces

A machine announces every instruction before it executes it, also one that makes it halt. So the
effects that it leaves behind tell which instructions it has executed, and in which order.
`Console.trail` says the same of a number of steps without looking at effects, and
`Console.Traceable.traced_run` carries over to runs what holds of the steps in them.
-/

namespace XoChip

/-! ## What effects tell -/

/-- The address and the word of the instruction that an effect announces. -/
def Effect.executed? : Effect → Option (UInt16 × UInt16)
  | .notice (.executing pc word) => some (pc, word)
  | _ => none

namespace Context

variable {c : Context}

/-- The addresses and words of the instructions that were executed, the oldest first. -/
def executed (c : Context) : List (UInt16 × UInt16) :=
  c.effects.toList.filterMap Effect.executed?

theorem executed_emit (e : Effect) : (c.emit e).executed = c.executed ++ e.executed?.toList := by
  rw [executed, executed, emit, Array.toList_push, List.filterMap_append, List.filterMap_cons]
  cases e.executed? <;> rfl

theorem executed_emit_of_none {e : Effect} (h : e.executed? = none) :
    (c.emit e).executed = c.executed := by
  rw [executed_emit, h]
  exact List.append_nil _

theorem executed_tell_executing (pc word : UInt16) :
    (c.tell (.executing pc word)).executed = c.executed ++ [(pc, word)] := executed_emit _

@[simp] theorem executed_press (n : UInt8) : (c.press n).executed = c.executed := by
  unfold press
  split
  · exact executed_emit_of_none rfl
  · rfl

@[simp] theorem executed_release (n : UInt8) : (c.release n).executed = c.executed := by
  unfold release
  split
  · exact executed_emit_of_none rfl
  · rfl

end Context

namespace Console

variable {s : Console}

/-! ## Steps -/

/-- Instructions are announced before they are executed. -/
theorem executed_execute (s : Console) (pc : UInt16) (i : Instruction) :
    (s.execute pc i).2.context.executed = s.context.executed := by
  rw [context_execute, Context.executed, Context.executed, Array.toList_append,
    List.filterMap_append]
  cases i <;> exact List.append_nil _

theorem executed_step (running : s.state.halted = none) :
    s.step.2.context.executed = s.context.executed ++ [(s.state.pc, s.state.word)] := by
  have announced := Context.executed_tell_executing (c := s.context) s.state.pc s.state.word
  rcases step_cases running with ⟨reason, refused⟩ | ⟨i, -, -, executed⟩
  · rw [refused]
    exact (Context.executed_emit_of_none rfl).trans announced
  · rw [executed, executed_execute]
    exact announced

theorem halted_of_ran (ran : s.step.1 = .ran) : s.step.2.state.halted = none := by
  apply halted_step
  intro reason
  rw [ran]
  nofun

/-! ## Several steps -/

/-- The machine after a number of steps. -/
def after (k : Nat) (s : Console) : Console := run (List.replicate k .step) s

theorem after_zero (s : Console) : after 0 s = s := rfl

theorem after_succ (k : Nat) (s : Console) : after (k + 1) s = after k s.step.2 := rfl

theorem after_succ_eq_step (k : Nat) (s : Console) : after (k + 1) s = (after k s).step.2 := by
  induction k generalizing s with
  | zero => rfl
  | succ k ih =>
    rw [after_succ, ih]
    rfl

/-- The addresses and words of the instructions at which a number of steps begin. -/
def trail (m : Nat) (s : Console) : List (UInt16 × UInt16) :=
  (List.range m).map fun k => ((after k s).state.pc, (after k s).state.word)

@[simp] theorem length_trail (m : Nat) (s : Console) : (trail m s).length = m := by
  rw [trail, List.length_map, List.length_range]

theorem trail_succ (m : Nat) (s : Console) :
    trail (m + 1) s = (s.state.pc, s.state.word) :: trail m s.step.2 := by
  rw [trail, List.range_succ_eq_map, List.map_cons, List.map_map]
  rfl

/-- Steps execute the instructions at which they begin, as long as all but the last have run. -/
theorem executed_after (running : s.state.halted = none) {m : Nat}
    (ran : ∀ k, k + 1 < m → (after k s).step.1 = .ran) :
    (after m s).context.executed = s.context.executed ++ trail m s := by
  induction m generalizing s with
  | zero => exact (List.append_nil _).symm
  | succ m ih =>
    have first := executed_step running
    rw [after_succ, trail_succ]
    cases m with
    | zero => exact first
    | succ m =>
      have first_ran : s.step.1 = .ran := ran 0 (by omega)
      rw [ih (halted_of_ran first_ran) fun k lt => ran (k + 1) (by omega), first,
        List.append_assoc]
      rfl

/-! ## Runs -/

/-- Nothing was executed, and the machine is the same but for registers and program counter, which
    is where a key wait puts its key. -/
structure Quiet (s t : Console) : Prop where
  executed : t.context.executed = s.context.executed
  machine : ∃ v pc, t.machine = { s.machine with state := { s.state with v, pc } }

theorem Quiet.refl (s : Console) : Quiet s s := ⟨rfl, s.state.v, s.state.pc, rfl⟩

/-- Relations between the ends of a run and the words executed on the way that can be put together
    from steps. -/
structure Traceable (R : Console → Console → List (UInt16 × UInt16) → Prop) : Prop where
  quiet : ∀ {s t}, Quiet s t → R s t []
  step : ∀ {s : Console}, s.state.halted = none → R s s.step.2 [(s.state.pc, s.state.word)]
  trans : ∀ {s t u es fs}, R s t es → R t u fs → R s u (es ++ fs)

/-- The words executed between two machines are told, and stand in the relation with them. -/
def Traced (R : Console → Console → List (UInt16 × UInt16) → Prop) (s t : Console) : Prop :=
  ∃ es, t.context.executed = s.context.executed ++ es ∧ R s t es

namespace Traceable

variable {R : Console → Console → List (UInt16 × UInt16) → Prop} {t u : Console}

theorem traced_quiet (h : Traceable R) (q : Quiet s t) : Traced R s t :=
  ⟨[], q.executed.trans (List.append_nil _).symm, h.quiet q⟩

theorem traced_trans (h : Traceable R) : Traced R s t → Traced R t u → Traced R s u := by
  rintro ⟨es, first, before⟩ ⟨fs, rest, behind⟩
  exact ⟨es ++ fs, by rw [rest, first, List.append_assoc], h.trans before behind⟩

theorem traced_step (h : Traceable R) (s : Console) : Traced R s s.step.2 := by
  cases hs : s.state.halted with
  | some reason =>
    rw [step_of_halted hs]
    exact h.traced_quiet (.refl s)
  | none => exact ⟨_, executed_step hs, h.step hs⟩

theorem traced_perform (h : Traceable R) (s : Console) (m : Move) : Traced R s (s.perform m).2 := by
  cases m with
  | step => exact h.traced_step s
  | tick count =>
    exact tick_induction (fun t before => h.traced_trans before (h.traced_step t)) count
      (h.traced_quiet (.refl s))
  | poll wait =>
    rw [perform]
    rcases wait.poll_cases s with same | ⟨k, stored⟩
    · rw [same]
      exact h.traced_quiet (.refl s)
    · rw [stored]
      exact h.traced_quiet ⟨Context.executed_emit_of_none rfl, _, _, rfl⟩
  | await wait cancelled =>
    rw [perform]
    rcases wait.await_cases cancelled s with same | ⟨k, stored⟩
    · rw [same]
      exact h.traced_quiet (.refl s)
    · have told : (s.context.tell (.keyReleased k)).executed = s.context.executed :=
        Context.executed_emit_of_none rfl
      rw [stored]
      exact h.traced_quiet ⟨(Context.executed_emit_of_none rfl).trans told, _, _, rfl⟩
  | press n => exact h.traced_quiet ⟨Context.executed_press n, _, _, rfl⟩
  | release n => exact h.traced_quiet ⟨Context.executed_release n, _, _, rfl⟩
  | advance nanos => exact h.traced_quiet ⟨rfl, _, _, rfl⟩

theorem traced_run (h : Traceable R) (ms : List Move) (s : Console) : Traced R s (run ms s) := by
  induction ms generalizing s with
  | nil => exact h.traced_quiet (.refl s)
  | cons m ms ih => exact h.traced_trans (h.traced_perform s m) (ih (s.perform m).2)

end Traceable

end Console

end XoChip
