import XoChip.Proofs.Machine.Dialect
import XoChip.Proofs.Machine.Trace

/-!
# Batches

A batch executes as many instructions as it is allowed, unless one of them stops the machine or, in
some dialects, draws. Where the batches of a run end makes no difference to what is executed.
-/

namespace XoChip.Console

variable {s : Console} {n m : Nat}

/-! ## How a batch goes -/

/-- How the last of a number of steps ended. -/
def outcomeAfter : Nat → Console → Outcome
  | 0, _ => .ran
  | k + 1, s => (after k s).step.1

/-- A batch of up to `n` instructions that executes `m`. -/
structure Batch (n : Nat) (s : Console) (m : Nat) : Prop where
  le : m ≤ n
  result : tick n s = (outcomeAfter m s, after m s)
  /-- The instructions before the last one neither stopped the machine nor ended the batch. -/
  goes_on : ∀ k, k + 1 < m → (after k s).step.1 = .ran ∧ (after (k + 1) s).endsBatch = false
  /-- A batch is cut short only by its last instruction. -/
  cut : m < n → ∃ k, k + 1 = m ∧ ((after k s).step.1 ≠ .ran ∨ (after (k + 1) s).endsBatch = true)

theorem Batch.one (result : tick (n + 1) s = s.step)
    (cut : s.step.1 ≠ .ran ∨ s.step.2.endsBatch = true) : Batch (n + 1) s 1 where
  le := Nat.le_add_left 1 n
  result := result
  goes_on := fun k lt => absurd lt (by omega)
  cut := fun _ => ⟨0, rfl, cut⟩

theorem Batch.succ (h : Batch n s.step.2 m) (ran : s.step.1 = .ran)
    (goes_on : s.step.2.endsBatch = false) : Batch (n + 1) s (m + 1) where
  le := Nat.succ_le_succ h.le
  result := by
    rw [tick_succ_of_ran n ran goes_on, h.result, after_succ]
    cases m with
    | zero => simp only [outcomeAfter, after_zero, ran]
    | succ m => rfl
  goes_on := by
    intro k lt
    cases k with
    | zero => exact ⟨ran, goes_on⟩
    | succ k => exact h.goes_on k (by omega)
  cut := by
    intro lt
    obtain ⟨k, rfl, last⟩ := h.cut (by omega)
    exact ⟨k + 1, rfl, last⟩

/-- Every batch executes some number of instructions. -/
theorem exists_batch (n : Nat) (s : Console) : ∃ m, Batch n s m := by
  induction n generalizing s with
  | zero => exact ⟨0, Nat.le_refl 0, rfl, nofun, nofun⟩
  | succ n ih =>
    by_cases ran : s.step.1 = .ran
    · cases ends : s.step.2.endsBatch with
      | true =>
        have result : tick (n + 1) s = s.step := by
          rw [tick_succ_of_endsBatch n ran ends, ← ran]
        exact ⟨1, .one result (.inr ends)⟩
      | false =>
        obtain ⟨m, later⟩ := ih s.step.2
        exact ⟨m + 1, later.succ ran ends⟩
    · exact ⟨1, .one (tick_succ_of_stops n ran) (.inl ran)⟩

/-- The instructions of a batch are announced one by one. -/
theorem Batch.executed (h : Batch n s m) (running : s.state.halted = none) :
    (tick n s).2.context.executed = s.context.executed ++ trail m s := by
  rw [h.result]
  exact executed_after running fun k lt => (h.goes_on k lt).1

/-! ## Batches that do not end with a sprite -/

theorem dialect_after (k : Nat) (s : Console) :
    (after k s).machine.dialect = s.machine.dialect := by
  induction k generalizing s with
  | zero => rfl
  | succ k ih => rw [after_succ, ih, dialect_step]

theorem endsBatch_after (off : s.machine.dialect.vsyncDraw = false) (k : Nat) :
    (after k s).endsBatch = false := by
  rw [endsBatch, dialect_after, off, Bool.and_false]

/-- The first instruction that stops the machine, by waiting or by halting, is the one at which step
    `k` begins, counted from zero. -/
def StopsFirst (s : Console) (k : Nat) : Prop :=
  (∀ j, j < k → (after j s).step.1 = .ran) ∧ (after k s).step.1 ≠ .ran

/-- A batch that does not end with a sprite is cut short by the first instruction that stops the
    machine. -/
theorem Batch.stopsFirst (h : Batch n s m) (off : s.machine.dialect.vsyncDraw = false)
    (short : m < n) : ∃ k, k + 1 = m ∧ s.StopsFirst k := by
  obtain ⟨k, rfl, last⟩ := h.cut short
  rw [endsBatch_after off] at last
  refine ⟨k, rfl, ?_, last.resolve_right nofun⟩
  intro j lt
  exact (h.goes_on j (by omega)).1

theorem StopsFirst.unique {j k : Nat} (hj : s.StopsFirst j) (hk : s.StopsFirst k) : j = k := by
  rcases Nat.lt_trichotomy j k with lt | eq | gt
  · exact absurd (hk.1 j lt) hj.2
  · exact eq
  · exact absurd (hj.1 k gt) hk.2

theorem Batch.eq_min (h : Batch n s m) (off : s.machine.dialect.vsyncDraw = false) {k : Nat}
    (stops : s.StopsFirst k) : m = min n (k + 1) := by
  rcases Nat.lt_or_ge m n with short | full
  · obtain ⟨j, rfl, first⟩ := h.stopsFirst off short
    rw [first.unique stops] at short ⊢
    omega
  · have eq : m = n := Nat.le_antisymm h.le full
    have le : n ≤ k + 1 := by
      apply Nat.le_of_not_lt
      intro lt
      exact stops.2 (h.goes_on k (by omega)).1
    omega

theorem Batch.eq_of_never (h : Batch n s m) (off : s.machine.dialect.vsyncDraw = false)
    (never : ∀ k, ¬ s.StopsFirst k) : m = n := by
  rcases Nat.lt_or_ge m n with short | full
  · obtain ⟨k, -, first⟩ := h.stopsFirst off short
    exact absurd first (never k)
  · exact Nat.le_antisymm h.le full

/-- Steps of which all but the last have run make a batch of their own. -/
theorem tick_eq_after (off : s.machine.dialect.vsyncDraw = false)
    (ran : ∀ k, k + 1 < m → (after k s).step.1 = .ran) :
    tick m s = (outcomeAfter m s, after m s) := by
  obtain ⟨l, batch⟩ := exists_batch m s
  rcases Nat.lt_or_ge l m with short | full
  · obtain ⟨k, rfl, first⟩ := batch.stopsFirst off short
    exact absurd (ran k short) first.2
  · rw [batch.result, Nat.le_antisymm batch.le full]

/-- One batch after the other, until one of them stops the machine. -/
def batches : List Nat → Console → Outcome × Console
  | [], s => (.ran, s)
  | n :: ns, s =>
    match tick n s with
    | (.ran, s) => batches ns s
    | result => result

theorem tick_add (off : s.machine.dialect.vsyncDraw = false) (m n : Nat) :
    tick (m + n) s =
      match tick m s with
      | (.ran, s) => tick n s
      | result => result := by
  induction m generalizing s with
  | zero => rw [Nat.zero_add, tick]
  | succ m ih =>
    rw [Nat.succ_add]
    by_cases ran : s.step.1 = .ran
    · have goes_on : s.step.2.endsBatch = false := endsBatch_after off 1
      rw [tick_succ_of_ran _ ran goes_on, tick_succ_of_ran _ ran goes_on]
      apply ih
      rw [dialect_step]
      exact off
    · rw [tick_succ_of_stops _ ran, tick_succ_of_stops _ ran]
      generalize s.step = result at ran
      obtain ⟨outcome, after⟩ := result
      cases outcome with
      | ran => exact absurd rfl ran
      | awaits | halts => rfl

/-- Where a run is cut into batches makes no difference. -/
theorem batches_eq_tick (off : s.machine.dialect.vsyncDraw = false) (ns : List Nat) :
    batches ns s = tick (ns.foldr (· + ·) 0) s := by
  induction ns generalizing s with
  | nil => rfl
  | cons n ns ih =>
    have dialect : (tick n s).2.machine.dialect = s.machine.dialect := dialect_perform s (.tick n)
    rw [List.foldr_cons, tick_add off, batches]
    generalize tick n s = result at dialect
    obtain ⟨outcome, t⟩ := result
    cases outcome with
    | ran =>
      apply ih
      rw [dialect]
      exact off
    | awaits | halts => rfl

/-! ## Batches that end with a sprite -/

/-- What the machine remembers of a step is whether it drew a sprite. -/
theorem drew_step (running : s.state.halted = none) :
    s.step.2.machine.drew = true ↔ Word.family s.state.word = 0xD := by
  constructor
  · intro drew
    rcases step_cases running with ⟨reason, refused⟩ | ⟨i, stands, -, executed⟩
    · rw [refused] at drew
      cases drew
    · rw [executed, machine_execute] at drew
      dsimp only at drew
      split at drew
      · rw [← Instruction.encode_of_decode? stands]
        exact Word.family_ofNibbles
      · cases drew
  · intro family
    rw [step_of_stands running (Instruction.decode?_of_family_draw family) trivial]
    rfl

theorem halted_after (running : s.state.halted = none) {k : Nat}
    (ran : ∀ j, j < k → (after j s).step.1 = .ran) : (after k s).state.halted = none := by
  induction k with
  | zero => exact running
  | succ k _ =>
    rw [after_succ_eq_step]
    exact halted_of_ran (ran k (Nat.lt_succ_self k))

/-- A sprite ends a batch, in the dialects in which sprites do. -/
theorem Batch.draws_last (h : Batch n s m) (on : s.machine.dialect.vsyncDraw = true)
    (running : s.state.halted = none) {k : Nat} (lt : k < m)
    (draws : Word.family (after k s).state.word = 0xD) : k + 1 = m := by
  rcases Nat.eq_or_lt_of_le (Nat.succ_le_of_lt lt) with last | more
  · exact last
  · obtain ⟨-, goes_on⟩ := h.goes_on k more
    have running_k : (after k s).state.halted = none :=
      halted_after running fun j hj => (h.goes_on j (by omega)).1
    rw [endsBatch, dialect_after, on, Bool.and_true, after_succ_eq_step,
      (drew_step running_k).2 draws] at goes_on
    cases goes_on

/-- A batch is cut short by a sprite or by an instruction that stops the machine. -/
theorem Batch.draws_or_stops (h : Batch n s m) (running : s.state.halted = none) (short : m < n) :
    (∃ k, k + 1 = m ∧ Word.family (after k s).state.word = 0xD) ∨ (tick n s).1 ≠ .ran := by
  obtain ⟨k, rfl, stops | ends⟩ := h.cut short
  · right
    rw [h.result]
    exact stops
  · left
    refine ⟨k, rfl, ?_⟩
    have running_k : (after k s).state.halted = none :=
      halted_after running fun j hj => (h.goes_on j (by omega)).1
    rw [endsBatch, after_succ_eq_step, Bool.and_eq_true] at ends
    exact (drew_step running_k).1 ends.1

/-- Steps do not depend on whether sprites end batches. -/
theorem step_withDialect_of_ne {e : Dialect}
    (agree : ∀ t, t ≠ .vsyncDraw → e.get t = s.machine.dialect.get t) :
    (s.withDialect e).step = (s.step.1, s.step.2.withDialect e) :=
  step_withDialect fun t governs => agree t governs.ne_vsyncDraw

theorem after_withDialect {e : Dialect}
    (agree : ∀ t, t ≠ .vsyncDraw → e.get t = s.machine.dialect.get t) (k : Nat) :
    after k (s.withDialect e) = (after k s).withDialect e := by
  induction k generalizing s with
  | zero => rfl
  | succ k ih =>
    rw [after_succ, after_succ, step_withDialect_of_ne agree]
    apply ih
    rw [dialect_step]
    exact agree

theorem outcome_after_withDialect {e : Dialect}
    (agree : ∀ t, t ≠ .vsyncDraw → e.get t = s.machine.dialect.get t) (k : Nat) :
    (after k (s.withDialect e)).step.1 = (after k s).step.1 := by
  have agree_k : ∀ t, t ≠ .vsyncDraw → e.get t = (after k s).machine.dialect.get t := by
    rw [dialect_after]
    exact agree
  rw [after_withDialect agree, step_withDialect_of_ne agree_k]

theorem Batch.tick_withDialect (h : Batch n s m) {e : Dialect} (off : e.vsyncDraw = false)
    (agree : ∀ t, t ≠ .vsyncDraw → e.get t = s.machine.dialect.get t) :
    tick m (s.withDialect e) = ((tick n s).1, (tick n s).2.withDialect e) := by
  have ran : ∀ k, k + 1 < m → (after k (s.withDialect e)).step.1 = .ran := by
    intro k lt
    rw [outcome_after_withDialect agree]
    exact (h.goes_on k lt).1
  have outcome : outcomeAfter m (s.withDialect e) = outcomeAfter m s := by
    cases m with
    | zero => rfl
    | succ k => exact outcome_after_withDialect agree k
  rw [tick_eq_after off ran, h.result, outcome, after_withDialect agree]

/-- Where batches end makes no difference to what is executed. If sprites do not end batches,
    batches can be put together, and a batch executes all instructions up to the first one that
    waits or halts. If they do, a batch is a shorter one of a machine on which they do not, and a
    sprite is the last instruction of it. -/
theorem batches_exact (s : Console) :
    (s.machine.dialect.vsyncDraw = false →
      (∀ ns, batches ns s = tick (ns.foldr (· + ·) 0) s) ∧
        (s.state.halted = none → ∀ n, ∃ m,
          (tick n s).2.context.executed = s.context.executed ++ trail m s ∧
            (∀ k, s.StopsFirst k → m = min n (k + 1)) ∧ ((∀ k, ¬ s.StopsFirst k) → m = n))) ∧
    (s.machine.dialect.vsyncDraw = true → s.state.halted = none → ∀ n, ∃ m, m ≤ n ∧
      (tick n s).2.context.executed = s.context.executed ++ trail m s ∧
      (∀ k, k < m → Word.family (after k s).state.word = 0xD → k + 1 = m) ∧
      (m = n ∨ (∃ k, k + 1 = m ∧ Word.family (after k s).state.word = 0xD) ∨
        (tick n s).1 ≠ .ran) ∧
      let e := s.machine.dialect.set .vsyncDraw false
      tick m (s.withDialect e) = ((tick n s).1, (tick n s).2.withDialect e)) := by
  constructor
  · intro off
    refine ⟨batches_eq_tick off, ?_⟩
    intro running n
    obtain ⟨m, batch⟩ := exists_batch n s
    exact ⟨m, batch.executed running, fun k stops => batch.eq_min off stops,
      batch.eq_of_never off⟩
  · intro on running n
    obtain ⟨m, batch⟩ := exists_batch n s
    refine ⟨m, batch.le, batch.executed running, ?_, ?_, ?_⟩
    · intro k lt draws
      exact batch.draws_last on running lt draws
    · rcases Nat.lt_or_ge m n with short | full
      · exact .inr (batch.draws_or_stops running short)
      · exact .inl (Nat.le_antisymm batch.le full)
    · apply batch.tick_withDialect
      · rfl
      · intro t ne
        rw [Dialect.get_set, if_neg (Ne.symm ne)]

/-- A program that draws a sprite before it exits. Three batches of it are one; if sprites end
    batches, a batch that is long enough for all of it is one of two instructions. -/
theorem batches_exact_sprite :
    let s := ready [0x60, 0x05, 0xD0, 0x01, 0x60, 0x07, 0x00, 0xFD] Registers.blank
    let t := s.withDialect { vsyncDraw := true }
    s.machine.dialect.vsyncDraw = false ∧ batches [1, 0, 2] s = tick 3 s ∧
      t.machine.dialect.vsyncDraw = true ∧ t.state.halted = none ∧
      (tick 9 t).2.context.executed = [(0x200, 0x6005), (0x202, 0xD001)] ∧
      tick 2 s = ((tick 9 t).1, (tick 9 t).2.withDialect {}) := by
  intro s t
  have executed : (tick 9 t).2.context.executed = [(0x200, 0x6005), (0x202, 0xD001)] := by
    decide +kernel
  obtain ⟨m, -, told, -, -, same⟩ := (batches_exact t).2 rfl rfl 9
  have two : m = 2 := by
    have length_eq := congrArg List.length told
    rw [executed, List.length_append, length_trail] at length_eq
    exact (Nat.zero_add m).symm.trans length_eq.symm
  subst two
  exact ⟨rfl, ((batches_exact s).1 rfl).1 [1, 0, 2], rfl, rfl, executed, same⟩

end XoChip.Console
