import XoChip.Proofs.Machine.Isolation

/-!
# What a session stores

The instructions `5XY2`, `FX33` and `FX55` store to the index register and to addresses behind it.
`Session.stores` collects these addresses over a whole session, batches included. A byte to which
nothing is stored stays as it was, whatever else the host does.
-/

namespace XoChip

namespace Console

variable {s : Console} {a : UInt16}

/-- The addresses to which the next step stores. A halted machine stores nothing. -/
def stores (s : Console) : List UInt16 :=
  match s.state.halted with
  | some _ => []
  | none => (List.range (Word.storeCount s.state.word)).map fun k => s.state.i + UInt16.ofNat k

/-- The addresses to which a batch stores. -/
def tickStores : Nat → Console → List UInt16
  | 0, _ => []
  | n + 1, s =>
    s.stores ++
      match s.step with
      | (.ran, t) => if t.endsBatch then [] else tickStores n t
      | _ => []

def moveStores (s : Console) : Move → List UInt16
  | .step => s.stores
  | .tick count => tickStores count s
  | _ => []

theorem stores_eq_nil (stores_none : Word.storeCount s.state.word = 0) : s.stores = [] := by
  unfold stores
  cases s.state.halted with
  | some reason => rfl
  | none => rw [stores_none]; rfl

theorem read_step (spared : a ∉ s.stores) :
    s.step.2.state.memory.read a = s.state.memory.read a := by
  cases running : s.state.halted with
  | some reason => rw [step_of_halted running]
  | none =>
    have untouched : ¬ (Part.byte a).Touched s.state.word s.state.i := by
      rintro ⟨k, lt, rfl⟩
      apply spared
      simp only [stores, running, List.mem_map, List.mem_range]
      exact ⟨k, lt, rfl⟩
    exact same_step running untouched

theorem read_tick {n : Nat} (spared : a ∉ tickStores n s) :
    (tick n s).2.state.memory.read a = s.state.memory.read a := by
  induction n generalizing s with
  | zero => rfl
  | succ n ih =>
    simp only [tickStores, List.mem_append, not_or] at spared
    obtain ⟨first, rest⟩ := spared
    have stays := read_step first
    rw [tick]
    cases result : s.step with
    | mk outcome t =>
      rw [result] at stays rest
      cases outcome with
      | ran =>
        by_cases ends : t.endsBatch
        · simpa [ends] using stays
        · simp only [ends, Bool.false_eq_true, if_false] at rest ⊢
          rw [ih rest, stays]
      | awaits wait => exact stays
      | halts reason => exact stays

theorem read_perform {m : Move} (spared : a ∉ s.moveStores m) :
    (s.perform m).2.state.memory.read a = s.state.memory.read a := by
  cases m with
  | step => exact read_step spared
  | tick count => exact read_tick spared
  | poll wait =>
    rcases wait.poll_cases s with same | ⟨k, stored⟩
    · rw [perform, same]
    · rw [perform, stored]
      rfl
  | await wait cancelled =>
    rcases wait.await_cases cancelled s with same | ⟨k, stored⟩
    · rw [perform, same]
    · rw [perform, stored]
      rfl
  | press n => rfl
  | release n => rfl
  | advance nanos => rfl

end Console

namespace Session

variable {s : Session} {a : UInt16}

def actStores (s : Session) : Act → List UInt16
  | .move m => s.console.moveStores m
  | _ => []

/-- The addresses to which a machine stores in the course of a session. -/
def stores : List Act → Session → List UInt16
  | [], _ => []
  | act :: acts, s => s.actStores act ++ stores acts (s.perform act)

theorem read_perform {act : Act} (spared : a ∉ s.actStores act) :
    (s.perform act).console.state.memory.read a = s.console.state.memory.read a := by
  cases act with
  | move m => exact Console.read_perform spared
  | call | compose | take => rfl

/-- A byte to which nothing is stored stays. -/
theorem read_run {acts : List Act} (spared : a ∉ stores acts s) :
    (run acts s).console.state.memory.read a = s.console.state.memory.read a := by
  induction acts generalizing s with
  | nil => rfl
  | cons act acts ih =>
    rw [stores, List.mem_append, not_or] at spared
    obtain ⟨first, rest⟩ := spared
    rw [run, ih rest, read_perform first]

end Session

end XoChip
