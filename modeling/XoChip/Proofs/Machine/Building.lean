import XoChip.Proofs.Machine.Stores
import XoChip.Proofs.Snapshot.Restore

/-!
# Building a machine is all or nothing

A machine is built in surroundings that it shares with its host. `Blueprint.buildIn?` takes the
steps one after the other, as the surroundings see them: the display is only given up when nothing
can fail any more, and a copy into memory for which there is no room has no result. It always has a
result, and it is that of `Blueprint.build`. A machine with a program has its memory laid out
exactly, and the glyphs in it are found where instructions look for them, until something is stored
there.
-/

namespace XoChip

/-! ## Copies into memory -/

namespace Memory

/-- Write bytes over those from `start` on, if there is room for them. -/
def copyTo? (m : Memory) (start : Nat) (bytes : List UInt8) : Option Memory :=
  if h : start + bytes.length ≤ m.bytes.size then
    some
      { bytes :=
          m.bytes.extract 0 start ++ bytes.toArray ++
            m.bytes.extract (start + bytes.length) m.bytes.size
        size_bytes := by
          have size := m.size_bytes
          simp only [Array.size_append, Array.size_extract, List.size_toArray]
          omega }
  else none

/-- What a write leaves that does not come round to the first address. -/
theorem read_writeMany_of_fits (m : Memory) {a : UInt16} {bytes : List UInt8}
    (fits : a.toNat + bytes.length ≤ 0x10000) (b : UInt16) :
    (m.writeMany a bytes).read b =
      if a.toNat ≤ b.toNat ∧ b.toNat < a.toNat + bytes.length then bytes.getD (b.toNat - a.toNat) 0
      else m.read b := by
  have ha := a.toNat_lt
  have hb := b.toNat_lt
  have distance := UInt16.toNat_sub b a
  rw [read_writeMany _ _ _ (by omega)]
  by_cases within : a.toNat ≤ b.toNat ∧ b.toNat < a.toNat + bytes.length
  · have offset : (b - a).toNat = b.toNat - a.toNat := by omega
    have inside : b.toNat - a.toNat < bytes.length := by omega
    simp [within, offset, inside]
  · have outside : bytes[(b - a).toNat]? = none := List.getElem?_eq_none (by omega)
    rw [if_neg within, outside]
    rfl

/-- What is written over a part of an array is read there, and nowhere else. -/
theorem getElem?_splice {α : Type} {xs : Array α} {ys : List α} {start : Nat}
    (fits : start + ys.length ≤ xs.size) (k : Nat) :
    (xs.extract 0 start ++ ys.toArray ++ xs.extract (start + ys.length) xs.size)[k]? =
      if start ≤ k ∧ k < start + ys.length then ys[k - start]? else xs[k]? := by
  have front : (xs.extract 0 start).size = start := by
    rw [Array.size_extract]
    omega
  simp only [Array.getElem?_append, Array.size_append, front, List.size_toArray,
    Array.getElem?_extract, List.getElem?_toArray]
  by_cases before : k < start
  · have earlier : k < start + ys.length := by omega
    have inside : k < min start xs.size - 0 := by omega
    simp only [earlier, before, inside, Nat.not_le.2 before, Nat.zero_add, if_true, false_and,
      if_false]
  · by_cases within : k < start + ys.length
    · simp [before, within, Nat.not_lt.1 before]
    · have back : start + ys.length + (k - (start + ys.length)) = k := by omega
      simp only [within, if_false, and_false, back]
      split
      · rfl
      · rw [Array.getElem?_eq_none (by omega)]

/-- Bytes that fit are written from an address on, without coming round to the first one. -/
theorem copyTo?_eq (m : Memory) {a : UInt16} {bytes : List UInt8}
    (fits : a.toNat + bytes.length ≤ 0x10000) :
    m.copyTo? a.toNat bytes = some (m.writeMany a bytes) := by
  have room : a.toNat + bytes.length ≤ m.bytes.size := by rwa [m.size_bytes]
  rw [copyTo?, dif_pos room, Option.some.injEq]
  apply Memory.ext
  intro b
  rw [read_writeMany_of_fits m fits, ← Option.some_inj, ← read?_eq]
  show (m.bytes.extract 0 a.toNat ++ bytes.toArray ++
    m.bytes.extract (a.toNat + bytes.length) m.bytes.size)[b.toNat]? = _
  rw [getElem?_splice room]
  by_cases within : a.toNat ≤ b.toNat ∧ b.toNat < a.toNat + bytes.length
  · have inside : b.toNat - a.toNat < bytes.length := by omega
    simp [within, inside]
  · rw [if_neg within, if_neg within]
    exact m.read?_eq b

end Memory

/-! ## Machines with a program -/

theorem Registers.get_blank (r : Register) : blank.get r = 0 := Vector.getElem_replicate r.isLt

namespace State

/-- Load a program into a machine that shares its display. The display is given up once the program
    is known to fit. -/
def loadOnto? (program : List UInt8) (now : Nat) (d : Display) :
    Option (Except Error State × Display) :=
  if programMax < program.length then
    some (.error (.programTooLarge program.length programMax), d)
  else do
    let s := State.blank now
    let d := Display.reset
    let memory ← s.memory.copyTo? Font.smallStart.toNat Font.small
    let memory ← memory.copyTo? Font.largeStart.toNat Font.large
    let memory ← memory.copyTo? programStart.toNat program
    return (.ok { s with memory }, d)

/-- The copies all fit, so that nothing but the length of a program decides. -/
theorem loadOnto?_eq (program : List UInt8) (now : Nat) (d : Display) :
    loadOnto? program now d =
      some (match load program now with
        | .ok s => (.ok s, Display.reset)
        | .error cause => (.error cause, d)) := by
  unfold loadOnto? load
  by_cases large : programMax < program.length
  · rw [if_pos large, if_neg (Nat.not_le.2 large)]
  · have fits : program.length ≤ programMax := Nat.le_of_not_lt large
    have room : programStart.toNat + program.length ≤ 0x10000 := by
      have max : programMax = 65024 := rfl
      have start : programStart.toNat = 512 := rfl
      omega
    have room_small : Font.smallStart.toNat + Font.small.length ≤ 0x10000 := by
      rw [Font.length_small]
      decide
    have room_large : Font.largeStart.toNat + Font.large.length ≤ 0x10000 := by
      rw [Font.length_large]
      decide
    rw [if_neg large, if_pos fits]
    simp only [Memory.copyTo?_eq _ room_small, Memory.copyTo?_eq _ room_large,
      Memory.copyTo?_eq _ room, Option.bind_eq_bind, Option.bind_some, Option.pure_def]
    rfl

/-- The byte that a machine with a program has at an address: both alphabets, the program behind
    them, and zero everywhere else. -/
def layout (program : List UInt8) (a : UInt16) : UInt8 :=
  let k := a.toNat
  if k < 80 then Font.small.getD k 0
  else if 0x100 ≤ k ∧ k < 0x100 + 160 then Font.large.getD (k - 0x100) 0
  else if 0x200 ≤ k ∧ k < 0x200 + program.length then program.getD (k - 0x200) 0
  else 0

/-- What a machine is like that has a program and has not run. -/
structure Fresh (s : State) (program : List UInt8) : Prop where
  memory : ∀ a, s.memory.read a = layout program a
  pc : s.pc = 0x200
  v : ∀ r : Register, s.get r = 0
  flags : ∀ r : Register, s.flags.get r = 0
  slots : ∀ k : Fin 64, s.stack.slots.get k = 0
  depth : s.stack.depth = 0
  i : s.i = 0
  halted : s.halted = none
  delay : ∀ now, s.delay.left now = 0

theorem load_of_large {program : List UInt8} (large : 65024 < program.length) (now : Nat) :
    load program now = .error (.programTooLarge program.length 65024) :=
  if_neg (Nat.not_le.2 large)

theorem exists_load {program : List UInt8} (fits : program.length ≤ 65024) (now : Nat) :
    ∃ s, load program now = .ok s :=
  ⟨_, if_pos fits⟩

theorem read_load {program : List UInt8} {now : Nat} {s : State}
    (loaded : load program now = .ok s) (a : UInt16) : s.memory.read a = layout program a := by
  unfold load at loaded
  split at loaded
  · next fits =>
    cases loaded
    have max : programMax = 65024 := rfl
    have small : Font.smallStart.toNat = 0 := rfl
    have large : Font.largeStart.toNat = 0x100 := rfl
    have start : programStart.toNat = 0x200 := rfl
    have length_small := Font.length_small
    have length_large := Font.length_large
    dsimp only
    rw [Memory.read_writeMany_of_fits _ (by omega), Memory.read_writeMany_of_fits _ (by omega),
      Memory.read_writeMany_of_fits _ (by omega), Memory.read_blank, small, large, start,
      length_small, length_large, layout]
    -- The three areas are apart, so that the order of the copies does not matter.
    by_cases first : a.toNat < 80
    · simp [first, Nat.not_le.2 (Nat.lt_trans first (by decide : 80 < 0x100)),
        Nat.not_le.2 (Nat.lt_trans first (by decide : 80 < 0x200))]
    by_cases second : 0x100 ≤ a.toNat ∧ a.toNat < 0x100 + 160
    · have before : ¬ 0x200 ≤ a.toNat := by omega
      simp [first, second, before]
    · simp [first, second]
  · cases loaded

theorem fresh_of_load {program : List UInt8} {now : Nat} {s : State}
    (loaded : load program now = .ok s) : s.Fresh program := by
  have read := read_load loaded
  unfold load at loaded
  split at loaded
  · cases loaded
    refine ⟨read, rfl, Registers.get_blank, Registers.get_blank, ?_, rfl, rfl, rfl, ?_⟩
    · intro k
      exact Vector.getElem_replicate k.isLt
    · intro now'
      rw [← UInt8.toNat_inj, Timer.toNat_left]
      exact Nat.zero_sub _
  · cases loaded

end State

/-! ## Glyphs -/

namespace Font

/-- The alphabets in memory. -/
inductive Alphabet
  | small
  | large
  deriving DecidableEq, Repr

namespace Alphabet

/-- The low byte of the instructions that look a glyph up: `FX29` and `FX30`. -/
def selector : Alphabet → UInt8
  | small => 0x29
  | large => 0x30

/-- How many bytes a glyph has. -/
def height : Alphabet → Nat
  | small => 5
  | large => 10

def start : Alphabet → UInt16
  | small => smallStart
  | large => largeStart

def table : Alphabet → List UInt8
  | small => Font.small
  | large => Font.large

def address : Alphabet → UInt8 → UInt16
  | small => smallAddress
  | large => largeAddress

def glyph : Alphabet → UInt8 → List UInt8
  | small => smallGlyph
  | large => largeGlyph

theorem length_table (alphabet : Alphabet) : alphabet.table.length = 16 * alphabet.height := by
  cases alphabet with
  | small => exact length_small
  | large => exact length_large

theorem address_eq (alphabet : Alphabet) (d : UInt8) :
    alphabet.address d = alphabet.start + UInt16.ofNat (digit d * alphabet.height) := by
  cases alphabet <;> rfl

theorem glyph_eq (alphabet : Alphabet) (d : UInt8) :
    alphabet.glyph d = (alphabet.table.drop (digit d * alphabet.height)).take alphabet.height := by
  cases alphabet <;> rfl

variable (alphabet : Alphabet) (d : UInt8) {k : Nat}

/-- The lines of a glyph are within the table. -/
theorem line_lt (lt : k < alphabet.height) :
    digit d * alphabet.height + k < alphabet.table.length := by
  have digit_lt : digit d < 16 := Nat.mod_lt _ (by decide)
  calc digit d * alphabet.height + k
    _ < digit d * alphabet.height + alphabet.height := Nat.add_lt_add_left lt _
    _ = (digit d + 1) * alphabet.height := (Nat.succ_mul _ _).symm
    _ ≤ 16 * alphabet.height := Nat.mul_le_mul_right _ digit_lt
    _ = alphabet.table.length := alphabet.length_table.symm

theorem start_add_length_table_le :
    alphabet.start.toNat + alphabet.table.length ≤ programStart.toNat := by
  rw [length_table]
  cases alphabet <;> decide

/-- A line of a glyph stands where its alphabet has it. The sums do not wrap around. -/
theorem toNat_address_add (lt : k < alphabet.height) :
    (alphabet.address d + UInt16.ofNat k).toNat =
      alphabet.start.toNat + (digit d * alphabet.height + k) := by
  have within := alphabet.line_lt d lt
  have below := alphabet.start_add_length_table_le
  have start : programStart.toNat = 0x200 := rfl
  rw [address_eq, UInt16.add_assoc, ← UInt16.ofNat_add, UInt16.toNat_add, UInt16.toNat_ofNat']
  omega

theorem getElem?_glyph (lt : k < alphabet.height) :
    (alphabet.glyph d)[k]? = alphabet.table[digit d * alphabet.height + k]? := by
  rw [glyph_eq, List.getElem?_take_of_lt lt, List.getElem?_drop]

theorem length_glyph : (alphabet.glyph d).length = alphabet.height := by
  have first : 0 < alphabet.height := by cases alphabet <;> decide
  have last := alphabet.line_lt d (Nat.sub_lt first Nat.one_pos)
  rw [glyph_eq, List.length_take, List.length_drop]
  omega

/-- A machine with a program has both tables in their places. -/
theorem layout_start_add (program : List UInt8) {a : UInt16} {j : Nat}
    (lt : j < alphabet.table.length) (place : a.toNat = alphabet.start.toNat + j) :
    State.layout program a = alphabet.table[j] := by
  have length := alphabet.length_table
  have entry : alphabet.table.getD j 0 = alphabet.table[j] := (List.getElem_eq_getD 0).symm
  rw [← entry, State.layout, place]
  cases alphabet with
  | small =>
    have start : Alphabet.small.start.toNat = 0 := rfl
    have height : small.height = 5 := rfl
    have first : j < 80 := by omega
    rw [start, Nat.zero_add, if_pos first]
    rfl
  | large =>
    have start : large.start.toNat = 0x100 := rfl
    have height : large.height = 10 := rfl
    have behind : ¬ 0x100 + j < 80 := by omega
    have second : 0x100 ≤ 0x100 + j ∧ 0x100 + j < 0x100 + 160 := by omega
    rw [start, if_neg behind, if_pos second, Nat.add_sub_cancel_left]
    rfl

/-- A machine with a program has every glyph in its place. -/
theorem layout_address_add (program : List UInt8) (lt : k < alphabet.height) :
    (alphabet.glyph d)[k]? = some (State.layout program (alphabet.address d + UInt16.ofNat k)) := by
  have within := alphabet.line_lt d lt
  rw [getElem?_glyph alphabet d lt, List.getElem?_eq_getElem within,
    layout_start_add alphabet program within (alphabet.toNat_address_add d lt)]

/-- Bytes that are laid out as in a machine with a program make up a glyph. -/
theorem readMany_address {m : Memory} {program : List UInt8}
    (laid : ∀ k, k < alphabet.height →
      m.read (alphabet.address d + UInt16.ofNat k) =
        State.layout program (alphabet.address d + UInt16.ofNat k)) :
    m.readMany (alphabet.address d) alphabet.height = alphabet.glyph d := by
  apply List.ext_getElem?
  intro k
  by_cases lt : k < alphabet.height
  · rw [Memory.getElem?_readMany _ _ lt, laid k lt, layout_address_add alphabet d program lt]
  · rw [List.getElem?_eq_none (by rw [Memory.length_readMany]; omega),
      List.getElem?_eq_none (by rw [length_glyph]; omega)]

end Alphabet

end Font

/-- `FX29` and `FX30` put the address of a glyph into the index register. -/
theorem Console.index_step_of_selector {s : Console} (alphabet : Font.Alphabet)
    (running : s.state.halted = none) (family : Word.family s.state.word = 0xF)
    (selects : Word.nn s.state.word = alphabet.selector) :
    s.step.2.state.i = alphabet.address (s.state.get (Word.x s.state.word)) := by
  cases alphabet with
  | small =>
    have stands : Instruction.decode? s.state.word = some (.smallGlyph (Word.x s.state.word)) :=
      Instruction.decode?_eq_some_iff.2 ⟨Word.ofByte_of family rfl selects, trivial⟩
    rw [step_of_stands running stands trivial]
    rfl
  | large =>
    have stands : Instruction.decode? s.state.word = some (.largeGlyph (Word.x s.state.word)) :=
      Instruction.decode?_eq_some_iff.2 ⟨Word.ofByte_of family rfl selects, trivial⟩
    rw [step_of_stands running stands trivial]
    rfl

namespace Session

/-- Wherever in a session the machine executes `FX29` or `FX30`, it finds the glyph for `VX`, and
    finds it there for as long as nothing has been stored to its bytes. A batch is a number of
    steps, so taking it step by step comes by each of them. -/
def KeepsGlyphs (s : Session) : Prop :=
  ∀ (alphabet : Font.Alphabet) (before later : List Act),
    let t := (run before s).console
    let d := t.state.get (Word.x t.state.word)
    let acts := before ++ .move .step :: later
    t.state.halted = none → Word.family t.state.word = 0xF →
      Word.nn t.state.word = alphabet.selector →
      t.step.2.state.i = alphabet.address d ∧
        ((∀ k, k < alphabet.height → t.step.2.state.i + UInt16.ofNat k ∉ stores acts s) →
          (run acts s).console.state.memory.readMany t.step.2.state.i alphabet.height =
            alphabet.glyph d)

theorem keepsGlyphs_of_fresh {s : Session} {program : List UInt8}
    (fresh : s.console.state.Fresh program) : s.KeepsGlyphs := by
  intro alphabet before later t d acts running family selects
  have index : t.step.2.state.i = alphabet.address d :=
    Console.index_step_of_selector alphabet running family selects
  refine ⟨index, ?_⟩
  intro spared
  rw [index] at spared ⊢
  apply alphabet.readMany_address d
  intro k lt
  rw [read_run (spared k lt), fresh.memory]

end Session

/-! ## Building in shared surroundings -/

namespace Blueprint

variable (b : Blueprint)

/-- The state that a blueprint asks for, on a display that the machine shares with its host. -/
def startOnto? (now : Nat) (d : Display) : Option (Except Error State × Display) :=
  match b.snapshot, b.program with
  | some snapshot, _ =>
    let (result, d) := snapshot.restoreOnto now d
    some (result.mapError .invalidSnapshot, d)
  | none, some program => State.loadOnto? program now d
  | none, none => some (.error .missingProgram, d)

/-- Build a machine in surroundings that it shares with its host, with a generator of its own. -/
def buildIn? (random : Random) (c : Context) : Option (Except Error Machine × Context) := do
  let (result, display) ← b.startOnto? c.clock.now c.display
  return (result.map fun state => { state, dialect := b.dialect, random }, { c with display })

theorem startOnto?_eq (now : Nat) (d : Display) :
    b.startOnto? now d =
      some (match b.start now with
        | .ok (state, display) => (.ok state, display)
        | .error cause => (.error cause, d)) := by
  unfold startOnto? start
  cases b.snapshot with
  | some snapshot =>
    dsimp only
    rw [Snapshot.restoreOnto_eq]
    cases snapshot.restore now <;> rfl
  | none =>
    cases b.program with
    | none => rfl
    | some program =>
      dsimp only
      rw [State.loadOnto?_eq]
      cases State.load program now <;> rfl

/-- How a build goes, and what becomes of the surroundings. -/
def outcome (random : Random) (c : Context) : Except Error Machine × Context :=
  match b.start c.clock.now with
  | .ok (state, display) => (.ok { state, dialect := b.dialect, random }, { c with display })
  | .error cause => (.error cause, c)

variable {random : Random} {c : Context}

/-- A build always has a result. -/
theorem buildIn?_eq : b.buildIn? random c = some (b.outcome random c) := by
  rw [buildIn?, startOnto?_eq, outcome]
  cases b.start c.clock.now <;> rfl

theorem outcome_of_ok {state : State} {display : Display}
    (started : b.start c.clock.now = .ok (state, display)) :
    b.outcome random c =
      (.ok { state, dialect := b.dialect, random }, { c with display }) := by
  rw [outcome, started]

theorem outcome_of_error {cause : Error} (failed : b.start c.clock.now = .error cause) :
    b.outcome random c = (.error cause, c) := by
  rw [outcome, failed]

/-- A failed build leaves the surroundings alone, and one that succeeds only sets the display. -/
theorem outcome_cases :
    (∃ cause, b.outcome random c = (.error cause, c)) ∨
      ∃ state display, b.outcome random c =
        (.ok { state, dialect := b.dialect, random }, { c with display }) := by
  cases started : b.start c.clock.now with
  | error cause => exact .inl ⟨cause, b.outcome_of_error started⟩
  | ok result => exact .inr ⟨result.1, result.2, b.outcome_of_ok started⟩

theorem build_eq (seeded : random = .ofSeed b.seed) :
    b.build c = (b.outcome random c).1.map fun m => ⟨m, (b.outcome random c).2⟩ := by
  rw [build, outcome, seeded]
  cases b.start c.clock.now <;> rfl

section Snapshot

variable {b} {snapshot : Snapshot} (given : b.snapshot = some snapshot)
include given

theorem outcome_of_refused {flaw : SnapshotFlaw}
    (refused : snapshot.restore c.clock.now = .error flaw) :
    b.outcome random c = (.error (.invalidSnapshot flaw), c) := by
  apply outcome_of_error
  simp only [start, given, refused]

theorem outcome_of_restored {state : State} {display : Display}
    (restored : snapshot.restore c.clock.now = .ok (state, display)) :
    b.outcome random c =
      (.ok { state, dialect := b.dialect, random }, { c with display }) := by
  apply outcome_of_ok
  simp only [start, given, restored]

/-- Beside a snapshot the program does not matter. -/
theorem outcome_withProgram (program : Option (List UInt8)) :
    ({ b with program } : Blueprint).outcome random c = b.outcome random c := by
  have given' : ({ b with program } : Blueprint).snapshot = some snapshot := given
  cases restored : snapshot.restore c.clock.now with
  | error flaw => rw [outcome_of_refused given restored, outcome_of_refused given' restored]
  | ok result => rw [outcome_of_restored given restored, outcome_of_restored given' restored]

end Snapshot

section Program

variable {b} {program : List UInt8} (alone : b.snapshot = none) (given : b.program = some program)
include alone given

theorem outcome_of_large (large : 65024 < program.length) :
    b.outcome random c = (.error (.programTooLarge program.length 65024), c) := by
  apply outcome_of_error
  simp only [start, alone, given, State.load_of_large large]

theorem outcome_of_fits (fits : program.length ≤ 65024) :
    ∃ state, state.Fresh program ∧
      b.outcome random c =
        (.ok { state, dialect := b.dialect, random }, { c with display := Display.reset }) := by
  obtain ⟨state, loaded⟩ := State.exists_load fits c.clock.now
  refine ⟨state, State.fresh_of_load loaded, ?_⟩
  apply outcome_of_ok
  simp only [start, alone, given, loaded]

end Program

theorem outcome_of_nothing (alone : b.snapshot = none) (none_given : b.program = none) :
    b.outcome random c = (.error .missingProgram, c) := by
  apply outcome_of_error
  simp only [start, alone, none_given]

/-- Building a machine is all or nothing. A build always has a result. A failure leaves the
    surroundings as they were; success changes nothing of them but the display. A snapshot decides
    alone, whatever the program; a program fails exactly if it is too large, and without either
    there is no machine. A machine with a program starts on a display that has been reset, with its
    memory laid out exactly, and keeps the glyphs to which nothing is stored. -/
theorem build_all_or_nothing (b : Blueprint) (random : Random) (c : Context) :
    ∃ result after, b.buildIn? random c = some (result, after) ∧
      (random = .ofSeed b.seed → b.build c = result.map fun m => ⟨m, after⟩) ∧
      (∀ cause, result = .error cause → after = c) ∧
      (∀ m, result = .ok m →
        after = { c with display := after.display } ∧
          m = { state := m.state, dialect := b.dialect, random }) ∧
      (∀ snapshot, b.snapshot = some snapshot →
        (∀ program, ({ b with program } : Blueprint).buildIn? random c = some (result, after)) ∧
        (∀ flaw, snapshot.restore c.clock.now = .error flaw →
          result = .error (.invalidSnapshot flaw)) ∧
        ∀ state display, snapshot.restore c.clock.now = .ok (state, display) →
          after.display = display ∧ ∃ m, result = .ok m ∧ m.state = state) ∧
      (∀ program, b.snapshot = none → b.program = some program →
        (result = .error (.programTooLarge program.length 65024) ↔ 65024 < program.length) ∧
        (program.length ≤ 65024 → ∃ m, result = .ok m ∧
          after.display = { hires := false, selection := 1, frame := .blank .lores } ∧
          m.state.Fresh program ∧
          Session.KeepsGlyphs { console := ⟨m, after⟩ })) ∧
      (b.snapshot = none → b.program = none → result = .error .missingProgram) := by
  refine ⟨(b.outcome random c).1, (b.outcome random c).2, b.buildIn?_eq, b.build_eq,
    ?_, ?_, ?_, ?_, ?_⟩
  · intro cause failed
    rcases b.outcome_cases with ⟨cause', same⟩ | ⟨state, display, built⟩
    · rw [same]
    · rw [built] at failed
      cases failed
  · intro m succeeded
    rcases b.outcome_cases with ⟨cause, failed⟩ | ⟨state, display, built⟩
    · rw [failed] at succeeded
      cases succeeded
    · rw [built] at succeeded ⊢
      cases succeeded
      exact ⟨rfl, rfl⟩
  · intro snapshot given
    refine ⟨?_, ?_, ?_⟩
    · intro program
      rw [buildIn?_eq, outcome_withProgram given]
    · intro flaw refused
      rw [outcome_of_refused given refused]
    · intro state display restored
      rw [outcome_of_restored given restored]
      exact ⟨rfl, _, rfl, rfl⟩
  · intro program alone given
    refine ⟨⟨?_, ?_⟩, ?_⟩
    · intro failed
      by_contra fits
      obtain ⟨state, -, built⟩ := outcome_of_fits alone given (Nat.not_lt.1 fits)
      rw [built] at failed
      cases failed
    · intro large
      rw [outcome_of_large alone given large]
    · intro fits
      obtain ⟨state, fresh, built⟩ := outcome_of_fits alone given fits
      rw [built]
      exact ⟨_, rfl, rfl, fresh, Session.keepsGlyphs_of_fresh fresh⟩
  · intro alone none_given
    rw [b.outcome_of_nothing alone none_given]

/-- A program of two instructions that looks up the digit `A`. It replaces a large screen. -/
theorem build_all_or_nothing_digit :
    let b : Blueprint := { program := some [0x60, 0x1A, 0xF0, 0x29] }
    let c : Context := { display := { hires := true, selection := 3, frame := .blank .hires } }
    ∃ m after, b.buildIn? (.ofSeed 0) c = some (.ok m, after) ∧
      after.display = { hires := false, selection := 1, frame := .blank .lores } ∧
      m.state.memory.read 0x203 = 0x29 ∧
      let t := (Session.run [.move .step, .move .step] { console := ⟨m, after⟩ }).console.state
      t.i = 50 ∧ t.memory.readMany t.i 5 = [0x60, 0x90, 0xF0, 0x90, 0x90] := by
  intro b c
  obtain ⟨result, after, built, -, -, -, -, alone, -⟩ := build_all_or_nothing b (.ofSeed 0) c
  obtain ⟨-, small⟩ := alone [0x60, 0x1A, 0xF0, 0x29] rfl rfl
  obtain ⟨m, rfl, display, fresh, keeps⟩ := small (by decide)
  have last : m.state.memory.read 0x203 = 0x29 := by
    rw [fresh.memory]
    decide
  refine ⟨m, after, built, display, last, ?_⟩
  -- All that has to be known of the machine is known.
  generalize hs : (⟨m, after⟩ : Console) = s at keeps
  replace fresh : s.state.Fresh [0x60, 0x1A, 0xF0, 0x29] := hs ▸ fresh
  have first : s.state.word = 0x601A := by
    rw [State.word, Memory.readWord, fresh.memory, fresh.memory, fresh.pc]
    decide
  have stands : Instruction.decode? s.state.word = some (.setByte 0 0x1A) := by
    rw [first]
    decide
  have stepped : s.step.2.state = State.set { s.state with pc := s.state.pc + 2 } 0 0x1A := by
    rw [Console.step_of_stands fresh.halted stands trivial]
    rfl
  have running : s.step.2.state.halted = none := by
    rw [stepped]
    exact fresh.halted
  have second : s.step.2.state.word = 0xF029 := by
    rw [stepped, State.word, Memory.readWord]
    simp only [State.set]
    rw [fresh.memory, fresh.memory, fresh.pc]
    decide
  have digit : s.step.2.state.get (Word.x s.step.2.state.word) = 0x1A := by
    rw [second, stepped]
    exact (State.get_set _ 0 0 _).trans (if_pos rfl)
  have spared : Session.stores [.move .step, .move .step] { console := s } = [] := by
    show s.stores ++ (s.step.2.stores ++ []) = []
    rw [Console.stores_eq_nil (by rw [first]; decide),
      Console.stores_eq_nil (by rw [second]; decide)]
    rfl
  obtain ⟨index, glyph⟩ := keeps .small [.move .step] [] running
    ((congrArg Word.family second).trans (by decide)) ((congrArg Word.nn second).trans (by decide))
  have found := glyph fun k _ => by
    show _ ∉ Session.stores [.move .step, .move .step] { console := s }
    rw [spared]
    exact List.not_mem_nil
  have place : s.step.2.step.2.state.i = 50 :=
    index.trans ((congrArg Font.smallAddress digit).trans (by decide))
  have shown : Font.smallGlyph 0x1A = [0x60, 0x90, 0xF0, 0x90, 0x90] := by decide
  exact ⟨place, found.trans ((congrArg Font.smallGlyph digit).trans shown)⟩

end Blueprint

end XoChip
