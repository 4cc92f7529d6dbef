import XoChip.Proofs.Access.State
import XoChip.Proofs.Display.Drawing
import XoChip.Proofs.Machine.Verdict

/-!
# The instruction that draws

`DXYN` reads the sprite from memory and draws it with its corner at `VX`, `VY`. How many bytes it
reads and how drawing cuts them into blocks are two computations; they agree for every height and
every selection, so that each selected plane gets a full block of its own.
-/

namespace XoChip

namespace Sprite

/-- Whether the sprite that stands at `i` in memory has a set bit in a line and a column, for a plane
    that `k` selected planes come before. -/
def isSetAt (m : Memory) (i : UInt16) (lines : UInt8) (k line column : Nat) : Bool :=
  (m.read (i + UInt16.ofNat (k * planeBytes lines + line * rowBytes lines + column / 8))).toNat.testBit
    (7 - column % 8)

/-- Within the bytes that are read, bits can be looked up in memory. -/
theorem isSet_readMany (m : Memory) (i : UInt16) {lines : UInt8} {k line column count : Nat}
    (row : line < rows lines) (col : column < 8 * rowBytes lines)
    (full : (k + 1) * planeBytes lines ≤ count) :
    isSet lines (m.readMany i count) k line column = isSetAt m i lines k line column := by
  have offset := offset_lt row col
  rw [Nat.add_mul, Nat.one_mul] at full
  have lt : k * planeBytes lines + line * rowBytes lines + column / 8 < count := by omega
  rw [isSet, Memory.getElem?_readMany m i lt]
  rfl

theorem landings_congr (r : Resolution) (x y : UInt64) (lines : UInt8) {set set' : Nat → Nat → Bool}
    (same : ∀ line column, line < rows lines → column < 8 * rowBytes lines →
      set line column = set' line column) (px py : Nat) :
    landings r x y lines set px py = landings r x y lines set' px py := by
  unfold landings
  congr 1
  apply Finset.filter_congr
  rintro ⟨line, column⟩ cell
  simp only [Finset.mem_product, Finset.mem_range] at cell
  rw [same line column cell.1 cell.2]

/-- A block that is read in full is a part of memory. -/
theorem block_readMany (m : Memory) (i : UInt16) {lines : UInt8} {k count : Nat}
    (full : (k + 1) * planeBytes lines ≤ count) :
    block lines k (m.readMany i count) =
      m.readMany (i + UInt16.ofNat (k * planeBytes lines)) (planeBytes lines) := by
  rw [Nat.add_mul, Nat.one_mul] at full
  apply List.ext_getElem?
  intro j
  rw [block, List.getElem?_take, List.getElem?_drop]
  by_cases lt : j < planeBytes lines
  · rw [if_pos lt, Memory.getElem?_readMany m i (by omega), Memory.getElem?_readMany m _ lt,
      UInt16.ofNat_add, UInt16.add_assoc]
  · rw [if_neg lt, List.getElem?_eq_none (by simpa using lt)]

theorem planeBytes_ofNat (n : Fin 16) :
    planeBytes (UInt8.ofNat n.val) = if n = 0 then 32 else n.val := by
  revert n
  decide

theorem rows_ofNat_le_height (n : Fin 16) (r : Resolution) :
    rows (UInt8.ofNat n.val) ≤ r.height := by
  revert n
  cases r <;> decide

end Sprite

/-- The bytes that are read are enough for every selected plane. -/
theorem Display.full_of_selects {d : Display} {l : Layer} (selected : d.selects l = true)
    (lines : UInt8) :
    (d.rank l + 1) * Sprite.planeBytes lines ≤ Sprite.totalBytes lines d.selection := by
  rw [totalBytes_eq, Nat.mul_comm]
  apply Nat.mul_le_mul_left
  cases l with
  | first =>
    have first : d.selectsFirst = true := selected
    simp [rank, first]
  | second =>
    have second : d.selectsSecond = true := selected
    simp [rank, second]

namespace Console

variable {s : Console} {x y : Register} {n : Fin 16}

/-- The bytes of the sprite at `I`, as many as the selected planes take. -/
def spriteBytes (s : Console) (n : Fin 16) : List UInt8 :=
  let d := s.context.display
  s.state.memory.readMany s.state.i
    ((if n = 0 then 32 else n.val) * ((d.selects .first).toNat + (d.selects .second).toNat))

theorem spriteBytes_eq (s : Console) (n : Fin 16) :
    s.spriteBytes n =
      s.state.memory.readMany s.state.i
        (Sprite.totalBytes (UInt8.ofNat n.val) s.context.display.selection) := by
  rw [Display.totalBytes_eq, Sprite.planeBytes_ofNat]
  rfl

/-- What a step makes of the machine when the instruction draws. -/
theorem step_of_draw (running : s.state.halted = none)
    (word : s.state.word = Word.ofNibbles 0xD x y n) :
    let drawn := s.context.display.draw (s.state.get x).toNat (s.state.get y).toNat
      (s.spriteBytes n) (UInt8.ofNat n.val)
    s.step =
      (.ran,
        { machine :=
            { s.machine with
              state :=
                { s.state with
                  v := s.state.v.set Register.flag.val (if drawn.1 then 1 else 0)
                    Register.flag.val_lt
                  pc := s.state.pc + 2 }
              drew := true }
          context :=
            { s.context.tell (.executing s.state.pc s.state.word) with display := drawn.2 } }) := by
  have stands : Instruction.decode? s.state.word = some (.draw x y n) := by
    rw [Instruction.decode?_of_family_draw (by rw [word, Word.family_ofNibbles]), word,
      Word.x_ofNibbles, Word.y_ofNibbles, Word.n_ofNibbles]
  rw [step_of_stands running stands trivial, spriteBytes_eq]
  rfl

section Draw

variable (running : s.state.halted = none) (word : s.state.word = Word.ofNibbles 0xD x y n)

include running word

theorem display_step_of_draw :
    s.step.2.context.display =
      (s.context.display.draw (s.state.get x).toNat (s.state.get y).toNat (s.spriteBytes n)
        (UInt8.ofNat n.val)).2 := by
  rw [step_of_draw running word]

/-- Of the state, only registers and program counter change; -/
theorem state_step_of_draw :
    s.step.2.state = { s.state with v := s.step.2.state.v, pc := s.state.pc + 2 } := by
  rw [step_of_draw running word]

/-- and of the registers, only `VF`, which tells of a collision. -/
theorem get_step_of_draw (z : Register) :
    s.step.2.state.get z =
      if z = .flag then
        if (s.context.display.draw (s.state.get x).toNat (s.state.get y).toNat (s.spriteBytes n)
          (UInt8.ofNat n.val)).1 then 1 else 0
      else s.state.get z := by
  rw [step_of_draw running word]
  exact s.state.get_set .flag z _

/-- Executed once more, the instruction takes its sprite away again. -/
theorem display_step_again (hx : x ≠ .flag) (hy : y ≠ .flag) :
    (s.step.2.setState { s.step.2.state with pc := s.state.pc }).step.2.context.display =
      s.context.display := by
  have back : { s.step.2.state with pc := s.state.pc } =
      { s.state with v := s.step.2.state.v } := by
    conv_lhs => rw [state_step_of_draw running word]
  rw [back]
  set u := s.step.2.setState { s.state with v := s.step.2.state.v } with u_eq
  have get_u {z : Register} (ne : z ≠ .flag) : u.state.get z = s.state.get z :=
    (get_step_of_draw running word z).trans (if_neg ne)
  have display_u : u.context.display = s.step.2.context.display := rfl
  have bytes_u : u.spriteBytes n = s.spriteBytes n := by
    rw [spriteBytes_eq, spriteBytes_eq, display_u, display_step_of_draw running word,
      Display.selection_draw]
    rfl
  have running_u : u.state.halted = none := running
  have word_u : u.state.word = Word.ofNibbles 0xD x y n := word
  rw [display_step_of_draw running_u word_u, get_u hx, get_u hy, bytes_u, display_u,
    display_step_of_draw running word]
  exact Display.draw_draw_same ..

end Draw

/-- A drawing instruction draws, on each selected plane, the block of memory that belongs to it, and
    tells in `VF` whether a lit pixel went dark. The coordinates are taken before `VF` is set. -/
theorem drawSprite_exact (running : s.state.halted = none)
    (display : s.context.display.WellFormed)
    (word : s.state.word = Word.ofNibbles 0xD x y n) :
    let d := s.context.display
    let r := d.frame.resolution
    let lines := UInt8.ofNat n.val
    let chunk := if n = 0 then 32 else n.val
    let a := (s.state.get x).toUInt64
    let b := (s.state.get y).toUInt64
    let t := s.step.2
    let d' := t.context.display
    let dark := ∃ l px py, d.selects l = true ∧ px < r.width ∧ py < r.height ∧
      d.lit l px py = true ∧ d'.lit l px py = false
    s.step.1 = .ran ∧
    d' = (d.draw a.toNat b.toNat (s.spriteBytes n) lines).2 ∧
    (∀ l, d.selects l = true →
      Sprite.block lines (d.rank l) (s.spriteBytes n) =
        s.state.memory.readMany (s.state.i + UInt16.ofNat (d.rank l * chunk)) chunk) ∧
    (∀ l, d.selects l = true → ∀ px py, px < r.width → py < r.height →
      d'.lit l px py =
        (d.lit l px py ^^
          (Sprite.landings r a b lines
            (Sprite.isSetAt s.state.memory s.state.i lines (d.rank l)) px py % 2 == 1))) ∧
    (∀ l, d.selects l = false → d'.layer l = d.layer l) ∧
    (d'.hires = d.hires ∧ d'.selection = d.selection ∧ d'.frame.resolution = r) ∧
    ((dark → t.state.get .flag = 1) ∧ (¬ dark → t.state.get .flag = 0)) ∧
    (∀ z, z ≠ .flag → t.state.get z = s.state.get z) ∧
    t.state = { s.state with v := t.state.v, pc := s.state.pc + 2 } ∧
    (x ≠ .flag → y ≠ .flag →
      (t.setState { t.state with pc := s.state.pc }).step.2.context.display = d) := by
  intro d r lines chunk a b t d' dark
  have drawn : d' = (d.draw a.toNat b.toNat (s.spriteBytes n) lines).2 := by
    simp only [a, b, UInt8.toNat_toUInt64]
    exact display_step_of_draw running word
  have get_t (z : Register) : t.state.get z =
      if z = .flag then
        if (d.draw a.toNat b.toNat (s.spriteBytes n) lines).1 then 1 else 0
      else s.state.get z := by
    simp only [a, b, UInt8.toNat_toUInt64]
    exact get_step_of_draw running word z
  have hit : (d.draw a.toNat b.toNat (s.spriteBytes n) lines).1 = true ↔ dark := by
    rw [Display.fst_draw_iff_goes_dark a b _ (Sprite.rows_ofNat_le_height n r), ← drawn]
  have full {l : Layer} (selected : d.selects l = true) :
      (d.rank l + 1) * Sprite.planeBytes lines ≤ Sprite.totalBytes lines d.selection :=
    Display.full_of_selects selected lines
  have bytes_eq := s.spriteBytes_eq n
  refine ⟨?_, drawn, ?_, ?_, ?_, ?_, ⟨?_, ?_⟩, ?_, state_step_of_draw running word,
    display_step_again running word⟩
  · rw [step_of_draw running word]
  · intro l selected
    rw [bytes_eq, Sprite.block_readMany _ _ (full selected), Sprite.planeBytes_ofNat]
  · intro l selected px py hpx hpy
    rw [drawn, Display.lit_draw display a b _ _ selected hpx hpy, bytes_eq]
    congr 3
    apply Sprite.landings_congr
    intro line column row col
    exact Sprite.isSet_readMany _ _ row col (full selected)
  · intro l unselected
    rw [drawn, Display.layer_draw, unselected]
    rfl
  · rw [drawn]
    exact ⟨Display.hires_draw .., Display.selection_draw .., Display.resolution_draw ..⟩
  · intro goes_dark
    rw [get_t, if_pos rfl, if_pos (hit.2 goes_dark)]
  · intro stays
    rw [get_t, if_pos rfl, if_neg (mt hit.1 stays)]
  · intro z ne
    rw [get_t, if_neg ne]

/-- A sprite of two lines for both planes, read across the end of memory, with `VF` as a coordinate.
    A pixel of the second plane goes dark. -/
theorem drawSprite_exact_wraps :
    let m := (((Memory.blank.write 0x200 0xDF).write 0x201 0x12).write 0xFFFF 0x80).write 0x0001 0xC0
    let s : Console :=
      { machine :=
          { state := (State.set { memory := m, i := 0xFFFF, delay := .expired 0 } 1 3).set 15 5
            dialect := {}, random := .ofSeed 0 }
        context := { display := ((Display.reset.select 2).draw 6 3 [0x80] 1).2.select 3 } }
    let d' := s.step.2.context.display
    s.state.halted = none ∧ s.context.display.WellFormed ∧
      s.state.word = Word.ofNibbles 0xD 0xF 0x1 0x2 ∧
      Sprite.block 2 1 (s.spriteBytes 2) = m.readMany 0x0001 2 ∧
      d'.lit .first 5 3 = true ∧ d'.lit .second 6 3 = false ∧ s.step.2.state.get .flag = 1 := by
  intro m s d'
  have display : s.context.display.WellFormed :=
    ((Display.wellFormed_reset.select 2).draw 6 3 [0x80] 1).select 3
  have read (a : UInt16) : m.read a =
      if 0x0001 = a then 0xC0 else if 0xFFFF = a then 0x80 else
        if 0x201 = a then 0x12 else if 0x200 = a then 0xDF else 0 := by
    simp only [m, Memory.read_write, Memory.read_blank]
  have word : s.state.word = Word.ofNibbles 0xD 0xF 0x1 0x2 := by
    change m.readWord 0x200 = _
    rw [Memory.readWord, read, read]
    decide
  have first : s.context.display.selects .first = true := by decide +kernel
  have second : s.context.display.selects .second = true := by decide +kernel
  have rank : s.context.display.rank .second = 1 := by decide +kernel
  have dark_first : s.context.display.lit .first 5 3 = false := by decide +kernel
  have lit_second : s.context.display.lit .second 6 3 = true := by decide +kernel
  obtain ⟨-, -, blocks, pixel, -, -, ⟨flag, -⟩, -⟩ := drawSprite_exact rfl display word
  have block : Sprite.block 2 1 (s.spriteBytes 2) = m.readMany 0x0001 2 := by
    have block := blocks .second second
    rw [rank] at block
    exact block.trans (congrArg₂ m.readMany (by decide +kernel) (by decide +kernel))
  have lit : d'.lit .first 5 3 = true := by
    rw [pixel .first first 5 3 (by decide +kernel) (by decide +kernel), dark_first]
    simp only [s, State.set, Sprite.landings, Sprite.isSetAt, read]
    decide +kernel
  have dark : d'.lit .second 6 3 = false := by
    rw [pixel .second second 6 3 (by decide +kernel) (by decide +kernel), lit_second]
    simp only [s, State.set, Sprite.landings, Sprite.isSetAt, read]
    decide +kernel
  exact ⟨rfl, display, word, block, lit, dark,
    flag ⟨.second, 6, 3, second, by decide +kernel, by decide +kernel, lit_second, dark⟩⟩

end Console

end XoChip
