import XoChip.Proofs.Display.Sprite

/-!
# What a sprite does to the screen

A sprite is drawn on each selected plane with a block of bytes of its own. `layer_draw` says what
becomes of a plane and `fst_draw_iff` when a collision is reported; with what is known of single
planes, both come down to the pixels on which set bits land.
-/

namespace XoChip

/-- One of the two planes. -/
inductive Layer
  | first
  | second
  deriving DecidableEq, Repr

namespace Layer

variable {l l' : Layer}

/-- There is no third plane. -/
theorem eq_or_eq (ne : l ≠ l') (k : Layer) : k = l ∨ k = l' := by
  cases l <;> cases l' <;> cases k <;> simp_all

theorem exists_iff (ne : l ≠ l') {P : Layer → Prop} : (∃ k, P k) ↔ P l ∨ P l' := by
  constructor
  · rintro ⟨k, h⟩
    rcases eq_or_eq ne k with rfl | rfl
    · exact .inl h
    · exact .inr h
  · rintro (h | h)
    · exact ⟨_, h⟩
    · exact ⟨_, h⟩

end Layer

namespace Display

def selects (d : Display) : Layer → Bool
  | .first => d.selectsFirst
  | .second => d.selectsSecond

def layer (d : Display) : Layer → Plane
  | .first => d.frame.plane1
  | .second => d.frame.plane2

/-- How many selected planes come before a plane. -/
def rank (d : Display) : Layer → Nat
  | .first => 0
  | .second => d.selectsFirst.toNat

/-- Whether the pixel in column `x` of row `y` of a plane is lit. -/
def lit (d : Display) (l : Layer) (x y : Nat) : Bool :=
  (d.layer l).getD (y * d.frame.resolution.width + x) false

variable {d e : Display} {l : Layer}

theorem WellFormed.size_layer (h : d.WellFormed) (l : Layer) :
    (d.layer l).size = d.frame.resolution.area := by
  cases l with
  | first => exact h.frame.size_plane1
  | second => exact h.frame.size_plane2

/-- A picture is its resolution and its two planes. -/
theorem frame_eq_of_layer (resolution : e.frame.resolution = d.frame.resolution)
    (layer : ∀ l, e.layer l = d.layer l) : e.frame = d.frame := by
  have first : e.frame.plane1 = d.frame.plane1 := layer .first
  have second : e.frame.plane2 = d.frame.plane2 := layer .second
  rcases hd : d.frame with ⟨r, p, q⟩
  rcases he : e.frame with ⟨r', p', q'⟩
  simp_all

theorem eq_of_layer (hires : e.hires = d.hires) (selection : e.selection = d.selection)
    (resolution : e.frame.resolution = d.frame.resolution)
    (layer : ∀ l, e.layer l = d.layer l) : e = d := by
  have frame := frame_eq_of_layer resolution layer
  obtain ⟨hires, selection, frame⟩ := d
  obtain ⟨hires', selection', frame'⟩ := e
  simp_all

/-- Which planes are selected is a matter of the selection. -/
theorem selects_congr (h : e.selection = d.selection) : e.selects l = d.selects l := by
  cases l <;> simp only [selects, selectsFirst, selectsSecond, h]

theorem rank_congr (h : e.selection = d.selection) : e.rank l = d.rank l := by
  cases l <;> simp only [rank, selectsFirst, h]

@[simp] theorem layer_select (d : Display) (planes : UInt8) (l : Layer) :
    (d.select planes).layer l = d.layer l := by
  cases l <;> rfl

@[simp] theorem frame_select (d : Display) (planes : UInt8) : (d.select planes).frame = d.frame :=
  rfl

/-! ## Drawing -/

section Draw

variable (d) (x y : Nat) (bytes : List UInt8) (lines : UInt8)

@[simp] theorem selects_draw (l : Layer) : (d.draw x y bytes lines).2.selects l = d.selects l :=
  selects_congr (selection_draw d x y bytes lines)

@[simp] theorem rank_draw (l : Layer) : (d.draw x y bytes lines).2.rank l = d.rank l :=
  rank_congr (selection_draw d x y bytes lines)

/-- Each selected plane is drawn on with its block of the bytes, and the others stay. -/
theorem layer_draw (l : Layer) :
    (d.draw x y bytes lines).2.layer l =
      if d.selects l then
        (Sprite.draw d.frame.resolution x y lines (Sprite.block lines (d.rank l) bytes)
          (d.layer l)).1
      else d.layer l := by
  cases first : d.selectsFirst <;> cases second : d.selectsSecond <;> cases l <;>
    simp [draw, selects, layer, rank, Sprite.block, first, second]

/-- A collision on one of the selected planes is a collision. -/
theorem fst_draw_iff :
    (d.draw x y bytes lines).1 = true ↔
      ∃ l, d.selects l = true ∧
        (Sprite.draw d.frame.resolution x y lines (Sprite.block lines (d.rank l) bytes)
          (d.layer l)).2 = true := by
  rw [Layer.exists_iff (show Layer.first ≠ .second by decide)]
  cases first : d.selectsFirst <;> cases second : d.selectsSecond <;>
    simp [draw, selects, layer, rank, Sprite.block, first, second]

end Draw

theorem totalBytes_eq (d : Display) (lines : UInt8) :
    Sprite.totalBytes lines d.selection =
      Sprite.planeBytes lines * (d.selectsFirst.toNat + d.selectsSecond.toNat) := by
  have first : d.selectsFirst.toNat = d.selection.toNat % 2 := by
    rcases Nat.mod_two_eq_zero_or_one d.selection.toNat with h | h <;> simp [selectsFirst, h]
  have second : d.selectsSecond.toNat = d.selection.toNat / 2 % 2 := by
    rcases Nat.mod_two_eq_zero_or_one (d.selection.toNat / 2) with h | h <;>
      simp [selectsSecond, h]
  rw [Sprite.totalBytes, first, second]

/-- Bytes behind those for the selected planes are not looked at. -/
theorem draw_take (d : Display) (x y : Nat) (bytes : List UInt8) (lines : UInt8) :
    d.draw x y (bytes.take (Sprite.totalBytes lines d.selection)) lines =
      d.draw x y bytes lines := by
  rw [totalBytes_eq]
  cases first : d.selectsFirst <;> cases second : d.selectsSecond <;>
    simp [draw, first, second, List.take_take, List.drop_take, Nat.mul_two]

/-- Drawing the same sprite twice changes nothing. -/
theorem draw_draw_same (d : Display) (x y : Nat) (bytes : List UInt8) (lines : UInt8) :
    ((d.draw x y bytes lines).2.draw x y bytes lines).2 = d := by
  apply eq_of_layer
  · simp
  · simp
  · simp
  · intro l
    rw [layer_draw, layer_draw, selects_draw, rank_draw, resolution_draw]
    by_cases selected : d.selects l
    · simp only [selected, if_true, Sprite.draw_draw]
    · simp [selected]

/-- The order in which two sprites are drawn makes no difference. -/
theorem draw_comm (d : Display) (x y x' y' : Nat) (bytes bytes' : List UInt8)
    (lines lines' : UInt8) :
    ((d.draw x y bytes lines).2.draw x' y' bytes' lines').2 =
      ((d.draw x' y' bytes' lines').2.draw x y bytes lines).2 := by
  apply eq_of_layer
  · simp
  · simp
  · simp
  · intro l
    simp only [layer_draw, selects_draw, rank_draw, resolution_draw]
    by_cases selected : d.selects l
    · simp only [selected, if_true, Sprite.draw_comm _ x y]
    · simp [selected]

/-- Neither does it if each of them is drawn on planes of its own. -/
theorem frame_draw_comm (d : Display) (s s' : UInt8) (x y x' y' : Nat) (bytes bytes' : List UInt8)
    (lines lines' : UInt8) :
    ((((d.select s).draw x y bytes lines).2.select s').draw x' y' bytes' lines').2.frame =
      ((((d.select s').draw x' y' bytes' lines').2.select s).draw x y bytes lines).2.frame := by
  apply frame_eq_of_layer
  · simp
  · intro l
    have again (t : UInt8) (e : Display) : (e.select t).selects l = (d.select t).selects l ∧
        (e.select t).rank l = (d.select t).rank l := ⟨selects_congr rfl, rank_congr rfl⟩
    simp only [layer_draw, layer_select, resolution_draw, frame_select,
      again s (Display.draw ..).2, again s' (Display.draw ..).2]
    by_cases first : (d.select s).selects l <;> by_cases second : (d.select s').selects l <;>
      simp only [first, second, if_true, Bool.false_eq_true, if_false]
    exact Sprite.draw_comm ..

theorem WellFormed.index_lt_size (h : d.WellFormed) (l : Layer) {px py : Nat}
    (hpx : px < d.frame.resolution.width) (hpy : py < d.frame.resolution.height) :
    py * d.frame.resolution.width + px < (d.layer l).size := by
  rw [h.size_layer, Resolution.area, Nat.mul_comm d.frame.resolution.width]
  calc py * d.frame.resolution.width + px
      < (py + 1) * d.frame.resolution.width := by rw [Nat.add_mul]; omega
    _ ≤ d.frame.resolution.height * d.frame.resolution.width := Nat.mul_le_mul_right _ hpy

/-- A pixel of a selected plane is flipped as often as a set bit lands on it. -/
theorem lit_draw (h : d.WellFormed) (x y : UInt64) (bytes : List UInt8) (lines : UInt8)
    (selected : d.selects l = true) {px py : Nat} (hpx : px < d.frame.resolution.width)
    (hpy : py < d.frame.resolution.height) :
    (d.draw x.toNat y.toNat bytes lines).2.lit l px py =
      (d.lit l px py ^^
        (Sprite.landings d.frame.resolution x y lines (Sprite.isSet lines bytes (d.rank l)) px py
          % 2 == 1)) := by
  have there := Array.getElem?_eq_getElem (h.index_lt_size l hpx hpy)
  simp only [lit, Array.getD_eq_getD_getElem?, layer_draw, selected, if_true, resolution_draw,
    Sprite.getElem?_draw, there, Option.map_some, Option.getD_some,
    Sprite.count_targets x y lines _ bytes hpx py]

/-- Drawing flips pixels, on every selected plane with its own block of the bytes: a pixel changes
    if an odd number of set bits lands on it. So a sprite that is drawn again is gone, and the order
    of sprites makes no difference. Bytes behind the last block are not looked at. -/
theorem draw_flips_by_parity (h : d.WellFormed) (x y : UInt64) (bytes : List UInt8)
    (lines : UInt8) :
    let r := d.frame.resolution
    let d' := (d.draw x.toNat y.toNat bytes lines).2
    (d'.WellFormed ∧ d'.hires = d.hires ∧ d'.selection = d.selection ∧
      ∀ l, ∀ b ∈ (d'.layer l).bytes, b = 0 ∨ b = 1) ∧
    (∀ l, d.selects l = false → d'.layer l = d.layer l) ∧
    (∀ l, d.selects l = true → ∀ px py, px < r.width → py < r.height →
      d'.lit l px py =
        (d.lit l px py ^^
          (Sprite.landings r x y lines (Sprite.isSet lines bytes (d.rank l)) px py % 2 == 1))) ∧
    d.draw x.toNat y.toNat (bytes.take (Sprite.totalBytes lines d.selection)) lines =
      d.draw x.toNat y.toNat bytes lines ∧
    (d'.draw x.toNat y.toNat bytes lines).2 = d ∧
    ∀ (x' y' : UInt64) (bytes' : List UInt8) (lines' : UInt8),
      (d'.draw x'.toNat y'.toNat bytes' lines').2 =
        ((d.draw x'.toNat y'.toNat bytes' lines').2.draw x.toNat y.toNat bytes lines).2 ∧
      ∀ s s' : UInt8,
        ((((d.select s).draw x.toNat y.toNat bytes lines).2.select s').draw
            x'.toNat y'.toNat bytes' lines').2.frame =
          ((((d.select s').draw x'.toNat y'.toNat bytes' lines').2.select s).draw
            x.toNat y.toNat bytes lines).2.frame := by
  intro r d'
  refine ⟨⟨h.draw .., hires_draw .., selection_draw .., ?_⟩, ?_, ?_, draw_take ..,
    draw_draw_same .., ?_⟩
  · intro l
    exact Plane.eq_zero_or_one_of_mem_bytes
  · intro l unselected
    simp [d', layer_draw, unselected]
  · intro l selected px py hpx hpy
    exact lit_draw h x y bytes lines selected hpx hpy
  · intro x' y' bytes' lines'
    exact ⟨draw_comm .., fun s s' => frame_draw_comm ..⟩

/-- A sprite of thirty-three lines on a screen of thirty-two, at the last column of the first row. Its
    first line and its last one land on the same pixel. -/
theorem draw_flips_by_parity_tall :
    let d := Display.reset
    let x : UInt64 := 0xFFFFFFFFFFFFFFFF
    let y : UInt64 := 0
    let bytes := List.replicate 33 0x80
    let d' := (d.draw x.toNat y.toNat bytes 33).2
    d.WellFormed ∧ d'.lit .first 63 0 = false ∧ d'.lit .first 63 1 = true ∧
      d'.layer .second = d.layer .second ∧ (d'.draw x.toNat y.toNat bytes 33).2 = d := by
  intro d x y bytes d'
  obtain ⟨-, others, pixel, -, restored, -⟩ :=
    draw_flips_by_parity wellFormed_reset x y bytes 33
  refine ⟨wellFormed_reset, ?_, ?_, others .second rfl, restored⟩
  · rw [pixel .first rfl 63 0 (by decide) (by decide)]
    decide +kernel
  · rw [pixel .first rfl 63 1 (by decide) (by decide)]
    decide +kernel

/-! ## Collisions -/

theorem rows_le_height {r : Resolution} {lines : UInt8}
    (fits : lines = 0 ∨ lines.toNat ≤ r.height) : Sprite.rows lines ≤ r.height := by
  unfold Sprite.rows
  split
  · cases r <;> decide
  · next nonzero => exact fits.resolve_left nonzero

/-- The pixel on which a cell lands. -/
theorem getD_target (d : Display) (l : Layer) (x y : UInt64) (line column : Nat) :
    (d.layer l).getD (Sprite.target d.frame.resolution x.toNat y.toNat (line, column)) false =
      d.lit l ((x + UInt64.ofNat column).toNat % d.frame.resolution.width)
        ((y + UInt64.ofNat line).toNat % d.frame.resolution.height) := by
  rw [lit, (Sprite.target_eq_iff (Nat.mod_lt _ (Resolution.width_pos _))).2 ⟨rfl, rfl⟩]

/-- A collision is reported exactly if a set bit lands on a lit pixel of its plane, -/
theorem fst_draw_iff_landed (x y : UInt64) (bytes : List UInt8) {lines : UInt8}
    (fits : Sprite.rows lines ≤ d.frame.resolution.height) :
    (d.draw x.toNat y.toNat bytes lines).1 = true ↔
      ∃ l line column, d.selects l = true ∧ line < Sprite.rows lines ∧
        column < 8 * Sprite.rowBytes lines ∧
        Sprite.isSet lines bytes (d.rank l) line column = true ∧
        d.lit l ((x + UInt64.ofNat column).toNat % d.frame.resolution.width)
          ((y + UInt64.ofNat line).toNat % d.frame.resolution.height) = true := by
  simp only [fst_draw_iff, Sprite.snd_draw_iff fits, getD_target, exists_and_left]

/-- which is when a lit pixel of a selected plane goes dark. -/
theorem fst_draw_iff_goes_dark (x y : UInt64) (bytes : List UInt8) {lines : UInt8}
    (fits : Sprite.rows lines ≤ d.frame.resolution.height) :
    (d.draw x.toNat y.toNat bytes lines).1 = true ↔
      ∃ l px py, d.selects l = true ∧ px < d.frame.resolution.width ∧
        py < d.frame.resolution.height ∧ d.lit l px py = true ∧
        (d.draw x.toNat y.toNat bytes lines).2.lit l px py = false := by
  have plane {l : Layer} (selected : d.selects l = true) (px py : Nat) :
      (d.draw x.toNat y.toNat bytes lines).2.lit l px py =
        (Sprite.draw d.frame.resolution x.toNat y.toNat lines
          (Sprite.block lines (d.rank l) bytes) (d.layer l)).1.getD
            (py * d.frame.resolution.width + px) false := by
    rw [lit, layer_draw, if_pos selected, resolution_draw]
  constructor
  · rw [fst_draw_iff_landed x y bytes fits]
    rintro ⟨l, line, column, selected, row, col, set, lit⟩
    have on_screen := Nat.mod_lt (x + UInt64.ofNat column).toNat d.frame.resolution.width_pos
    refine ⟨l, _, _, selected, on_screen, Nat.mod_lt _ (Resolution.height_pos _), lit, ?_⟩
    rw [plane selected]
    refine ((Sprite.goes_dark_iff fits).2 ⟨List.mem_map.2 ⟨(line, column), ?_, ?_⟩, lit⟩).2
    · exact Sprite.mem_cells_block.2 ⟨row, col, set⟩
    · exact (Sprite.target_eq_iff on_screen).2 ⟨rfl, rfl⟩
  · rintro ⟨l, px, py, selected, -, -, lit, dark⟩
    rw [plane selected] at dark
    exact (fst_draw_iff ..).2
      ⟨l, selected, (Sprite.snd_draw_iff_goes_dark fits _ _ _ _ _).2 ⟨_, lit, dark⟩⟩

/-- With both planes selected, each is drawn on as if it were the only one. -/
theorem draw_of_both (first : d.selectsFirst = true) (second : d.selectsSecond = true) (x y : Nat)
    (bytes : List UInt8) (lines : UInt8) :
    let one := (d.select 1).draw x y bytes lines
    let two := (d.select 2).draw x y (bytes.drop (Sprite.planeBytes lines)) lines
    (d.draw x y bytes lines).1 = (one.1 || two.1) ∧
      (d.draw x y bytes lines).2.layer .first = one.2.layer .first ∧
      (d.draw x y bytes lines).2.layer .second = two.2.layer .second := by
  have one_first : (d.select 1).selectsFirst = true := by simp [select, selectsFirst]
  have one_second : (d.select 1).selectsSecond = false := by simp [select, selectsSecond]
  have two_first : (d.select 2).selectsFirst = false := by simp [select, selectsFirst]
  have two_second : (d.select 2).selectsSecond = true := by simp [select, selectsSecond]
  simp [draw, first, second, one_first, one_second, two_first, two_second, layer]

/-- A collision is reported exactly if a lit pixel of a selected plane goes dark, which is where a
    set bit lands on a lit pixel. With both planes selected, each is drawn as if it were alone, and
    the report is about either. -/
theorem hit_iff_goes_dark (d : Display) (x y : UInt64) (bytes : List UInt8) {lines : UInt8}
    (fits : lines = 0 ∨ lines.toNat ≤ d.frame.resolution.height) :
    let r := d.frame.resolution
    let hit := (d.draw x.toNat y.toNat bytes lines).1
    let d' := (d.draw x.toNat y.toNat bytes lines).2
    (hit = true ↔ ∃ l px py, d.selects l = true ∧ px < r.width ∧ py < r.height ∧
      d.lit l px py = true ∧ d'.lit l px py = false) ∧
    (hit = true ↔ ∃ l line column, d.selects l = true ∧ line < Sprite.rows lines ∧
      column < 8 * Sprite.rowBytes lines ∧ Sprite.isSet lines bytes (d.rank l) line column = true ∧
      d.lit l ((x + UInt64.ofNat column).toNat % r.width)
        ((y + UInt64.ofNat line).toNat % r.height) = true) ∧
    ((∀ l, d.selects l = true) →
      let first := (d.select 1).draw x.toNat y.toNat bytes lines
      let second := (d.select 2).draw x.toNat y.toNat (bytes.drop (Sprite.planeBytes lines)) lines
      hit = (first.1 || second.1) ∧
        d'.layer .first = first.2.layer .first ∧ d'.layer .second = second.2.layer .second) := by
  intro r hit d'
  have fits := rows_le_height fits
  refine ⟨fst_draw_iff_goes_dark x y bytes fits, fst_draw_iff_landed x y bytes fits, ?_⟩
  intro both
  exact draw_of_both (both .first) (both .second) ..

/-- A pixel in the last corner of the second plane, and a sprite that is drawn on both planes: the
    collision on the second plane counts. -/
theorem hit_iff_goes_dark_second :
    let d := ((Display.reset.select 2).draw 63 31 [0x80] 1).2.select 3
    let x : UInt64 := 63
    let y : UInt64 := 31
    let result := d.draw x.toNat y.toNat [0x80, 0x80] 1
    let first := (d.select 1).draw x.toNat y.toNat [0x80, 0x80] 1
    let second := (d.select 2).draw x.toNat y.toNat [0x80] 1
    (1 : UInt8).toNat ≤ d.frame.resolution.height ∧ result.1 = true ∧
      (∃ l px py, d.lit l px py = true ∧ result.2.lit l px py = false) ∧
      result.2.layer .first = first.2.layer .first ∧
      result.2.layer .second = second.2.layer .second := by
  intro d x y result first second
  have fits : (1 : UInt8).toNat ≤ d.frame.resolution.height := by decide +kernel
  obtain ⟨dark, landed, both⟩ := hit_iff_goes_dark d x y [0x80, 0x80] (.inr fits)
  have hit : result.1 = true :=
    landed.2 ⟨.second, 0, 0, by decide +kernel, by decide, by decide, by decide +kernel,
      by decide +kernel⟩
  obtain ⟨l, px, py, -, -, -, lit, goes_dark⟩ := dark.1 hit
  obtain ⟨-, same_first, same_second⟩ := both fun l => by cases l <;> decide +kernel
  exact ⟨fits, hit, ⟨l, px, py, lit, goes_dark⟩, same_first, same_second⟩

end Display

end XoChip
