import Mathlib.Data.Finset.Prod
import Mathlib.Data.Nat.ModEq
import XoChip.Proofs.Access.Display

/-!
# What a sprite does to a plane

Drawing works off a list of cells and flips the pixel on which each of them lands. Only how often a
pixel is flipped matters: `getElem?_draw` says so by counting, so drawing twice changes nothing and
the order of two sprites does not matter. If no pixel is flipped twice, a lit pixel goes dark exactly
where a cell lands on one.
-/

namespace XoChip.Sprite

/-! ## Flipping pixels -/

theorem getElem?_foldl_flip (indices : List Nat) (state : Plane × Bool) (k : Nat) :
    (indices.foldl flip state).1[k]? = state.1[k]?.map (· ^^ (indices.count k % 2 == 1)) := by
  induction indices generalizing state with
  | nil => simp
  | cons index indices ih =>
    rw [List.foldl_cons, ih, flip, Array.getElem?_modify]
    by_cases same : index = k
    · subst same
      rcases Nat.mod_two_eq_zero_or_one (indices.count index) with even | odd
      · cases state.1[index]? <;> simp [Nat.add_mod, even]
      · cases state.1[index]? <;> simp [Nat.add_mod, odd]
    · simp [same]

/-- Flipping one pixel leaves the others as they are. -/
theorem getD_flip_of_ne {state : Plane × Bool} {index k : Nat} (ne : index ≠ k) :
    (flip state index).1.getD k false = state.1.getD k false := by
  simp [flip, Array.getD_eq_getD_getElem?, Array.getElem?_modify, ne]

/-- If no pixel is flipped twice, one goes dark exactly if one is lit at the beginning. -/
theorem snd_foldl_flip {indices : List Nat} (nodup : indices.Nodup) (state : Plane × Bool) :
    (indices.foldl flip state).2 = true ↔
      state.2 = true ∨ ∃ k ∈ indices, state.1.getD k false = true := by
  induction indices generalizing state with
  | nil => simp
  | cons index indices ih =>
    obtain ⟨fresh, nodup⟩ := List.nodup_cons.1 nodup
    have unchanged : ∀ k ∈ indices, (flip state index).1.getD k false = state.1.getD k false := by
      intro k hk
      exact getD_flip_of_ne fun same => fresh (same ▸ hk)
    have later : (∃ k ∈ indices, (flip state index).1.getD k false = true) ↔
        ∃ k ∈ indices, state.1.getD k false = true :=
      exists_congr fun k => and_congr_right fun hk => by rw [unchanged k hk]
    rw [List.foldl_cons, ih nodup, later]
    simp [flip, or_assoc]

/-! ## Cells -/

/-- The bytes for one plane, when `k` planes come before it. -/
def block (lines : UInt8) (k : Nat) (bytes : List UInt8) : List UInt8 :=
  (bytes.drop (k * planeBytes lines)).take (planeBytes lines)

/-- Whether the sprite for one plane, when `k` planes come before it, has a set bit in a line and a
    column. A byte that is not there has no set bits. -/
def isSet (lines : UInt8) (bytes : List UInt8) (k line column : Nat) : Bool :=
  bytes[k * planeBytes lines + line * rowBytes lines + column / 8]?.any fun b =>
    b.toNat.testBit (7 - column % 8)

theorem rowBytes_pos (lines : UInt8) : 0 < rowBytes lines := by
  unfold rowBytes
  split <;> decide

theorem mem_setBits {b : UInt8} {column : Nat} :
    column ∈ setBits b ↔ column < 8 ∧ b.toNat.testBit (7 - column) = true := by
  simp [setBits]

/-- The cells of a row begin with those of its first byte. -/
theorem mem_cells {w : Nat} (pos : 0 < w) {bytes : List UInt8} {line column : Nat} :
    (line, column) ∈ cells w bytes ↔
      column < 8 * w ∧
        (bytes[line * w + column / 8]?.any fun b => b.toNat.testBit (7 - column % 8)) = true := by
  simp only [cells, List.mem_flatMap, List.mem_map, Prod.exists, List.mem_zipIdx_iff_getElem?,
    mem_setBits, Option.any_eq_true, Prod.mk.injEq]
  constructor
  · rintro ⟨b, k, there, column, ⟨lt, set⟩, rfl, rfl⟩
    have row_lt := Nat.mod_lt k pos
    have index_eq : k / w * w + (8 * (k % w) + column) / 8 = k := by
      rw [Nat.mul_add_div (by decide), Nat.div_eq_of_lt lt, Nat.add_zero, Nat.div_add_mod']
    refine ⟨by omega, b, ?_, ?_⟩
    · rw [index_eq]
      exact there
    · rw [Nat.mul_add_mod, Nat.mod_eq_of_lt lt]
      exact set
  · rintro ⟨lt, b, there, set⟩
    have byte_lt : column / 8 < w := by omega
    refine ⟨b, _, there, column % 8, ⟨Nat.mod_lt _ (by decide), set⟩, ?_, ?_⟩
    · rw [Nat.mul_comm, Nat.mul_add_div pos, Nat.div_eq_of_lt byte_lt, Nat.add_zero]
    · rw [Nat.mul_comm line, Nat.mul_add_mod, Nat.mod_eq_of_lt byte_lt]
      omega

/-- Different bytes have different cells, and so have different bits of a byte. -/
theorem nodup_cells (w : Nat) (bytes : List UInt8) : (cells w bytes).Nodup := by
  have numbered : bytes.zipIdx.Pairwise fun a b => a.2 < b.2 := by
    rw [← List.pairwise_map (f := Prod.snd), List.zipIdx_map_snd]
    exact List.pairwise_lt_range' 1
  refine List.nodup_flatMap.2 ⟨?_, numbered.imp ?_⟩
  · rintro ⟨b, k⟩ -
    have columns : (setBits b).Nodup := List.nodup_range.filter _
    exact columns.map_on fun c _ c' _ same => by simpa using same
  · rintro ⟨b, k⟩ ⟨b', k'⟩ lt cell mem mem'
    obtain ⟨c, hc, rfl⟩ := List.mem_map.1 mem
    obtain ⟨c', hc', same⟩ := List.mem_map.1 mem'
    have c_lt := (mem_setBits.1 hc).1
    have c'_lt := (mem_setBits.1 hc').1
    obtain ⟨line, column⟩ := Prod.mk.inj same
    have byte : k' % w = k % w := by omega
    have same_byte : k' = k := by rw [← Nat.div_add_mod k' w, line, byte, Nat.div_add_mod]
    exact absurd same_byte (Nat.ne_of_gt lt)

/-- A line and a column of a sprite are in the block of its plane. -/
theorem offset_lt {lines : UInt8} {line column : Nat} (row : line < rows lines)
    (col : column < 8 * rowBytes lines) :
    line * rowBytes lines + column / 8 < planeBytes lines := by
  have byte_lt : column / 8 < rowBytes lines := by omega
  calc line * rowBytes lines + column / 8
      < (line + 1) * rowBytes lines := by rw [Nat.add_mul]; omega
    _ ≤ planeBytes lines := Nat.mul_le_mul_right _ row

theorem mem_cells_block {lines : UInt8} {k : Nat} {bytes : List UInt8} {line column : Nat} :
    (line, column) ∈ cells (rowBytes lines) (block lines k bytes) ↔
      line < rows lines ∧ column < 8 * rowBytes lines ∧ isSet lines bytes k line column = true := by
  rw [mem_cells (rowBytes_pos lines), isSet, block, List.getElem?_take, List.getElem?_drop,
    Nat.add_assoc]
  by_cases row : line < rows lines
  · by_cases col : column < 8 * rowBytes lines
    · simp [row, col, offset_lt row col]
    · simp [col]
  · have outside : ¬ line * rowBytes lines + column / 8 < planeBytes lines := by
      have rows_le : planeBytes lines ≤ line * rowBytes lines :=
        Nat.mul_le_mul_right _ (Nat.le_of_not_lt row)
      omega
    simp [row, outside]

/-! ## Where cells land -/

/-- How many set bits of a picture land on a pixel when the corner of the picture is at `x`, `y`.
    Coordinates wrap around as 64-bit words, and then at the edges of the screen. -/
def landings (r : Resolution) (x y : UInt64) (lines : UInt8) (set : Nat → Nat → Bool)
    (px py : Nat) : Nat :=
  ((Finset.range (rows lines) ×ˢ Finset.range (8 * rowBytes lines)).filter fun cell =>
    set cell.1 cell.2 = true ∧ (x + UInt64.ofNat cell.2).toNat % r.width = px ∧
      (y + UInt64.ofNat cell.1).toNat % r.height = py).card

/-- The screen is as wide and as high as powers of two, -/
theorem dvd_word (r : Resolution) : r.width ∣ 2 ^ 64 ∧ r.height ∣ 2 ^ 64 := by
  cases r <;> decide

/-- and sums that wrap around at a power of two leave the same remainder by a smaller one. -/
theorem toNat_add_ofNat_mod (z : UInt64) (n : Nat) {size : Nat} (dvd : size ∣ 2 ^ 64) :
    (z + UInt64.ofNat n).toNat % size = (z.toNat + n) % size := by
  rw [UInt64.toNat_add, UInt64.toNat_ofNat', Nat.add_mod_mod, Nat.mod_mod_of_dvd _ dvd]

/-- An index names one row and one column. -/
theorem index_eq_iff {w x y px py : Nat} (hx : x < w) (hpx : px < w) :
    y * w + x = py * w + px ↔ x = px ∧ y = py := by
  constructor
  · intro same
    have column : x = px := by
      simpa [Nat.mul_add_mod', Nat.mod_eq_of_lt hx, Nat.mod_eq_of_lt hpx] using
        congrArg (· % w) same
    subst column
    have row : y * w = py * w := Nat.add_right_cancel same
    exact ⟨rfl, Nat.eq_of_mul_eq_mul_right (by omega) row⟩
  · rintro ⟨rfl, rfl⟩
    rfl

theorem target_eq_iff {r : Resolution} {x y : UInt64} {cell : Nat × Nat} {px py : Nat}
    (hpx : px < r.width) :
    target r x.toNat y.toNat cell = py * r.width + px ↔
      (x + UInt64.ofNat cell.2).toNat % r.width = px ∧
        (y + UInt64.ofNat cell.1).toNat % r.height = py := by
  rw [target, index_eq_iff (Nat.mod_lt _ r.width_pos) hpx,
    toNat_add_ofNat_mod x cell.2 (dvd_word r).1, toNat_add_ofNat_mod y cell.1 (dvd_word r).2]

/-- How often a pixel is flipped is a matter of counting bits. -/
theorem count_targets {r : Resolution} (x y : UInt64) (lines : UInt8) (k : Nat)
    (bytes : List UInt8) {px : Nat} (hpx : px < r.width) (py : Nat) :
    ((cells (rowBytes lines) (block lines k bytes)).map (target r x.toNat y.toNat)).count
        (py * r.width + px) =
      landings r x y lines (isSet lines bytes k) px py := by
  have nodup := nodup_cells (rowBytes lines) (block lines k bytes)
  rw [List.count_eq_countP, List.countP_map, List.countP_eq_length_filter,
    ← List.toFinset_card_of_nodup (nodup.filter _), landings]
  congr 1
  ext ⟨line, column⟩
  simp only [List.mem_toFinset, List.mem_filter, mem_cells_block, Function.comp, beq_iff_eq,
    target_eq_iff hpx, Finset.mem_filter, Finset.mem_product, Finset.mem_range, and_assoc]

/-! ## Drawing on a plane -/

/-- Every pixel is flipped as often as a cell lands on it. -/
theorem getElem?_draw (r : Resolution) (x y : Nat) (lines : UInt8) (bytes : List UInt8) (p : Plane)
    (k : Nat) :
    (draw r x y lines bytes p).1[k]? =
      p[k]?.map (· ^^ (((cells (rowBytes lines) bytes).map (target r x y)).count k % 2 == 1)) :=
  getElem?_foldl_flip _ _ _

/-- A sprite drawn twice leaves the plane as it was. -/
theorem draw_draw (r : Resolution) (x y : Nat) (lines : UInt8) (bytes : List UInt8) (p : Plane) :
    (draw r x y lines bytes (draw r x y lines bytes p).1).1 = p := by
  apply Array.ext_getElem?
  intro k
  rw [getElem?_draw, getElem?_draw]
  cases p[k]? <;> simp

/-- The order in which two sprites are drawn makes no difference. -/
theorem draw_comm (r : Resolution) (x y x' y' : Nat) (lines lines' : UInt8)
    (bytes bytes' : List UInt8) (p : Plane) :
    (draw r x' y' lines' bytes' (draw r x y lines bytes p).1).1 =
      (draw r x y lines bytes (draw r x' y' lines' bytes' p).1).1 := by
  apply Array.ext_getElem?
  intro k
  simp only [getElem?_draw]
  cases p[k]? with
  | none => rfl
  | some lit => exact congrArg some (Bool.xor_right_comm _ _ _)

/-! ## Collisions -/

/-- A sprite that is not higher than the screen lands on different pixels with different cells. -/
theorem nodup_targets {r : Resolution} {lines : UInt8} (fits : rows lines ≤ r.height) (x y : Nat)
    (k : Nat) (bytes : List UInt8) :
    ((cells (rowBytes lines) (block lines k bytes)).map (target r x y)).Nodup := by
  have narrow : 8 * rowBytes lines ≤ r.width := by
    unfold rowBytes
    cases r <;> split <;> decide
  refine (nodup_cells _ _).map_on ?_
  rintro ⟨line, column⟩ mem ⟨line', column'⟩ mem' same
  obtain ⟨row, col, -⟩ := mem_cells_block.1 mem
  obtain ⟨row', col', -⟩ := mem_cells_block.1 mem'
  obtain ⟨columns, lines⟩ := (index_eq_iff (Nat.mod_lt _ r.width_pos) (Nat.mod_lt _ r.width_pos)).1
    same
  have same_line : line = line' :=
    (Nat.ModEq.add_left_cancel' y lines).eq_of_lt_of_lt (by omega) (by omega)
  have same_column : column = column' :=
    (Nat.ModEq.add_left_cancel' x columns).eq_of_lt_of_lt (by omega) (by omega)
  rw [same_line, same_column]

/-- The pixels that go dark are the lit ones on which a cell lands. -/
theorem goes_dark_iff {r : Resolution} {lines : UInt8} (fits : rows lines ≤ r.height) {x y : Nat}
    {k : Nat} {bytes : List UInt8} {p : Plane} {i : Nat} :
    p.getD i false = true ∧ (draw r x y lines (block lines k bytes) p).1.getD i false = false ↔
      i ∈ (cells (rowBytes lines) (block lines k bytes)).map (target r x y) ∧
        p.getD i false = true := by
  have nodup := nodup_targets fits x y k bytes
  simp only [Array.getD_eq_getD_getElem?, getElem?_draw, nodup.count]
  cases p[i]? with
  | none => simp
  | some lit =>
    generalize (cells (rowBytes lines) (block lines k bytes)).map (target r x y) = targets
    by_cases landed : i ∈ targets <;> cases lit <;> simp [landed]

/-- A collision is reported exactly if a cell lands on a lit pixel, -/
theorem snd_draw_iff {r : Resolution} {lines : UInt8} (fits : rows lines ≤ r.height) (x y : Nat)
    (k : Nat) (bytes : List UInt8) (p : Plane) :
    (draw r x y lines (block lines k bytes) p).2 = true ↔
      ∃ line column, line < rows lines ∧ column < 8 * rowBytes lines ∧
        isSet lines bytes k line column = true ∧
        p.getD (target r x y (line, column)) false = true := by
  rw [draw, snd_foldl_flip (nodup_targets fits x y k bytes)]
  simp [mem_cells_block, and_assoc]

/-- which is when a lit pixel goes dark. -/
theorem snd_draw_iff_goes_dark {r : Resolution} {lines : UInt8} (fits : rows lines ≤ r.height)
    (x y : Nat) (k : Nat) (bytes : List UInt8) (p : Plane) :
    (draw r x y lines (block lines k bytes) p).2 = true ↔
      ∃ i, p.getD i false = true ∧
        (draw r x y lines (block lines k bytes) p).1.getD i false = false := by
  simp only [goes_dark_iff fits]
  rw [draw, snd_foldl_flip (nodup_targets fits x y k bytes)]
  simp only [Bool.false_eq_true, false_or]

end XoChip.Sprite
