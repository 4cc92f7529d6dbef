import XoChip.Proofs.Display.Drawing

/-!
# Where scrolling moves pixels

A scroll puts dark pixels in at one end of a row, or of the whole plane, and drops as many at the other
end. Counted by rows and columns, every pixel moves straight: none crosses from one row into the next.
Vertical scrolls add up, also beyond the height of the screen.
-/

namespace XoChip

namespace Plane

/-! ## Shifts of a buffer -/

/-- Dark pixels put in front of a buffer push its pixels towards the end. -/
theorem getD_pushForward {xs : Array Bool} {size n k : Nat} (hxs : xs.size = size) (hk : k < size) :
    (Array.replicate n false ++ xs.extract 0 (size - n)).getD k false =
      if n ≤ k then xs.getD (k - n) false else false := by
  simp only [Array.getD_eq_getD_getElem?, Array.getElem?_append, Array.size_replicate]
  by_cases front : k < n
  · rw [if_pos front, if_neg (by omega), Array.getElem?_replicate, if_pos front, Option.getD_some]
  · rw [if_neg front, if_pos (by omega), Array.getElem?_extract, if_pos (by omega), Nat.zero_add]

/-- Dark pixels put behind a buffer push its pixels towards the start. -/
theorem getD_pushBack {xs : Array Bool} {size n k : Nat} (hxs : xs.size = size) (hn : n ≤ size)
    (hk : k < size) :
    (xs.extract n size ++ Array.replicate n false).getD k false =
      if k + n < size then xs.getD (k + n) false else false := by
  simp only [Array.getD_eq_getD_getElem?, Array.getElem?_append, Array.size_extract, hxs,
    Nat.min_self]
  by_cases kept : k + n < size
  · rw [if_pos (by omega), if_pos kept, Array.getElem?_extract, if_pos (by omega), Nat.add_comm n]
  · rw [if_neg (by omega), if_neg kept, Array.getElem?_replicate, if_pos (by omega),
      Option.getD_some]

/-! ## Rows -/

/-- In rows of one width that are put one after the other, a pixel is found by row and column. -/
theorem getElem?_flatMap_rows {row : Nat → Array Bool} {w h : Nat}
    (size_row : ∀ y, y < h → (row y).size = w) {x y : Nat} (hx : x < w) (hy : y < h) :
    ((Array.range h).flatMap row)[y * w + x]? = (row y)[x]? := by
  induction h with
  | zero => exact absurd hy (Nat.not_lt_zero y)
  | succ h ih =>
    have size_before : ((Array.range h).flatMap row).size = h * w := by
      have sizes : ∀ y ∈ Array.range h, (row y).size = w := by
        intro y hy
        exact size_row y (Nat.lt_succ_of_lt (by simpa using hy))
      rw [Array.size_flatMap, Array.map_congr_left sizes, Array.map_const',
        Array.sum_replicate_nat, Array.size_range]
    rw [Array.range_succ, Array.flatMap_append, Array.getElem?_append, size_before]
    by_cases last : y = h
    · subst last
      simp
    · have before : y * w + x < h * w := by
        calc y * w + x < (y + 1) * w := by rw [Nat.add_mul]; omega
          _ ≤ h * w := Nat.mul_le_mul_right w (by omega)
      rw [if_pos before]
      exact ih (fun y hy => size_row y (by omega)) (by omega)

variable {r : Resolution} {p : Plane}

/-- What becomes of a row depends on that row alone. -/
theorem getD_mapRows {move : Array Bool → Array Bool} (hp : p.size = r.area)
    (size_move : ∀ row : Array Bool, row.size = r.width → (move row).size = r.width) {x y : Nat}
    (hx : x < r.width) (hy : y < r.height) :
    (p.mapRows r move).getD (y * r.width + x) false =
      (move (p.extract (y * r.width) ((y + 1) * r.width))).getD x false := by
  rw [Array.getD_eq_getD_getElem?, Array.getD_eq_getD_getElem?, mapRows,
    getElem?_flatMap_rows (fun y hy => size_move _ (size_row hp hy)) hx hy]

theorem getD_row (hp : p.size = r.area) {x y : Nat} (hx : x < r.width) (hy : y < r.height) :
    (p.extract (y * r.width) ((y + 1) * r.width)).getD x false =
      p.getD (y * r.width + x) false := by
  have size := size_row hp hy
  rw [Array.size_extract] at size
  rw [Array.getD_eq_getD_getElem?, Array.getD_eq_getD_getElem?, Array.getElem?_extract,
    if_pos (by omega)]

theorem getD_scrollRight (hp : p.size = r.area) {x y : Nat} (hx : x < r.width)
    (hy : y < r.height) :
    (p.scrollRight r).getD (y * r.width + x) false =
      if sideStep ≤ x then p.getD (y * r.width + (x - sideStep)) false else false := by
  rw [scrollRight, getD_mapRows hp (fun _ => size_pushForward (sideStep_le_width r)) hx hy,
    getD_pushForward (size_row hp hy) hx]
  by_cases inside : sideStep ≤ x
  · rw [if_pos inside, if_pos inside, getD_row hp (by omega) hy]
  · rw [if_neg inside, if_neg inside]

theorem getD_scrollLeft (hp : p.size = r.area) {x y : Nat} (hx : x < r.width)
    (hy : y < r.height) :
    (p.scrollLeft r).getD (y * r.width + x) false =
      if x + sideStep < r.width then p.getD (y * r.width + (x + sideStep)) false else false := by
  have le_width := sideStep_le_width r
  rw [scrollLeft, getD_mapRows hp (fun _ => size_pushBack le_width) hx hy,
    getD_pushBack (size_row hp hy) le_width hx]
  by_cases inside : x + sideStep < r.width
  · rw [if_pos inside, if_pos inside, getD_row hp inside hy]
  · rw [if_neg inside, if_neg inside]

/-! ## Lines -/

/-- A pixel lies behind the first lines of a plane if its row does. -/
theorem mul_le_index_iff {w x y lines : Nat} (hx : x < w) :
    lines * w ≤ y * w + x ↔ lines ≤ y := by
  have row_eq : (y * w + x) / w = y := by
    rw [Nat.mul_comm, Nat.mul_add_div (by omega), Nat.div_eq_of_lt hx, Nat.add_zero]
  rw [← Nat.le_div_iff_mul_le (by omega), row_eq]

theorem getD_scrollDown (hp : p.size = r.area) (lines : Nat) {x y : Nat} (hx : x < r.width)
    (hy : y < r.height) :
    (p.scrollDown r lines).getD (y * r.width + x) false =
      if lines ≤ y then p.getD ((y - lines) * r.width + x) false else false := by
  have inside : y * r.width + x < r.area := by
    rw [Resolution.area, Nat.mul_comm r.width, ← Nat.not_le, mul_le_index_iff hx]
    omega
  rw [scrollDown, getD_pushForward hp inside]
  simp only [mul_le_index_iff hx]
  by_cases below : lines ≤ y
  · have le_index : lines * r.width ≤ y * r.width := Nat.mul_le_mul_right _ below
    have shift_eq : min lines r.height = lines := by omega
    rw [if_pos below, if_pos (by omega), shift_eq, Nat.sub_mul, Nat.sub_add_comm le_index]
  · rw [if_neg below, if_neg (by omega)]

theorem getD_scrollUp (hp : p.size = r.area) (lines : Nat) {x y : Nat} (hx : x < r.width)
    (hy : y < r.height) :
    (p.scrollUp r lines).getD (y * r.width + x) false =
      if y + lines < r.height then p.getD ((y + lines) * r.width + x) false else false := by
  have inside_iff (k : Nat) : k * r.width + x < r.area ↔ k < r.height := by
    rw [Resolution.area, Nat.mul_comm r.width, ← Nat.not_le, mul_le_index_iff hx, Nat.not_le]
  have moved (k : Nat) : y * r.width + x + k * r.width = (y + k) * r.width + x := by
    rw [Nat.add_mul]
    omega
  rw [scrollUp, getD_pushBack hp (shift_le_area r lines) ((inside_iff y).2 hy), moved]
  simp only [inside_iff]
  by_cases above : y + lines < r.height
  · have shift_eq : min lines r.height = lines := by omega
    rw [if_pos above, if_pos (by omega), shift_eq]
  · rw [if_neg above, if_neg (by omega)]

/-- Planes that show the same in every row and column are the same. -/
theorem eq_of_getD {p q : Plane} (hp : p.size = r.area) (hq : q.size = r.area)
    (same : ∀ x y, x < r.width → y < r.height →
      p.getD (y * r.width + x) false = q.getD (y * r.width + x) false) : p = q := by
  apply Array.ext
  · rw [hp, hq]
  · intro k hk hk'
    have lt_area : k < r.width * r.height := by
      rw [hp] at hk
      exact hk
    have row_lt : k / r.width < r.height := Nat.div_lt_of_lt_mul lt_area
    have at_k := same (k % r.width) (k / r.width) (Nat.mod_lt _ r.width_pos) row_lt
    rw [Nat.div_add_mod'] at at_k
    simpa [Array.getD_eq_getD_getElem?, hk, hk'] using at_k

/-- Two scrolls in one direction are one, even if together they are longer than the screen is high. -/
theorem scrollDown_scrollDown (hp : p.size = r.area) (lines lines' : Nat) :
    (p.scrollDown r lines).scrollDown r lines' = p.scrollDown r (lines + lines') := by
  have size : (p.scrollDown r lines).size = r.area := size_scrollDown hp
  apply eq_of_getD (size_scrollDown size) (size_scrollDown hp)
  intro x y hx hy
  rw [getD_scrollDown size lines' hx hy, getD_scrollDown hp _ hx hy]
  by_cases below : lines' ≤ y
  · rw [if_pos below, getD_scrollDown hp lines hx (by omega)]
    by_cases below_both : lines + lines' ≤ y
    · rw [if_pos (by omega), if_pos below_both, Nat.sub_sub, Nat.add_comm lines']
    · rw [if_neg (by omega), if_neg below_both]
  · rw [if_neg below, if_neg (by omega)]

theorem scrollUp_scrollUp (hp : p.size = r.area) (lines lines' : Nat) :
    (p.scrollUp r lines).scrollUp r lines' = p.scrollUp r (lines + lines') := by
  have size : (p.scrollUp r lines).size = r.area := size_scrollUp hp
  apply eq_of_getD (size_scrollUp size) (size_scrollUp hp)
  intro x y hx hy
  rw [getD_scrollUp size lines' hx hy, getD_scrollUp hp _ hx hy]
  by_cases above : y + lines' < r.height
  · rw [if_pos above, getD_scrollUp hp lines hx above, Nat.add_assoc, Nat.add_comm lines']
  · rw [if_neg above, if_neg (by omega)]

/-- A scroll by the height of the screen or more leaves nothing. -/
theorem scrollDown_eq_dark {lines : Nat} (far : r.height ≤ lines) :
    p.scrollDown r lines = dark r := by
  have shift_eq : min lines r.height * r.width = r.area := by
    rw [Nat.min_eq_right far, Resolution.area, Nat.mul_comm]
  rw [scrollDown, shift_eq, Nat.sub_self]
  simp [dark]

theorem scrollUp_eq_dark {lines : Nat} (far : r.height ≤ lines) :
    p.scrollUp r lines = dark r := by
  have shift_eq : min lines r.height * r.width = r.area := by
    rw [Nat.min_eq_right far, Resolution.area, Nat.mul_comm]
  rw [scrollUp, shift_eq]
  simp [dark]

end Plane

/-! ## Scrolling the screen -/

namespace Display

variable {d : Display} {l : Layer}

/-- An operation changes the selected planes and leaves the others as they are. -/
theorem layer_mapSelected (d : Display) (op : Resolution → Plane → Plane) (l : Layer) :
    (d.mapSelected op).layer l =
      if d.selects l then op d.frame.resolution (d.layer l) else d.layer l := by
  cases first : d.selectsFirst <;> cases second : d.selectsSecond <;> cases l <;>
    simp_all [mapSelected, selects, layer, selectsSecond]

theorem lit_mapSelected (op : Resolution → Plane → Plane) (selected : d.selects l = true)
    (x y : Nat) :
    (d.mapSelected op).lit l x y =
      (op d.frame.resolution (d.layer l)).getD (y * d.frame.resolution.width + x) false := by
  rw [lit, layer_mapSelected, if_pos selected, resolution_mapSelected]

/-- Two operations on the selected planes are one if they are on every plane. -/
theorem mapSelected_mapSelected (h : d.WellFormed) {op op' op'' : Resolution → Plane → Plane}
    (both : ∀ r p, p.size = r.area → op' r (op r p) = op'' r p) :
    (d.mapSelected op).mapSelected op' = d.mapSelected op'' := by
  apply eq_of_layer
  · simp
  · simp
  · simp
  · intro l
    have selects_again : (d.mapSelected op).selects l = d.selects l :=
      selects_congr (selection_mapSelected d op)
    rw [layer_mapSelected, layer_mapSelected, layer_mapSelected, selects_again,
      resolution_mapSelected]
    by_cases selected : d.selects l
    · rw [if_pos selected, if_pos selected, if_pos selected, both _ _ (h.size_layer l)]
    · rw [if_neg selected, if_neg selected, if_neg selected]

/-- Scroll the selected planes down by any number of lines. -/
def scrollDownBy (d : Display) (lines : Nat) : Display :=
  d.mapSelected fun r => Plane.scrollDown r lines

/-- Scroll the selected planes up by any number of lines. -/
def scrollUpBy (d : Display) (lines : Nat) : Display :=
  d.mapSelected fun r => Plane.scrollUp r lines

theorem scrollDown_eq (d : Display) (lines : UInt8) :
    d.scrollDown lines = d.scrollDownBy lines.toNat := rfl

theorem scrollUp_eq (d : Display) (lines : UInt8) :
    d.scrollUp lines = d.scrollUpBy lines.toNat := rfl

theorem scrollDownBy_scrollDownBy (h : d.WellFormed) (lines lines' : Nat) :
    (d.scrollDownBy lines).scrollDownBy lines' = d.scrollDownBy (lines + lines') :=
  mapSelected_mapSelected h fun _ _ size => Plane.scrollDown_scrollDown size lines lines'

theorem scrollUpBy_scrollUpBy (h : d.WellFormed) (lines lines' : Nat) :
    (d.scrollUpBy lines).scrollUpBy lines' = d.scrollUpBy (lines + lines') :=
  mapSelected_mapSelected h fun _ _ size => Plane.scrollUp_scrollUp size lines lines'

section Pixels

variable (h : d.WellFormed) (selected : d.selects l = true) {x y : Nat}
  (hx : x < d.frame.resolution.width) (hy : y < d.frame.resolution.height)

include h selected hx hy

theorem lit_scrollRight :
    d.scrollRight.lit l x y = if 4 ≤ x then d.lit l (x - 4) y else false :=
  (lit_mapSelected _ selected x y).trans (Plane.getD_scrollRight (h.size_layer l) hx hy)

theorem lit_scrollLeft :
    d.scrollLeft.lit l x y =
      if x + 4 < d.frame.resolution.width then d.lit l (x + 4) y else false :=
  (lit_mapSelected _ selected x y).trans (Plane.getD_scrollLeft (h.size_layer l) hx hy)

theorem lit_scrollDownBy (lines : Nat) :
    (d.scrollDownBy lines).lit l x y = if lines ≤ y then d.lit l x (y - lines) else false :=
  (lit_mapSelected _ selected x y).trans (Plane.getD_scrollDown (h.size_layer l) lines hx hy)

theorem lit_scrollUpBy (lines : Nat) :
    (d.scrollUpBy lines).lit l x y =
      if y + lines < d.frame.resolution.height then d.lit l x (y + lines) else false :=
  (lit_mapSelected _ selected x y).trans (Plane.getD_scrollUp (h.size_layer l) lines hx hy)

end Pixels

/-- Scrolls move the pixels of the selected planes straight, and dark pixels take the place of those
    that moved away; nothing else changes. A vertical scroll as high as the screen darkens it, and two
    in one direction are one by the lines of both. -/
theorem scrolls_move_straight (h : d.WellFormed) (n : UInt8) :
    let r := d.frame.resolution
    (∀ l, d.selects l = true → ∀ x y, x < r.width → y < r.height →
      d.scrollRight.lit l x y = (if 4 ≤ x then d.lit l (x - 4) y else false) ∧
      d.scrollLeft.lit l x y = (if x + 4 < r.width then d.lit l (x + 4) y else false) ∧
      (d.scrollDown n).lit l x y = (if n.toNat ≤ y then d.lit l x (y - n.toNat) else false) ∧
      (d.scrollUp n).lit l x y =
        (if y + n.toNat < r.height then d.lit l x (y + n.toNat) else false)) ∧
    (∀ e ∈ [d.scrollRight, d.scrollLeft, d.scrollDown n, d.scrollUp n],
      e.WellFormed ∧ e.hires = d.hires ∧ e.frame.resolution = r ∧ e.selection = d.selection ∧
        ∀ l, d.selects l = false → e.layer l = d.layer l) ∧
    (r.height ≤ n.toNat → ∀ l, d.selects l = true →
      (d.scrollDown n).layer l = Plane.dark r ∧ (d.scrollUp n).layer l = Plane.dark r) ∧
    ∀ m : UInt8,
      (d.scrollDown m).scrollDown n = d.scrollDownBy (m.toNat + n.toNat) ∧
      (d.scrollUp m).scrollUp n = d.scrollUpBy (m.toNat + n.toNat) ∧
      ∀ l, d.selects l = true → ∀ x y, x < r.width → y < r.height →
        ((d.scrollDown m).scrollDown n).lit l x y =
          (if m.toNat + n.toNat ≤ y then d.lit l x (y - (m.toNat + n.toNat)) else false) ∧
        ((d.scrollUp m).scrollUp n).lit l x y =
          (if y + (m.toNat + n.toNat) < r.height then d.lit l x (y + (m.toNat + n.toNat))
            else false) := by
  intro r
  refine ⟨?_, ?_, ?_, ?_⟩
  · intro l selected x y hx hy
    exact ⟨lit_scrollRight h selected hx hy, lit_scrollLeft h selected hx hy,
      lit_scrollDownBy h selected hx hy n.toNat, lit_scrollUpBy h selected hx hy n.toNat⟩
  · have kept {op : Resolution → Plane → Plane} (wf : (d.mapSelected op).WellFormed) :
        (d.mapSelected op).WellFormed ∧ (d.mapSelected op).hires = d.hires ∧
          (d.mapSelected op).frame.resolution = r ∧
          (d.mapSelected op).selection = d.selection ∧
          ∀ l, d.selects l = false → (d.mapSelected op).layer l = d.layer l := by
      refine ⟨wf, hires_mapSelected d op, resolution_mapSelected d op, selection_mapSelected d op, ?_⟩
      intro l unselected
      rw [layer_mapSelected, unselected]
      rfl
    simp only [List.forall_mem_cons, List.not_mem_nil, false_imp_iff, implies_true, and_true]
    exact ⟨kept h.scrollRight, kept h.scrollLeft, kept (h.scrollDown n), kept (h.scrollUp n)⟩
  · intro far l selected
    constructor
    · rw [scrollDown_eq, scrollDownBy, layer_mapSelected, if_pos selected,
        Plane.scrollDown_eq_dark far]
    · rw [scrollUp_eq, scrollUpBy, layer_mapSelected, if_pos selected, Plane.scrollUp_eq_dark far]
  · intro m
    have down := scrollDownBy_scrollDownBy h m.toNat n.toNat
    have up := scrollUpBy_scrollUpBy h m.toNat n.toNat
    refine ⟨down, up, ?_⟩
    intro l selected x y hx hy
    constructor
    · rw [scrollDown_eq, scrollDown_eq, down, lit_scrollDownBy h selected hx hy]
    · rw [scrollUp_eq, scrollUp_eq, up, lit_scrollUpBy h selected hx hy]

/-- A pixel in the last column of the first row, in both planes of a large screen of which the second
    one is selected. Moved to the right it is lost, and does not come up in the second row. -/
theorem scrolls_move_straight_corner :
    let d := (((Display.reset.setHires true).select 3).draw 127 0 [0x80, 0x80] 1).2.select 2
    d.WellFormed ∧ d.scrollRight.lit .second 3 1 = false ∧
      d.scrollRight.layer .first = d.layer .first ∧ d.scrollLeft.lit .second 123 0 = true ∧
      (d.scrollUp 1).lit .second 127 0 = false ∧ (d.scrollDown 64).layer .second = .dark .hires ∧
      ((d.scrollDown 40).scrollDown 23).lit .second 127 63 = true ∧
      (d.scrollDown 200).scrollDown 100 = d.scrollDownBy 300 := by
  intro d
  have wf : d.WellFormed :=
    (((wellFormed_reset.setHires true).select 3).draw 127 0 [0x80, 0x80] 1).select 2
  have unselected : d.selects .first = false := by decide +kernel
  have selected : d.selects .second = true := by decide +kernel
  have resolution : d.frame.resolution = .hires := by decide +kernel
  have lit : d.lit .second 127 0 = true ∧ d.lit .second 127 1 = false := by decide +kernel
  clear_value d
  obtain ⟨pixel, others, -, -⟩ := scrolls_move_straight wf 1
  obtain ⟨-, -, dark, -⟩ := scrolls_move_straight wf 64
  obtain ⟨-, -, -, twice⟩ := scrolls_move_straight wf 23
  obtain ⟨-, -, -, far⟩ := scrolls_move_straight wf 100
  rw [resolution] at pixel dark twice
  refine ⟨wf, ?_, ?_, ?_, ?_, ?_, ?_, (far 200).1⟩
  · rw [(pixel _ selected 3 1 (by decide) (by decide)).1]
    rfl
  · exact (others _ (.head _)).2.2.2.2 .first unselected
  · rw [(pixel _ selected 123 0 (by decide) (by decide)).2.1]
    exact lit.1
  · rw [(pixel _ selected 127 0 (by decide) (by decide)).2.2.2]
    exact lit.2
  · exact (dark (by decide) _ selected).1
  · rw [((twice 40).2.2 _ selected 127 63 (by decide) (by decide)).1]
    exact lit.1

end Display

end XoChip
