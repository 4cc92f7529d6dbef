import XoChip.Proofs.Display.Scrolling

/-!
# One plane at a time

What is done to the selected planes is done to each of them as if it were alone: `Call.paint` says what
becomes of a single plane, and `layer_perform` that nothing else counts. So with both planes selected an
operation is the two operations on single planes, in either order, a sprite's bytes being split into a
block for each.
-/

namespace XoChip

namespace Layer

/-- The selection of a plane alone. -/
def mask : Layer → UInt8
  | first => 1
  | second => 2

/-- How many planes come before a plane. -/
def number : Layer → Nat
  | first => 0
  | second => 1

end Layer

namespace Display

namespace Call

/-- The call is about the pixels of the selected planes, not about the mode or the selection. -/
def paints : Call → Bool
  | setHires _ | select _ | reset => false
  | _ => true

/-- What a call makes of a selected plane that `k` others come before, and whether a lit pixel of it
    goes dark under a sprite. -/
def paint (r : Resolution) (k : Nat) (p : Plane) : Call → Plane × Bool
  | clear => (p.map fun _ => false, false)
  | scrollRight => (p.scrollRight r, false)
  | scrollLeft => (p.scrollLeft r, false)
  | scrollDown lines => (p.scrollDown r lines.toNat, false)
  | scrollUp lines => (p.scrollUp r lines.toNat, false)
  | draw x y bytes lines => Sprite.draw r x.toNat y.toNat lines (Sprite.block lines k bytes) p
  | setHires _ | select _ | reset => (p, false)

/-- What is left of a call for one plane: of a sprite on both planes, the bytes for that one. They may
    be fewer than the sprite needs, or none at all. -/
def part (l : Layer) : Call → Call
  | draw x y bytes lines => draw x y (Sprite.block lines l.number bytes) lines
  | c => c

theorem paints_part (c : Call) (l : Layer) : (c.part l).paints = c.paints := by
  cases c <;> rfl

/-- The first block of a block is all of it. -/
theorem paint_part (c : Call) (l : Layer) (r : Resolution) (p : Plane) :
    (c.part l).paint r 0 p = c.paint r l.number p := by
  cases c with
  | draw x y bytes lines =>
    have block_eq : Sprite.block lines 0 (Sprite.block lines l.number bytes) =
        Sprite.block lines l.number bytes := by
      rw [Sprite.block, Nat.zero_mul, List.drop_zero, Sprite.block, List.take_take, Nat.min_self]
    rw [part, paint, block_eq]
    rfl
  | _ => rfl

end Call

/-- Whether a call reports that a lit pixel went dark. Only sprites do. -/
def hit (d : Display) : Call → Bool
  | .draw x y bytes lines => (d.draw x.toNat y.toNat bytes lines).1
  | _ => false

/-! ## Selections -/

section Select

variable (d : Display) (l l' : Layer)

theorem selects_select_zero : (d.select 0).selects l = false := by
  cases l <;> simp [selects, selectsFirst, selectsSecond, select]

theorem selects_select_three : (d.select 3).selects l = true := by
  cases l <;> simp [selects, selectsFirst, selectsSecond, select]

theorem rank_select_three : (d.select 3).rank l = l.number := by
  cases l <;> simp [rank, selectsFirst, select, Layer.number]

theorem selects_select_mask : (d.select l.mask).selects l' = decide (l' = l) := by
  cases l <;> cases l' <;> simp [selects, selectsFirst, selectsSecond, select, Layer.mask]

theorem rank_select_mask : (d.select l.mask).rank l = 0 := by
  cases l <;> simp [rank, selectsFirst, select, Layer.mask]

end Select

/-! ## Calls -/

variable {d : Display} {c : Call} {l l' : Layer}

theorem resolution_perform (painting : c.paints = true) :
    (d.perform c).frame.resolution = d.frame.resolution := by
  cases c with
  | setHires | select | reset => cases painting
  | clear | scrollRight | scrollLeft | scrollDown | scrollUp =>
    simp only [perform, clear, scrollRight, scrollLeft, scrollDown, scrollUp, resolution_mapSelected]
  | draw x y bytes lines => exact resolution_draw d x.toNat y.toNat bytes lines

/-- A call makes of every selected plane what it would make of it alone, and leaves the others. -/
theorem layer_perform (painting : c.paints = true) (l : Layer) :
    (d.perform c).layer l =
      if d.selects l then (c.paint d.frame.resolution (d.rank l) (d.layer l)).1
      else d.layer l := by
  cases c with
  | setHires | select | reset => cases painting
  | clear => exact layer_mapSelected d (fun _ p => p.map fun _ => false) l
  | scrollRight => exact layer_mapSelected d Plane.scrollRight l
  | scrollLeft => exact layer_mapSelected d Plane.scrollLeft l
  | scrollDown lines => exact layer_mapSelected d (fun r => Plane.scrollDown r lines.toNat) l
  | scrollUp lines => exact layer_mapSelected d (fun r => Plane.scrollUp r lines.toNat) l
  | draw x y bytes lines => exact layer_draw d x.toNat y.toNat bytes lines l

theorem hit_iff (d : Display) (c : Call) :
    d.hit c = true ↔
      ∃ l, d.selects l = true ∧ (c.paint d.frame.resolution (d.rank l) (d.layer l)).2 = true := by
  cases c with
  | draw x y bytes lines => exact fst_draw_iff d x.toNat y.toNat bytes lines
  | _ => simp [hit, Call.paint]

/-- With one plane selected, that one is all that changes. -/
theorem layer_perform_part (painting : c.paints = true) (d : Display) (l l' : Layer) :
    ((d.select l.mask).perform (c.part l)).layer l' =
      if l' = l then (c.paint d.frame.resolution l.number (d.layer l)).1 else d.layer l' := by
  rw [layer_perform ((c.paints_part l).trans painting), selects_select_mask]
  by_cases same : l' = l
  · subst same
    simp only [decide_true, if_true, rank_select_mask, layer_select, frame_select, Call.paint_part]
  · simp only [same, decide_false, Bool.false_eq_true, if_false, layer_select]

theorem hit_part (d : Display) (c : Call) (l : Layer) :
    (d.select l.mask).hit (c.part l) = (c.paint d.frame.resolution l.number (d.layer l)).2 := by
  rw [Bool.eq_iff_iff, hit_iff]
  simp only [selects_select_mask, decide_eq_true_eq, exists_eq_left, rank_select_mask, layer_select,
    frame_select, Call.paint_part]

theorem resolution_perform_part (painting : c.paints = true) (d : Display) (l : Layer) :
    ((d.select l.mask).perform (c.part l)).frame.resolution = d.frame.resolution :=
  resolution_perform ((c.paints_part l).trans painting)

/-- Nothing that is done to one plane shows on the other, so that the planes can be taken in turn. -/
theorem frame_perform_of_both (painting : c.paints = true) (d : Display) (ne : l ≠ l') :
    ((d.select 3).perform c).frame =
      ((((d.select l.mask).perform (c.part l)).select l'.mask).perform (c.part l')).frame := by
  apply frame_eq_of_layer
  · rw [resolution_perform painting, frame_select, resolution_perform_part painting,
      resolution_perform_part painting]
  · intro k
    rw [layer_perform painting, if_pos (selects_select_three d k), rank_select_three, layer_select,
      frame_select, layer_perform_part painting, resolution_perform_part painting,
      layer_perform_part painting, layer_perform_part painting]
    rcases Layer.eq_or_eq ne k with rfl | rfl
    · rw [if_neg ne, if_pos rfl]
    · rw [if_pos rfl, if_neg ne.symm]

/-- A collision on either plane is reported, also if the other one is drawn on first. -/
theorem hit_of_both (painting : c.paints = true) (d : Display) (ne : l ≠ l') :
    (d.select 3).hit c =
      ((d.select l.mask).hit (c.part l) ||
        (((d.select l.mask).perform (c.part l)).select l'.mask).hit (c.part l')) := by
  rw [hit_part, hit_part, resolution_perform_part painting, layer_perform_part painting,
    if_neg ne.symm, Bool.eq_iff_iff, hit_iff, Layer.exists_iff ne, Bool.or_eq_true]
  simp only [selects_select_three, true_and, rank_select_three, layer_select, frame_select]

/-- What is done to both planes is done to one of them and then to the other, in either order, each with
    its own bytes of a sprite, and a collision is one on either. What is done to one plane leaves the
    other alone, and what is done to none leaves both. -/
theorem both_planes_in_turn (d : Display) {c : Call} (painting : c.paints = true) :
    (∀ l l' : Layer, l ≠ l' →
      let one := (d.select l.mask).perform (c.part l)
      ((d.select 3).perform c).frame = ((one.select l'.mask).perform (c.part l')).frame ∧
        (d.select 3).hit c =
          ((d.select l.mask).hit (c.part l) || (one.select l'.mask).hit (c.part l'))) ∧
    (∀ l l' : Layer, l ≠ l' → ((d.select l.mask).perform c).layer l' = d.layer l') ∧
    ((d.select 0).perform c).frame = d.frame ∧ (d.select 0).hit c = false := by
  refine ⟨?_, ?_, ?_, ?_⟩
  · intro l l' ne
    exact ⟨frame_perform_of_both painting d ne, hit_of_both painting d ne⟩
  · intro l l' ne
    have unselected : ¬ (d.select l.mask).selects l' = true := by
      simp [selects_select_mask, ne.symm]
    rw [layer_perform painting, if_neg unselected, layer_select]
  · apply frame_eq_of_layer
    · rw [resolution_perform painting, frame_select]
    · intro l
      rw [layer_perform painting, selects_select_zero, layer_select]
      rfl
  · rw [Bool.eq_false_iff, ne_eq, hit_iff]
    simp [selects_select_zero]

/-- A sprite of two lines on both planes, of which the second plane gets the first line only. It meets
    its own pixel there. -/
theorem both_planes_in_turn_truncated :
    let d := ((Display.reset.select 2).draw 63 31 [0x80] 1).2
    let c : Call := .draw 63 31 [0x80, 0x80, 0x80] 2
    let first := (d.select 1).perform (.draw 63 31 [0x80, 0x80] 2)
    let second := (d.select 2).perform (.draw 63 31 [0x80] 2)
    c.paints = true ∧
      ((d.select 3).perform c).frame =
        ((first.select 2).perform (.draw 63 31 [0x80] 2)).frame ∧
      ((d.select 3).perform c).frame =
        ((second.select 1).perform (.draw 63 31 [0x80, 0x80] 2)).frame ∧
      (d.select 3).hit c = true ∧ (d.select 0).hit c = false := by
  intro d c first second
  have painting : c.paints = true := rfl
  obtain ⟨turn, -, -, none⟩ := both_planes_in_turn d painting
  obtain ⟨frame, hit⟩ := turn .first .second (by decide)
  obtain ⟨frame', -⟩ := turn .second .first (by decide)
  refine ⟨painting, frame, frame', ?_, none⟩
  rw [hit, Bool.or_eq_true]
  right
  decide +kernel

end Display

end XoChip
