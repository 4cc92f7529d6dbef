import XoChip.Display
import XoChip.Proofs.Run

/-!
# The display stays well formed

A display is well formed if its picture has the resolution of its mode, its planes have one bit
for every pixel, and its selection names planes that exist. Every operation keeps that, whether
an instruction or the host asks for it. The size of a plane is the only thing to look at: scrolls
cut off as many pixels as they fill in, and a sprite flips pixels in place.
-/

namespace XoChip

namespace Resolution

theorem width_pos (r : Resolution) : 0 < r.width := by cases r <;> decide

theorem height_pos (r : Resolution) : 0 < r.height := by cases r <;> decide

end Resolution

namespace Plane

/-- The rows of a well-sized plane are of full width. -/
theorem size_row {r : Resolution} {p : Plane} (hp : p.size = r.area) {y : Nat}
    (hy : y < r.height) : (p.extract (y * r.width) ((y + 1) * r.width)).size = r.width := by
  have le_area : (y + 1) * r.width ≤ r.area := by
    rw [Resolution.area, Nat.mul_comm r.width]
    exact Nat.mul_le_mul_right _ hy
  rw [Array.size_extract, hp, Nat.min_eq_left le_area, Nat.add_mul]
  omega

/-- Moving every row by itself keeps the size of a plane if it keeps the length of a row. -/
theorem size_mapRows {r : Resolution} {move : Array Bool → Array Bool} {p : Plane}
    (size_move : ∀ row : Array Bool, row.size = r.width → (move row).size = r.width)
    (hp : p.size = r.area) : (p.mapRows r move).size = r.area := by
  have size_moved : ∀ y ∈ Array.range r.height,
      (move (p.extract (y * r.width) ((y + 1) * r.width))).size = r.width := by
    intro y hy
    exact size_move _ (size_row hp (by simpa using hy))
  unfold mapRows
  rw [Array.size_flatMap, Array.map_congr_left size_moved, Array.map_const',
    Array.sum_replicate_nat, Array.size_range, Resolution.area, Nat.mul_comm]

theorem sideStep_le_width (r : Resolution) : sideStep ≤ r.width := by cases r <;> decide

/-- A scroll puts in as many pixels at one end of a buffer as it drops at the other, -/
theorem size_pushForward {xs : Array Bool} {size n : Nat} (hn : n ≤ size) (hxs : xs.size = size) :
    (Array.replicate n false ++ xs.extract 0 (size - n)).size = size := by
  simp only [Array.size_append, Array.size_replicate, Array.size_extract, hxs]
  omega

/-- in either direction. -/
theorem size_pushBack {xs : Array Bool} {size n : Nat} (hn : n ≤ size) (hxs : xs.size = size) :
    (xs.extract n size ++ Array.replicate n false).size = size := by
  simp only [Array.size_append, Array.size_replicate, Array.size_extract, hxs]
  omega

theorem size_scrollRight {r : Resolution} {p : Plane} (hp : p.size = r.area) :
    (p.scrollRight r).size = r.area :=
  size_mapRows (fun _ => size_pushForward (sideStep_le_width r)) hp

theorem size_scrollLeft {r : Resolution} {p : Plane} (hp : p.size = r.area) :
    (p.scrollLeft r).size = r.area :=
  size_mapRows (fun _ => size_pushBack (sideStep_le_width r)) hp

/-- No scroll moves a plane by more than its size. -/
theorem shift_le_area (r : Resolution) (lines : Nat) :
    min lines r.height * r.width ≤ r.area := by
  rw [Resolution.area, Nat.mul_comm r.width]
  exact Nat.mul_le_mul_right _ (Nat.min_le_right _ _)

theorem size_scrollDown {r : Resolution} {lines : Nat} {p : Plane} (hp : p.size = r.area) :
    (p.scrollDown r lines).size = r.area :=
  size_pushForward (shift_le_area r lines) hp

theorem size_scrollUp {r : Resolution} {lines : Nat} {p : Plane} (hp : p.size = r.area) :
    (p.scrollUp r lines).size = r.area :=
  size_pushBack (shift_le_area r lines) hp

/-- The first `n` pixels of `source` written over those of `target`. -/
theorem getElem?_fold_overwrite {target source : Plane} (n : Nat) (hn : n ≤ source.size)
    (k : Nat) :
    (n.fold (fun k _ p => p.setIfInBounds k source[k]) target : Plane)[k]? =
      if k < n ∧ k < target.size then source[k]? else target[k]? := by
  induction n with
  | zero => simp
  | succ n ih =>
    have size_eq : ∀ m (hm : m ≤ source.size),
        (m.fold (fun k _ p => p.setIfInBounds k source[k]) target : Plane).size =
          target.size := by
      intro m hm
      induction m with
      | zero => rfl
      | succ m ihm => rw [Nat.fold_succ, Array.size_setIfInBounds, ihm (by omega)]
    rw [Nat.fold_succ, Array.getElem?_setIfInBounds, ih (by omega), size_eq n (by omega)]
    by_cases same : n = k
    · subst same
      by_cases inside : n < target.size
      · rw [if_pos rfl, if_pos inside, if_pos ⟨Nat.lt_succ_self n, inside⟩,
          Array.getElem?_eq_getElem]
      · rw [if_pos rfl, if_neg inside, if_neg (fun h => inside h.2),
          Array.getElem?_eq_none (Nat.not_lt.1 inside)]
    · have lt_iff : k < n + 1 ↔ k < n := by omega
      rw [if_neg same]
      simp only [lt_iff]

/-- Writing pixels over a plane of the same size gives the source. -/
theorem overwrite_eq {target source : Plane} (h : target.size = source.size) :
    target.overwrite source = source := by
  apply Array.ext_getElem?
  intro k
  rw [overwrite, getElem?_fold_overwrite _ (Nat.le_refl _), h]
  split
  · rfl
  · next hk =>
    rw [Array.getElem?_eq_none (by omega), Array.getElem?_eq_none (by omega)]

theorem eq_zero_or_one_of_mem_bytes {p : Plane} : ∀ b ∈ p.bytes, b = 0 ∨ b = 1 := by
  intro b hb
  obtain ⟨lit, -, rfl⟩ := Array.mem_map.1 hb
  cases lit <;> decide

theorem size_of_ofBytes? {bytes : Array UInt8} {p : Plane} (h : ofBytes? bytes = some p) :
    p.size = bytes.size := by
  unfold ofBytes? at h
  split at h
  · cases h
    exact Array.size_map
  · cases h

end Plane

/-! ## Sprites -/

namespace Sprite

@[simp] theorem size_flip (state : Plane × Bool) (index : Nat) :
    (flip state index).1.size = state.1.size := by
  simp [flip]

theorem size_foldl_flip (indices : List Nat) (state : Plane × Bool) :
    (indices.foldl flip state).1.size = state.1.size := by
  induction indices generalizing state with
  | nil => rfl
  | cons index indices ih => rw [List.foldl_cons, ih, size_flip]

@[simp] theorem size_draw (r : Resolution) (x y : Nat) (lines : UInt8) (bytes : List UInt8)
    (p : Plane) : (draw r x y lines bytes p).1.size = p.size :=
  size_foldl_flip _ _

end Sprite

/-! ## Pictures -/

namespace Frame

/-- What it takes to put a picture together from planes, and what the picture is then. -/
theorem ofPlanes?_eq_some {width height : UInt64} {plane1 plane2 : Array UInt8} {f : Frame} :
    ofPlanes? width height plane1 plane2 = some f ↔
      Resolution.ofSize? width height = some f.resolution ∧
      plane1.size = f.resolution.area ∧ plane2.size = f.resolution.area ∧
      Plane.ofBytes? plane1 = some f.plane1 ∧ Plane.ofBytes? plane2 = some f.plane2 := by
  constructor
  · intro h
    obtain ⟨r, size, h⟩ := Option.bind_eq_some_iff.1 h
    split at h
    · next sizes =>
      obtain ⟨p1, bytes1, h⟩ := Option.bind_eq_some_iff.1 h
      obtain ⟨p2, bytes2, h⟩ := Option.bind_eq_some_iff.1 h
      cases h
      exact ⟨size, sizes.1, sizes.2, bytes1, bytes2⟩
    · cases h
  · rintro ⟨size, size1, size2, bytes1, bytes2⟩
    rw [ofPlanes?, size]
    simp only [Option.bind_eq_bind, Option.bind_some]
    rw [if_pos ⟨size1, size2⟩, bytes1, bytes2]
    rfl

/-- A picture that is put together from planes is well formed. -/
theorem wellFormed_of_ofPlanes? {width height : UInt64} {plane1 plane2 : Array UInt8} {f : Frame}
    (h : ofPlanes? width height plane1 plane2 = some f) : f.WellFormed := by
  obtain ⟨-, size1, size2, bytes1, bytes2⟩ := ofPlanes?_eq_some.1 h
  constructor
  · rw [Plane.size_of_ofBytes? bytes1, size1]
  · rw [Plane.size_of_ofBytes? bytes2, size2]

/-- Recycling a picture gives the same as taking a new one. -/
theorem copyInto_eq {f : Frame} {recycled : Option Frame} (hf : f.WellFormed)
    (h : ∀ old ∈ recycled, old.WellFormed) : f.copyInto recycled = f := by
  cases recycled with
  | none => rfl
  | some old =>
    have hold := h old rfl
    unfold copyInto
    dsimp only
    split
    · next same =>
      rw [Plane.overwrite_eq (by rw [hold.size_plane1, hf.size_plane1, same]),
        Plane.overwrite_eq (by rw [hold.size_plane2, hf.size_plane2, same]), same]
    · rfl

end Frame

/-! ## Operations on the display -/

namespace Display

section Draw

variable (d : Display) (x y : Nat) (bytes : List UInt8) (lines : UInt8)

@[simp] theorem hires_draw : (d.draw x y bytes lines).2.hires = d.hires := by
  unfold draw
  dsimp only
  split <;> rfl

@[simp] theorem selection_draw : (d.draw x y bytes lines).2.selection = d.selection := by
  unfold draw
  dsimp only
  split <;> rfl

@[simp] theorem resolution_draw :
    (d.draw x y bytes lines).2.frame.resolution = d.frame.resolution := by
  unfold draw
  dsimp only
  split <;> rfl

end Draw

section MapSelected

variable (d : Display) (op : Resolution → Plane → Plane)

@[simp] theorem hires_mapSelected : (d.mapSelected op).hires = d.hires := by
  unfold mapSelected
  dsimp only
  split
  · split <;> rfl
  · split <;> rfl

@[simp] theorem selection_mapSelected : (d.mapSelected op).selection = d.selection := by
  unfold mapSelected
  dsimp only
  split
  · split <;> rfl
  · split <;> rfl

@[simp] theorem resolution_mapSelected :
    (d.mapSelected op).frame.resolution = d.frame.resolution := by
  unfold mapSelected
  dsimp only
  split
  · split <;> rfl
  · split <;> rfl

end MapSelected

theorem wellFormed_reset : reset.WellFormed where
  frame := Frame.wellFormed_blank _
  resolution := rfl
  selection := by decide

/-! ## The picture of any display -/

section Picture

variable {d : Display}

/-- An operation on the selected planes keeps the picture well formed if it keeps the size of a
    plane, whatever the mode and the selection are. -/
theorem wellFormed_frame_mapSelected (h : d.frame.WellFormed) {op : Resolution → Plane → Plane}
    (size_op : ∀ r p, p.size = r.area → (op r p).size = r.area) :
    (d.mapSelected op).frame.WellFormed := by
  have size1 := size_op _ _ h.size_plane1
  have size2 := size_op _ _ h.size_plane2
  unfold mapSelected
  dsimp only
  split
  · split
    · exact ⟨size1, size2⟩
    · exact ⟨size1, h.size_plane2⟩
  · split
    · exact ⟨h.size_plane1, size2⟩
    · exact h

theorem wellFormed_frame_draw (h : d.frame.WellFormed) (x y : Nat) (bytes : List UInt8)
    (lines : UInt8) : (d.draw x y bytes lines).2.frame.WellFormed := by
  have size1 := h.size_plane1
  have size2 := h.size_plane2
  unfold draw
  dsimp only
  split
  · exact h
  · exact ⟨by rw [Sprite.size_draw, size1], size2⟩
  · exact ⟨size1, by rw [Sprite.size_draw, size2]⟩
  · exact ⟨by rw [Sprite.size_draw, size1], by rw [Sprite.size_draw, size2]⟩

/-- Whatever the host asks for, the picture stays well formed. -/
theorem wellFormed_frame_perform (h : d.frame.WellFormed) (c : Call) :
    (d.perform c).frame.WellFormed := by
  cases c with
  | setHires hires => exact Frame.wellFormed_blank (resolutionOf hires)
  | reset => exact wellFormed_reset.frame
  | select planes => simpa [perform, select] using h
  | clear =>
    rw [perform, clear]
    exact wellFormed_frame_mapSelected h fun _ _ hp => by rw [Array.size_map, hp]
  | scrollRight =>
    rw [perform, scrollRight]
    exact wellFormed_frame_mapSelected h fun _ _ => Plane.size_scrollRight
  | scrollLeft =>
    rw [perform, scrollLeft]
    exact wellFormed_frame_mapSelected h fun _ _ => Plane.size_scrollLeft
  | scrollDown lines =>
    rw [perform, scrollDown]
    exact wellFormed_frame_mapSelected h fun _ _ => Plane.size_scrollDown
  | scrollUp lines =>
    rw [perform, scrollUp]
    exact wellFormed_frame_mapSelected h fun _ _ => Plane.size_scrollUp
  | draw x y bytes lines =>
    rw [perform]
    exact wellFormed_frame_draw h _ _ _ _

end Picture

/-! ## The display of a machine -/

namespace WellFormed

variable {d : Display}

theorem setHires (h : d.WellFormed) (hires : Bool) : (d.setHires hires).WellFormed where
  frame := Frame.wellFormed_blank _
  resolution := rfl
  selection := h.selection

theorem select (h : d.WellFormed) (planes : UInt8) : (d.select planes).WellFormed where
  frame := h.frame
  resolution := h.resolution
  selection := by
    rw [Display.select, UInt8.le_iff_toNat_le, UInt8.toNat_and]
    exact Nat.and_le_right

/-- An operation on the selected planes keeps the display well formed if it keeps the size of a
    plane. -/
theorem mapSelected (h : d.WellFormed) {op : Resolution → Plane → Plane}
    (size_op : ∀ r p, p.size = r.area → (op r p).size = r.area) :
    (d.mapSelected op).WellFormed where
  frame := wellFormed_frame_mapSelected h.frame size_op
  resolution := by simpa using h.resolution
  selection := by simpa using h.selection

theorem clear (h : d.WellFormed) : d.clear.WellFormed :=
  h.mapSelected fun _ _ hp => by rw [Array.size_map, hp]

theorem scrollRight (h : d.WellFormed) : d.scrollRight.WellFormed :=
  h.mapSelected fun _ _ => Plane.size_scrollRight

theorem scrollLeft (h : d.WellFormed) : d.scrollLeft.WellFormed :=
  h.mapSelected fun _ _ => Plane.size_scrollLeft

theorem scrollDown (h : d.WellFormed) (lines : UInt8) : (d.scrollDown lines).WellFormed :=
  h.mapSelected fun _ _ => Plane.size_scrollDown

theorem scrollUp (h : d.WellFormed) (lines : UInt8) : (d.scrollUp lines).WellFormed :=
  h.mapSelected fun _ _ => Plane.size_scrollUp

theorem draw (h : d.WellFormed) (x y : Nat) (bytes : List UInt8) (lines : UInt8) :
    (d.draw x y bytes lines).2.WellFormed where
  frame := wellFormed_frame_draw h.frame x y bytes lines
  resolution := by simpa using h.resolution
  selection := by simpa using h.selection

/-- Whatever the host asks for, the display stays well formed. -/
theorem perform (h : d.WellFormed) (c : Call) : (d.perform c).WellFormed := by
  cases c with
  | setHires hires => exact h.setHires hires
  | select planes => exact h.select planes
  | clear => exact h.clear
  | scrollRight => exact h.scrollRight
  | scrollLeft => exact h.scrollLeft
  | scrollDown lines => exact h.scrollDown lines
  | scrollUp lines => exact h.scrollUp lines
  | draw x y bytes lines => exact h.draw _ _ _ _
  | reset => exact wellFormed_reset

end WellFormed

end Display

end XoChip
