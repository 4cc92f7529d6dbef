import XoChip.Proofs.Display.Invariant
import XoChip.Proofs.Partial

/-!
# Array accesses of the display

The operations of the display once more, this time as loops over buffers in which every index and
every range is checked: an access beyond the end of an array, a difference below zero and a copy
between buffers of different lengths have no result. The coordinates of a sprite are 64-bit words
that wrap around, and positions on the screen are cut out of them by masks. On a well-formed display
every operation has a result, and it is the one that the display gives.
-/

namespace XoChip

namespace Access

variable {α : Type}

/-- A difference of sizes, absent if it would be negative. -/
def sub? (a b : Nat) : Option Nat := if b ≤ a then some (a - b) else none

/-- Copy the cells from `start` up to `stop` over those from `dest` on, within one buffer. -/
def copyWithin? (xs : Array α) (start stop dest : Nat) : Option (Array α) :=
  if start ≤ stop ∧ stop ≤ xs.size ∧ dest + (stop - start) ≤ xs.size then
    some (xs.extract 0 dest ++ xs.extract start stop ++ xs.extract (dest + (stop - start)) xs.size)
  else none

/-- Fill the cells from `start` up to `stop`. -/
def fill? (xs : Array α) (start stop : Nat) (x : α) : Option (Array α) :=
  if start ≤ stop ∧ stop ≤ xs.size then
    some (xs.extract 0 start ++ Array.replicate (stop - start) x ++ xs.extract stop xs.size)
  else none

/-- Write a whole buffer over another one of the same length. -/
def copyFrom? (target source : Array α) : Option (Array α) :=
  if target.size = source.size then some source else none

/-- Cut a buffer into pieces of the given size; the last one may be shorter. -/
def chunks? (size : Nat) (xs : Array α) : Option (List (Array α)) :=
  if 0 < size then
    some ((List.range ((xs.size + size - 1) / size)).map fun k =>
      xs.extract (k * size) ((k + 1) * size))
  else none

/-- Move the cells of a buffer of `size` cells towards its end by `n` and fill in `x`. -/
def shiftForward? (size n : Nat) (x : α) (xs : Array α) : Option (Array α) := do
  let kept ← sub? size n
  let ys ← copyWithin? xs 0 kept n
  fill? ys 0 n x

/-- Move the cells of a buffer of `size` cells towards its start by `n` and fill in `x`. -/
def shiftBack? (size n : Nat) (x : α) (xs : Array α) : Option (Array α) := do
  let ys ← copyWithin? xs n xs.size 0
  let kept ← sub? size n
  fill? ys kept ys.size x

theorem sub?_eq {a b : Nat} (h : b ≤ a) : sub? a b = some (a - b) := if_pos h

theorem fill?_front (front rest : Array α) (x : α) :
    fill? (front ++ rest) 0 front.size x = some (Array.replicate front.size x ++ rest) := by
  rw [fill?, if_pos (by rw [Array.size_append]; omega), Nat.sub_zero]
  simp [Array.extract_append]

theorem fill?_back (front rest : Array α) (x : α) :
    fill? (front ++ rest) front.size (front ++ rest).size x =
      some (front ++ Array.replicate rest.size x) := by
  rw [fill?, if_pos (by rw [Array.size_append]; omega),
    Array.extract_empty_of_stop_le_start (Nat.le_refl _), Array.append_empty]
  simp [Array.extract_append]

theorem shiftForward?_eq {size n : Nat} (h : n ≤ size) (x : α) {xs : Array α}
    (hxs : xs.size = size) :
    shiftForward? size n x xs = some (Array.replicate n x ++ xs.extract 0 (size - n)) := by
  have copied : copyWithin? xs 0 (size - n) n =
      some (xs.extract 0 n ++ xs.extract 0 (size - n)) := by
    have rest : n + (size - n - 0) = xs.size := by omega
    rw [copyWithin?, if_pos (by omega), rest,
      Array.extract_empty_of_stop_le_start (Nat.le_refl _), Array.append_empty]
  have front : (xs.extract 0 n).size = n := by
    rw [Array.size_extract]
    omega
  have filled := fill?_front (xs.extract 0 n) (xs.extract 0 (size - n)) x
  rw [front] at filled
  rw [shiftForward?, sub?_eq h]
  simp only [Option.bind_eq_bind, Option.bind_some, copied, filled]

theorem shiftBack?_eq {size n : Nat} (h : n ≤ size) (x : α) {xs : Array α}
    (hxs : xs.size = size) :
    shiftBack? size n x xs = some (xs.extract n size ++ Array.replicate n x) := by
  have copied : copyWithin? xs n xs.size 0 =
      some (xs.extract n size ++ xs.extract (size - n) size) := by
    rw [copyWithin?, if_pos (by omega), Array.extract_empty_of_stop_le_start (Nat.le_refl _),
      Array.empty_append, Nat.zero_add, hxs]
  have front : (xs.extract n size).size = size - n := by
    rw [Array.size_extract]
    omega
  have back : (xs.extract (size - n) size).size = n := by
    rw [Array.size_extract]
    omega
  have filled := fill?_back (xs.extract n size) (xs.extract (size - n) size) x
  rw [front, back] at filled
  rw [shiftBack?, sub?_eq h]
  simp only [Option.bind_eq_bind, Option.bind_some, copied, filled]

end Access

open Access

/-! ## Scrolls -/

namespace Plane

def mapRows? (r : Resolution) (move? : Array Bool → Option (Array Bool)) (p : Plane) :
    Option Plane := do
  let rows ← chunks? r.width p
  let rows ← rows.mapM move?
  return rows.toArray.flatten

def scrollRight? (r : Resolution) (p : Plane) : Option Plane :=
  p.mapRows? r (shiftForward? r.width sideStep false)

def scrollLeft? (r : Resolution) (p : Plane) : Option Plane :=
  p.mapRows? r (shiftBack? r.width sideStep false)

def scrollDown? (r : Resolution) (lines : Nat) (p : Plane) : Option Plane :=
  shiftForward? p.size (min lines r.height * r.width) false p

def scrollUp? (r : Resolution) (lines : Nat) (p : Plane) : Option Plane :=
  shiftBack? p.size (min lines r.height * r.width) false p

/-- A well-sized plane has as many rows as its resolution, each of them of full width. -/
theorem chunks?_eq {r : Resolution} {p : Plane} (hp : p.size = r.area) :
    chunks? r.width p =
      some ((List.range r.height).map fun y => p.extract (y * r.width) ((y + 1) * r.width)) := by
  have count : (p.size + r.width - 1) / r.width = r.height := by
    rw [hp]
    cases r <;> decide
  rw [chunks?, if_pos r.width_pos, count]

theorem mapRows?_eq {r : Resolution} {move? : Array Bool → Option (Array Bool)}
    {move : Array Bool → Array Bool} {p : Plane}
    (h : ∀ row : Array Bool, row.size = r.width → move? row = some (move row))
    (hp : p.size = r.area) : p.mapRows? r move? = some (p.mapRows r move) := by
  have moved : ∀ row ∈ (List.range r.height).map fun y =>
      p.extract (y * r.width) ((y + 1) * r.width), move? row = some (move row) := by
    intro row hrow
    obtain ⟨y, hy, rfl⟩ := List.mem_map.1 hrow
    exact h _ (size_row hp (List.mem_range.1 hy))
  rw [mapRows?, chunks?_eq hp]
  simp only [Option.bind_eq_bind, Option.bind_some, mapM_eq_some moved, Option.pure_def]
  rw [mapRows, Array.flatMap_def, ← List.toArray_range, List.map_toArray, List.map_map]
  rfl

variable {r : Resolution} {p : Plane}

theorem scrollRight?_eq (hp : p.size = r.area) : p.scrollRight? r = some (p.scrollRight r) :=
  mapRows?_eq (fun _ size => shiftForward?_eq (sideStep_le_width r) false size) hp

theorem scrollLeft?_eq (hp : p.size = r.area) : p.scrollLeft? r = some (p.scrollLeft r) :=
  mapRows?_eq (fun _ size => shiftBack?_eq (sideStep_le_width r) false size) hp

theorem scrollDown?_eq (lines : Nat) (hp : p.size = r.area) :
    p.scrollDown? r lines = some (p.scrollDown r lines) := by
  rw [scrollDown?, shiftForward?_eq (by rw [hp]; exact shift_le_area r lines) false rfl, hp]
  rfl

theorem scrollUp?_eq (lines : Nat) (hp : p.size = r.area) :
    p.scrollUp? r lines = some (p.scrollUp r lines) := by
  rw [scrollUp?, shiftBack?_eq (by rw [hp]; exact shift_le_area r lines) false rfl, hp]
  rfl

end Plane

/-! ## Sprites -/

namespace Sprite

/-- The index of the pixel under a cell: the coordinates wrap around as 64-bit words, and masks cut
    the position on the screen out of them. -/
def index (r : Resolution) (x y : UInt64) (cell : Nat × Nat) : UInt64 :=
  ((y + UInt64.ofNat cell.1) &&& (UInt64.ofNat r.height - 1)) * UInt64.ofNat r.width +
    ((x + UInt64.ofNat cell.2) &&& (UInt64.ofNat r.width - 1))

def flip? (state : Plane × Bool) (index : Nat) : Option (Plane × Bool) := do
  let lit ← state.1[index]?
  return (state.1.setIfInBounds index !lit, state.2 || lit)

def draw? (r : Resolution) (x y : UInt64) (lines : UInt8) (bytes : List UInt8) (p : Plane) :
    Option (Plane × Bool) :=
  ((cells (rowBytes lines) bytes).map fun cell => (index r x y cell).toNat).foldlM flip? (p, false)

/-- A mask of ones cuts a sum that wrapped around down to its remainder. -/
theorem toNat_mask (z : UInt64) (n : Nat) {size : Nat} (pow : size.isPowerOfTwo)
    (lt : size < UInt64.size) :
    ((z + UInt64.ofNat n) &&& (UInt64.ofNat size - 1)).toNat = (z.toNat + n) % size := by
  obtain ⟨k, rfl⟩ := pow
  have le_width : k ≤ 64 := Nat.le_of_lt ((Nat.pow_lt_pow_iff_right (by decide)).1 lt)
  have dvd : 2 ^ k ∣ 2 ^ 64 := Nat.pow_dvd_pow 2 le_width
  have toNat_pow : (UInt64.ofNat (2 ^ k)).toNat = 2 ^ k := UInt64.toNat_ofNat_of_lt' lt
  have one_le : (1 : UInt64) ≤ UInt64.ofNat (2 ^ k) := by
    rw [UInt64.le_iff_toNat_le, toNat_pow]
    exact Nat.one_le_two_pow
  rw [UInt64.toNat_and, UInt64.toNat_sub_of_le _ _ one_le, toNat_pow, UInt64.toNat_one,
    Nat.and_two_pow_sub_one_eq_mod, UInt64.toNat_add, UInt64.toNat_ofNat',
    Nat.mod_mod_of_dvd _ dvd, Nat.add_mod, Nat.mod_mod_of_dvd _ dvd, ← Nat.add_mod]

theorem isPowerOfTwo_width (r : Resolution) : r.width.isPowerOfTwo := by
  cases r with
  | lores => exact ⟨6, rfl⟩
  | hires => exact ⟨7, rfl⟩

theorem isPowerOfTwo_height (r : Resolution) : r.height.isPowerOfTwo := by
  cases r with
  | lores => exact ⟨5, rfl⟩
  | hires => exact ⟨6, rfl⟩

theorem target_lt_area (r : Resolution) (x y : Nat) (cell : Nat × Nat) :
    target r x y cell < r.area := by
  have row_lt : (y + cell.1) % r.height < r.height := Nat.mod_lt _ (by cases r <;> decide)
  have column_lt : (x + cell.2) % r.width < r.width := Nat.mod_lt _ (by cases r <;> decide)
  calc target r x y cell < ((y + cell.1) % r.height + 1) * r.width := by
        rw [target, Nat.add_mul, Nat.one_mul]
        exact Nat.add_lt_add_left column_lt _
    _ ≤ r.height * r.width := Nat.mul_le_mul_right _ row_lt
    _ = r.area := Nat.mul_comm _ _

/-- Both dimensions of a screen are powers of two, so that the masks give the remainders, and the
    index is too small to wrap around. -/
theorem toNat_index (r : Resolution) (x y : UInt64) (cell : Nat × Nat) :
    (index r x y cell).toNat = target r x.toNat y.toNat cell := by
  have row : ((y + UInt64.ofNat cell.1) &&& (UInt64.ofNat r.height - 1)).toNat =
      (y.toNat + cell.1) % r.height :=
    toNat_mask y cell.1 (isPowerOfTwo_height r) (by cases r <;> decide)
  have column : ((x + UInt64.ofNat cell.2) &&& (UInt64.ofNat r.width - 1)).toNat =
      (x.toNat + cell.2) % r.width :=
    toNat_mask x cell.2 (isPowerOfTwo_width r) (by cases r <;> decide)
  have width : (UInt64.ofNat r.width).toNat = r.width := by cases r <;> rfl
  have lt_area := target_lt_area r x.toNat y.toNat cell
  have area_lt : r.area < 2 ^ 64 := by cases r <;> decide
  have row_le : (y.toNat + cell.1) % r.height * r.width ≤ target r x.toNat y.toNat cell :=
    Nat.le_add_right _ _
  have row_fits : (y.toNat + cell.1) % r.height * r.width % 2 ^ 64 =
      (y.toNat + cell.1) % r.height * r.width := Nat.mod_eq_of_lt (by omega)
  rw [index, UInt64.toNat_add, UInt64.toNat_mul, row, column, width, row_fits, ← target,
    Nat.mod_eq_of_lt (by omega)]

theorem flip?_eq {state : Plane × Bool} {k : Nat} (hk : k < state.1.size) :
    flip? state k = some (flip state k) := by
  have lit : state.1[k]? = some state.1[k] := Array.getElem?_eq_getElem hk
  have flipped : state.1.setIfInBounds k (!state.1[k]) = state.1.modify k (!·) := by
    apply Array.ext_getElem?
    intro j
    rw [Array.getElem?_setIfInBounds, Array.getElem?_modify]
    by_cases same : k = j
    · subst same
      simp [hk]
    · simp [same]
  rw [flip?, lit]
  simp only [Option.bind_eq_bind, Option.bind_some, flipped, flip, Array.getD_eq_getD_getElem?,
    lit, Option.getD_some]
  rfl

/-- No cell of a sprite lands beside the screen. -/
theorem draw?_eq {r : Resolution} (x y : UInt64) (lines : UInt8) (bytes : List UInt8) {p : Plane}
    (hp : p.size = r.area) :
    draw? r x y lines bytes p = some (draw r x.toNat y.toNat lines bytes p) := by
  have indices : (fun cell => (index r x y cell).toNat) = target r x.toNat y.toNat :=
    funext (toNat_index r x y)
  rw [draw?, draw, indices]
  apply foldlM_eq_some (fun state : Plane × Bool => state.1.size = r.area)
  · intro state size k hk
    obtain ⟨cell, -, rfl⟩ := List.mem_map.1 hk
    have lt_size : target r x.toNat y.toNat cell < state.1.size := by
      rw [size]
      exact target_lt_area r _ _ cell
    exact ⟨flip?_eq lt_size, (size_flip _ _).trans size⟩
  · exact hp

end Sprite

/-! ## The picture and the screen -/

namespace Frame

/-- Write a picture over one of the same resolution. -/
def copyInto? (f : Frame) (recycled : Option Frame) : Option Frame :=
  match recycled with
  | none => some f
  | some old =>
    if old.resolution = f.resolution then do
      let plane1 ← copyFrom? old.plane1 f.plane1
      let plane2 ← copyFrom? old.plane2 f.plane2
      return { old with plane1, plane2 }
    else some f

/-- Pictures of one resolution have planes of one length, so that recycling never fails. -/
theorem copyInto?_eq {f : Frame} {recycled : Option Frame} (hf : f.WellFormed)
    (h : ∀ old ∈ recycled, old.WellFormed) :
    f.copyInto? recycled = some (f.copyInto recycled) := by
  rw [copyInto_eq hf h]
  cases recycled with
  | none => rfl
  | some old =>
    have hold := h old rfl
    unfold copyInto?
    dsimp only
    split
    · next same =>
      have size1 : old.plane1.size = f.plane1.size := by
        rw [hold.size_plane1, hf.size_plane1, same]
      have size2 : old.plane2.size = f.plane2.size := by
        rw [hold.size_plane2, hf.size_plane2, same]
      rw [copyFrom?, if_pos size1, copyFrom?, if_pos size2]
      simp [same]
    · rfl

end Frame

namespace Display

def mapSelected? (d : Display) (op? : Resolution → Plane → Option Plane) : Option Display := do
  let r := d.frame.resolution
  let d ←
    if d.selectsFirst then (op? r d.frame.plane1).map fun p => { d with frame.plane1 := p }
    else some d
  if d.selectsSecond then (op? r d.frame.plane2).map fun p => { d with frame.plane2 := p }
  else some d

def scrollDown? (d : Display) (lines : UInt8) : Option Display :=
  d.mapSelected? fun r => Plane.scrollDown? r lines.toNat

def scrollUp? (d : Display) (lines : UInt8) : Option Display :=
  d.mapSelected? fun r => Plane.scrollUp? r lines.toNat

def draw? (d : Display) (x y : UInt64) (bytes : List UInt8) (lines : UInt8) :
    Option (Bool × Display) :=
  let r := d.frame.resolution
  let size := Sprite.planeBytes lines
  match d.selectsFirst, d.selectsSecond with
  | false, false => some (false, d)
  | true, false => do
    let (plane1, hit) ← Sprite.draw? r x y lines (bytes.take size) d.frame.plane1
    return (hit, { d with frame.plane1 := plane1 })
  | false, true => do
    let (plane2, hit) ← Sprite.draw? r x y lines (bytes.take size) d.frame.plane2
    return (hit, { d with frame.plane2 := plane2 })
  | true, true => do
    let (plane1, hit1) ← Sprite.draw? r x y lines (bytes.take size) d.frame.plane1
    let (plane2, hit2) ←
      Sprite.draw? r x y lines ((bytes.drop size).take size) d.frame.plane2
    return (hit1 || hit2, { d with frame := { d.frame with plane1, plane2 } })

def perform? (d : Display) : Call → Option Display
  | .setHires hires => some (d.setHires hires)
  | .select planes => some (d.select planes)
  | .clear => some d.clear
  | .scrollRight => d.mapSelected? Plane.scrollRight?
  | .scrollLeft => d.mapSelected? Plane.scrollLeft?
  | .scrollDown lines => d.scrollDown? lines
  | .scrollUp lines => d.scrollUp? lines
  | .draw x y bytes lines => (d.draw? x y bytes lines).map Prod.snd
  | .reset => some Display.reset

namespace WellFormed

variable {d : Display}

theorem mapSelected?_eq (h : d.WellFormed) {op? : Resolution → Plane → Option Plane}
    {op : Resolution → Plane → Plane}
    (hop : ∀ r p, p.size = r.area → op? r p = some (op r p)) :
    d.mapSelected? op? = some (d.mapSelected op) := by
  have first := hop _ _ h.frame.size_plane1
  have second := hop _ _ h.frame.size_plane2
  unfold mapSelected? Display.mapSelected
  by_cases selected : d.selectsFirst
  · simp only [selected, if_true, first, Option.map_some, Option.bind_eq_bind, Option.bind_some]
    split
    · rw [second]
      rfl
    · rfl
  · simp only [selected, Bool.false_eq_true, if_false, Option.bind_eq_bind, Option.bind_some]
    split
    · rw [second]
      rfl
    · rfl

theorem scrollRight?_eq (h : d.WellFormed) :
    d.mapSelected? Plane.scrollRight? = some d.scrollRight :=
  h.mapSelected?_eq fun _ _ => Plane.scrollRight?_eq

theorem scrollLeft?_eq (h : d.WellFormed) :
    d.mapSelected? Plane.scrollLeft? = some d.scrollLeft :=
  h.mapSelected?_eq fun _ _ => Plane.scrollLeft?_eq

theorem scrollDown?_eq (h : d.WellFormed) (lines : UInt8) :
    d.scrollDown? lines = some (d.scrollDown lines) :=
  h.mapSelected?_eq fun _ _ => Plane.scrollDown?_eq lines.toNat

theorem scrollUp?_eq (h : d.WellFormed) (lines : UInt8) :
    d.scrollUp? lines = some (d.scrollUp lines) :=
  h.mapSelected?_eq fun _ _ => Plane.scrollUp?_eq lines.toNat

theorem draw?_eq (h : d.WellFormed) (x y : UInt64) (bytes : List UInt8) (lines : UInt8) :
    d.draw? x y bytes lines = some (d.draw x.toNat y.toNat bytes lines) := by
  have drawn1 := fun bytes => Sprite.draw?_eq x y lines bytes h.frame.size_plane1
  have drawn2 := fun bytes => Sprite.draw?_eq x y lines bytes h.frame.size_plane2
  unfold draw? Display.draw
  simp only [drawn1, drawn2, Option.bind_eq_bind, Option.bind_some, Option.pure_def]
  cases d.selectsFirst with
  | false => cases d.selectsSecond <;> rfl
  | true => cases d.selectsSecond <;> rfl

/-- Nothing that the host asks for goes beyond the end of a plane. -/
theorem perform?_eq (h : d.WellFormed) (c : Call) : d.perform? c = some (d.perform c) := by
  cases c with
  | setHires | select | clear | reset => rfl
  | scrollRight => exact h.scrollRight?_eq
  | scrollLeft => exact h.scrollLeft?_eq
  | scrollDown lines => exact h.scrollDown?_eq lines
  | scrollUp lines => exact h.scrollUp?_eq lines
  | draw x y bytes lines =>
    rw [perform?, h.draw?_eq]
    rfl

end WellFormed

end Display

end XoChip
