import Mathlib.Data.List.Basic
import XoChip.Proofs.Access.Display

/-!
# The host sees the machine's picture

A picture leaves the display as a copy, which may be written over a picture that the host had
before, and it leaves the program as text. Neither loses anything: a copy is the picture itself,
and the text has the character of every pixel at its place, so that it tells pictures apart. The
text is made from a stream of pixels, each of which is put into the cell that its coordinates name;
`Frame.map_cell_pixels` says that these are all the cells, in order.
-/

namespace XoChip

/-! ## Lists cut into lines -/

namespace Frame

variable {α β : Type}

theorem lines_eq (width count : Nat) (cells : List α) :
    lines width count cells =
      (List.range count).map fun y => (cells.drop (y * width)).take width := by
  induction count generalizing cells with
  | zero => rfl
  | succ count ih =>
    rw [lines, ih, List.range_succ_eq_map, List.map_cons, List.map_map]
    simp [Function.comp_def, Nat.succ_mul, Nat.add_comm]

/-- Line by line, all places are counted. -/
theorem flatMap_range (width count : Nat) (g : Nat → α) :
    ((List.range count).flatMap fun y => (List.range width).map fun x => g (y * width + x)) =
      (List.range (count * width)).map g := by
  induction count with
  | zero => simp
  | succ count ih => simp [List.range_succ, ih, Nat.succ_mul, List.range_add, Function.comp_def]

theorem zipIdx_map_range (count : Nat) (g : Nat → α) :
    ((List.range count).map g).zipIdx = (List.range count).map fun k => (g k, k) := by
  apply List.ext_getElem
  · simp
  · simp

/-- A line of the cells of a plane. -/
theorem take_drop_map_range {width count y : Nat} (lt : y < count) (g : Nat → α) :
    (((List.range (count * width)).map g).drop (y * width)).take width =
      (List.range width).map fun x => g (y * width + x) := by
  have room : (y + 1) * width ≤ count * width := Nat.mul_le_mul_right _ lt
  rw [Nat.succ_mul] at room
  apply List.ext_getElem
  · simp only [List.length_take, List.length_drop, List.length_map, List.length_range]
    omega
  · simp

/-- Putting values one after the other into the cells from `start` on. -/
theorem toList_foldl_set {place : α → Nat} {value : α → β} {start : Nat} {xs : List α}
    {cells : Array β} (places : xs.map place = List.range' start xs.length)
    (fits : start + xs.length ≤ cells.size) :
    (xs.foldl (fun cells a => cells.setIfInBounds (place a) (value a)) cells).toList =
      cells.toList.take start ++ xs.map value ++ cells.toList.drop (start + xs.length) := by
  induction xs generalizing start cells with
  | nil => simp
  | cons a xs ih =>
    simp only [List.map_cons, List.length_cons, List.range'_succ, List.cons.injEq] at places fits
    obtain ⟨here, rest⟩ := places
    have length : start < cells.toList.length := by simpa using by omega
    have front : (cells.toList.set start (value a)).take (start + 1) =
        cells.toList.take start ++ [value a] := by
      rw [List.take_add_one, List.take_set_of_le (Nat.le_refl _), List.getElem?_set_self length]
      rfl
    have back : (cells.toList.set start (value a)).drop (start + 1 + xs.length) =
        cells.toList.drop (start + (xs.length + 1)) := by
      rw [List.drop_set_of_lt (by omega), Nat.add_right_comm, Nat.add_assoc]
    rw [List.foldl_cons, ih rest (by simp; omega), Array.toList_setIfInBounds, here, front, back]
    simp

/-! ## Rows and pixels -/

variable {f g : Frame} {t : PixelType}

/-- The colour of the pixel with the given index. -/
def colorAt (f : Frame) (k : Nat) : Color := .ofBits (f.plane1.getD k false) (f.plane2.getD k false)

/-- A row of the picture, as cut from the two planes. -/
theorem zipWith_line (h : f.WellFormed) {y : Nat} (lt : y < f.resolution.height) :
    List.zipWith Color.ofBits
        ((f.plane1.toList.drop (y * f.resolution.width)).take f.resolution.width)
        ((f.plane2.toList.drop (y * f.resolution.width)).take f.resolution.width) =
      (List.range f.resolution.width).map fun x => f.colorAt (y * f.resolution.width + x) := by
  have room : (y + 1) * f.resolution.width ≤ f.resolution.area := by
    rw [Resolution.area, Nat.mul_comm f.resolution.width]
    exact Nat.mul_le_mul_right _ lt
  rw [Nat.succ_mul] at room
  have size1 := h.size_plane1
  have size2 := h.size_plane2
  apply List.ext_getElem
  · simp only [List.length_zipWith, List.length_take, List.length_drop, Array.length_toList,
      List.length_map, List.length_range]
    omega
  · intro x hx hx'
    simp only [List.length_map, List.length_range] at hx'
    have inside1 : y * f.resolution.width + x < f.plane1.size := by omega
    have inside2 : y * f.resolution.width + x < f.plane2.size := by omega
    simp [colorAt, inside1, inside2]

theorem rows_eq (h : f.WellFormed) :
    f.rows = (List.range f.resolution.height).map fun y =>
      (List.range f.resolution.width).map fun x => f.colorAt (y * f.resolution.width + x) := by
  simp only [rows, lines_eq, List.zipWith_map, List.zipWith_self]
  apply List.map_congr_left
  intro y hy
  exact zipWith_line h (List.mem_range.1 hy)

theorem pixels_eq (h : f.WellFormed) (t : PixelType) :
    f.pixels t = (List.range f.resolution.height).flatMap fun y =>
      (List.range f.resolution.width).map fun x =>
        t.make (Int32.ofNat x) (Int32.ofNat y)
          (UInt8.ofNat (f.colorAt (y * f.resolution.width + x)).val) := by
  simp only [pixels, rows_eq h, zipIdx_map_range, List.flatMap_map, List.map_map]
  rfl

/-- What the pixels of a picture have in common with their indices. -/
theorem map_pixels (h : f.WellFormed) {F : t.Pixel → α} {G : Nat → α}
    (agree : ∀ y < f.resolution.height, ∀ x < f.resolution.width,
      F (t.make (Int32.ofNat x) (Int32.ofNat y)
        (UInt8.ofNat (f.colorAt (y * f.resolution.width + x)).val)) =
          G (y * f.resolution.width + x)) :
    (f.pixels t).map F = (List.range f.resolution.area).map G := by
  rw [pixels_eq h, List.map_flatMap, Resolution.area, Nat.mul_comm f.resolution.width,
    ← flatMap_range]
  apply List.flatMap_congr
  intro y hy
  rw [List.map_map]
  apply List.map_congr_left
  intro x hx
  exact agree y (List.mem_range.1 hy) x (List.mem_range.1 hx)

/-- Coordinates on a screen fit into 32 bits. -/
theorem index_ofNat : ∀ n < 128, PixelType.index (Int32.ofNat n) = n := by decide

theorem width_le (r : Resolution) : r.width ≤ 128 := by cases r <;> decide

theorem height_le (r : Resolution) : r.height ≤ 128 := by cases r <;> decide

theorem shadeOf_ofNat : ∀ c : Color, shadeOf (UInt8.ofNat c.val) = shade c := by decide

theorem ofNat_le_three : ∀ c : Color, UInt8.ofNat c.val ≤ 3 := by decide

/-- The pixels of a picture name the cells of the text one after the other, and leave none out. -/
theorem map_cell_pixels (lawful : t.Lawful) (h : f.WellFormed) :
    (f.pixels t).map (t.cell f.resolution.width) = List.range f.resolution.area := by
  rw [map_pixels h, List.map_id]
  intro y hy x hx
  have small_y : y < 128 := Nat.lt_of_lt_of_le hy (height_le _)
  have small_x : x < 128 := Nat.lt_of_lt_of_le hx (width_le _)
  rw [PixelType.cell, lawful.x_make, lawful.y_make, index_ofNat x small_x, index_ofNat y small_y]
  rfl

theorem toList_cells (lawful : t.Lawful) (h : f.WellFormed) :
    (f.cells t).toList = (List.range f.resolution.area).map fun k => shade (f.colorAt k) := by
  have places := map_cell_pixels lawful h
  have count : (f.pixels t).length = f.resolution.area := by
    simpa using congrArg List.length places
  have values : (f.pixels t).map (fun px => shadeOf (t.brightness px)) =
      (List.range f.resolution.area).map fun k => shade (f.colorAt k) := by
    apply map_pixels h
    intro y hy x hx
    rw [lawful.brightness_make _ _ _ (ofNat_le_three _), shadeOf_ofNat]
  rw [cells, toList_foldl_set (by rw [places, count, List.range_eq_range']) (by simp [count]),
    values]
  simp [count]

/-! ## The text -/

/-- The text of a picture, by the indices of its pixels. -/
theorem toList_asciiBy (lawful : t.Lawful) (h : f.WellFormed) :
    (f.asciiBy t).toList = (List.range f.resolution.height).flatMap fun y =>
      (List.range f.resolution.width).map
        (fun x => shade (f.colorAt (y * f.resolution.width + x))) ++ ['\n'] := by
  rw [asciiBy, String.toList_ofList, toList_cells lawful h, lines_eq, List.flatMap_map,
    Resolution.area, Nat.mul_comm f.resolution.width]
  apply List.flatMap_congr
  intro y hy
  rw [take_drop_map_range (List.mem_range.1 hy)]

theorem toList_join (texts : List String) :
    (String.join texts).toList = texts.flatMap String.toList := by
  have append (start : String) :
      (texts.foldl (· ++ ·) start).toList = start.toList ++ texts.flatMap String.toList := by
    induction texts generalizing start with
    | nil => simp
    | cons text texts ih => simp [ih]
  exact append ""

/-- The first line of a summary names the size. -/
def heading : Resolution → List Char
  | .lores => ['F', 'r', 'a', 'm', 'e', ' ', '6', '4', 'x', '3', '2']
  | .hires => ['F', 'r', 'a', 'm', 'e', ' ', '1', '2', '8', 'x', '6', '4']

/-- A summary has the text behind its first line. -/
theorem toList_summary (lawful : t.Lawful) (h : f.WellFormed) :
    f.summary.toList = heading f.resolution ++ '\n' :: (f.asciiBy t).toList := by
  have first : s!"Frame {f.resolution.width}x{f.resolution.height}\n".toList =
      heading f.resolution ++ ['\n'] := by
    cases f.resolution <;> decide +kernel
  rw [summary, String.toList_append, first, toList_join, rows_eq h, toList_asciiBy lawful h]
  simp [List.flatMap_map, Function.comp_def]

/-- Without its first line a summary is the text. -/
theorem tail_dropWhile_summary (lawful : t.Lawful) (h : f.WellFormed) :
    (f.summary.toList.dropWhile (· ≠ '\n')).tail = (f.asciiBy t).toList := by
  have one_line : ∀ c ∈ heading f.resolution, decide (c ≠ '\n') = true := by
    cases f.resolution <;> simp [heading]
  rw [toList_summary lawful h, List.dropWhile_append_of_pos one_line]
  simp

theorem shade_ne_newline : ∀ c : Color, shade c ≠ '\n' := by decide

theorem shade_injective : Function.Injective shade := by
  intro c d
  revert c d
  decide

/-- Without its line ends the text is the list of the pixels' characters. -/
theorem filter_asciiBy (lawful : t.Lawful) (h : f.WellFormed) :
    (f.asciiBy t).toList.filter (· ≠ '\n') =
      (List.range f.resolution.area).map fun k => shade (f.colorAt k) := by
  have kept (y : Nat) : ((List.range f.resolution.width).map
        (fun x => shade (f.colorAt (y * f.resolution.width + x))) ++ ['\n']).filter (· ≠ '\n') =
      (List.range f.resolution.width).map
        (fun x => shade (f.colorAt (y * f.resolution.width + x))) := by
    simp [List.filter_map, Function.comp_def, shade_ne_newline]
  simp only [toList_asciiBy lawful h, List.filter_flatMap, kept]
  rw [Resolution.area, Nat.mul_comm]
  exact flatMap_range _ _ fun k => shade (f.colorAt k)

theorem ofBits_injective : ∀ a b c d : Bool, Color.ofBits a b = .ofBits c d → a = c ∧ b = d := by
  decide

theorem area_injective : Function.Injective Resolution.area := by
  intro r q
  cases r <;> cases q <;> decide

/-- Well-sized planes with the same pixels are equal. -/
theorem eq_of_colorAt (hf : f.WellFormed) (hg : g.WellFormed)
    (resolution : f.resolution = g.resolution)
    (color : ∀ k < f.resolution.area, f.colorAt k = g.colorAt k) : f = g := by
  have size1 : f.plane1.size = g.plane1.size := by
    rw [hf.size_plane1, hg.size_plane1, resolution]
  have size2 : f.plane2.size = g.plane2.size := by
    rw [hf.size_plane2, hg.size_plane2, resolution]
  have plane1 : f.plane1 = g.plane1 := by
    apply Array.ext size1
    intro k hk hk'
    have same := (ofBits_injective _ _ _ _ (color k (hf.size_plane1 ▸ hk))).1
    simpa [hk, hk'] using same
  have plane2 : f.plane2 = g.plane2 := by
    apply Array.ext size2
    intro k hk hk'
    have same := (ofBits_injective _ _ _ _ (color k (hf.size_plane2 ▸ hk))).2
    simpa [hk, hk'] using same
  cases f
  cases g
  simp_all

/-- The text tells pictures apart. -/
theorem eq_of_asciiBy (lawful : t.Lawful) (hf : f.WellFormed) (hg : g.WellFormed)
    (same : f.asciiBy t = g.asciiBy t) : f = g := by
  have characters := filter_asciiBy lawful hf
  rw [same, filter_asciiBy lawful hg] at characters
  have area : g.resolution.area = f.resolution.area := by
    simpa using congrArg List.length characters
  have resolution := area_injective area
  apply eq_of_colorAt hf hg resolution.symm
  intro k lt
  rw [area, List.map_inj_left] at characters
  exact shade_injective (characters k (List.mem_range.2 lt)).symm

/-- The number that the bytes of a pixel make: that in the first plane, plus twice that in the
    second. -/
def code (f : Frame) (x y : Nat) : Nat :=
  let k := y * f.resolution.width + x
  (f.plane1.bytes.getD k 0).toNat + 2 * (f.plane2.bytes.getD k 0).toNat

theorem toNat_getD_bytes (p : Plane) (k : Nat) :
    (p.bytes.getD k 0).toNat = (p.getD k false).toNat := by
  by_cases inside : k < p.size
  · cases lit : p[k] <;> simp [Plane.bytes, inside, lit]
  · simp [Plane.bytes, inside]

theorem shade_colorAt (f : Frame) (x y : Nat) :
    shade (f.colorAt (y * f.resolution.width + x)) =
      ['.', '#', '+', '@'].getD (f.code x y) '.' := by
  have shades : ∀ a b : Bool, shade (.ofBits a b) =
      ['.', '#', '+', '@'].getD (a.toNat + 2 * b.toNat) '.' := by decide
  simp only [code, toNat_getD_bytes, colorAt, shades]

end Frame

/-! ## What a host can have in hand -/

mutual

/-- A display that came about by operations, among them those of a machine. A host can also put
    together any mode, any selection and any picture that it has in hand. -/
inductive Display.Reached : Display → Prop
  | new : Display.Reached .reset
  | performed {d : Display} (h : Display.Reached d) (c : Display.Call) :
      Display.Reached (d.perform c)
  | restored (hires : Bool) (selection : UInt8) {f : Frame} (h : Frame.Obtained f) :
      Display.Reached { hires, selection, frame := f }

/-- A picture that a host can have in hand: a dark one, one put together from planes, or one that
    was taken from a display, with or without another one to write it over. -/
inductive Frame.Obtained : Frame → Prop
  | blank (r : Resolution) : Frame.Obtained (.blank r)
  | composed {width height : UInt64} {plane1 plane2 : Array UInt8} {f : Frame}
      (accepted : Frame.ofPlanes? width height plane1 plane2 = some f) : Frame.Obtained f
  | taken {d : Display} (h : Display.Reached d) : Frame.Obtained (d.nextFrame none)
  | recycled {d : Display} {old : Frame} (h : Display.Reached d) (held : Frame.Obtained old) :
      Frame.Obtained (d.nextFrame (some old))

end

mutual

theorem Display.Reached.wellFormed_frame {d : Display} : d.Reached → d.frame.WellFormed
  | .new => Frame.wellFormed_blank .lores
  | .performed h c => Display.wellFormed_frame_perform h.wellFormed_frame c
  | .restored _ _ h => h.wellFormed

/-- The sizes of planes go through all hands: a copy is the picture itself. -/
theorem Frame.Obtained.wellFormed {f : Frame} : f.Obtained → f.WellFormed
  | .blank r => Frame.wellFormed_blank r
  | .composed accepted => Frame.wellFormed_of_ofPlanes? accepted
  | .taken h => h.wellFormed_frame
  | .recycled h held => by
    have recyclable := held.wellFormed
    rw [Display.nextFrame, Frame.copyInto_eq h.wellFormed_frame (by simpa using recyclable)]
    exact h.wellFormed_frame

end

namespace Display

variable {d : Display} {f : Frame} {t : PixelType}

/-- A host sees the machine's picture. What it takes from the display is the current picture,
    whether or not it hands over an old one, and an old one of the same size has room for it. The
    text of a picture has a line of full width for each row, in which a pixel's character is the one
    of its number; this is also the summary behind its first line. Every pixel is put into a cell of
    its own, and pictures with the same text are equal. -/
theorem host_sees_picture (reached : d.Reached) (held : f.Obtained) (lawful : t.Lawful) :
    (d.nextFrame (some f) = d.nextFrame none ∧ d.nextFrame none = d.frame ∧
      d.frame.copyInto? (some f) = some d.frame) ∧
    f.plane1.size = f.resolution.width * f.resolution.height ∧
    f.plane2.size = f.resolution.width * f.resolution.height ∧
    (f.pixels t).map (t.cell f.resolution.width) =
      List.range (f.resolution.width * f.resolution.height) ∧
    (f.asciiBy t).toList = ((List.range f.resolution.height).flatMap fun y =>
      (List.range f.resolution.width).map (fun x => ['.', '#', '+', '@'].getD (f.code x y) '.') ++
        ['\n']) ∧
    (f.summary.toList.dropWhile (· ≠ '\n')).tail = (f.asciiBy t).toList ∧
    ∀ g : Frame, g.Obtained → g.asciiBy t = f.asciiBy t → g = f := by
  have picture := reached.wellFormed_frame
  have old := held.wellFormed
  have recyclable : ∀ g ∈ some f, g.WellFormed := by simpa using old
  have copied := Frame.copyInto_eq picture recyclable
  refine ⟨⟨copied, rfl, ?_⟩, old.size_plane1, old.size_plane2, Frame.map_cell_pixels lawful old, ?_,
    Frame.tail_dropWhile_summary lawful old, ?_⟩
  · rw [Frame.copyInto?_eq picture recyclable, copied]
  · simp only [Frame.toList_asciiBy lawful old, Frame.shade_colorAt]
  · intro g held' same
    exact Frame.eq_of_asciiBy lawful held'.wellFormed old same

/-- Four colours in the corner of a screen, copied over an older picture. -/
theorem host_sees_picture_recycled :
    let before := Display.reset.perform (.draw 62 31 [0xFF, 0xFF] 2)
    let d := (before.perform (.select 3)).perform (.draw 0 0 [0xC0, 0xA0] 1)
    let old := before.nextFrame none
    d.Reached ∧ old.Obtained ∧ PixelType.grey.Lawful ∧ old ≠ d.frame ∧
      d.nextFrame (some old) = d.frame ∧
      (d.frame.asciiBy .grey).toList.take 7 = ['+', '.', '@', '#', '#', '#', '.'] := by
  intro before d old
  have reached_before : before.Reached := .performed .new _
  have reached : d.Reached := .performed (.performed reached_before _) _
  have held : old.Obtained := .taken reached_before
  obtain ⟨⟨copied, fresh, -⟩, -⟩ := host_sees_picture reached held PixelType.lawful_grey
  obtain ⟨-, -, -, -, text, -⟩ := host_sees_picture reached (.taken reached) PixelType.lawful_grey
  refine ⟨reached, held, PixelType.lawful_grey, ?_, copied.trans fresh, ?_⟩
  · have corner : before.frame.plane2[0]? ≠ d.frame.plane2[0]? := by decide +kernel
    intro same
    exact corner (congrArg (fun f : Frame => f.plane2[0]?) same)
  · simp only [← Frame.shade_colorAt] at text
    rw [fresh] at text
    rw [text]
    decide +kernel

end Display

end XoChip
