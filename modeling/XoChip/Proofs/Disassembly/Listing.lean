import XoChip.Proofs.Disassembly.Segmentation
import XoChip.Proofs.Instruction.Notation

/-!
# Listings tell programs apart

Two programs with one listing are one program. Cut at the ends of its lines, and then at the lines
that are blank, a listing gives back the lines of each segment. The first line of a segment says of
which kind it is; the others give back its words or its bytes.
-/

namespace XoChip.Disassembly

/-! ## Lines -/

/-- A line of data, without the end of the line in front. -/
def dataText (bytes : List UInt8) : List Char :=
  ' ' :: bytes.flatMap fun b => ' ' :: (Numeral.byte b).toList

/-- A line of code, without the end of the line in front. -/
def codeText (w : UInt16) : List Char := ' ' :: ' ' :: (Mnemonic.listing w).toList

/-- The lines of a segment. -/
def Segment.lines : Segment → List (List Char)
  | .code ws => "CODE:".toList :: ws.map codeText
  | .data bs => "DATA:".toList :: (dataLines bs).map dataText

theorem toList_dataLine (bytes : List UInt8) :
    (dataLine bytes).toList = '\n' :: dataText bytes := by
  rw [dataLine, String.toList_append, String.toList_join, List.flatMap_map]
  simp only [String.toList_append]
  rfl

/-- A segment is written line by line. -/
theorem Segment.toList_listing (s : Segment) : s.listing.toList = ['\n'].intercalate s.lines := by
  cases s with
  | code ws =>
    rw [listing, lines, Text.intercalate_cons, String.toList_append, String.toList_join,
      List.flatMap_map, List.flatMap_map]
    simp only [String.toList_append]
    rfl
  | data bs =>
    rw [listing, lines, Text.intercalate_cons, String.toList_append, String.toList_join,
      List.flatMap_map, List.flatMap_map]
    simp only [toList_dataLine]
    rfl

theorem not_mem_byte {c : Char} (h : ∀ d < 16, c ≠ Nat.digitChar d) (hx : c ≠ 'x') (b : UInt8) :
    c ∉ (Numeral.byte b).toList := by
  rw [Numeral.toList_byte, List.mem_cons, List.mem_cons, not_or, not_or]
  exact ⟨h 0 (by decide), hx, Numeral.not_mem_digits h⟩

theorem newline_not_mem_codeText (w : UInt16) : '\n' ∉ codeText w := by
  rw [codeText, List.mem_cons, List.mem_cons, not_or, not_or]
  exact ⟨by decide, by decide, Mnemonic.newline_not_mem_listing w⟩

theorem newline_not_mem_dataText (bytes : List UInt8) : '\n' ∉ dataText bytes := by
  rw [dataText, List.mem_cons, List.mem_flatMap, not_or]
  refine ⟨by decide, ?_⟩
  rintro ⟨b, -, mem⟩
  rcases List.mem_cons.1 mem with space | digit
  · exact absurd space (by decide)
  · exact not_mem_byte (by decide) (by decide) b digit

theorem Segment.newline_not_mem_lines (s : Segment) : ∀ line ∈ s.lines, '\n' ∉ line := by
  cases s with
  | code ws =>
    rw [lines, List.forall_mem_cons, List.forall_mem_map]
    exact ⟨by decide, fun w _ => newline_not_mem_codeText w⟩
  | data bs =>
    rw [lines, List.forall_mem_cons, List.forall_mem_map]
    exact ⟨by decide, fun line _ => newline_not_mem_dataText line⟩

theorem Segment.nil_not_mem_lines (s : Segment) : [] ∉ s.lines := by
  cases s <;> simp [lines, codeText, dataText]

/-! ## Blocks -/

/-- The lines of a text in blocks, between lines that are blank. -/
def blocks (text : List Char) : List (List (List Char)) :=
  ((text.splitOn '\n').splitOn []).filter fun block => !block.isEmpty

theorem blocks_append (as bs : List Char) :
    blocks (as ++ '\n' :: '\n' :: bs) = blocks as ++ blocks bs := by
  have blank : ('\n' :: bs).splitOn '\n' = [] :: bs.splitOn '\n' :=
    List.splitOn_append_cons_self_of_not_mem List.not_mem_nil bs
  rw [blocks, List.splitOn_append_cons_self, blank, List.splitOn_append_cons_self,
    List.filter_append]
  rfl

theorem blocks_segment (s : Segment) : blocks s.listing.toList = [s.lines] := by
  have nonempty : s.lines ≠ [] := by cases s <;> exact List.cons_ne_nil _ _
  rw [blocks, s.toList_listing, List.splitOn_intercalate '\n' s.newline_not_mem_lines nonempty,
    List.splitOn_eq_singleton s.nil_not_mem_lines, List.filter_singleton,
    List.isEmpty_eq_false_iff.2 nonempty]
  rfl

/-- The lines of the segments are read back from a listing. -/
theorem blocks_listing (program : List UInt8) :
    blocks (listing program).toList = (segments program).map Segment.lines := by
  rw [listing, String.toList_intercalate, List.map_map]
  induction segments program with
  | nil => rfl
  | cons s segs ih =>
    cases segs with
    | nil =>
      rw [List.map_singleton, List.intercalate_singleton]
      exact blocks_segment s
    | cons t segs =>
      rw [List.map_cons] at ih
      rw [List.map_cons, List.map_cons, List.intercalate_cons_cons, List.append_assoc]
      exact (blocks_append _ _).trans (congrArg₂ (· ++ ·) (blocks_segment s) ih)

/-! ## Reading back -/

theorem flatten_dataLines (bytes : List UInt8) : (dataLines bytes).flatten = bytes := by
  fun_induction dataLines bytes with
  | case1 bytes empty => exact (List.isEmpty_iff.1 empty).symm
  | case2 bytes _ ih => rw [List.flatten_cons, ih, List.take_append_drop]

/-- A line of data gives its bytes back. -/
theorem dataText_inj {as bs : List UInt8} (h : dataText as = dataText bs) : as = bs := by
  have spaced (bytes : List UInt8) : dataText bytes =
      ' ' :: [' '].intercalate ([] :: bytes.map fun b => (Numeral.byte b).toList) := by
    rw [Text.intercalate_cons, List.flatMap_map]
    rfl
  have unspaced (bytes : List UInt8) :
      ∀ text ∈ [] :: bytes.map fun b => (Numeral.byte b).toList, ' ' ∉ text := by
    rw [List.forall_mem_cons, List.forall_mem_map]
    exact ⟨List.not_mem_nil, fun b _ => not_mem_byte (by decide) (by decide) b⟩
  rw [spaced, spaced, List.cons.injEq] at h
  have texts_eq := Text.intercalate_inj List.not_mem_nil (unspaced as) (unspaced bs)
    (List.cons_ne_nil _ _) (List.cons_ne_nil _ _) h.2
  rw [List.cons.injEq] at texts_eq
  have injective : Function.Injective fun b => (Numeral.byte b).toList :=
    fun a b same => Numeral.byte_inj (String.toList_inj.1 same)
  exact List.map_injective_iff.2 injective texts_eq.2

/-- A line of code gives its word back, if that is an instruction. -/
theorem codeText_inj (v w : UInt16) (hv : Mnemonic.isKnown v = true)
    (hw : Mnemonic.isKnown w = true) (h : codeText v = codeText w) : v = w := by
  rw [codeText, codeText, List.cons.injEq, List.cons.injEq] at h
  apply Mnemonic.ofWord?_inj (Mnemonic.listing_of_isKnown hv)
  rw [String.toList_inj.1 h.2.2]
  exact Mnemonic.listing_of_isKnown hw

/-- All words of a segment are instructions. -/
def Segment.Known : Segment → Prop
  | .code ws => ∀ w ∈ ws, Mnemonic.isKnown w = true
  | .data _ => True

/-- The lines of a segment give its bytes back. -/
theorem Segment.lines_inj (s t : Segment) (hs : s.Known) (ht : t.Known)
    (h : s.lines = t.lines) : s = t := by
  cases s with
  | code ws =>
    cases t with
    | code vs => rw [eq_of_map_eq codeText_inj hs ht (List.cons.inj h).2]
    | data bs => exact absurd (List.cons.inj h).1 (by decide)
  | data bs =>
    cases t with
    | code vs => exact absurd (List.cons.inj h).1 (by decide)
    | data cs =>
      have injective : Function.Injective dataText := fun _ _ same => dataText_inj same
      have same := List.map_injective_iff.2 injective (List.cons.inj h).2
      rw [← flatten_dataLines bs, same, flatten_dataLines]

theorem known_of_mem_segments {program : List UInt8} : ∀ s ∈ segments program, s.Known := by
  intro s mem
  cases s with
  | data bs => trivial
  | code ws =>
    intro w mem_ws
    have known := (segmentation_segments program).known ws mem w mem_ws
    rwa [Mnemonic.ofWord?, Option.isSome_map] at known

/-- A listing gives its program back, since its blocks give the segments back and no two words have
    one mnemonic. -/
theorem listing_eq_iff (p q : List UInt8) :
    (listing p = listing q ↔ p = q) ∧
    blocks (listing p).toList = (segments p).map Segment.lines ∧
    ∀ v w text, Mnemonic.ofWord? v = some text → Mnemonic.ofWord? w = some text → v = w := by
  refine ⟨⟨?_, congrArg listing⟩, blocks_listing p, fun v w text => Mnemonic.ofWord?_inj⟩
  intro same
  have lines_eq : (segments p).map Segment.lines = (segments q).map Segment.lines := by
    rw [← blocks_listing, same, blocks_listing]
  have segments_eq : segments p = segments q :=
    eq_of_map_eq Segment.lines_inj known_of_mem_segments known_of_mem_segments lines_eq
  rw [← (segmentation_segments p).bytes_eq, segments_eq, (segmentation_segments q).bytes_eq]

/-- A line of code, a blank line and two lines of data. -/
example : listing [0x00, 0xE0, 0x99, 0x99, 0x99, 0x99, 0x99, 0x99, 0x99, 0x99, 0x99] =
    "CODE:\n  CLS\n\nDATA:\n  0x99 0x99 0x99 0x99 0x99 0x99 0x99 0x99\n  0x99" := by
  cbv

end XoChip.Disassembly
