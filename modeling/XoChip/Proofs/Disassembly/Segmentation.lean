import Mathlib.Data.List.Chain
import XoChip.Disassembly

/-!
# The segments of a program

A program falls into segments in one way only. Reading from the left decides of every byte at which
an item begins whether it is data, which fixes the items; and items that are gathered so that no
segment is empty and no two neighbours are of one kind are gathered in one way.
-/

namespace XoChip.Disassembly

/-! ## Kinds -/

def Item.isData : Item → Bool
  | .code _ => false
  | .data _ => true

def Segment.isData : Segment → Bool
  | .code _ => false
  | .data _ => true

/-- What a segment was gathered from. -/
def Segment.items : Segment → List Item
  | .code ws => ws.map .code
  | .data bs => bs.map .data

theorem Segment.flatMap_bytes_items (s : Segment) : s.items.flatMap Item.bytes = s.bytes := by
  cases s with
  | code ws => exact List.flatMap_map ..
  | data bs =>
    rw [items, List.flatMap_map]
    exact List.flatMap_singleton' bs

theorem Item.length_bytes_pos (i : Item) : 0 < i.bytes.length := by
  cases i <;> exact Nat.zero_lt_succ _

/-- Two items of one kind that begin with the same bytes are equal. -/
theorem Item.eq_of_bytes_append {i j : Item} {xs ys : List UInt8} (kind : i.isData = j.isData)
    (same : i.bytes ++ xs = j.bytes ++ ys) : i = j ∧ xs = ys := by
  cases i with
  | code w =>
    cases j with
    | code v =>
      simp only [bytes, List.cons_append, List.nil_append, List.cons.injEq] at same
      obtain ⟨high_eq, low_eq, rest⟩ := same
      rw [← Word.ofBytes_high_low w, high_eq, low_eq, Word.ofBytes_high_low]
      exact ⟨rfl, rest⟩
    | data b => cases kind
  | data b =>
    cases j with
    | code v => cases kind
    | data c =>
      simp only [bytes, List.cons_append, List.nil_append, List.cons.injEq] at same
      exact ⟨congrArg Item.data same.1, same.2⟩

/-! ## Gathering -/

/-- No segment is empty, and neighbours are of different kinds. -/
structure Gathered (segs : List Segment) : Prop where
  nonempty : ∀ s ∈ segs, s.items ≠ []
  alternate : segs.IsChain fun s t => s.isData ≠ t.isData

/-- An item joins the first segment if that is of its kind, and otherwise begins a new one. -/
theorem prepend_cases (i : Item) (segs : List Segment) :
    (∃ s t rest, segs = s :: rest ∧ prepend i segs = t :: rest ∧ t.items = i :: s.items ∧
      t.isData = s.isData) ∨
    (∃ t, prepend i segs = t :: segs ∧ t.items = [i] ∧ ∀ s ∈ segs.head?, t.isData ≠ s.isData) := by
  cases segs with
  | nil =>
    cases i with
    | code w => exact .inr ⟨.code [w], rfl, rfl, nofun⟩
    | data b => exact .inr ⟨.data [b], rfl, rfl, nofun⟩
  | cons s rest =>
    cases i with
    | code w =>
      cases s with
      | code ws => exact .inl ⟨.code ws, .code (w :: ws), rest, rfl, rfl, rfl, rfl⟩
      | data bs =>
        refine .inr ⟨.code [w], rfl, rfl, ?_⟩
        rintro s ⟨⟩
        exact nofun
    | data b =>
      cases s with
      | data bs => exact .inl ⟨.data bs, .data (b :: bs), rest, rfl, rfl, rfl, rfl⟩
      | code ws =>
        refine .inr ⟨.data [b], rfl, rfl, ?_⟩
        rintro s ⟨⟩
        exact nofun

theorem flatMap_items_prepend (i : Item) (segs : List Segment) :
    (prepend i segs).flatMap Segment.items = i :: segs.flatMap Segment.items := by
  rcases prepend_cases i segs with ⟨s, t, rest, rfl, eq, items_eq, -⟩ | ⟨t, eq, items_eq, -⟩
  · rw [eq, List.flatMap_cons, items_eq, List.flatMap_cons]
    rfl
  · rw [eq, List.flatMap_cons, items_eq]
    rfl

theorem Gathered.prepend {segs : List Segment} (h : Gathered segs) (i : Item) :
    Gathered (prepend i segs) := by
  rcases prepend_cases i segs with ⟨s, t, rest, rfl, eq, items_eq, kind⟩ | ⟨t, eq, items_eq, kind⟩
  · rw [eq]
    constructor
    · rw [List.forall_mem_cons, items_eq]
      exact ⟨List.cons_ne_nil _ _, (List.forall_mem_cons.1 h.nonempty).2⟩
    · have alternate := h.alternate
      rw [List.isChain_cons] at alternate ⊢
      rw [kind]
      exact alternate
  · rw [eq]
    constructor
    · rw [List.forall_mem_cons, items_eq]
      exact ⟨List.cons_ne_nil _ _, h.nonempty⟩
    · exact List.isChain_cons.2 ⟨kind, h.alternate⟩

/-- The items of a segment are gathered into that segment, in front of one of the other kind. -/
theorem foldr_prepend_items {s : Segment} {segs : List Segment} (nonempty : s.items ≠ [])
    (kind : ∀ t ∈ segs.head?, s.isData ≠ t.isData) : s.items.foldr prepend segs = s :: segs := by
  cases s with
  | code xs | data xs =>
    induction xs with
    | nil => exact absurd rfl nonempty
    | cons x xs ih =>
      cases xs with
      | cons y ys =>
        rw [Segment.items, List.map_cons, List.foldr_cons]
        exact congrArg _ (ih (List.cons_ne_nil _ _) kind)
      | nil =>
        cases segs with
        | nil => rfl
        | cons t segs =>
          have differs := kind t rfl
          cases t <;> first | rfl | exact absurd rfl differs

/-- What is gathered is gathered from its items. -/
theorem Gathered.foldr_prepend {segs : List Segment} (h : Gathered segs) :
    (segs.flatMap Segment.items).foldr Disassembly.prepend [] = segs := by
  induction segs with
  | nil => rfl
  | cons s segs ih =>
    obtain ⟨nonempty, rest_nonempty⟩ := List.forall_mem_cons.1 h.nonempty
    obtain ⟨kind, rest_alternate⟩ := List.isChain_cons.1 h.alternate
    rw [List.flatMap_cons, List.foldr_append, ih ⟨rest_nonempty, rest_alternate⟩,
      foldr_prepend_items nonempty kind]

theorem gathered_foldr_prepend (is : List Item) : Gathered (is.foldr prepend []) := by
  induction is with
  | nil => exact ⟨nofun, .nil⟩
  | cons i is ih => exact ih.prepend i

theorem flatMap_items_foldr_prepend (is : List Item) :
    (is.foldr prepend []).flatMap Segment.items = is := by
  induction is with
  | nil => rfl
  | cons i is ih => rw [List.foldr_cons, flatMap_items_prepend, ih]

/-! ## Reading from the left -/

/-- Whether the byte at a position, at which an item begins, is data: it is the last one, or it does
    not form an instruction with the next. -/
def DataAt (program : List UInt8) (idx : Nat) : Prop :=
  idx + 1 = program.length ∨
    ∃ high low, program[idx]? = some high ∧ program[idx + 1]? = some low ∧
      Mnemonic.ofWord? (Word.ofBytes high low) = none

/-- Where each item begins decides of which kind it is. -/
def Greedy (program : List UInt8) (is : List Item) : Prop :=
  ∀ front i back, is = front ++ i :: back →
    (i.isData ↔ DataAt program (front.flatMap Item.bytes).length)

theorem greedy_nil (program : List UInt8) : Greedy program [] := by
  intro front i back split
  exact absurd split.symm (List.append_ne_nil_of_right_ne_nil front (List.cons_ne_nil i back))

theorem dataAt_append (xs ys : List UInt8) (idx : Nat) :
    DataAt (xs ++ ys) (xs.length + idx) ↔ DataAt ys idx := by
  simp only [DataAt, List.length_append, Nat.add_assoc, Nat.add_left_cancel_iff,
    List.getElem?_append_right (Nat.le_add_right xs.length _), Nat.add_sub_cancel_left]

/-- The first item is of the right kind, and so are the others in what follows. -/
theorem greedy_cons {i : Item} {is : List Item} {rest : List UInt8} :
    Greedy (i.bytes ++ rest) (i :: is) ↔
      (i.isData ↔ DataAt (i.bytes ++ rest) 0) ∧ Greedy rest is := by
  constructor
  · intro greedy
    refine ⟨greedy [] i is rfl, ?_⟩
    intro front j back split
    rw [greedy (i :: front) j back (congrArg _ split), List.flatMap_cons, List.length_append,
      dataAt_append]
  · rintro ⟨first, greedy⟩ front j back split
    cases front with
    | nil =>
      cases split
      exact first
    | cons k front =>
      cases split
      rw [greedy front j back rfl, List.flatMap_cons, List.length_append, dataAt_append]

/-- The bytes of a program are read in one way. -/
theorem eq_of_greedy {is js : List Item} (bytes_eq : is.flatMap Item.bytes = js.flatMap Item.bytes)
    (his : Greedy (is.flatMap Item.bytes) is) (hjs : Greedy (js.flatMap Item.bytes) js) :
    is = js := by
  have ne_nil (i : Item) (is : List Item) : [] ≠ (i :: is).flatMap Item.bytes := by
    intro none
    have pos := i.length_bytes_pos
    have length_eq := congrArg List.length none
    rw [List.flatMap_cons, List.length_append, List.length_nil] at length_eq
    omega
  induction is generalizing js with
  | nil =>
    cases js with
    | nil => rfl
    | cons j js => exact absurd bytes_eq (ne_nil j js)
  | cons i is ih =>
    cases js with
    | nil => exact absurd bytes_eq.symm (ne_nil i is)
    | cons j js =>
      rw [List.flatMap_cons, greedy_cons] at his hjs
      rw [List.flatMap_cons, List.flatMap_cons] at bytes_eq
      -- Both readings begin at the same byte, which decides of which kind their first items are.
      have kind : i.isData = j.isData := by
        rw [Bool.eq_iff_iff, his.1, hjs.1, bytes_eq]
      obtain ⟨rfl, rest_eq⟩ := Item.eq_of_bytes_append kind bytes_eq
      rw [ih rest_eq his.2 hjs.2]

/-- In front of at least two bytes, the mnemonic decides. -/
theorem dataAt_zero_iff {high low : UInt8} {rest : List UInt8} :
    DataAt (high :: low :: rest) 0 ↔ ¬ Mnemonic.isKnown (Word.ofBytes high low) := by
  have unknown_iff : Mnemonic.ofWord? (Word.ofBytes high low) = none ↔
      ¬ Mnemonic.isKnown (Word.ofBytes high low) := by
    rw [Mnemonic.ofWord?, Mnemonic.isKnown, Option.map_eq_none_iff, Option.not_isSome_iff_eq_none]
  rw [← unknown_iff, DataAt]
  simp

theorem greedy_items (program : List UInt8) : Greedy program (items program) := by
  fun_induction items program with
  | case1 => exact greedy_nil []
  | case2 b =>
    have first : (Item.data b).isData ↔ DataAt ((Item.data b).bytes ++ []) 0 :=
      iff_of_true rfl (.inl rfl)
    exact greedy_cons.2 ⟨first, greedy_nil []⟩
  | case3 high low rest known ih =>
    have bytes_eq : (Item.code (Word.ofBytes high low)).bytes ++ rest = high :: low :: rest := by
      rw [Item.bytes, Word.high_ofBytes, Word.low_ofBytes]
      rfl
    rw [← bytes_eq, greedy_cons, bytes_eq, dataAt_zero_iff]
    exact ⟨iff_of_false Bool.false_ne_true (not_not_intro known), ih⟩
  | case4 high low rest unknown ih =>
    have first : (Item.data high).isData ↔ DataAt ((Item.data high).bytes ++ low :: rest) 0 :=
      iff_of_true rfl (dataAt_zero_iff.2 unknown)
    exact greedy_cons.2 ⟨first, ih⟩

theorem isKnown_of_mem_items {program : List UInt8} {w : UInt16}
    (mem : .code w ∈ items program) : Mnemonic.isKnown w = true := by
  fun_induction items program with
  | case1 => cases mem
  | case2 b => simp at mem
  | case3 high low rest known ih =>
    rcases List.mem_cons.1 mem with first | later
    · cases first
      exact known
    · exact ih later
  | case4 high low rest unknown ih =>
    rcases List.mem_cons.1 mem with first | later
    · cases first
    · exact ih later

/-- Every item takes a byte at least. -/
theorem length_le_length_flatMap_bytes (is : List Item) :
    is.length ≤ (is.flatMap Item.bytes).length := by
  induction is with
  | nil => exact Nat.le_refl 0
  | cons i is ih =>
    have pos := i.length_bytes_pos
    rw [List.flatMap_cons, List.length_append, List.length_cons]
    omega

/-! ## Segments -/

/-- The segments of a program as they have to be. -/
structure Segmentation (program : List UInt8) (segs : List Segment) : Prop
    extends Gathered segs where
  bytes_eq : segs.flatMap Segment.bytes = program
  known : ∀ ws, .code ws ∈ segs → ∀ w ∈ ws, (Mnemonic.ofWord? w).isSome
  greedy : Greedy program (segs.flatMap Segment.items)

theorem flatMap_items_segments (program : List UInt8) :
    (segments program).flatMap Segment.items = items program :=
  flatMap_items_foldr_prepend _

theorem flatMap_flatMap_bytes (segs : List Segment) :
    (segs.flatMap Segment.items).flatMap Item.bytes = segs.flatMap Segment.bytes := by
  rw [List.flatMap_assoc]
  exact congrArg (List.flatMap · segs) (funext Segment.flatMap_bytes_items)

theorem segmentation_segments (program : List UInt8) : Segmentation program (segments program) where
  toGathered := gathered_foldr_prepend _
  bytes_eq := by
    rw [← flatMap_flatMap_bytes, flatMap_items_segments, Disassembly.flatMap_bytes_items]
  known := by
    intro ws mem w mem_ws
    have mem_items : .code w ∈ (segments program).flatMap Segment.items :=
      List.mem_flatMap.2 ⟨_, mem, List.mem_map_of_mem mem_ws⟩
    rw [flatMap_items_segments] at mem_items
    rw [Mnemonic.ofWord?, Option.isSome_map]
    exact isKnown_of_mem_items mem_items
  greedy := by
    rw [flatMap_items_segments]
    exact greedy_items program

theorem Segmentation.eq_segments {program : List UInt8} {segs : List Segment}
    (h : Segmentation program segs) : segs = segments program := by
  have bytes_eq : (segs.flatMap Segment.items).flatMap Item.bytes = program := by
    rw [flatMap_flatMap_bytes, h.bytes_eq]
  have items_eq : segs.flatMap Segment.items = items program := by
    apply eq_of_greedy
    · rw [bytes_eq, Disassembly.flatMap_bytes_items]
    · rw [bytes_eq]
      exact h.greedy
    · rw [Disassembly.flatMap_bytes_items]
      exact greedy_items program
  rw [← h.foldr_prepend, items_eq]
  rfl

/-- Any program falls into segments, within as many steps as it has bytes, and in one way only.
    Where an item of code begins, its two bytes stand in the program. -/
theorem segments_exact (program : List UInt8) :
    (∀ segs, Segmentation program segs ↔ segs = segments program) ∧
    (items program).length ≤ program.length ∧
    ∀ front i back, (segments program).flatMap Segment.items = front ++ i :: back →
      let idx := (front.flatMap Item.bytes).length
      (∀ b, i = .data b → program[idx]? = some b) ∧
      ∀ w, i = .code w →
        program[idx]? = some (Word.high w) ∧ program[idx + 1]? = some (Word.low w) := by
  refine ⟨?_, ?_, ?_⟩
  · intro segs
    constructor
    · exact Segmentation.eq_segments
    · rintro rfl
      exact segmentation_segments program
  · have le := length_le_length_flatMap_bytes (items program)
    rwa [Disassembly.flatMap_bytes_items] at le
  · intro front i back split idx
    have stands : program = front.flatMap Item.bytes ++ (i.bytes ++ back.flatMap Item.bytes) := by
      rw [← Disassembly.flatMap_bytes_items program, ← flatMap_items_segments, split,
        List.flatMap_append, List.flatMap_cons]
    constructor
    · rintro b rfl
      rw [stands, List.getElem?_append_right (Nat.le_refl _), Nat.sub_self]
      rfl
    · rintro w rfl
      rw [stands, List.getElem?_append_right (Nat.le_refl _),
        List.getElem?_append_right (Nat.le_add_right _ 1), Nat.sub_self, Nat.add_sub_cancel_left]
      exact ⟨rfl, rfl⟩

/-- A word that is no instruction gives one byte to the data, and the next word begins behind it. -/
example : segments [0xE0, 0x00, 0xE0, 0x12] = [.data [0xE0], .code [0x00E0], .data [0x12]] := by
  decide

end XoChip.Disassembly
