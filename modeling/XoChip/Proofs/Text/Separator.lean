import Mathlib.Data.List.Basic
import XoChip.Text.Blank

/-!
# Pieces between separators

Pieces in which a separator does not occur can be told apart when they are written one after the
other with separators between them.
-/

namespace XoChip

/-- Lists whose members can be told apart by their images can be told apart by these. -/
theorem eq_of_map_eq {α β : Type} {f : α → β} {P : α → Prop}
    (inj : ∀ a b, P a → P b → f a = f b → a = b) {as bs : List α} (has : ∀ a ∈ as, P a)
    (hbs : ∀ b ∈ bs, P b) (h : as.map f = bs.map f) : as = bs := by
  induction as generalizing bs with
  | nil => exact (List.map_eq_nil_iff.1 h.symm).symm
  | cons a as ih =>
    cases bs with
    | nil => cases h
    | cons b bs =>
      obtain ⟨ha, has⟩ := List.forall_mem_cons.1 has
      obtain ⟨hb, hbs⟩ := List.forall_mem_cons.1 hbs
      obtain ⟨first, rest⟩ := List.cons.inj h
      rw [inj a b ha hb first, ih has hbs rest]

/-! ## Separators -/

namespace Text

variable {α : Type} {sep : α} {xs ys as bs : List α}

/-- A list is cut in one way at the first separator. -/
theorem append_cons_inj [BEq α] [LawfulBEq α] (hx : sep ∉ xs) (hy : sep ∉ ys)
    (h : xs ++ sep :: as = ys ++ sep :: bs) : xs = ys ∧ as = bs := by
  have cut := congrArg (List.splitOn sep) h
  rw [List.splitOn_append_cons_self_of_not_mem hx, List.splitOn_append_cons_self_of_not_mem hy,
    List.cons.injEq] at cut
  refine ⟨cut.1, ?_⟩
  calc
    as = [sep].intercalate (as.splitOn sep) := (List.intercalate_splitOn sep).symm
    _ = bs := by rw [cut.2, List.intercalate_splitOn]

/-- All but the first of some pieces have a separator in front. -/
theorem intercalate_cons (sep : List α) (piece : List α) (pieces : List (List α)) :
    sep.intercalate (piece :: pieces) = piece ++ pieces.flatMap (sep ++ ·) := by
  induction pieces generalizing piece with
  | nil => simp
  | cons next pieces ih =>
    rw [List.intercalate_cons_cons, ih, List.flatMap_cons, List.append_assoc, List.append_assoc]

theorem not_mem_intercalate {x : α} {sep : List α} {pieces : List (List α)} (hsep : x ∉ sep)
    (h : ∀ piece ∈ pieces, x ∉ piece) : x ∉ sep.intercalate pieces := by
  cases pieces with
  | nil => exact List.not_mem_nil
  | cons piece pieces =>
    obtain ⟨first, rest⟩ := List.forall_mem_cons.1 h
    rw [intercalate_cons, List.mem_append, List.mem_flatMap]
    rintro (mem | ⟨p, mem_p, mem⟩)
    · exact first mem
    · exact (List.mem_append.1 mem).elim hsep (rest p mem_p)

/-- Pieces are read back, up to the padding behind each separator. -/
theorem splitOn_intercalate_cons [BEq α] [LawfulBEq α] {pad piece : List α}
    {pieces : List (List α)} (hpad : sep ∉ pad) (hpiece : sep ∉ piece)
    (hpieces : ∀ p ∈ pieces, sep ∉ p) :
    ((sep :: pad).intercalate (piece :: pieces)).splitOn sep =
      piece :: pieces.map (pad ++ ·) := by
  have padded : [sep].intercalate (piece :: pieces.map (pad ++ ·)) =
      (sep :: pad).intercalate (piece :: pieces) := by
    rw [intercalate_cons, intercalate_cons, List.flatMap_map]
    rfl
  rw [← padded]
  apply List.splitOn_intercalate sep _ (List.cons_ne_nil _ _)
  rw [List.forall_mem_cons, List.forall_mem_map]
  refine ⟨hpiece, fun p mem => ?_⟩
  rw [List.mem_append, not_or]
  exact ⟨hpad, hpieces p mem⟩

/-- Pieces in which the separator does not occur can be told apart. -/
theorem intercalate_inj [BEq α] [LawfulBEq α] {pad : List α} {ps qs : List (List α)}
    (hpad : sep ∉ pad) (hps : ∀ p ∈ ps, sep ∉ p) (hqs : ∀ q ∈ qs, sep ∉ q) (ps_ne : ps ≠ [])
    (qs_ne : qs ≠ []) (h : (sep :: pad).intercalate ps = (sep :: pad).intercalate qs) :
    ps = qs := by
  obtain ⟨p, ps, rfl⟩ := List.exists_cons_of_ne_nil ps_ne
  obtain ⟨q, qs, rfl⟩ := List.exists_cons_of_ne_nil qs_ne
  obtain ⟨hp, hps⟩ := List.forall_mem_cons.1 hps
  obtain ⟨hq, hqs⟩ := List.forall_mem_cons.1 hqs
  have cut := congrArg (List.splitOn sep) h
  rw [splitOn_intercalate_cons hpad hp hps, splitOn_intercalate_cons hpad hq hqs,
    List.cons.injEq] at cut
  rw [cut.1, List.map_injective_iff.2 (List.append_right_injective pad) cut.2]

/-- The pieces of a text are those between its separators. -/
theorem splitAt_eq_splitOn (sep : Char) (cs : List Char) : splitAt sep cs = cs.splitOn sep := by
  induction cs with
  | nil => rfl
  | cons c cs ih =>
    rw [splitAt, ih, List.splitOn_cons_eq_if_modifyHead]
    by_cases h : c = sep
    · rw [if_pos h, if_pos (beq_iff_eq.2 h)]
    · rw [if_neg h, if_neg (mt beq_iff_eq.1 h)]
      cases pieces_eq : cs.splitOn sep with
      | nil => exact absurd pieces_eq (List.splitOn_ne_nil sep cs)
      | cons piece pieces => rfl

theorem splitOnce_eq_none_iff {sep : Char} {cs : List Char} :
    splitOnce sep cs = none ↔ sep ∉ cs := by
  induction cs with
  | nil => exact iff_of_true rfl List.not_mem_nil
  | cons c cs ih =>
    rw [splitOnce, List.mem_cons, not_or]
    by_cases h : c = sep
    · rw [if_pos h]
      exact iff_of_false nofun fun absent => absent.1 h.symm
    · rw [if_neg h, Option.map_eq_none_iff, ih]
      exact ⟨fun absent => ⟨Ne.symm h, absent⟩, fun absent => absent.2⟩

/-- A text is cut at the first separator. -/
theorem splitOnce_eq_some_iff {sep : Char} {cs before after : List Char} :
    splitOnce sep cs = some (before, after) ↔ cs = before ++ sep :: after ∧ sep ∉ before := by
  induction cs generalizing before with
  | nil =>
    refine iff_of_false nofun ?_
    rintro ⟨split, -⟩
    exact absurd split.symm (List.append_ne_nil_of_right_ne_nil before (List.cons_ne_nil _ _))
  | cons c cs ih =>
    rw [splitOnce]
    by_cases h : c = sep
    · rw [if_pos h, h]
      constructor
      · rintro ⟨⟩
        exact ⟨rfl, List.not_mem_nil⟩
      · rintro ⟨split, absent⟩
        cases before with
        | nil =>
          cases split
          rfl
        | cons b before =>
          cases split
          exact absurd (List.mem_cons_self ..) absent
    · rw [if_neg h, Option.map_eq_some_iff]
      constructor
      · rintro ⟨⟨front, back⟩, found, same⟩
        cases same
        obtain ⟨rfl, absent⟩ := ih.1 found
        exact ⟨rfl, List.not_mem_cons_of_ne_of_not_mem (Ne.symm h) absent⟩
      · rintro ⟨split, absent⟩
        cases before with
        | nil =>
          cases split
          exact absurd rfl h
        | cons b before =>
          cases split
          exact ⟨(before, after), ih.2 ⟨rfl, fun mem => absent (List.mem_cons_of_mem _ mem)⟩, rfl⟩

end Text

end XoChip
