import Mathlib.Data.List.DropRight
import XoChip.Text.Blank

/-!
# Trimming

White space at the ends of a text does not count when the text is trimmed. Around a separator, which
is no white space itself, trimming takes away what is in front of the part before it and behind the
part after it.
-/

namespace XoChip.Text

/-- All characters are white space. -/
def Blank (cs : List Char) : Prop := ∀ c ∈ cs, isBlank c = true

theorem not_mem_of_blank {c : Char} (hc : isBlank c = false) {cs : List Char} (h : Blank cs) :
    c ∉ cs := by
  intro mem
  rw [h c mem] at hc
  cases hc

variable {as bs cs : List Char} {sep : Char}

theorem trim_eq_rdropWhile (cs : List Char) :
    trim cs = (cs.dropWhile isBlank).rdropWhile isBlank := rfl

theorem rdropWhile_append_of_blank (h : Blank bs) :
    (as ++ bs).rdropWhile isBlank = as.rdropWhile isBlank := by
  rw [List.rdropWhile, List.reverse_append, List.dropWhile_append_of_pos, List.rdropWhile]
  intro c mem
  exact h c (List.mem_reverse.1 mem)

/-- White space in front does not count. -/
theorem trim_append_of_blank_left (h : Blank as) : trim (as ++ bs) = trim bs := by
  rw [trim_eq_rdropWhile, List.dropWhile_append_of_pos h]
  rfl

theorem trim_of_blank (h : Blank cs) : trim cs = [] := by
  rw [trim_eq_rdropWhile, List.dropWhile_eq_nil_iff.2 h]
  rfl

/-- White space behind does not count. -/
theorem trim_append_of_blank_right (h : Blank bs) : trim (as ++ bs) = trim as := by
  by_cases blank : Blank as
  · rw [trim_append_of_blank_left blank, trim_of_blank h, trim_of_blank blank]
  · have some : (as.dropWhile isBlank).isEmpty = false := by
      rw [List.isEmpty_eq_false_iff, ne_eq, List.dropWhile_eq_nil_iff]
      exact blank
    rw [trim_eq_rdropWhile, List.dropWhile_append, some, trim_eq_rdropWhile]
    exact rdropWhile_append_of_blank h

theorem trim_dropWhile (cs : List Char) : trim (cs.dropWhile isBlank) = trim cs := by
  have blank : Blank (cs.takeWhile isBlank) := fun _ => List.mem_takeWhile_imp
  rw [← trim_append_of_blank_left blank, List.takeWhile_append_dropWhile]

theorem trim_rdropWhile (cs : List Char) : trim (cs.rdropWhile isBlank) = trim cs := by
  have blank : Blank (cs.rtakeWhile isBlank) := fun _ => List.mem_rtakeWhile_imp
  rw [← trim_append_of_blank_right blank, List.rdropWhile_append_rtakeWhile]

theorem mem_of_mem_trim {c : Char} (h : c ∈ trim cs) : c ∈ cs :=
  (List.dropWhile_sublist _).mem ((List.rdropWhile_prefix _ _).mem h)

theorem dropWhile_append_cons (hsep : isBlank sep = false) (as bs : List Char) :
    (as ++ sep :: bs).dropWhile isBlank = as.dropWhile isBlank ++ sep :: bs := by
  rw [List.dropWhile_append, List.dropWhile_cons, hsep]
  split
  · next none =>
    rw [List.isEmpty_iff.1 none]
    rfl
  · rfl

/-- A text is trimmed in front of a separator and behind it, if the separator is no white space. -/
theorem trim_append_cons (hsep : isBlank sep = false) (as bs : List Char) :
    trim (as ++ sep :: bs) = as.dropWhile isBlank ++ sep :: bs.rdropWhile isBlank := by
  have turned : (as.dropWhile isBlank ++ sep :: bs).reverse =
      bs.reverse ++ sep :: (as.dropWhile isBlank).reverse := by simp
  rw [trim_eq_rdropWhile, dropWhile_append_cons hsep, List.rdropWhile, turned,
    dropWhile_append_cons hsep]
  simp [List.rdropWhile]

end XoChip.Text
