import Mathlib.Data.List.TakeDrop
import XoChip.Json.Printer
import XoChip.Json.Reader

/-!
# Reading what was written

Reading the text of a value gives the value back, whatever follows, as long as the text behind it
does not go on with a number. This holds of all values that are `Plain`: the literal of a number
that is not natural may be anything, and a string without content has no text. Every nested value is
shorter than the text around it, so the length of a text is enough fuel.
-/

namespace XoChip.Json

/-! ## Blanks -/

theorem skipBlanks_cons {c : Char} (h : isBlank c = false) (cs : List Char) :
    skipBlanks (c :: cs) = c :: cs := by
  rw [skipBlanks, List.dropWhile_cons, h]
  rfl

/-! ## Numbers -/

/-- The text does not go on with a number. -/
def EndsNumber (rest : List Char) : Prop :=
  ∀ c ∈ rest.head?, c.isDigit = false ∧ c ≠ '.' ∧ c ≠ 'e' ∧ c ≠ 'E'

theorem endsNumber_nil : EndsNumber [] := nofun

theorem endsNumber_cons {c : Char} {cs : List Char}
    (h : c.isDigit = false ∧ c ≠ '.' ∧ c ≠ 'e' ∧ c ≠ 'E') : EndsNumber (c :: cs) := by
  intro d hd
  cases hd
  exact h

theorem isDigit_of_mem_toDigits {n : Nat} {c : Char} (h : c ∈ Nat.toDigits 10 n) :
    c.isDigit = true := Nat.isDigit_of_mem_toDigits (by decide) (by decide) h

theorem exists_toDigits_eq_cons (n : Nat) :
    ∃ d ds, Nat.toDigits 10 n = d :: ds ∧ d.isDigit = true := by
  cases hds : Nat.toDigits 10 n with
  | nil => exact absurd hds Nat.toDigits_ne_nil
  | cons d ds => exact ⟨d, ds, rfl, isDigit_of_mem_toDigits (hds ▸ List.mem_cons_self ..)⟩

/-- Only zero is written with a zero in front. -/
theorem head?_toDigits_ne_zero {n : Nat} (pos : 0 < n) : (Nat.toDigits 10 n).head? ≠ some '0' := by
  induction n using Nat.strongRecOn with
  | ind n ih =>
    by_cases small : n < 10
    · rw [Nat.toDigits_of_lt_base small, List.head?_cons, ne_eq, Option.some.injEq,
        Nat.digitChar_eq_zero]
      omega
    · have front := ih (n / 10) (by omega) (by omega)
      obtain ⟨d, ds, hds, -⟩ := exists_toDigits_eq_cons (n / 10)
      rw [hds] at front
      rw [Nat.toDigits_of_base_le (by decide) (by omega), hds]
      exact front

/-- Digits end where the number ends. -/
theorem span_toDigits (n : Nat) {rest : List Char} (ends : EndsNumber rest) :
    (Nat.toDigits 10 n ++ rest).span Char.isDigit = (Nat.toDigits 10 n, rest) := by
  have digits : ∀ c ∈ Nat.toDigits 10 n, c.isDigit = true := fun c => isDigit_of_mem_toDigits
  have stop : rest.takeWhile Char.isDigit = [] ∧ rest.dropWhile Char.isDigit = rest := by
    cases rest with
    | nil => exact ⟨rfl, rfl⟩
    | cons c cs =>
      have other := (ends c rfl).1
      exact ⟨by rw [List.takeWhile_cons, other]; rfl, by rw [List.dropWhile_cons, other]; rfl⟩
  rw [List.span_eq_takeWhile_dropWhile, List.takeWhile_append_of_pos digits,
    List.dropWhile_append_of_pos digits, stop.1, stop.2, List.append_nil]

theorem wholePart?_toDigits (n : Nat) {rest : List Char} (ends : EndsNumber rest) :
    wholePart? (Nat.toDigits 10 n ++ rest) = some (Nat.toDigits 10 n, rest) := by
  rcases Nat.eq_zero_or_pos n with rfl | pos
  · rfl
  · have head := head?_toDigits_ne_zero pos
    have span := span_toDigits n ends
    obtain ⟨d, ds, hds, -⟩ := exists_toDigits_eq_cons n
    rw [hds] at head span ⊢
    rw [List.cons_append] at span ⊢
    unfold wholePart?
    split
    · next heq =>
      cases heq
      exact absurd rfl head
    · rw [span]

theorem fractionPart?_of_ends {rest : List Char} (ends : EndsNumber rest) :
    fractionPart? rest = some ([], rest) := by
  unfold fractionPart?
  split
  · exact absurd rfl (ends '.' rfl).2.1
  · rfl

theorem exponentPart?_of_ends {rest : List Char} (ends : EndsNumber rest) :
    exponentPart? rest = some ([], rest) := by
  cases rest with
  | nil => rfl
  | cons c cs =>
    obtain ⟨-, -, lower, upper⟩ := ends c rfl
    unfold exponentPart?
    dsimp only
    rw [if_neg]
    simp [lower, upper]

/-- The digits of a number are read as that number. -/
theorem readNumber?_toDigits (n : Nat) {rest : List Char} (ends : EndsNumber rest) :
    readNumber? (Nat.toDigits 10 n ++ rest) = some (.natural n, rest) := by
  have value : digitsValue (Nat.toDigits 10 n) = n :=
    Nat.ofDigitChars_toDigits (by decide) (by decide)
  have whole := wholePart?_toDigits n ends
  obtain ⟨d, ds, hds, digit⟩ := exists_toDigits_eq_cons n
  have unsigned : ∀ cs, d :: ds ++ rest ≠ '-' :: cs := by
    rintro cs ⟨⟩
    exact absurd digit (by decide)
  rw [hds] at value whole ⊢
  unfold readNumber?
  split
  next heq =>
  split at heq
  · next signed => exact absurd signed (unsigned _)
  · cases heq
    rw [whole]
    simp only [Option.bind_eq_bind, Option.bind_some, fractionPart?_of_ends ends,
      exponentPart?_of_ends ends, value]

/-! ## Strings -/

theorem hexValue?_digitChar {k : Nat} (h : k < 16) : hexValue? (Nat.digitChar k) = some k := by
  revert k
  decide

/-- Four hexadecimal digits name the code unit that they write. -/
theorem codeUnit?_digits {n : Nat} (h : n < 0x10000) :
    ∃ a b c d, Numeral.digits 16 4 n = [a, b, c, d] ∧ codeUnit? a b c d = some n := by
  refine ⟨_, _, _, _, rfl, ?_⟩
  have digit : ∀ k, hexValue? (Nat.digitChar (k % 16)) = some (k % 16) :=
    fun k => hexValue?_digitChar (Nat.mod_lt k (by decide))
  simp only [codeUnit?, digit, Option.bind_eq_bind, Option.bind_some, Option.pure_def,
    Option.some.injEq]
  omega

/-- Reading a literal goes on behind an escape that consists of a letter. -/
theorem literal?_short {e c : Char} (h : shortEscape? e = some c) (cs : List Char) :
    literal? ('\\' :: e :: cs) = (literal? cs).map fun result => (c.toNat :: result.1, result.2) := by
  have letter : ∀ a b c d rest, e = 'u' → cs = a :: b :: c :: d :: rest → False := by
    rintro a b c d rest rfl
    cases h
  rw [literal?, h]
  · cases literal? cs <;> rfl
  · exact letter

/-- Reading a literal goes on behind a code unit. -/
theorem literal?_codeUnit {a b c d : Char} {n : Nat} (h : codeUnit? a b c d = some n)
    (cs : List Char) : literal? ('\\' :: 'u' :: a :: b :: c :: d :: cs) =
      (literal? cs).map fun result => (n :: result.1, result.2) := by
  rw [literal?, h]
  cases literal? cs <;> rfl

/-- Reading a literal goes on behind a character that stands for itself. -/
theorem literal?_plain {c : Char} (quote : c ≠ '"') (backslash : c ≠ '\\') (blank : 0x20 ≤ c.toNat)
    (cs : List Char) :
    literal? (c :: cs) = (literal? cs).map fun result => (c.toNat :: result.1, result.2) := by
  have kept : ¬ (c = '\\' ∨ c.toNat < 0x20) := by
    rintro (rfl | control)
    · exact backslash rfl
    · omega
  rw [literal?]
  · rw [if_neg kept]
    cases literal? cs <;> rfl
  · exact quote
  · exact fun _ _ _ _ _ escape _ => backslash escape
  · exact fun _ _ escape _ => backslash escape

/-- An escaped character is read as that character. -/
theorem literal?_escaped (c : Char) (cs : List Char) :
    literal? (escaped c ++ cs) = (literal? cs).map fun result => (c.toNat :: result.1, result.2) := by
  unfold escaped
  split
  · next h => subst h; exact literal?_short rfl cs
  split
  · next h => subst h; exact literal?_short rfl cs
  split
  · next h => subst h; exact literal?_short rfl cs
  split
  · next h => subst h; exact literal?_short rfl cs
  split
  · next h => subst h; exact literal?_short rfl cs
  split
  · next h => subst h; exact literal?_short rfl cs
  split
  · next h => subst h; exact literal?_short rfl cs
  next quote backslash _ _ _ _ _ =>
  split
  · next small =>
    obtain ⟨d1, d2, d3, d4, digits, unit⟩ := codeUnit?_digits (n := c.toNat) (by omega)
    rw [digits]
    exact literal?_codeUnit unit cs
  · next large => exact literal?_plain quote backslash (by omega) cs

/-- No character is a surrogate. -/
theorem joinSurrogates?_toNat (cs : List Char) :
    joinSurrogates? (cs.map Char.toNat) = some cs := by
  induction cs with
  | nil => rfl
  | cons c cs ih =>
    have valid : c.toNat < 0xD800 ∨ 0xDFFF < c.toNat := by
      rcases c.valid with low | ⟨high, -⟩
      · exact Or.inl low
      · exact Or.inr high
    have high : isHighSurrogate c.toNat = false := by
      simp only [isHighSurrogate, Bool.and_eq_false_iff, decide_eq_false_iff_not]
      omega
    have low : isLowSurrogate c.toNat = false := by
      simp only [isLowSurrogate, Bool.and_eq_false_iff, decide_eq_false_iff_not]
      omega
    rw [List.map_cons, joinSurrogates?.eq_def]
    dsimp only
    rw [high, low, ih, Char.ofNat_toNat]
    rfl

/-- A string literal is read as its content. -/
theorem readString?_flatMap_escaped (content rest : List Char) :
    readString? (content.flatMap escaped ++ '"' :: rest) = some (some content, rest) := by
  have read : literal? (content.flatMap escaped ++ '"' :: rest) =
      some (content.map Char.toNat, rest) := by
    induction content with
    | nil => rfl
    | cons c cs ih =>
      rw [List.flatMap_cons, List.append_assoc, literal?_escaped, ih]
      rfl
  rw [readString?, read, Option.map_some]
  dsimp only
  rw [joinSurrogates?_toNat]

theorem printString_append (content rest : List Char) :
    printString (some content) ++ rest = '"' :: (content.flatMap escaped ++ '"' :: rest) := by
  show '"' :: (content.flatMap escaped ++ ['"']) ++ rest = _
  rw [List.cons_append, List.append_assoc, List.singleton_append]

/-! ## Values -/

/-- A value without literals of other numbers and without strings that name no text. -/
inductive Plain : Json → Prop
  | null : Plain .null
  | bool (value : Bool) : Plain (.bool value)
  | natural (value : Nat) : Plain (.natural value)
  | string (content : List Char) : Plain (.string (some content))
  | array {elements : List Json} (h : ∀ e ∈ elements, Plain e) : Plain (.array elements)
  | object {fields : List (Option (List Char) × Json)}
      (names : ∀ field ∈ fields, field.1.isSome) (values : ∀ field ∈ fields, Plain field.2) :
      Plain (.object fields)

/-- The text of a value begins with something that is neither a blank nor a closing bracket. -/
theorem Plain.exists_print_eq_cons {j : Json} (h : Plain j) :
    ∃ c cs, print j = c :: cs ∧ isBlank c = false ∧ c ≠ ']' := by
  cases h with
  | null => exact ⟨_, _, rfl, rfl, by decide⟩
  | bool value => cases value <;> exact ⟨_, _, rfl, rfl, by decide⟩
  | natural value =>
    obtain ⟨d, ds, hds, digit⟩ := exists_toDigits_eq_cons value
    refine ⟨d, ds, hds, ?_, ?_⟩
    · by_contra blank
      simp only [isBlank, Bool.or_eq_true, beq_iff_eq, Bool.not_eq_false, or_assoc] at blank
      rcases blank with rfl | rfl | rfl | rfl <;> exact absurd digit (by decide)
    · rintro rfl
      exact absurd digit (by decide)
  | string content => exact ⟨_, _, rfl, rfl, by decide⟩
  | @array elements _ => cases elements <;> exact ⟨_, _, rfl, rfl, by decide⟩
  | @object fields _ _ => cases fields <;> exact ⟨_, _, rfl, rfl, by decide⟩

theorem Plain.skipBlanks_print {j : Json} (h : Plain j) (rest : List Char) :
    skipBlanks (print j ++ rest) = print j ++ rest := by
  obtain ⟨c, cs, hc, blank, -⟩ := h.exists_print_eq_cons
  rw [hc, List.cons_append, skipBlanks_cons blank]

/-- What it is to read a value back, whatever follows. -/
def Reads (j : Json) : Prop :=
  ∀ fuel rest, (print j).length ≤ fuel → EndsNumber rest →
    readValue? fuel (print j ++ rest) = some (j, rest)

theorem endsNumber_printElements (es : List Json) (rest : List Char) :
    EndsNumber (printElements es ++ rest) := by
  cases es <;> exact endsNumber_cons (by decide)

theorem endsNumber_printFields (fields : List (Option (List Char) × Json)) (rest : List Char) :
    EndsNumber (printFields fields ++ rest) := by
  cases fields with
  | nil => exact endsNumber_cons (by decide)
  | cons field fields => exact endsNumber_cons (by decide)

/-- Reading the elements of an array goes on behind a comma. -/
theorem readElements?_comma {fuel : Nat} {cs rest rest' : List Char} {e : Json}
    (done : List Json) (read : readValue? fuel cs = some (e, rest))
    (text : skipBlanks rest = ',' :: rest') :
    readElements? (fuel + 1) cs done = readElements? fuel (skipBlanks rest') (e :: done) := by
  simp only [readElements?, read, text]

/-- Reading the elements of an array ends behind a closing bracket. -/
theorem readElements?_bracket {fuel : Nat} {cs rest rest' : List Char} {e : Json}
    (done : List Json) (read : readValue? fuel cs = some (e, rest))
    (text : skipBlanks rest = ']' :: rest') :
    readElements? (fuel + 1) cs done = some (.array (e :: done).reverse, rest') := by
  simp only [readElements?, read, text]

/-- Elements that can be read back one by one can be read back together. -/
theorem readElements?_print {e : Json} {es : List Json} (he : Reads e)
    (hes : ∀ e ∈ es, Plain e ∧ Reads e) {fuel : Nat} (done : List Json) (rest : List Char)
    (enough : (print e).length + (printElements es).length ≤ fuel) :
    readElements? fuel (print e ++ (printElements es ++ rest)) done =
      some (.array (done.reverse ++ e :: es), rest) := by
  induction es generalizing e fuel done with
  | nil =>
    have text : skipBlanks (printElements [] ++ rest) = ']' :: rest := skipBlanks_cons rfl rest
    have length : (printElements []).length = 1 := rfl
    obtain ⟨fuel, rfl⟩ := Nat.exists_eq_add_one.2 (show 0 < fuel by omega)
    have read := he fuel _ (by omega) (endsNumber_printElements [] rest)
    rw [readElements?_bracket done read text, List.reverse_cons]
  | cons e' es ih =>
    obtain ⟨⟨plain', he'⟩, hes⟩ := List.forall_mem_cons.1 hes
    have text : skipBlanks (printElements (e' :: es) ++ rest) =
        ',' :: (print e' ++ (printElements es ++ rest)) := by
      rw [printElements, List.cons_append, skipBlanks_cons rfl, List.append_assoc]
    rw [printElements, List.length_cons, List.length_append] at enough
    obtain ⟨fuel, rfl⟩ := Nat.exists_eq_add_one.2 (show 0 < fuel by omega)
    have fits : (print e').length + (printElements es).length ≤ fuel := by omega
    have later := ih he' hes (e :: done) fits
    have read := he fuel _ (by omega) (endsNumber_printElements (e' :: es) rest)
    rw [readElements?_comma done read text, plain'.skipBlanks_print, later, List.reverse_cons,
      List.append_assoc]
    rfl

theorem skipBlanks_printString (name cs : List Char) :
    skipBlanks (printString (some name) ++ cs) = printString (some name) ++ cs :=
  skipBlanks_cons rfl _

/-- Reading the fields of an object goes on behind a comma. -/
theorem readFields?_comma {fuel : Nat} {cs rest rest' : List Char} {value : Json}
    (name : List Char) (done : List (Option (List Char) × Json))
    (read : readValue? fuel (skipBlanks cs) = some (value, rest))
    (text : skipBlanks rest = ',' :: rest') :
    readFields? (fuel + 1) (printString (some name) ++ ':' :: cs) done =
      readFields? fuel (skipBlanks rest') ((some name, value) :: done) := by
  have colon : skipBlanks (':' :: cs) = ':' :: cs := skipBlanks_cons rfl cs
  rw [printString_append]
  simp only [readFields?, readString?_flatMap_escaped, colon, read, text]

/-- Reading the fields of an object ends behind a closing brace. -/
theorem readFields?_brace {fuel : Nat} {cs rest rest' : List Char} {value : Json}
    (name : List Char) (done : List (Option (List Char) × Json))
    (read : readValue? fuel (skipBlanks cs) = some (value, rest))
    (text : skipBlanks rest = '\x7d' :: rest') :
    readFields? (fuel + 1) (printString (some name) ++ ':' :: cs) done =
      some (.object ((some name, value) :: done).reverse, rest') := by
  have colon : skipBlanks (':' :: cs) = ':' :: cs := skipBlanks_cons rfl cs
  rw [printString_append]
  simp only [readFields?, readString?_flatMap_escaped, colon, read, text]

/-- Fields that can be read back one by one can be read back together. -/
theorem readFields?_print (name : List Char) {value : Json}
    {fields : List (Option (List Char) × Json)} (plain : Plain value) (reads : Reads value)
    (names : ∀ field ∈ fields, field.1.isSome)
    (values : ∀ field ∈ fields, Plain field.2 ∧ Reads field.2) {fuel : Nat}
    (done : List (Option (List Char) × Json)) (rest : List Char)
    (enough : (print value).length + (printFields fields).length ≤ fuel) :
    readFields? fuel
        (printString (some name) ++ ':' :: (print value ++ (printFields fields ++ rest))) done =
      some (.object (done.reverse ++ (some name, value) :: fields), rest) := by
  induction fields generalizing name value fuel done with
  | nil =>
    have text : skipBlanks (printFields [] ++ rest) = '\x7d' :: rest := skipBlanks_cons rfl rest
    have length : (printFields []).length = 1 := rfl
    obtain ⟨fuel, rfl⟩ := Nat.exists_eq_add_one.2 (show 0 < fuel by omega)
    have read : readValue? fuel (skipBlanks (print value ++ (printFields [] ++ rest))) =
        some (value, printFields [] ++ rest) := by
      rw [plain.skipBlanks_print, reads fuel _ (by omega) (endsNumber_printFields [] rest)]
    rw [readFields?_brace name done read text, List.reverse_cons]
  | cons field fields ih =>
    obtain ⟨name', value'⟩ := field
    obtain ⟨named, laterNames⟩ := List.forall_mem_cons.1 names
    obtain ⟨⟨plain', reads'⟩, laterValues⟩ := List.forall_mem_cons.1 values
    obtain ⟨name', rfl⟩ := Option.isSome_iff_exists.1 named
    have length : (printFields ((some name', value') :: fields)).length =
        (printString (some name')).length + (print value').length +
          (printFields fields).length + 2 := by
      simp only [printFields, List.length_cons, List.length_append]
      omega
    have text : skipBlanks (printFields ((some name', value') :: fields) ++ rest) =
        ',' :: (printString (some name') ++
          ':' :: (print value' ++ (printFields fields ++ rest))) := by
      rw [printFields, List.cons_append, skipBlanks_cons rfl]
      simp only [List.append_assoc, List.cons_append]
    obtain ⟨fuel, rfl⟩ := Nat.exists_eq_add_one.2 (show 0 < fuel by omega)
    have fits : (print value').length + (printFields fields).length ≤ fuel := by omega
    have later := ih name' plain' reads' laterNames laterValues
      ((some name, value) :: done) fits
    have read : readValue? fuel (skipBlanks (print value ++
        (printFields ((some name', value') :: fields) ++ rest))) =
        some (value, printFields ((some name', value') :: fields) ++ rest) := by
      rw [plain.skipBlanks_print, reads fuel _ (by omega) (endsNumber_printFields _ rest)]
    rw [readFields?_comma name done read text, skipBlanks_printString, later, List.reverse_cons,
      List.append_assoc]
    rfl

/-- There is fuel for the first character of a value. -/
theorem Plain.reads_of_succ {j : Json} (h : Plain j)
    (step : ∀ fuel rest, (print j).length ≤ fuel + 1 → EndsNumber rest →
      readValue? (fuel + 1) (print j ++ rest) = some (j, rest)) : Reads j := by
  intro fuel rest enough ends
  obtain ⟨c, cs, hc, -⟩ := h.exists_print_eq_cons
  have pos : 0 < fuel := by
    rw [hc, List.length_cons] at enough
    omega
  obtain ⟨fuel, rfl⟩ := Nat.exists_eq_add_one.2 pos
  exact step fuel rest enough ends

theorem readValue?_toDigits (fuel n : Nat) {rest : List Char} (ends : EndsNumber rest) :
    readValue? (fuel + 1) (Nat.toDigits 10 n ++ rest) = some (.natural n, rest) := by
  have number := readNumber?_toDigits n ends
  obtain ⟨d, ds, hds, digit⟩ := exists_toDigits_eq_cons n
  rw [hds] at number ⊢
  unfold readValue?
  split
  case h_8 => exact number
  all_goals
    next heq =>
    cases heq
    try exact absurd digit (by decide)

theorem readValue?_bracket {c : Char} (blank : isBlank c = false) (other : c ≠ ']') (fuel : Nat)
    (cs : List Char) : readValue? (fuel + 1) ('[' :: c :: cs) = readElements? fuel (c :: cs) [] := by
  simp only [readValue?, skipBlanks_cons blank]
  split
  · next heq =>
    cases heq
    exact absurd rfl other
  · rfl

/-- An array is read back if its elements are. -/
theorem readValue?_array {e : Json} {es : List Json} (plain : ∀ x ∈ e :: es, Plain x)
    (reads : ∀ x ∈ e :: es, Reads x) {fuel : Nat} (rest : List Char)
    (enough : (print (.array (e :: es))).length ≤ fuel + 1) :
    readValue? (fuel + 1) (print (.array (e :: es)) ++ rest) = some (.array (e :: es), rest) := by
  obtain ⟨plain, later⟩ := List.forall_mem_cons.1 plain
  obtain ⟨reads, laterReads⟩ := List.forall_mem_cons.1 reads
  obtain ⟨c, cs, hc, blank, other⟩ := plain.exists_print_eq_cons
  have fits : (print e).length + (printElements es).length ≤ fuel := by
    rw [print, List.length_cons, List.length_append] at enough
    omega
  have read := readElements?_print reads (fun x hx => ⟨later x hx, laterReads x hx⟩) [] rest fits
  rw [hc] at read
  rw [print, List.cons_append, List.append_assoc, hc, List.cons_append,
    readValue?_bracket blank other]
  exact read

/-- An object is read back if the values of its fields are. -/
theorem readValue?_object {field : Option (List Char) × Json}
    {fields : List (Option (List Char) × Json)} (names : ∀ x ∈ field :: fields, x.1.isSome)
    (plain : ∀ x ∈ field :: fields, Plain x.2) (reads : ∀ x ∈ field :: fields, Reads x.2)
    {fuel : Nat} (rest : List Char)
    (enough : (print (.object (field :: fields))).length ≤ fuel + 1) :
    readValue? (fuel + 1) (print (.object (field :: fields)) ++ rest) =
      some (.object (field :: fields), rest) := by
  obtain ⟨name, value⟩ := field
  obtain ⟨named, laterNames⟩ := List.forall_mem_cons.1 names
  obtain ⟨plain, later⟩ := List.forall_mem_cons.1 plain
  obtain ⟨reads, laterReads⟩ := List.forall_mem_cons.1 reads
  obtain ⟨name, rfl⟩ := Option.isSome_iff_exists.1 named
  have fits : (print value).length + (printFields fields).length ≤ fuel := by
    simp only [print, List.length_cons, List.length_append] at enough
    omega
  have text : print (.object ((some name, value) :: fields)) ++ rest =
      '\x7b' :: (printString (some name) ++
        ':' :: (print value ++ (printFields fields ++ rest))) := by
    simp only [print, List.cons_append, List.append_assoc]
  rw [text]
  exact readFields?_print name plain reads laterNames
    (fun x hx => ⟨later x hx, laterReads x hx⟩) [] rest fits

/-- Reading undoes writing. -/
theorem Plain.reads {j : Json} (h : Plain j) : Reads j := by
  induction h with
  | null => exact Plain.null.reads_of_succ fun _ _ _ _ => rfl
  | bool value =>
    apply (Plain.bool value).reads_of_succ
    cases value with
    | false => exact fun _ _ _ _ => rfl
    | true => exact fun _ _ _ _ => rfl
  | natural value =>
    exact (Plain.natural value).reads_of_succ fun fuel _ _ ends => readValue?_toDigits fuel value ends
  | string content =>
    apply (Plain.string content).reads_of_succ
    intro fuel rest _ _
    show readValue? (fuel + 1) (printString (some content) ++ rest) = _
    rw [printString_append]
    simp only [readValue?, readString?_flatMap_escaped]
    rfl
  | @array elements plain ih =>
    apply (Plain.array plain).reads_of_succ
    intro fuel rest enough _
    cases elements with
    | nil => rfl
    | cons e es => exact readValue?_array plain ih rest enough
  | @object fields names values ih =>
    apply (Plain.object names values).reads_of_succ
    intro fuel rest enough _
    cases fields with
    | nil => rfl
    | cons field fields => exact readValue?_object names values ih rest enough

/-- The text of a plain value is read as that value. -/
theorem parse?_print {j : Json} (h : Plain j) : parse? (print j) = some j := by
  have unblank := h.skipBlanks_print []
  have read := h.reads ((print j).length + 1) [] (Nat.le_succ _) endsNumber_nil
  rw [List.append_nil] at unblank read
  rw [parse?, unblank, read]
  rfl

end XoChip.Json
