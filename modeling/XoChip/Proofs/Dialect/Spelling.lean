import Mathlib.Logic.Relation
import XoChip.Proofs.Dialect.Grammar

/-!
# Spellings of a dialect

Which fields a text has, and what of it does not count: neither empty fields nor white space around
fields, names and values, nor the order of fields with different names. So a dialect is read back
from its own text in every spelling.
-/

namespace XoChip.Dialect

/-- The fields of a text: what stands between its commas, without white space around it, where
    there is more than white space. -/
def fields (s : String) : List (List Char) :=
  ((s.toList.splitOn ',').map Text.trim).filter (· ≠ [])

variable {d e : Dialect} {t : Toggle} {on : Bool} {as bs name value field : List Char}
  {fs gs : List (List Char)}

/-! ## Fields of a text -/

theorem entries_eq (cs : List Char) :
    entries cs = ((cs.splitOn ',').map Text.trim).filter (· ≠ []) := by
  rw [entries, Text.splitAt_eq_splitOn]
  refine List.filter_congr fun field _ => ?_
  cases field <;> simp

theorem parse_eq (s : String) : parse s = readEntries {} (fields s) := by
  rw [parse, entries_eq, fields]

/-- A comma ends one field and begins another. -/
theorem entries_append_cons (as bs : List Char) :
    entries (as ++ ',' :: bs) = entries as ++ entries bs := by
  rw [entries_eq, entries_eq, entries_eq, List.splitOn_append_cons_self, List.map_append,
    List.filter_append]

theorem entries_of_not_mem (comma : ',' ∉ field) :
    entries field = if Text.trim field = [] then [] else [Text.trim field] := by
  rw [entries_eq, List.splitOn_eq_singleton comma, List.map_singleton]
  by_cases none : Text.trim field = []
  · rw [if_pos none, none]
    rfl
  · rw [if_neg none]
    exact List.filter_cons_of_pos (decide_eq_true none)

theorem entries_nil : entries [] = [] := rfl

theorem entries_intercalate (pieces : List (List Char)) :
    entries ([','].intercalate pieces) = pieces.flatMap entries := by
  induction pieces with
  | nil => rfl
  | cons piece pieces ih =>
    rw [List.flatMap_cons, ← ih]
    cases pieces with
    | nil => rw [List.intercalate_singleton, List.intercalate_nil, entries_nil, List.append_nil]
    | cons next pieces =>
      rw [List.intercalate_cons_cons, List.append_assoc, List.singleton_append,
        entries_append_cons]

/-- The fields of a text that is put together with commas are those of its pieces. -/
theorem fields_intercalate (pieces : List String) :
    fields (",".intercalate pieces) = pieces.flatMap fun piece => entries piece.toList := by
  have separator : ",".toList = [','] := rfl
  rw [fields, ← entries_eq, String.toList_intercalate, separator, entries_intercalate,
    List.flatMap_map]

/-! ## Results that agree -/

/-- Two results are the same dialect, or neither is a dialect. -/
def Agree (r r' : Except Error Dialect) : Prop := ∀ d, r = .ok d ↔ r' = .ok d

/-- Two results are the same, up to the text of a malformed field. -/
inductive Alike : Except Error Dialect → Except Error Dialect → Prop
  | same (r : Except Error Dialect) : Alike r r
  | malformed (text text' : String) :
    Alike (.error (.malformedEntry text)) (.error (.malformedEntry text'))

variable {r r' : Except Error Dialect} {k k' : Dialect → Except Error Dialect}

theorem Alike.equivalence : Equivalence Alike where
  refl := .same
  symm := by
    rintro r r' (_ | ⟨text, text'⟩)
    · exact .same r
    · exact .malformed text' text
  trans := by
    rintro r r' r'' (_ | ⟨text, text'⟩) h
    · exact h
    · cases h with
      | same => exact .malformed text text'
      | malformed _ text'' => exact .malformed text text''

theorem Agree.equivalence : Equivalence Agree where
  refl _ _ := Iff.rfl
  symm h d := (h d).symm
  trans h h' d := (h d).trans (h' d)

theorem Alike.agree (h : Alike r r') : Agree r r' := by
  intro d
  cases h with
  | same => rfl
  | malformed => exact iff_of_false nofun nofun

theorem Alike.bind (h : Alike r r') (hk : ∀ d, Alike (k d) (k' d)) :
    Alike (r.bind k) (r'.bind k') := by
  cases h with
  | same =>
    cases r with
    | error error => exact .same _
    | ok d => exact hk d
  | malformed text text' => exact .malformed text text'

theorem Agree.bind (h : Agree r r') (hk : ∀ d, Agree (k d) (k' d)) :
    Agree (r.bind k) (r'.bind k') := by
  cases r with
  | ok d =>
    rw [(h d).1 rfl]
    exact hk d
  | error error =>
    cases r' with
    | ok d => exact absurd ((h d).2 rfl) nofun
    | error error' => exact fun d => iff_of_false nofun nofun

theorem readEntries_append (d : Dialect) (fs gs : List (List Char)) :
    readEntries d (fs ++ gs) = (readEntries d fs).bind fun mid => readEntries mid gs := by
  induction fs generalizing d with
  | nil => rfl
  | cons field fs ih =>
    rw [List.cons_append, readEntries, readEntries]
    cases readEntry field with
    | error error => rfl
    | ok pair => exact ih _

/-- Fields around fields with results that are alike do not tell these apart. -/
theorem alike_append (h : ∀ d, Alike (readEntries d fs) (readEntries d gs))
    (front back : List (List Char)) (d : Dialect) :
    Alike (readEntries d (front ++ fs ++ back)) (readEntries d (front ++ gs ++ back)) := by
  simp only [readEntries_append]
  exact ((Alike.same _).bind h).bind fun _ => .same _

theorem agree_append (h : ∀ d, Agree (readEntries d fs) (readEntries d gs))
    (front back : List (List Char)) (d : Dialect) :
    Agree (readEntries d (front ++ fs ++ back)) (readEntries d (front ++ gs ++ back)) := by
  simp only [readEntries_append]
  exact ((Agree.equivalence.refl _).bind h).bind fun _ => Agree.equivalence.refl _

/-! ## The order of fields -/

/-- No two fields are for one toggle. -/
def Apart (fs : List (List Char)) : Prop :=
  fs.Pairwise fun f g => ∀ t a b, Sets f t a → ¬ Sets g t b

theorem Apart.lastSet_iff (apart : Apart fs) : LastSet fs t on ↔ ∃ field ∈ fs, Sets field t on := by
  constructor
  · rintro ⟨front, field, back, rfl, sets, -⟩
    exact ⟨field, List.mem_append_right _ (List.mem_cons_self ..), sets⟩
  · rintro ⟨field, mem, sets⟩
    obtain ⟨front, back, rfl⟩ := List.append_of_mem mem
    refine ⟨front, field, back, rfl, sets, fun later mem b => ?_⟩
    exact (List.pairwise_cons.1 (List.pairwise_append.1 apart).2.1).1 later mem t on b sets

theorem Apart.perm (apart : Apart fs) (perm : fs.Perm gs) : Apart gs :=
  List.Perm.pairwise perm apart fun h t a b set set' => h t b a set' set

/-- The order of fields for different toggles does not count. -/
theorem Apart.agree (apart : Apart fs) (perm : fs.Perm gs) (d : Dialect) :
    Agree (readEntries d fs) (readEntries d gs) := by
  -- Where fields are apart, the last one for a toggle is any one for it, and a permutation keeps
  -- what is in a list: no induction on the permutation is needed.
  intro e
  rw [readEntries_eq_ok_iff, readEntries_eq_ok_iff]
  simp only [Leaves, apart.lastSet_iff, (apart.perm perm).lastSet_iff, NeverSet, perm.mem_iff]

/-! ## White space in a field -/

theorem sets_trim_iff : Sets (Text.trim field) t on ↔ Sets field t on := by
  rcases exists_colon_cases field with none | ⟨name, value, rfl, colon⟩
  · have none' : ':' ∉ Text.trim field := mt Text.mem_of_mem_trim none
    rw [iff_false_intro (not_sets_of_not_mem none), iff_false_intro (not_sets_of_not_mem none')]
  · have colon' := mt (List.dropWhile_sublist Text.isBlank).mem colon
    rw [Text.trim_append_cons (by decide), Sets, Sets, exists_colon_iff colon',
      exists_colon_iff colon, Text.trim_dropWhile, Text.trim_rdropWhile]

/-- Of a field only the trimmed name and the trimmed value count, unless it is malformed. -/
theorem alike_of_trim_eq {name' value' : List Char} (colon : ':' ∉ name) (colon' : ':' ∉ name')
    (name_eq : Text.trim name = Text.trim name') (value_eq : Text.trim value = Text.trim value')
    (d : Dialect) :
    Alike (readEntries d [name ++ ':' :: value]) (readEntries d [name' ++ ':' :: value']) := by
  rw [readEntries, readEntries, readEntry_of_colon colon, readEntry_of_colon colon', name_eq,
    value_eq]
  cases truth? (Text.trim value') with
  | none => exact .malformed _ _
  | some on => exact .same _

/-- What stands in front of the first colon, without white space around it. -/
def nameOf (field : List Char) : List Char := Text.trim (field.takeWhile (· ≠ ':'))

theorem Sets.nameOf_eq (h : Sets field t on) : nameOf field = t.name.toList := by
  obtain ⟨name, value, rfl, colon, known, -⟩ := h
  have front : ∀ c ∈ name, decide (c ≠ ':') = true := by
    intro c mem
    rw [decide_eq_true_eq]
    rintro rfl
    exact colon mem
  rw [nameOf, List.takeWhile_append_of_pos front, List.takeWhile_cons_of_neg (by decide),
    List.append_nil, known]

/-! ## Spellings -/

/-- An empty field is put into a text, and so one more comma, or white space around a field. Texts
    are given by pieces which commas join together. -/
inductive Padding : List String → List String → Prop
  | comma (front back : List String) {blank : String} (h : Text.Blank blank.toList) :
    Padding (front ++ back) (front ++ blank :: back)
  | around (front back : List String) {before field after : String}
    (before_blank : Text.Blank before.toList) (after_blank : Text.Blank after.toList)
    (comma : ',' ∉ field.toList) :
    Padding (front ++ field :: back) (front ++ (before ++ field ++ after) :: back)

/-- White space is put anywhere in a text where it does not count: also around the first colon of a
    field, that is behind its name and in front of its value. -/
inductive Spacing : List String → List String → Prop
  | padding {ps qs : List String} (h : Padding ps qs) : Spacing ps qs
  | colon (front back : List String) {name before after value : String}
    (before_blank : Text.Blank before.toList) (after_blank : Text.Blank after.toList)
    (colon : ':' ∉ name.toList) (name_comma : ',' ∉ name.toList)
    (value_comma : ',' ∉ value.toList) :
    Spacing (front ++ (name ++ ":" ++ value) :: back)
      (front ++ (name ++ before ++ ":" ++ (after ++ value)) :: back)

/-- White space is put into a text, or a run of fields with different names gets another order. -/
inductive Respelling : List String → List String → Prop
  | spacing {ps qs : List String} (h : Spacing ps qs) : Respelling ps qs
  | order (front back : List String) {run run' : List String} (perm : run.Perm run')
    (comma : ∀ field ∈ run, ',' ∉ field.toList)
    (different : (run.map fun field => nameOf field.toList).Nodup) :
    Respelling (front ++ run ++ back) (front ++ run' ++ back)

/-- The fields of pieces that commas join together. -/
def pieceFields (pieces : List String) : List (List Char) :=
  pieces.flatMap fun piece => entries piece.toList

theorem pieceFields_append (ps qs : List String) :
    pieceFields (ps ++ qs) = pieceFields ps ++ pieceFields qs := List.flatMap_append

theorem pieceFields_cons (p : String) (ps : List String) :
    pieceFields (p :: ps) = entries p.toList ++ pieceFields ps := List.flatMap_cons

variable {ps qs : List String}

theorem mem_entries (comma : ',' ∉ as) (mem : field ∈ entries as) : field = Text.trim as := by
  rw [entries_of_not_mem comma] at mem
  split at mem
  · cases mem
  · exact List.mem_singleton.1 mem

theorem Padding.pieceFields_eq (h : Padding ps qs) : pieceFields ps = pieceFields qs := by
  cases h with
  | comma front back blank =>
    rw [pieceFields_append, pieceFields_append, pieceFields_cons,
      entries_of_not_mem (Text.not_mem_of_blank (by decide) blank), Text.trim_of_blank blank,
      if_pos rfl, List.nil_append]
  | around front back before_blank after_blank comma =>
    have before_comma := Text.not_mem_of_blank (c := ',') (by decide) before_blank
    have after_comma := Text.not_mem_of_blank (c := ',') (by decide) after_blank
    rw [pieceFields_append, pieceFields_append, pieceFields_cons, pieceFields_cons,
      String.toList_append, String.toList_append, entries_of_not_mem comma,
      entries_of_not_mem (List.not_mem_append (List.not_mem_append before_comma comma) after_comma),
      Text.trim_append_of_blank_right after_blank, Text.trim_append_of_blank_left before_blank]

theorem apart_pieceFields {run : List String} (comma : ∀ field ∈ run, ',' ∉ field.toList)
    (different : (run.map fun field => nameOf field.toList).Nodup) : Apart (pieceFields run) := by
  refine List.pairwise_flatMap.2 ⟨fun piece mem => ?_, ?_⟩
  · rw [entries_of_not_mem (comma piece mem)]
    split
    · exact .nil
    · exact List.pairwise_singleton _ _
  · refine (List.pairwise_map.1 different).imp_of_mem ?_
    intro p q mem_p mem_q ne f mem_f g mem_g t a b sets sets'
    rw [mem_entries (comma p mem_p) mem_f, sets_trim_iff] at sets
    rw [mem_entries (comma q mem_q) mem_g, sets_trim_iff] at sets'
    exact ne (sets.nameOf_eq.trans sets'.nameOf_eq.symm)

theorem entries_colon (name_comma : ',' ∉ name) (value_comma : ',' ∉ value) :
    entries (name ++ ':' :: value) =
      [name.dropWhile Text.isBlank ++ ':' :: value.rdropWhile Text.isBlank] := by
  have comma : ',' ∉ name ++ ':' :: value :=
    List.not_mem_append name_comma (List.not_mem_cons_of_ne_of_not_mem (by decide) value_comma)
  rw [entries_of_not_mem comma, Text.trim_append_cons (by decide),
    if_neg (List.append_ne_nil_of_right_ne_nil _ (List.cons_ne_nil _ _))]

theorem alike_spaced (has : Text.Blank as) (hbs : Text.Blank bs) (colon : ':' ∉ name)
    (name_comma : ',' ∉ name) (value_comma : ',' ∉ value) (d : Dialect) :
    Alike (readEntries d (entries (name ++ ':' :: value)))
      (readEntries d (entries (name ++ as ++ ':' :: (bs ++ value)))) := by
  have spaced_colon := List.not_mem_append colon (Text.not_mem_of_blank (by decide) has)
  rw [entries_colon name_comma value_comma,
    entries_colon (List.not_mem_append name_comma (Text.not_mem_of_blank (by decide) has))
      (List.not_mem_append (Text.not_mem_of_blank (by decide) hbs) value_comma)]
  apply alike_of_trim_eq (mt (List.dropWhile_sublist _).mem colon)
    (mt (List.dropWhile_sublist _).mem spaced_colon)
  · rw [Text.trim_dropWhile, Text.trim_dropWhile, Text.trim_append_of_blank_right has]
  · rw [Text.trim_rdropWhile, Text.trim_rdropWhile, Text.trim_append_of_blank_left hbs]

theorem Spacing.alike (h : Spacing ps qs) (d : Dialect) :
    Alike (readEntries d (pieceFields ps)) (readEntries d (pieceFields qs)) := by
  cases h with
  | padding h =>
    rw [h.pieceFields_eq]
    exact .same _
  | colon front back before_blank after_blank colon name_comma value_comma =>
    have spaced := alike_spaced before_blank after_blank colon name_comma value_comma
    simp only [pieceFields_append, pieceFields_cons, ← List.append_assoc, String.toList_append]
    exact alike_append (by simpa using spaced) _ _ d

theorem Respelling.agree (h : Respelling ps qs) (d : Dialect) :
    Agree (readEntries d (pieceFields ps)) (readEntries d (pieceFields qs)) := by
  cases h with
  | spacing h => exact (h.alike d).agree
  | order front back perm comma different =>
    simp only [pieceFields_append]
    exact agree_append ((apart_pieceFields comma different).agree (perm.flatMap_right _)) _ _ d

theorem parse_intercalate (pieces : List String) :
    parse (",".intercalate pieces) = readEntries {} (pieceFields pieces) := by
  rw [parse_eq, fields_intercalate, pieceFields]

/-- What one change of a text keeps, any number of changes keep. -/
theorem parse_of_eqvGen {change : List String → List String → Prop}
    {same : Except Error Dialect → Except Error Dialect → Prop} (equivalence : Equivalence same)
    (step : ∀ ps qs, change ps qs →
      same (readEntries {} (pieceFields ps)) (readEntries {} (pieceFields qs)))
    (h : Relation.EqvGen change ps qs) :
    same (parse (",".intercalate ps)) (parse (",".intercalate qs)) := by
  rw [parse_intercalate, parse_intercalate]
  induction h with
  | rel ps qs h => exact step ps qs h
  | refl ps => exact equivalence.refl _
  | symm ps qs _ ih => exact equivalence.symm ih
  | trans ps qs rs _ _ ih ih' => exact equivalence.trans ih ih'

theorem agree_of_respelling (h : Relation.EqvGen Respelling ps qs) :
    Agree (parse (",".intercalate ps)) (parse (",".intercalate qs)) :=
  parse_of_eqvGen Agree.equivalence (fun _ _ h => h.agree {}) h

/-! ## The text of a dialect -/

/-- The fields of a dialect's own text. -/
def pieces (d : Dialect) : List String :=
  Toggle.all.map fun t => t.name ++ ":" ++ toString (d.get t)

theorem sets_piece (t : Toggle) (on : Bool) :
    Sets (t.name ++ ":" ++ toString on).toList t on := by
  refine ⟨t.name.toList, (toString on).toList, ?_, ?_, ?_, ?_⟩
  · simp
  · cases t <;> decide
  · cases t <;> decide
  · cases on <;> decide

theorem entries_piece (t : Toggle) (on : Bool) :
    entries (t.name ++ ":" ++ toString on).toList = [(t.name ++ ":" ++ toString on).toList] := by
  cases t <;> cases on <;> decide

theorem pieceFields_pieces (d : Dialect) :
    pieceFields d.pieces =
      Toggle.all.map fun t => (t.name ++ ":" ++ toString (d.get t)).toList := by
  rw [pieceFields, pieces, List.flatMap_map, List.map_eq_flatMap]
  simp only [entries_piece]

theorem apart_pieceFields_pieces (d : Dialect) : Apart (pieceFields d.pieces) := by
  have nodup : Toggle.all.Nodup := by decide
  rw [pieceFields_pieces, Apart, List.pairwise_map]
  refine nodup.imp ?_
  intro t u ne v a b sets sets'
  exact ne (((sets_piece t _).unique sets).1.trans ((sets_piece u _).unique sets').1.symm)

/-- A dialect is read back from its text. -/
theorem parse_text (d : Dialect) : parse d.text = .ok d := by
  have joined : d.text = ",".intercalate d.pieces := rfl
  rw [joined, parse_intercalate, readEntries_eq_ok_iff]
  constructor
  · rw [pieceFields_pieces, List.forall_mem_map]
    exact fun t _ => ⟨t, d.get t, sets_piece t _⟩
  · intro t
    refine .inl (d.apart_pieceFields_pieces.lastSet_iff.2 ⟨_, ?_, sets_piece t (d.get t)⟩)
    rw [pieceFields_pieces]
    exact List.mem_map_of_mem t.mem_all

/-- A text is a dialect if each of its fields names a toggle and a truth value, of which the last
    for a toggle counts; otherwise the first other field is complained of. Empty fields and white
    space around fields do not count at all, white space around a colon shows only in the text of a
    malformed field, and the order of fields for different names decides at most which of several
    bad ones is complained of. So a dialect is read back from every spelling of its text. -/
theorem parse_exact :
    (∀ s, (∃ d, parse s = .ok d) ↔ ∀ field ∈ fields s, ∃ t on, Sets field t on) ∧
    (∀ s d, parse s = .ok d →
      ∀ t, LastSet (fields s) t (d.get t) ∨ NeverSet (fields s) t ∧ d.get t = false) ∧
    (∀ s error, parse s = .error error ↔ ∃ front field back,
      fields s = front ++ field :: back ∧ (∀ earlier ∈ front, ∃ t on, Sets earlier t on) ∧
        Complaint field error) ∧
    (∀ ps qs, Relation.EqvGen Padding ps qs →
      parse (",".intercalate ps) = parse (",".intercalate qs)) ∧
    (∀ ps qs, Relation.EqvGen Spacing ps qs →
      Alike (parse (",".intercalate ps)) (parse (",".intercalate qs))) ∧
    (∀ ps qs, Relation.EqvGen Respelling ps qs →
      Agree (parse (",".intercalate ps)) (parse (",".intercalate qs))) ∧
    ∀ d ps qs, text d = ",".intercalate ps → Relation.EqvGen Respelling ps qs →
      parse (",".intercalate qs) = .ok d := by
  refine ⟨fun s => ?_, fun s d read => ?_, fun s error => ?_, ?_, ?_, ?_, ?_⟩
  · rw [parse_eq, exists_readEntries_eq_ok_iff]
  · rw [parse_eq, readEntries_eq_ok_iff] at read
    have off : ∀ t, get {} t = false := by
      intro t
      cases t <;> rfl
    simpa only [Leaves, off] using read.2
  · rw [parse_eq, readEntries_eq_error_iff]
  · intro ps qs
    exact parse_of_eqvGen eq_equivalence fun ps qs h => by rw [h.pieceFields_eq]
  · intro ps qs
    exact parse_of_eqvGen Alike.equivalence fun ps qs h => h.alike {}
  · intro ps qs
    exact agree_of_respelling
  · intro d ps qs joined respelled
    rw [← agree_of_respelling respelled, ← joined, parse_text]

/-- All fields in reverse order. -/
theorem parse_exact_reverse :
    Relation.EqvGen Respelling (pieces { vsyncDraw := true })
        (pieces { vsyncDraw := true }).reverse ∧
      parse (",".intercalate (pieces { vsyncDraw := true }).reverse) =
        .ok { vsyncDraw := true } := by
  have reversed := Respelling.order [] [] (List.reverse_perm (pieces { vsyncDraw := true })).symm
    (by decide) (by decide)
  rw [List.nil_append, List.nil_append, List.append_nil, List.append_nil] at reversed
  exact ⟨.rel _ _ reversed, parse_exact.2.2.2.2.2.2 _ _ _ rfl (.rel _ _ reversed)⟩

/-- The value is looked at before the name, and the first field before the second. -/
example : parse "Moon:maybe,Moon:true" = .error (.malformedEntry "Moon:maybe") := by decide

end XoChip.Dialect
