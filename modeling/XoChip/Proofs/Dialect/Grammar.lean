import XoChip.Dialect.Text
import XoChip.Proofs.Text.Separator
import XoChip.Proofs.Text.Trim

/-!
# The text of a dialect

Fields of a text are read as a dialect if each of them names a toggle and a truth value; of two
fields for one toggle the later counts. Otherwise the first field that does not is the one that is
complained of.
-/

namespace XoChip

/-! ## Toggles and their names -/

theorem Toggle.ofName?_eq_some_iff {s : String} {t : Toggle} :
    Toggle.ofName? s = some t ↔ t.name = s := by
  constructor
  · intro found
    exact beq_iff_eq.1 (List.find?_some (p := fun t : Toggle => t.name == s) found)
  · rintro rfl
    cases t <;> decide

theorem Toggle.ofName?_eq_none_iff {s : String} :
    Toggle.ofName? s = none ↔ ∀ t : Toggle, t.name ≠ s := by
  rw [ofName?, List.find?_eq_none]
  simp only [beq_iff_eq]
  exact ⟨fun h t => h t t.mem_all, fun h t _ => h t⟩

namespace Dialect

/-! ## Fields -/

/-- A field names a toggle and its value. -/
def Sets (field : List Char) (t : Toggle) (on : Bool) : Prop :=
  ∃ name value, field = name ++ ':' :: value ∧ ':' ∉ name ∧
    Text.trim name = t.name.toList ∧ Text.trim value = (toString on).toList

/-- A field has no colon, or what is behind the first one is no truth value. -/
def Malformed (field : List Char) : Prop :=
  ':' ∉ field ∨ ∃ name value, field = name ++ ':' :: value ∧ ':' ∉ name ∧
    ∀ on : Bool, Text.trim value ≠ (toString on).toList

/-- A field gives a truth value to something that is no toggle. -/
def SetsUnknown (field name : List Char) : Prop :=
  ∃ front value, field = front ++ ':' :: value ∧ ':' ∉ front ∧ Text.trim front = name ∧
    (∃ on : Bool, Text.trim value = (toString on).toList) ∧ ∀ t : Toggle, t.name.toList ≠ name

/-- What a field is complained of for. -/
def Complaint (field : List Char) : Error → Prop
  | .malformedEntry text => Malformed field ∧ text.toList = field
  | .unknownToggle name => SetsUnknown field name.toList
  | _ => False

theorem truth?_eq_some_iff {cs : List Char} {on : Bool} :
    truth? cs = some on ↔ cs = (toString on).toList := by
  unfold truth?
  split
  · next h =>
    subst h
    cases on <;> decide
  · next h =>
    split
    · next h' =>
      subst h'
      cases on <;> decide
    · next h' =>
      cases on
      · exact iff_of_false nofun h'
      · exact iff_of_false nofun h

theorem truth?_eq_none_iff {cs : List Char} :
    truth? cs = none ↔ ∀ on : Bool, cs ≠ (toString on).toList := by
  rw [Option.eq_none_iff_forall_ne_some]
  simp only [ne_eq, truth?_eq_some_iff]

variable {field name value : List Char} {t u : Toggle} {on b : Bool}

/-- Only the first colon of a field counts. -/
theorem exists_colon_iff {P : List Char → List Char → Prop} (colon : ':' ∉ name) :
    (∃ front back, name ++ ':' :: value = front ++ ':' :: back ∧ ':' ∉ front ∧ P front back) ↔
      P name value := by
  constructor
  · rintro ⟨front, back, split, colon', holds⟩
    obtain ⟨rfl, rfl⟩ := Text.append_cons_inj colon colon' split
    exact holds
  · intro holds
    exact ⟨name, value, rfl, colon, holds⟩

theorem exists_colon_cases (field : List Char) :
    ':' ∉ field ∨ ∃ name value, field = name ++ ':' :: value ∧ ':' ∉ name := by
  by_cases colon : ':' ∈ field
  · obtain ⟨name, value, split, first⟩ := List.eq_append_cons_of_mem colon
    exact .inr ⟨name, value, split, first⟩
  · exact .inl colon

theorem not_sets_of_not_mem (colon : ':' ∉ field) : ¬ Sets field t on := by
  rintro ⟨name, value, rfl, -⟩
  exact colon (List.mem_append_right _ (List.mem_cons_self ..))

theorem readEntry_of_not_mem (colon : ':' ∉ field) :
    readEntry field = .error (.malformedEntry (String.ofList field)) := by
  rw [readEntry, Text.splitOnce_eq_none_iff.2 colon]

/-- A field is read by what is in front of its first colon and behind it. -/
theorem readEntry_of_colon (colon : ':' ∉ name) :
    readEntry (name ++ ':' :: value) =
      match truth? (Text.trim value) with
      | none => .error (.malformedEntry (String.ofList (name ++ ':' :: value)))
      | some on =>
        match Toggle.ofName? (String.ofList (Text.trim name)) with
        | none => .error (.unknownToggle (String.ofList (Text.trim name)))
        | some t => .ok (t, on) := by
  have cut : Text.splitOnce ':' (name ++ ':' :: value) = some (name, value) :=
    Text.splitOnce_eq_some_iff.2 ⟨rfl, colon⟩
  unfold readEntry
  split
  · next none =>
    rw [cut] at none
    cases none
  · next found =>
    rw [cut] at found
    cases found
    rfl

theorem eq_ofList_iff {s : String} {cs : List Char} : s = String.ofList cs ↔ s.toList = cs := by
  rw [← String.toList_inj, String.toList_ofList]

theorem malformed_iff (colon : ':' ∉ name) :
    Malformed (name ++ ':' :: value) ↔ truth? (Text.trim value) = none := by
  have mem : ':' ∈ name ++ ':' :: value := List.mem_append_right _ (List.mem_cons_self ..)
  rw [Malformed, exists_colon_iff colon, truth?_eq_none_iff, or_iff_right (not_not_intro mem)]

theorem setsUnknown_iff {n : List Char} (colon : ':' ∉ name) :
    SetsUnknown (name ++ ':' :: value) n ↔
      Text.trim name = n ∧ (∃ on, truth? (Text.trim value) = some on) ∧
        Toggle.ofName? (String.ofList n) = none := by
  rw [SetsUnknown, exists_colon_iff colon, Toggle.ofName?_eq_none_iff]
  simp only [truth?_eq_some_iff, ne_eq, eq_ofList_iff]

theorem sets_iff (colon : ':' ∉ name) :
    Sets (name ++ ':' :: value) t on ↔
      Toggle.ofName? (String.ofList (Text.trim name)) = some t ∧
        truth? (Text.trim value) = some on := by
  rw [Sets, exists_colon_iff colon, Toggle.ofName?_eq_some_iff, truth?_eq_some_iff, eq_ofList_iff,
    eq_comm (a := Text.trim name)]

theorem readEntry_eq_ok_iff : readEntry field = .ok (t, on) ↔ Sets field t on := by
  rcases exists_colon_cases field with none | ⟨name, value, rfl, colon⟩
  · rw [readEntry_of_not_mem none]
    exact iff_of_false nofun (not_sets_of_not_mem none)
  · rw [readEntry_of_colon colon, sets_iff colon]
    cases truth? (Text.trim value) with
    | none => simp
    | some b => cases Toggle.ofName? (String.ofList (Text.trim name)) <;> simp

theorem Malformed.not_setsUnknown (h : Malformed field) : ¬ SetsUnknown field name := by
  rintro ⟨front, value, rfl, colon, -, ⟨on, truth⟩, -⟩
  rw [malformed_iff colon, truth?_eq_none_iff] at h
  exact h on truth

theorem Sets.not_complaint {e : Error} (h : Sets field t on) : ¬ Complaint field e := by
  obtain ⟨front, value, rfl, colon, known, truth⟩ := h
  cases e with
  | malformedEntry text =>
    rintro ⟨malformed, -⟩
    rw [malformed_iff colon, truth?_eq_none_iff] at malformed
    exact malformed on truth
  | unknownToggle name =>
    intro unknown
    rw [Complaint, setsUnknown_iff colon, Toggle.ofName?_eq_none_iff] at unknown
    exact unknown.2.2 t (eq_ofList_iff.2 (known.symm.trans unknown.1))
  | _ => exact id

theorem complaint_iff_of_malformed {e : Error} (h : Malformed field) :
    Complaint field e ↔ .malformedEntry (String.ofList field) = e := by
  cases e with
  | malformedEntry text =>
    rw [Complaint, Error.malformedEntry.injEq, eq_comm, eq_comm (a := String.ofList field),
      eq_ofList_iff]
    exact ⟨fun complaint => complaint.2.symm, fun same => ⟨h, same.symm⟩⟩
  | unknownToggle name => exact iff_of_false h.not_setsUnknown nofun
  | _ => exact iff_of_false id nofun

theorem complaint_iff_of_setsUnknown {e : Error} (h : SetsUnknown field name) :
    Complaint field e ↔ .unknownToggle (String.ofList name) = e := by
  cases e with
  | malformedEntry text => exact iff_of_false (fun complaint => complaint.1.not_setsUnknown h) nofun
  | unknownToggle text =>
    rw [Complaint, Error.unknownToggle.injEq, eq_comm (a := String.ofList name), eq_ofList_iff]
    constructor
    · intro h'
      obtain ⟨front, value, rfl, colon, rfl, -⟩ := h
      exact ((setsUnknown_iff colon).1 h').1.symm
    · rintro rfl
      exact h
  | _ => exact iff_of_false id nofun

theorem readEntry_eq_error_iff {e : Error} : readEntry field = .error e ↔ Complaint field e := by
  rcases exists_colon_cases field with none | ⟨name, value, rfl, colon⟩
  · rw [readEntry_of_not_mem none, Except.error.injEq, complaint_iff_of_malformed (.inl none)]
  · rw [readEntry_of_colon colon]
    cases truth : truth? (Text.trim value) with
    | none =>
      rw [complaint_iff_of_malformed ((malformed_iff colon).2 truth), Except.error.injEq]
    | some on =>
      cases known : Toggle.ofName? (String.ofList (Text.trim name)) with
      | none =>
        rw [complaint_iff_of_setsUnknown ((setsUnknown_iff colon).2 ⟨rfl, ⟨on, truth⟩, known⟩),
          Except.error.injEq]
      | some t => exact iff_of_false nofun ((sets_iff colon).2 ⟨known, truth⟩).not_complaint

theorem Sets.unique (h : Sets field t on) (h' : Sets field u b) : t = u ∧ on = b := by
  rw [← readEntry_eq_ok_iff] at h h'
  rw [h, Except.ok.injEq, Prod.mk.injEq] at h'
  exact h'

/-! ## Lists of fields -/

/-- A value is that in the last field for a toggle. -/
def LastSet (fields : List (List Char)) (t : Toggle) (on : Bool) : Prop :=
  ∃ front field back, fields = front ++ field :: back ∧ Sets field t on ∧
    ∀ later ∈ back, ∀ b, ¬ Sets later t b

/-- There is no field for a toggle. -/
def NeverSet (fields : List (List Char)) (t : Toggle) : Prop :=
  ∀ field ∈ fields, ∀ b, ¬ Sets field t b

/-- What a toggle is after some fields, if these are for toggles. -/
def Leaves (d : Dialect) (fields : List (List Char)) (t : Toggle) (on : Bool) : Prop :=
  LastSet fields t on ∨ NeverSet fields t ∧ on = d.get t

variable {d e : Dialect} {fields : List (List Char)}

theorem lastSet_cons :
    LastSet (field :: fields) t on ↔ LastSet fields t on ∨ Sets field t on ∧ NeverSet fields t := by
  constructor
  · rintro ⟨front, last, back, split, sets, later⟩
    cases front with
    | nil =>
      cases split
      exact .inr ⟨sets, later⟩
    | cons first front =>
      cases split
      exact .inl ⟨front, last, back, rfl, sets, later⟩
  · rintro (⟨front, last, back, rfl, sets, later⟩ | ⟨sets, later⟩)
    · exact ⟨field :: front, last, back, rfl, sets, later⟩
    · exact ⟨[], field, fields, rfl, sets, later⟩

theorem neverSet_cons :
    NeverSet (field :: fields) t ↔ (∀ b, ¬ Sets field t b) ∧ NeverSet fields t :=
  List.forall_mem_cons

/-- A field counts unless there is a later one for its toggle. -/
theorem leaves_cons_iff (h : Sets field u b) :
    Leaves d (field :: fields) t on ↔ Leaves (d.set u b) fields t on := by
  rw [Leaves, Leaves, lastSet_cons, neverSet_cons, get_set]
  by_cases same : u = t
  · -- The field sets the value of this very toggle, which any later one for it hides.
    subst same
    have sets_iff : Sets field u on ↔ on = b :=
      ⟨fun sets => (h.unique sets).2.symm, fun same => same ▸ h⟩
    have set : ¬ ∀ b, ¬ Sets field u b := fun never => never b h
    rw [if_pos rfl, sets_iff]
    tauto
  · have unset : ∀ b, ¬ Sets field t b := fun _ sets => same (h.unique sets).1
    have := unset on
    rw [if_neg same]
    tauto

theorem leaves_nil : Leaves d [] t on ↔ on = d.get t := by
  constructor
  · rintro (⟨front, field, back, split, -⟩ | ⟨-, same⟩)
    · exact absurd split.symm (List.append_ne_nil_of_right_ne_nil front (List.cons_ne_nil _ _))
    · exact same
  · intro same
    exact .inr ⟨nofun, same⟩

theorem readEntries_cons_of_sets (h : Sets field t on) :
    readEntries d (field :: fields) = readEntries (d.set t on) fields := by
  rw [readEntries, readEntry_eq_ok_iff.2 h]

theorem readEntries_cons_of_complaint {error : Error} (h : Complaint field error) :
    readEntries d (field :: fields) = .error error := by
  rw [readEntries, readEntry_eq_error_iff.2 h]

/-- Every field is for a toggle, or there is something to complain of. -/
theorem sets_or_complaint (field : List Char) :
    (∃ t on, Sets field t on) ∨ ∃ error, Complaint field error := by
  cases read : readEntry field with
  | ok pair => exact .inl ⟨pair.1, pair.2, readEntry_eq_ok_iff.1 read⟩
  | error error => exact .inr ⟨error, readEntry_eq_error_iff.1 read⟩

/-- The fields are read if each of them is for a toggle; the last for a toggle counts. -/
theorem readEntries_eq_ok_iff :
    readEntries d fields = .ok e ↔
      (∀ field ∈ fields, ∃ t on, Sets field t on) ∧ ∀ t, Leaves d fields t (e.get t) := by
  induction fields generalizing d with
  | nil =>
    simp only [leaves_nil, readEntries, Except.ok.injEq]
    constructor
    · rintro rfl
      exact ⟨nofun, fun _ => rfl⟩
    · rintro ⟨-, same⟩
      exact eq_of_get_eq fun t => (same t).symm
  | cons field fields ih =>
    rw [List.forall_mem_cons]
    rcases sets_or_complaint field with ⟨t, on, sets⟩ | ⟨error, complaint⟩
    · have first : ∃ t on, Sets field t on := ⟨t, on, sets⟩
      rw [readEntries_cons_of_sets sets, ih, and_assoc, and_iff_right first]
      simp only [leaves_cons_iff sets]
    · rw [readEntries_cons_of_complaint complaint]
      refine iff_of_false nofun ?_
      rintro ⟨⟨⟨t, on, sets⟩, -⟩, -⟩
      exact sets.not_complaint complaint

/-- What is complained of is the first field that is not for a toggle. -/
theorem readEntries_eq_error_iff {error : Error} :
    readEntries d fields = .error error ↔ ∃ front field back, fields = front ++ field :: back ∧
      (∀ earlier ∈ front, ∃ t on, Sets earlier t on) ∧ Complaint field error := by
  induction fields generalizing d with
  | nil =>
    refine iff_of_false nofun ?_
    rintro ⟨front, field, back, split, -⟩
    exact absurd split.symm (List.append_ne_nil_of_right_ne_nil front (List.cons_ne_nil _ _))
  | cons first fields ih =>
    rcases sets_or_complaint first with ⟨t, on, sets⟩ | ⟨found, complaint⟩
    · rw [readEntries_cons_of_sets sets, ih]
      constructor
      · rintro ⟨front, field, back, rfl, earlier, complaint⟩
        exact ⟨first :: front, field, back, rfl,
          List.forall_mem_cons.2 ⟨⟨t, on, sets⟩, earlier⟩, complaint⟩
      · rintro ⟨front, field, back, split, earlier, complaint⟩
        cases front with
        | nil =>
          cases split
          exact absurd complaint sets.not_complaint
        | cons head front =>
          cases split
          exact ⟨front, field, back, rfl, (List.forall_mem_cons.1 earlier).2, complaint⟩
    · rw [readEntries_cons_of_complaint complaint]
      constructor
      · rintro ⟨⟩
        exact ⟨[], first, fields, rfl, nofun, complaint⟩
      · rintro ⟨front, field, back, split, earlier, complaint'⟩
        cases front with
        | nil =>
          cases split
          rw [← readEntry_eq_error_iff] at complaint complaint'
          rw [complaint, Except.error.injEq] at complaint'
          rw [complaint']
        | cons head front =>
          cases split
          obtain ⟨t, on, sets⟩ := (List.forall_mem_cons.1 earlier).1
          exact absurd complaint sets.not_complaint

theorem exists_readEntries_eq_ok_iff :
    (∃ e, readEntries d fields = .ok e) ↔ ∀ field ∈ fields, ∃ t on, Sets field t on := by
  constructor
  · rintro ⟨e, read⟩
    exact (readEntries_eq_ok_iff.1 read).1
  · intro all
    cases read : readEntries d fields with
    | ok e => exact ⟨e, rfl⟩
    | error error =>
      obtain ⟨front, field, back, rfl, -, complaint⟩ := readEntries_eq_error_iff.1 read
      obtain ⟨t, on, sets⟩ := all field (List.mem_append_right _ (List.mem_cons_self ..))
      exact absurd complaint sets.not_complaint

end Dialect

end XoChip
