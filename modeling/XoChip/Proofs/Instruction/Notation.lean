import Mathlib.Algebra.Group.Nat.Defs
import Mathlib.Data.List.Nodup
import XoChip.Proofs.Instruction.Encoding
import XoChip.Proofs.Text.Separator

/-!
# Mnemonics tell instructions apart

Two words with one mnemonic are one word. The text of a mnemonic gives the name and the operands'
texts back, and these tell which form was written: forms of one name differ in the shapes of their
operands. What is not fixed by the form is then shown by its operands.
-/

namespace XoChip

/-! ## Numerals -/

namespace Numeral

theorem digitChar_inj : ∀ a < 16, ∀ b < 16, Nat.digitChar a = Nat.digitChar b → a = b := by
  decide

theorem upperDigit_inj : ∀ a b : Fin 16, upperDigit a = upperDigit b → a = b := by decide

/-- A character that is no digit does not occur in a numeral. -/
theorem not_mem_digits {width n : Nat} {c : Char} (h : ∀ d < 16, c ≠ Nat.digitChar d) :
    c ∉ digits 16 width n := by
  induction width generalizing n with
  | zero => exact List.not_mem_nil
  | succ width ih =>
    rw [digits, List.mem_append, List.mem_singleton, not_or]
    exact ⟨ih, h _ (Nat.mod_lt n (by decide))⟩

/-- Digits tell numbers apart as far as they go. -/
theorem mod_eq_of_digits {width m n : Nat} (h : digits 16 width m = digits 16 width n) :
    m % 16 ^ width = n % 16 ^ width := by
  induction width generalizing m n with
  | zero => rw [Nat.pow_zero, Nat.mod_one, Nat.mod_one]
  | succ width ih =>
    obtain ⟨front, last⟩ := List.append_inj' h rfl
    have digit : m % 16 = n % 16 :=
      digitChar_inj _ (Nat.mod_lt m (by decide)) _ (Nat.mod_lt n (by decide))
        (List.head_eq_of_cons_eq last)
    rw [Nat.pow_succ, Nat.mul_comm, Nat.mod_mul, Nat.mod_mul, digit, ih front]

theorem byteDigits_inj {a b : UInt8} (h : byteDigits a = byteDigits b) : a = b := by
  have same : a.toNat % 2 ^ 8 = b.toNat % 2 ^ 8 := mod_eq_of_digits h
  rw [Nat.mod_eq_of_lt a.toNat_lt, Nat.mod_eq_of_lt b.toNat_lt] at same
  exact UInt8.toNat_inj.1 same

theorem toList_byte (b : UInt8) : (byte b).toList = '0' :: 'x' :: byteDigits b :=
  String.toList_ofList

theorem toList_word (w : UInt16) : (word w).toList = '0' :: 'x' :: digits 16 4 w.toNat :=
  String.toList_ofList

theorem byte_inj {a b : UInt8} (h : byte a = byte b) : a = b := by
  have same := congrArg String.toList h
  rw [toList_byte, toList_byte, List.cons.injEq, List.cons.injEq] at same
  exact byteDigits_inj same.2.2

theorem word_inj {v w : UInt16} (h : word v = word w) : v = w := by
  have same := congrArg String.toList h
  rw [toList_word, toList_word, List.cons.injEq, List.cons.injEq] at same
  have same : v.toNat % 2 ^ 16 = w.toNat % 2 ^ 16 := mod_eq_of_digits same.2.2
  rw [Nat.mod_eq_of_lt v.toNat_lt, Nat.mod_eq_of_lt w.toNat_lt] at same
  exact UInt16.toNat_inj.1 same

end Numeral

namespace Mnemonic

open Word

/-! ## Operands -/

theorem toList_registerName (r : Register) :
    (registerName r).toList = ['V', Numeral.upperDigit r] := String.toList_ofList

theorem registerName_inj {r s : Register} (h : registerName r = registerName s) : r = s := by
  have same := congrArg String.toList h
  rw [toList_registerName, toList_registerName] at same
  simp only [List.cons.injEq, and_true, true_and] at same
  exact Numeral.upperDigit_inj r s same

theorem toString_nibble_inj : ∀ a b : Fin 16, toString a.val = toString b.val → a = b := by
  decide

/-- The bits of a word that an operand shows. -/
def Operand.mask : Operand → UInt16
  | .vx | .planes => ofNibbles 0x0 0xF 0x0 0x0
  | .vy => ofNibbles 0x0 0x0 0xF 0x0
  | .range => ofNibbles 0x0 0xF 0xF 0x0
  | .byte => ofNibbles 0x0 0x0 0xF 0xF
  | .address => ofNibbles 0x0 0xF 0xF 0xF
  | .count => ofNibbles 0x0 0x0 0x0 0xF
  | .text _ => ofNibbles 0x0 0x0 0x0 0x0

variable {op : Operand} {v w : UInt16}

theorem land_ofNibbles_eq_iff {f a b c : Fin 16} :
    v &&& ofNibbles f a b c = w &&& ofNibbles f a b c ↔
      family v &&& f = family w &&& f ∧ x v &&& a = x w &&& a ∧ y v &&& b = y w &&& b ∧
        n v &&& c = n w &&& c := by
  simp only [eq_iff_nibbles, family_land, x_land, y_land, n_land, family_ofNibbles, x_ofNibbles,
    y_ofNibbles, n_ofNibbles]

theorem nibbles_eq_of_nn_eq (h : nn v = nn w) : y v = y w ∧ n v = n w := by
  have same := congrArg UInt8.toNat h
  simp only [nn, low, UInt8.toNat_ofNat'] at same
  constructor
  · apply Fin.ext
    simp only [y, Fin.ofNat]
    omega
  · apply Fin.ext
    simp only [n, Fin.ofNat]
    omega

theorem nibbles_eq_of_nnn_eq (h : nnn v = nnn w) : x v = x w ∧ y v = y w ∧ n v = n w := by
  rw [← x_nnn v, ← y_nnn v, ← n_nnn v, h, x_nnn, y_nnn, n_nnn]
  exact ⟨rfl, rfl, rfl⟩

theorem range_inj {r s t u : Register}
    (h : registerName r ++ " - " ++ registerName s = registerName t ++ " - " ++ registerName u) :
    r = t ∧ s = u := by
  have same := congrArg String.toList h
  simp only [String.toList_append, toList_registerName, List.cons_append, List.nil_append,
    List.cons.injEq, List.append_cancel_left_eq, true_and, and_true] at same
  exact ⟨Numeral.upperDigit_inj r t same.1, Numeral.upperDigit_inj s u same.2⟩

/-- What an operand shows of a word can be told from its text. -/
theorem Operand.land_mask_eq (h : op.render v = op.render w) : v &&& op.mask = w &&& op.mask := by
  cases op with
  | vx =>
    have hx : x v = x w := registerName_inj h
    simp only [mask, land_ofNibbles_eq_iff, nibble_land_zero, hx, and_self]
  | vy =>
    have hy : y v = y w := registerName_inj h
    simp only [mask, land_ofNibbles_eq_iff, nibble_land_zero, hy, and_self]
  | range =>
    obtain ⟨hx, hy⟩ := range_inj h
    simp only [mask, land_ofNibbles_eq_iff, nibble_land_zero, hx, hy, and_self]
  | byte =>
    obtain ⟨hy, hn⟩ := nibbles_eq_of_nn_eq (Numeral.byte_inj h)
    simp only [mask, land_ofNibbles_eq_iff, nibble_land_zero, hy, hn, and_self]
  | address =>
    obtain ⟨hx, hy, hn⟩ := nibbles_eq_of_nnn_eq (Numeral.word_inj h)
    simp only [mask, land_ofNibbles_eq_iff, nibble_land_zero, hx, hy, hn, and_self]
  | count =>
    have hn : n v = n w := toString_nibble_inj _ _ h
    simp only [mask, land_ofNibbles_eq_iff, nibble_land_zero, hn, and_self]
  | planes =>
    have hx : x v = x w := toString_nibble_inj _ _ h
    simp only [mask, land_ofNibbles_eq_iff, nibble_land_zero, hx, and_self]
  | text => simp only [mask, land_ofNibbles_eq_iff, nibble_land_zero, and_self]

/-! ## Shapes of operands -/

/-- What tells the operands of one name apart: their first character and their length. Numbers in
    decimal are all of one shape. -/
def shapeOf (cs : List Char) : Option (Option Char × Nat) :=
  if cs.all Char.isDigit then none else some (cs.head?, cs.length)

def Operand.shape : Operand → Option (Option Char × Nat)
  | .vx | .vy => some ('V', 2)
  | .range => some ('V', 7)
  | .byte => some ('0', 4)
  | .address => some ('0', 6)
  | .count | .planes => none
  | .text literal => shapeOf literal.toList

theorem shapeOf_toString_nibble : ∀ a : Fin 16, shapeOf (toString a.val).toList = none := by decide

/-- All texts of an operand have its shape. -/
theorem Operand.shapeOf_render (op : Operand) (w : UInt16) :
    shapeOf (op.render w).toList = op.shape := by
  cases op with
  | vx | vy => 
    rw [render, toList_registerName]
    rfl
  | range =>
    simp only [render, String.toList_append, toList_registerName]
    rfl
  | byte =>
    simp only [render, Numeral.toList_byte, Numeral.byteDigits]
    simp [shapeOf, shape]
  | address =>
    simp only [render, Numeral.toList_word]
    simp [shapeOf, shape]
  | count => exact shapeOf_toString_nibble _
  | planes => exact shapeOf_toString_nibble _
  | text => rfl

/-! ## Separators -/

/-- The characters that separate operands and lines do not occur. -/
def Plain (cs : List Char) : Prop := ∀ c ∈ cs, c ≠ ',' ∧ c ≠ '\n'

instance (cs : List Char) : Decidable (Plain cs) := List.decidableBAll _ cs

theorem plain_append {as bs : List Char} : Plain (as ++ bs) ↔ Plain as ∧ Plain bs :=
  List.forall_mem_append

theorem plain_registerName (r : Register) : Plain (registerName r).toList := by
  rw [toList_registerName]
  revert r
  decide

theorem plain_digits (width n : Nat) : Plain ('0' :: 'x' :: Numeral.digits 16 width n) := by
  simp only [Plain, List.forall_mem_cons]
  refine ⟨by decide, by decide, fun c mem => ⟨?_, ?_⟩⟩
  · rintro rfl
    exact Numeral.not_mem_digits (by decide) mem
  · rintro rfl
    exact Numeral.not_mem_digits (by decide) mem

theorem plain_toString_nibble : ∀ a : Fin 16, Plain (toString a.val).toList := by decide

def Operand.literal : Operand → List Char
  | .text literal => literal.toList
  | _ => []

theorem Operand.plain_render (plain : Plain op.literal) (w : UInt16) :
    Plain (op.render w).toList := by
  cases op with
  | vx | vy => exact plain_registerName _
  | range =>
    rw [render, String.toList_append, String.toList_append, plain_append, plain_append]
    exact ⟨⟨plain_registerName _, by decide⟩, plain_registerName _⟩
  | byte =>
    rw [render, Numeral.toList_byte]
    exact plain_digits 2 _
  | address =>
    rw [render, Numeral.toList_word]
    exact plain_digits 4 _
  | count | planes => exact plain_toString_nibble _
  | text => exact plain

/-! ## Forms -/

/-- What of a form can be told from every text of it. -/
def Form.signature (form : Form) : String × List (Option (Option Char × Nat)) :=
  (form.name, form.operands.map Operand.shape)

theorem nodup_signatures : (forms.map Form.signature).Nodup := by decide

/-- What a form does not fix is shown by its operands. -/
theorem mask_or_masks :
    ∀ form ∈ forms, (form.operands.map Operand.mask).foldr (· ||| ·) form.mask = 0xFFFF := by
  decide

theorem plain_of_mem_forms :
    ∀ form ∈ forms, ' ' ∉ form.name.toList ∧ Plain form.name.toList ∧
      ∀ op ∈ form.operands, Plain op.literal := by
  decide

/-- The operands of a form as they are written for a word. -/
def Form.texts (form : Form) (w : UInt16) : List (List Char) :=
  form.operands.map fun op => (op.render w).toList

theorem Form.toList_render (form : Form) (w : UInt16) :
    (form.render w).toList =
      if form.operands = [] then form.name.toList
      else form.name.toList ++ ' ' :: [',', ' '].intercalate (form.texts w) := by
  unfold render
  split
  · next none => rw [if_pos none]
  · next some =>
    rw [if_neg some, String.toList_append, String.toList_append, String.toList_intercalate,
      List.map_map, List.append_assoc]
    rfl

variable {form form' : Form}

theorem Form.texts_eq_nil : form.texts w = [] ↔ form.operands = [] := List.map_eq_nil_iff

theorem Form.not_mem_texts (mem : form ∈ forms) : ∀ text ∈ form.texts w, ',' ∉ text := by
  obtain ⟨-, -, plain⟩ := plain_of_mem_forms form mem
  rw [texts, List.forall_mem_map]
  intro op mem_op comma
  exact (op.plain_render (plain op mem_op) w ',' comma).1 rfl

/-- The name and the operands are read back. -/
theorem Form.name_and_texts_of_render (mem : form ∈ forms) (mem' : form' ∈ forms)
    (h : form.render v = form'.render w) :
    form.name = form'.name ∧ form.texts v = form'.texts w := by
  have unspaced := (plain_of_mem_forms form mem).1
  have unspaced' := (plain_of_mem_forms form' mem').1
  have same := congrArg String.toList h
  rw [toList_render, toList_render] at same
  -- Only operands bring a space with them, so either both forms have some or neither has.
  split at same
  · next bare =>
    split at same
    · next bare' =>
      rw [texts, texts, bare, bare']
      exact ⟨String.toList_inj.1 same, rfl⟩
    · rw [same] at unspaced
      exact absurd (List.mem_append_right _ (List.mem_cons_self ..)) unspaced
  · next full =>
    split at same
    · rw [← same] at unspaced'
      exact absurd (List.mem_append_right _ (List.mem_cons_self ..)) unspaced'
    · next full' =>
      obtain ⟨name_eq, joined⟩ := Text.append_cons_inj unspaced unspaced' same
      exact ⟨String.toList_inj.1 name_eq, Text.intercalate_inj (by decide) (not_mem_texts mem)
        (not_mem_texts mem') (mt texts_eq_nil.1 full) (mt texts_eq_nil.1 full') joined⟩

/-- A text is that of one form. -/
theorem Form.eq_of_render (mem : form ∈ forms) (mem' : form' ∈ forms)
    (h : form.render v = form'.render w) : form = form' := by
  obtain ⟨name_eq, texts_eq⟩ := name_and_texts_of_render mem mem' h
  have shapes (form : Form) (w : UInt16) :
      form.operands.map Operand.shape = (form.texts w).map shapeOf := by
    rw [texts, List.map_map]
    exact List.map_congr_left fun op _ => (op.shapeOf_render w).symm
  apply List.inj_on_of_nodup_map nodup_signatures mem mem'
  rw [signature, signature, name_eq, shapes form v, shapes form' w, texts_eq]

theorem land_lor (a b c : UInt16) : a &&& (b ||| c) = a &&& b ||| a &&& c :=
  UInt16.toBitVec_inj.1 BitVec.and_or_distrib_left

/-- Words that agree on some bits and show the same bits in addition agree on all of them. -/
theorem land_foldr_eq {m : UInt16} {ops : List Operand} (fixed : v &&& m = w &&& m)
    (shown : ∀ op ∈ ops, v &&& op.mask = w &&& op.mask) :
    v &&& (ops.map Operand.mask).foldr (· ||| ·) m =
      w &&& (ops.map Operand.mask).foldr (· ||| ·) m := by
  induction ops with
  | nil => exact fixed
  | cons op ops ih =>
    obtain ⟨first, rest⟩ := List.forall_mem_cons.1 shown
    rw [List.map_cons, List.foldr_cons, land_lor, land_lor, first, ih rest]

/-- A form shows all that it does not fix. -/
theorem Form.word_eq_of_render (mem : form ∈ forms) (hv : form.covers v = true)
    (hw : form.covers w = true) (h : form.render v = form.render w) : v = w := by
  -- The bits that the form fixes agree since it covers both words, the others since they are shown.
  have fixed : v &&& form.mask = w &&& form.mask := by
    rw [beq_iff_eq.1 hv, beq_iff_eq.1 hw]
  have shown : ∀ op ∈ form.operands, v &&& op.mask = w &&& op.mask := by
    intro op mem_op
    have texts_eq := (name_and_texts_of_render mem mem h).2
    exact op.land_mask_eq (String.toList_inj.1 (List.map_inj_left.1 texts_eq op mem_op))
  have same := land_foldr_eq fixed shown
  rwa [mask_or_masks form mem, show (0xFFFF : UInt16) = -1 from rfl, UInt16.and_neg_one,
    UInt16.and_neg_one] at same

/-! ## Words -/

theorem exists_form_of_ofWord? {text : String} (h : ofWord? w = some text) :
    ∃ form ∈ forms, form.covers w = true ∧ form.render w = text := by
  obtain ⟨form, found, rendered⟩ := Option.map_eq_some_iff.1 h
  have covers := List.find?_some (p := fun form : Form => form.covers w) found
  exact ⟨form, List.mem_of_find?_eq_some found, covers, rendered⟩

/-- No two words have the same mnemonic. -/
theorem ofWord?_inj {text : String} (hv : ofWord? v = some text) (hw : ofWord? w = some text) :
    v = w := by
  obtain ⟨form, mem, covers, rfl⟩ := exists_form_of_ofWord? hv
  obtain ⟨form', mem', covers', rendered⟩ := exists_form_of_ofWord? hw
  obtain rfl := Form.eq_of_render mem' mem rendered
  exact Form.word_eq_of_render mem covers covers' rendered.symm

theorem listing_of_isKnown (h : isKnown w = true) : ofWord? w = some (listing w) := by
  obtain ⟨form, found⟩ := Option.isSome_iff_exists.1 h
  rw [listing, ofWord?, found]
  rfl

/-- A word is listed on one line. -/
theorem newline_not_mem_listing (w : UInt16) : '\n' ∉ (listing w).toList := by
  cases known : ofWord? w with
  | none =>
    rw [listing, known, Option.getD_none, String.toList_append, Numeral.toList_word,
      List.mem_append]
    rintro (mem | mem)
    · exact absurd mem (by decide)
    · exact (plain_digits 4 _ _ mem).2 rfl
  | some text =>
    obtain ⟨form, mem, -, rfl⟩ := exists_form_of_ofWord? known
    obtain ⟨-, plain_name, plain_operands⟩ := plain_of_mem_forms form mem
    have name : '\n' ∉ form.name.toList := fun mem => (plain_name _ mem).2 rfl
    rw [listing, known, Option.getD_some, Form.toList_render]
    split
    · exact name
    · rw [List.mem_append, List.mem_cons]
      rintro (mem | mem | mem)
      · exact name mem
      · cases mem
      · revert mem
        apply Text.not_mem_intercalate (by decide)
        rw [Form.texts, List.forall_mem_map]
        intro op mem_op newline
        exact (op.plain_render (plain_operands op mem_op) w _ newline).2 rfl

end Mnemonic

end XoChip
