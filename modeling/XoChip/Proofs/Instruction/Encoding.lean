import XoChip.Instruction
import XoChip.Instruction.Mnemonic

/-!
# Instructions as words

A word is its four nibbles. `Instruction.encode` writes an instruction as a word, and a word that
stands for an instruction is the one that is written for it. The words that stand for an instruction
are those that the table of mnemonics covers.
-/

namespace XoChip

/-! ## Words by their nibbles -/

namespace Word

/-- The word with the given nibbles, the highest first. -/
def ofNibbles (f x y n : Fin 16) : UInt16 :=
  UInt16.ofNat (f.val * 0x1000 + x.val * 0x100 + y.val * 0x10 + n.val)

/-- The word of a family with a register and a byte. -/
def ofByte (f x : Fin 16) (nn : UInt8) : UInt16 :=
  ofNibbles f x (Fin.ofNat 16 (nn.toNat / 0x10)) (Fin.ofNat 16 nn.toNat)

/-- The word of a family with an address, of which the low twelve bits count. -/
def ofAddress (f : Fin 16) (nnn : UInt16) : UInt16 := ofNibbles f (x nnn) (y nnn) (n nnn)

variable {w v : UInt16} {f a b c d : Fin 16} {k : UInt8}

theorem toNat_ofNibbles (a b c d : Fin 16) :
    (ofNibbles a b c d).toNat = a.val * 0x1000 + b.val * 0x100 + c.val * 0x10 + d.val := by
  simp only [ofNibbles, UInt16.toNat_ofNat']
  omega

@[simp] theorem family_ofNibbles : family (ofNibbles a b c d) = a := by
  apply Fin.ext
  simp only [family, toNat_ofNibbles, Fin.ofNat]
  omega

@[simp] theorem x_ofNibbles : x (ofNibbles a b c d) = b := by
  apply Fin.ext
  simp only [x, toNat_ofNibbles, Fin.ofNat]
  omega

@[simp] theorem y_ofNibbles : y (ofNibbles a b c d) = c := by
  apply Fin.ext
  simp only [y, toNat_ofNibbles, Fin.ofNat]
  omega

@[simp] theorem n_ofNibbles : n (ofNibbles a b c d) = d := by
  apply Fin.ext
  simp only [n, toNat_ofNibbles, Fin.ofNat]
  omega

@[simp] theorem toNat_nn_ofNibbles : (nn (ofNibbles a b c d)).toNat = c.val * 0x10 + d.val := by
  simp only [nn, low, toNat_ofNibbles, UInt8.toNat_ofNat']
  omega

/-- A word is its nibbles. -/
@[simp] theorem ofNibbles_nibbles (w : UInt16) : ofNibbles (family w) (x w) (y w) (n w) = w := by
  have lt := w.toNat_lt
  apply UInt16.toNat_inj.1
  simp only [toNat_ofNibbles, family, x, y, n, Fin.ofNat]
  omega

theorem eq_iff_nibbles : w = v ↔ family w = family v ∧ x w = x v ∧ y w = y v ∧ n w = n v := by
  constructor
  · rintro rfl
    exact ⟨rfl, rfl, rfl, rfl⟩
  · rintro ⟨hf, hx, hy, hn⟩
    rw [← ofNibbles_nibbles w, hf, hx, hy, hn, ofNibbles_nibbles]

theorem ofNibbles_of (hf : family w = f) (hn : n w = d) : ofNibbles f (x w) (y w) d = w := by
  rw [← hf, ← hn, ofNibbles_nibbles]

theorem ofByte_of (hf : family w = f) (hx : x w = b) (hnn : nn w = k) : ofByte f b k = w := by
  have hy : Fin.ofNat 16 (k.toNat / 0x10) = y w := by
    apply Fin.ext
    simp only [← hnn, nn, low, y, Fin.ofNat, UInt8.toNat_ofNat']
    omega
  have hn : Fin.ofNat 16 k.toNat = n w := by
    apply Fin.ext
    simp only [← hnn, nn, low, n, Fin.ofNat, UInt8.toNat_ofNat']
    omega
  rw [ofByte, hy, hn, ← hf, ← hx, ofNibbles_nibbles]

@[simp] theorem x_nnn (w : UInt16) : x (nnn w) = x w := by
  apply Fin.ext
  simp only [nnn, x, Fin.ofNat, UInt16.toNat_ofNat']
  omega

@[simp] theorem y_nnn (w : UInt16) : y (nnn w) = y w := by
  apply Fin.ext
  simp only [nnn, y, Fin.ofNat, UInt16.toNat_ofNat']
  omega

@[simp] theorem n_nnn (w : UInt16) : n (nnn w) = n w := by
  apply Fin.ext
  simp only [nnn, n, Fin.ofNat, UInt16.toNat_ofNat']
  omega

theorem toNat_nnn_lt (w : UInt16) : (nnn w).toNat < 0x1000 := by
  simp only [nnn, UInt16.toNat_ofNat']
  omega

theorem ofAddress_of (hf : family w = f) : ofAddress f (nnn w) = w := by
  rw [ofAddress, x_nnn, y_nnn, n_nnn, ← hf, ofNibbles_nibbles]

@[simp] theorem family_ofByte : family (ofByte f b k) = f := family_ofNibbles

@[simp] theorem x_ofByte : x (ofByte f b k) = b := x_ofNibbles

@[simp] theorem nn_ofByte : nn (ofByte f b k) = k := by
  have lt := k.toNat_lt
  apply UInt8.toNat_inj.1
  simp only [ofByte, toNat_nn_ofNibbles, Fin.ofNat]
  omega

@[simp] theorem family_ofAddress : family (ofAddress f v) = f := family_ofNibbles

@[simp] theorem nnn_ofAddress (h : v.toNat < 0x1000) : nnn (ofAddress f v) = v := by
  apply UInt16.toNat_inj.1
  simp only [nnn, ofAddress, toNat_ofNibbles, x, y, n, Fin.ofNat, UInt16.toNat_ofNat']
  omega

theorem ofAddress_eq_iff :
    ofAddress f v = w ∧ v.toNat < 0x1000 ↔ family w = f ∧ nnn w = v := by
  constructor
  · rintro ⟨rfl, lt⟩
    exact ⟨family_ofAddress, nnn_ofAddress lt⟩
  · rintro ⟨hf, rfl⟩
    exact ⟨ofAddress_of hf, toNat_nnn_lt w⟩

/-! Keeping some bits of a word keeps some bits of its nibbles. -/

theorem land_shiftRight_mod (a b k : Nat) :
    (a &&& b) >>> k % 16 = (a >>> k % 16) &&& (b >>> k % 16) := by
  rw [Nat.shiftRight_and_distrib, show 16 = 2 ^ 4 from rfl, Nat.and_mod_two_pow]

theorem family_land (w m : UInt16) : family (w &&& m) = family w &&& family m := by
  apply Fin.ext
  simpa [family, Fin.ofNat, Nat.shiftRight_eq_div_pow] using land_shiftRight_mod w.toNat m.toNat 12

theorem x_land (w m : UInt16) : x (w &&& m) = x w &&& x m := by
  apply Fin.ext
  simpa [x, Fin.ofNat, Nat.shiftRight_eq_div_pow] using land_shiftRight_mod w.toNat m.toNat 8

theorem y_land (w m : UInt16) : y (w &&& m) = y w &&& y m := by
  apply Fin.ext
  simpa [y, Fin.ofNat, Nat.shiftRight_eq_div_pow] using land_shiftRight_mod w.toNat m.toNat 4

theorem n_land (w m : UInt16) : n (w &&& m) = n w &&& n m := by
  apply Fin.ext
  simpa [n, Fin.ofNat] using land_shiftRight_mod w.toNat m.toNat 0

theorem nibble_land_zero : ∀ k : Fin 16, k &&& 0 = 0 := by decide

theorem nibble_land_fifteen : ∀ k : Fin 16, k &&& 15 = k := by decide

end Word

/-! ## Encoding -/

/-- The lowest nibble of the words of an operation. -/
def AluOp.nibble : AluOp → Fin 16
  | copy => 0x0
  | or => 0x1
  | and => 0x2
  | xor => 0x3
  | add => 0x4
  | sub => 0x5
  | shiftRight => 0x6
  | subFrom => 0x7
  | shiftLeft => 0xE

theorem AluOp.nibble_of_ofNibble? {n : Fin 16} {op : AluOp} (h : ofNibble? n = some op) :
    op.nibble = n := by
  revert h
  cases op <;> revert n <;> decide

namespace Instruction

open Word

/-- The word that is written for an instruction. -/
def encode : Instruction → UInt16
  | clear => ofByte 0x0 0x0 0xE0
  | ret => ofByte 0x0 0x0 0xEE
  | scrollDown n => ofNibbles 0x0 0x0 0xC n
  | scrollUp n => ofNibbles 0x0 0x0 0xD n
  | scrollRight => ofByte 0x0 0x0 0xFB
  | scrollLeft => ofByte 0x0 0x0 0xFC
  | exit => ofByte 0x0 0x0 0xFD
  | lores => ofByte 0x0 0x0 0xFE
  | hires => ofByte 0x0 0x0 0xFF
  | jump nnn => ofAddress 0x1 nnn
  | call nnn => ofAddress 0x2 nnn
  | skipIfByte x nn => ofByte 0x3 x nn
  | skipUnlessByte x nn => ofByte 0x4 x nn
  | skipIfEqual x y => ofNibbles 0x5 x y 0x0
  | storeRange x y => ofNibbles 0x5 x y 0x2
  | loadRange x y => ofNibbles 0x5 x y 0x3
  | setByte x nn => ofByte 0x6 x nn
  | addByte x nn => ofByte 0x7 x nn
  | alu op x y => ofNibbles 0x8 x y op.nibble
  | skipUnlessEqual x y => ofNibbles 0x9 x y 0x0
  | setIndex nnn => ofAddress 0xA nnn
  | jumpPlus nnn => ofAddress 0xB nnn
  | random x nn => ofByte 0xC x nn
  | draw x y n => ofNibbles 0xD x y n
  | skipIfKey x => ofByte 0xE x 0x9E
  | skipUnlessKey x => ofByte 0xE x 0xA1
  | setIndexLong => ofByte 0xF 0x0 0x00
  | selectPlanes n => ofByte 0xF n 0x01
  | loadPattern => ofByte 0xF 0x0 0x02
  | readDelay x => ofByte 0xF x 0x07
  | awaitKey x => ofByte 0xF x 0x0A
  | setDelay x => ofByte 0xF x 0x15
  | playSound x => ofByte 0xF x 0x18
  | addIndex x => ofByte 0xF x 0x1E
  | smallGlyph x => ofByte 0xF x 0x29
  | largeGlyph x => ofByte 0xF x 0x30
  | storeDecimal x => ofByte 0xF x 0x33
  | setPitch x => ofByte 0xF x 0x3A
  | storeRegisters x => ofByte 0xF x 0x55
  | loadRegisters x => ofByte 0xF x 0x65
  | saveFlags x => ofByte 0xF x 0x75
  | loadFlags x => ofByte 0xF x 0x85

variable {w : UInt16} {i : Instruction}

theorem encode_of_decodeBare? (hf : family w = 0x0) (hx : x w = 0x0)
    (h : decodeBare? w = some i) : i.encode = w := by
  unfold decodeBare? at h
  split at h
  case h_8 =>
    split at h
    · next hy =>
      have hy : y w = 0xC := Fin.ext hy
      cases h
      rw [eq_iff_nibbles]
      simp [encode, hf, hx, hy]
    · next hy =>
      have hy : y w = 0xD := Fin.ext hy
      cases h
      rw [eq_iff_nibbles]
      simp [encode, hf, hx, hy]
    · cases h
  all_goals
    cases h
    exact ofByte_of hf hx (UInt8.toNat_inj.1 ‹_›)

theorem encode_of_decodeExtended? (hf : family w = 0xF) (h : decodeExtended? w = some i) :
    i.encode = w := by
  unfold decodeExtended? at h
  dsimp only at h
  split at h
  case h_1 hnn =>
    split at h
    · next hx =>
      cases h
      exact ofByte_of hf hx (UInt8.toNat_inj.1 hnn)
    · cases h
  case h_3 hnn =>
    split at h
    · next hx =>
      cases h
      exact ofByte_of hf hx (UInt8.toNat_inj.1 hnn)
    · cases h
  all_goals cases h
  all_goals exact ofByte_of hf rfl (UInt8.toNat_inj.1 ‹_›)

/-- A word that stands for an instruction is the one that is written for it. -/
theorem encode_of_decode? (h : decode? w = some i) : i.encode = w := by
  unfold decode? at h
  dsimp only at h
  split at h
  case h_1 hf =>
    split at h
    · next hx => exact encode_of_decodeBare? (Fin.ext hf) hx h
    · cases h
  case h_6 hf =>
    split at h
    case h_4 => cases h
    all_goals
      cases h
      exact ofNibbles_of (Fin.ext hf) (Fin.ext ‹_›)
  case h_9 hf =>
    obtain ⟨op, hop, rfl⟩ := Option.map_eq_some_iff.1 h
    exact ofNibbles_of (Fin.ext hf) (AluOp.nibble_of_ofNibble? hop).symm
  case h_10 hf =>
    split at h
    · next hn =>
      cases h
      exact ofNibbles_of (Fin.ext hf) hn
    · cases h
  case h_15 hf =>
    split at h
    case h_3 => cases h
    all_goals
      cases h
      exact ofByte_of (Fin.ext hf) rfl (UInt8.toNat_inj.1 ‹_›)
  case h_16 =>
    have last : family w = 0xF := by
      have lt := (family w).isLt
      simp only [imp_false] at *
      apply Fin.ext
      show (family w).val = 15
      omega
    exact encode_of_decodeExtended? last h
  case h_2 hf | h_3 hf | h_11 hf | h_12 hf =>
    cases h
    exact ofAddress_of (Fin.ext hf)
  case h_14 hf =>
    cases h
    exact ofNibbles_of (Fin.ext hf) rfl
  all_goals
    cases h
    exact ofByte_of (Fin.ext ‹_›) rfl rfl

/-- Addresses are what fits into twelve bits. -/
def Fits : Instruction → Prop
  | jump nnn | call nnn | setIndex nnn | jumpPlus nnn => nnn.toNat < 0x1000
  | _ => True

theorem decode?_ofByte_last (x : Register) (k : UInt8) :
    decode? (ofByte 0xF x k) = decodeExtended? (ofByte 0xF x k) := by
  rw [decode?, family_ofByte]
  rfl

theorem decode?_encode (h : i.Fits) : decode? i.encode = some i := by
  cases i with
  | clear | ret | scrollRight | scrollLeft | exit | lores | hires => rfl
  | scrollDown n | scrollUp n =>
    clear h
    revert n
    decide
  | jump nnn | call nnn | setIndex nnn | jumpPlus nnn =>
    rw [encode, decode?, family_ofAddress, nnn_ofAddress h]
    rfl
  | skipIfByte | skipUnlessByte | setByte | addByte | random | skipIfKey | skipUnlessKey =>
    rw [encode, decode?, family_ofByte, x_ofByte, nn_ofByte]
    rfl
  | skipIfEqual | storeRange | loadRange | skipUnlessEqual | draw =>
    rw [encode, decode?, family_ofNibbles, x_ofNibbles, y_ofNibbles, n_ofNibbles]
    rfl
  | alu op x y =>
    rw [encode, decode?, family_ofNibbles, x_ofNibbles, y_ofNibbles, n_ofNibbles]
    cases op <;> rfl
  | _ =>
    rw [encode, decode?_ofByte_last, decodeExtended?, nn_ofByte, x_ofByte]
    rfl

/-- What a word stands for fits into it. -/
theorem fits_of_decode? (h : decode? w = some i) : i.Fits := by
  have written := encode_of_decode? h
  cases i with
  | jump nnn | call nnn | setIndex nnn | jumpPlus nnn =>
    have family_eq := congrArg family written
    rw [encode, family_ofAddress] at family_eq
    rw [decode?, ← family_eq] at h
    cases h
    exact toNat_nnn_lt w
  | _ => trivial

theorem decode?_eq_some_iff : decode? w = some i ↔ i.encode = w ∧ i.Fits := by
  constructor
  · intro h
    exact ⟨encode_of_decode? h, fits_of_decode? h⟩
  · rintro ⟨rfl, fits⟩
    exact decode?_encode fits

end Instruction

/-! ## The table of mnemonics -/

namespace Mnemonic

open Word

variable {f x y n : Fin 16}

/-- A form fixes nibbles. -/
theorem Form.covers_ofNibbles (form : Form) :
    form.covers (ofNibbles f x y n) = true ↔
      f &&& family form.mask = family form.value ∧ x &&& Word.x form.mask = Word.x form.value ∧
        y &&& Word.y form.mask = Word.y form.value ∧
          n &&& Word.n form.mask = Word.n form.value := by
  rw [covers, beq_iff_eq, eq_iff_nibbles]
  simp only [family_land, x_land, y_land, n_land, family_ofNibbles, x_ofNibbles, y_ofNibbles,
    n_ofNibbles]

theorem isKnown_iff {w : UInt16} : isKnown w = true ↔ ∃ form ∈ forms, form.covers w = true := by
  rw [isKnown, form?, List.find?_isSome]

/-- Every form covers instructions only. -/
theorem isSome_decode?_of_covers :
    ∀ form ∈ forms, form.covers (ofNibbles f x y n) = true →
      (Instruction.decode? (ofNibbles f x y n)).isSome = true := by
  simp only [Instruction.decode?, Instruction.decodeBare?, Instruction.decodeExtended?,
    family_ofNibbles, x_ofNibbles, y_ofNibbles, n_ofNibbles, toNat_nn_ofNibbles]
  simp only [forms, List.forall_mem_cons, List.not_mem_nil, false_imp_iff, implies_true, and_true,
    Form.covers_ofNibbles]
  and_intros
  all_goals
    rintro ⟨hf, hx, hy, hn⟩
    simp only [Word.family, Word.x, Word.y, Word.n, UInt16.reduceToNat, Nat.reduceDiv,
      Fin.reduceOfNat, nibble_land_fifteen, nibble_land_zero] at hf hx hy hn
    subst_vars
  any_goals rfl
  -- The low byte of a vertical scroll is not fixed.
  all_goals
    revert n
    decide

/-- Every instruction is covered by a form. -/
theorem isKnown_encode (i : Instruction) : isKnown i.encode = true := by
  rw [isKnown_iff, ← ofNibbles_nibbles i.encode]
  -- The table is evaluated once, on nibbles that are variables, and not for every instruction.
  generalize hf : family i.encode = f, hx : Word.x i.encode = x, hy : Word.y i.encode = y,
    hn : Word.n i.encode = n
  simp only [forms, List.mem_cons, List.not_mem_nil, or_false, exists_eq_or_imp, exists_eq_left,
    Form.covers_ofNibbles, Word.family, Word.x, Word.y, Word.n, UInt16.reduceToNat, Nat.reduceDiv,
    Fin.reduceOfNat, nibble_land_fifteen, nibble_land_zero]
  subst hf hx hy hn
  cases i with
  | alu op x y =>
    cases op <;>
      simp only [Instruction.encode, AluOp.nibble, family_ofNibbles, n_ofNibbles, Fin.reduceEq,
        false_and, true_and, and_false, and_true, or_false, or_true]
  | _ =>
    simp only [Instruction.encode, ofByte, ofAddress, family_ofNibbles, x_ofNibbles, y_ofNibbles,
      n_ofNibbles, UInt8.reduceToNat, Nat.reduceDiv, Fin.reduceOfNat, Fin.reduceEq, false_and,
      true_and, and_false, and_true, or_false, or_true]

/-- The words that have a mnemonic are those that stand for an instruction. -/
theorem isKnown_eq (w : UInt16) : isKnown w = (Instruction.decode? w).isSome := by
  rw [Bool.eq_iff_iff]
  constructor
  · rw [isKnown_iff, ← ofNibbles_nibbles w]
    rintro ⟨form, mem, covers⟩
    exact isSome_decode?_of_covers form mem covers
  · intro h
    obtain ⟨i, hi⟩ := Option.isSome_iff_exists.1 h
    rw [← Instruction.encode_of_decode? hi]
    exact isKnown_encode i

theorem ofWord?_eq_none_iff {w : UInt16} : ofWord? w = none ↔ Instruction.decode? w = none := by
  rw [ofWord?, Option.map_eq_none_iff, ← Option.not_isSome_iff_eq_none, ← isKnown, isKnown_eq,
    Option.not_isSome_iff_eq_none]

end Mnemonic

end XoChip
