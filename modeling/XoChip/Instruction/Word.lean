/-!
# Fields of an instruction word

An instruction is a 16-bit word, stored big-endian. Its four nibbles are named after their use
as operands: the family, `x`, `y` and `n`; `nn` is the low byte and `nnn` the low twelve bits.
-/

namespace XoChip

/-- The number of one of the sixteen registers. -/
abbrev Register := Fin 16

/-- There are nibbles: every numeral of `Fin 16`, and `Fin.ofNat 16`, is read with this instance. It
    has a name of its own so that they are the same terms in all modules; an instance that is only
    inferred becomes a new auxiliary lemma in each of them. -/
instance neZeroSixteen : @NeZero Nat Zero.ofOfNat0 16 := ⟨by decide⟩

theorem Register.val_lt (r : Register) : r.val < 16 := r.isLt

namespace Word

/-- The word whose bytes in memory are `high`, then `low`. -/
def ofBytes (high low : UInt8) : UInt16 := UInt16.ofNat (high.toNat * 0x100 + low.toNat)

/-- The first byte in memory. -/
def high (w : UInt16) : UInt8 := UInt8.ofNat (w.toNat / 0x100)

/-- The second byte in memory. -/
def low (w : UInt16) : UInt8 := UInt8.ofNat w.toNat

/-- The highest nibble, which selects the family of instructions. -/
def family (w : UInt16) : Fin 16 := Fin.ofNat 16 (w.toNat / 0x1000)

/-- The second nibble. -/
def x (w : UInt16) : Register := Fin.ofNat 16 (w.toNat / 0x100)

/-- The third nibble. -/
def y (w : UInt16) : Register := Fin.ofNat 16 (w.toNat / 0x10)

/-- The lowest nibble. -/
def n (w : UInt16) : Fin 16 := Fin.ofNat 16 w.toNat

/-- The low byte as an operand. -/
def nn (w : UInt16) : UInt8 := low w

/-- The low twelve bits, an address. -/
def nnn (w : UInt16) : UInt16 := UInt16.ofNat (w.toNat % 0x1000)

theorem toNat_ofBytes (a b : UInt8) : (ofBytes a b).toNat = a.toNat * 0x100 + b.toNat := by
  have ha := a.toNat_lt
  have hb := b.toNat_lt
  simp only [ofBytes, UInt16.toNat_ofNat']
  omega

@[simp] theorem high_ofBytes (a b : UInt8) : high (ofBytes a b) = a := by
  have ha := a.toNat_lt
  have hb := b.toNat_lt
  apply UInt8.toNat_inj.1
  simp only [high, toNat_ofBytes, UInt8.toNat_ofNat']
  omega

@[simp] theorem low_ofBytes (a b : UInt8) : low (ofBytes a b) = b := by
  have hb := b.toNat_lt
  apply UInt8.toNat_inj.1
  simp only [low, toNat_ofBytes, UInt8.toNat_ofNat']
  omega

@[simp] theorem ofBytes_high_low (w : UInt16) : ofBytes (high w) (low w) = w := by
  have hw := w.toNat_lt
  apply UInt16.toNat_inj.1
  simp only [toNat_ofBytes, high, low, UInt8.toNat_ofNat']
  omega

end Word

end XoChip
