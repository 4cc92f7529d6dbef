import Mathlib.Algebra.Order.Floor.Div
import Mathlib.Order.Interval.Finset.Nat
import XoChip.Proofs.Partial
import XoChip.Sound.Pattern

/-!
# Which samples play a bit

One period of a pattern is rendered by two divisions: one says how many samples there are, the other
which bit a sample plays. Rounded up, the division the other way says which is the first sample that
plays a bit or one behind it, and a bit is played from its first sample to that of the next bit. At
the end of a period this is cut off, where the last bit may get no sample at all.
-/

namespace XoChip

/-! ## Machine numbers -/

/-- `a * b / c` in 64 bits, absent if the product is too large for them or if `c` is zero. -/
def mulDiv? (a b c : UInt64) : Option UInt64 :=
  if a.toNat * b.toNat < UInt64.size ∧ c ≠ 0 then some (a * b / c) else none

theorem mulDiv?_eq_some {a b c : UInt64} {x y z : Nat} (ha : a.toNat = x) (hb : b.toNat = y)
    (hc : c.toNat = z) (fits : x * y < UInt64.size) (pos : 0 < z) :
    ∃ q, mulDiv? a b c = some q ∧ q.toNat = x * y / z := by
  subst ha hb hc
  have nonzero : c ≠ 0 := by
    rintro rfl
    exact Nat.lt_irrefl 0 pos
  refine ⟨a * b / c, if_pos ⟨fits, nonzero⟩, ?_⟩
  rw [UInt64.toNat_div, UInt64.toNat_mul, Nat.mod_eq_of_lt fits]

namespace Pattern

/-- Render one period with 64-bit numbers, as long as they suffice. -/
def render? (p : Pattern) (rate sampleRate : UInt32) : Option (Array Sample) :=
  if rate = 0 ∨ sampleRate = 0 then some #[]
  else do
    let count ← mulDiv? 128 sampleRate.toUInt64 rate.toUInt64
    let samples ← (List.range count.toNat).mapM fun n => do
      let index ← mulDiv? (UInt64.ofNat n) rate.toUInt64 sampleRate.toUInt64
      return .ofBit (p.bit (index.toNat % 128))
    return samples.toArray

/-! ## Bits and samples -/

/-- The bits of a pattern, in the order in which they are played. -/
def bits (p : Pattern) : BitVec 128 := p.low.toBitVec ++ p.high.toBitVec

theorem bit_eq (p : Pattern) (n : Nat) : p.bit n = p.bits.getMsbD (n % 128) := by
  rw [bits, BitVec.getMsbD_append, bit]
  by_cases low : n % 128 < 64
  · exact (if_pos low).trans (if_neg (by omega)).symm
  · exact (if_neg low).trans (if_pos (by omega)).symm

/-- The bit that a sample plays. -/
def played (rate sampleRate : UInt32) (n : Nat) : Nat := n * rate.toNat / sampleRate.toNat

/-- The first sample that plays a bit or one behind it. -/
def firstOf (rate sampleRate : UInt32) (b : Nat) : Nat := b * sampleRate.toNat ⌈/⌉ rate.toNat

theorem size_render (p : Pattern) (rate sampleRate : UInt32) :
    (p.render rate sampleRate).size = periodLength rate sampleRate := by
  rw [render, Array.size_map, Array.size_range]

variable {p : Pattern} {rate sampleRate : UInt32} {b m n : Nat}

theorem periodLength_eq_zero (h : rate = 0 ∨ sampleRate = 0) :
    periodLength rate sampleRate = 0 := by
  rcases h with rfl | rfl
  · exact Nat.div_zero _
  · exact Nat.zero_div _

/-- A period has no samples exactly if the rate is zero, or so high that all bits are over within
    less than a sample. -/
theorem periodLength_eq_zero_iff :
    periodLength rate sampleRate = 0 ↔
      rate.toNat = 0 ∨ 128 * sampleRate.toNat < rate.toNat := Nat.div_eq_zero_iff

theorem toNat_pos_of_lt (lt : n < periodLength rate sampleRate) :
    0 < rate.toNat ∧ 0 < sampleRate.toNat := by
  constructor
  · apply Nat.pos_of_ne_zero
    intro zero
    rw [periodLength_eq_zero (.inl (UInt32.toNat_inj.1 zero))] at lt
    exact Nat.not_lt_zero n lt
  · apply Nat.pos_of_ne_zero
    intro zero
    rw [periodLength_eq_zero (.inr (UInt32.toNat_inj.1 zero))] at lt
    exact Nat.not_lt_zero n lt

/-- Within a period, the product from which the bit is found is small. -/
theorem mul_rate_lt (lt : n < periodLength rate sampleRate) :
    n * rate.toNat < 128 * sampleRate.toNat := by
  obtain ⟨rate_pos, -⟩ := toNat_pos_of_lt lt
  have whole : (n + 1) * rate.toNat ≤ 128 * sampleRate.toNat :=
    (Nat.le_div_iff_mul_le rate_pos).1 lt
  rw [Nat.add_mul] at whole
  omega

/-- A sample of a period plays a bit of the pattern. -/
theorem played_lt (lt : n < periodLength rate sampleRate) : played rate sampleRate n < 128 := by
  obtain ⟨-, sampleRate_pos⟩ := toNat_pos_of_lt lt
  exact (Nat.div_lt_iff_lt_mul sampleRate_pos).2 (mul_rate_lt lt)

theorem played_mono (le : m ≤ n) : played rate sampleRate m ≤ played rate sampleRate n :=
  Nat.div_le_div_right (Nat.mul_le_mul_right _ le)

theorem getElem?_render (p : Pattern) (lt : n < periodLength rate sampleRate) :
    (p.render rate sampleRate)[n]? = some (.ofBit (p.bits.getMsbD (played rate sampleRate n))) := by
  have index : n * rate.toNat / sampleRate.toNat % length % 128 = played rate sampleRate n :=
    (Nat.mod_mod _ _).trans (Nat.mod_eq_of_lt (played_lt lt))
  rw [render, Array.getElem?_map, Array.getElem?_range, if_pos lt, Option.map_some, bit_eq, index]

/-- No product that occurs is too large for 64 bits. -/
theorem mul_lt_size (sampleRate : UInt32) : 128 * sampleRate.toNat < UInt64.size := by
  have narrow := sampleRate.toNat_lt
  have wide : UInt64.size = 2 ^ 64 := rfl
  omega

theorem render?_eq (p : Pattern) (rate sampleRate : UInt32) :
    p.render? rate sampleRate = some (p.render rate sampleRate) := by
  unfold render?
  split
  · next zero =>
    have size := size_render p rate sampleRate
    rw [periodLength_eq_zero zero, Array.size_eq_zero_iff] at size
    rw [size]
  · next nonzero =>
    rw [not_or, ← UInt32.toNat_inj, ← UInt32.toNat_inj] at nonzero
    have rate_pos : 0 < rate.toNat := Nat.pos_of_ne_zero nonzero.1
    have sampleRate_pos : 0 < sampleRate.toNat := Nat.pos_of_ne_zero nonzero.2
    obtain ⟨count, counted, count_eq⟩ := mulDiv?_eq_some (a := 128) rfl sampleRate.toNat_toUInt64
      rate.toNat_toUInt64 (mul_lt_size sampleRate) rate_pos
    have sampled : ∀ n ∈ List.range count.toNat, (do
        let index ← mulDiv? (UInt64.ofNat n) rate.toUInt64 sampleRate.toUInt64
        return Sample.ofBit (p.bit (index.toNat % 128))) =
          some (.ofBit (p.bit (n * rate.toNat / sampleRate.toNat % length))) := by
      intro n mem
      rw [List.mem_range, count_eq] at mem
      have fits : n * rate.toNat < UInt64.size :=
        Nat.lt_trans (mul_rate_lt mem) (mul_lt_size sampleRate)
      have small : n < UInt64.size := Nat.lt_of_le_of_lt (Nat.le_mul_of_pos_right n rate_pos) fits
      obtain ⟨index, found, index_eq⟩ := mulDiv?_eq_some (UInt64.toNat_ofNat_of_lt' small)
        rate.toNat_toUInt64 sampleRate.toNat_toUInt64 fits sampleRate_pos
      rw [found, Option.bind_eq_bind, Option.bind_some, index_eq]
      rfl
    rw [counted, Option.bind_eq_bind, Option.bind_some, mapM_eq_some sampled, count_eq]
    rw [render, ← List.toArray_range, List.map_toArray]
    rfl

/-! ## Runs of samples -/

/-- The two divisions are about the same comparison. -/
theorem firstOf_le_iff (rate_pos : 0 < rate.toNat) (sampleRate_pos : 0 < sampleRate.toNat) :
    firstOf rate sampleRate b ≤ n ↔ b ≤ played rate sampleRate n := by
  rw [firstOf, ceilDiv_le_iff_le_mul rate_pos, played, Nat.le_div_iff_mul_le sampleRate_pos,
    Nat.mul_comm n]

/-- A bit is played from its first sample to that of the next bit. -/
theorem played_eq_iff (rate_pos : 0 < rate.toNat) (sampleRate_pos : 0 < sampleRate.toNat) :
    played rate sampleRate n = b ↔
      firstOf rate sampleRate b ≤ n ∧ n < firstOf rate sampleRate (b + 1) := by
  rw [← Nat.not_le, firstOf_le_iff rate_pos sampleRate_pos, firstOf_le_iff rate_pos sampleRate_pos]
  omega

/-- With at least a sample for each bit, a bit begins before the next one. -/
theorem firstOf_lt_succ (rate_pos : 0 < rate.toNat) (le : rate ≤ sampleRate) (b : Nat) :
    firstOf rate sampleRate b < firstOf rate sampleRate (b + 1) := by
  rw [UInt32.le_iff_toNat_le] at le
  have sampleRate_pos : 0 < sampleRate.toNat := Nat.lt_of_lt_of_le rate_pos le
  rw [← Nat.not_le, firstOf_le_iff rate_pos sampleRate_pos, Nat.not_le, played,
    Nat.div_lt_iff_lt_mul sampleRate_pos, Nat.add_mul]
  have rounded : firstOf rate sampleRate b * rate.toNat ≤
      b * sampleRate.toNat + rate.toNat - 1 := Nat.div_mul_le_self _ _
  omega

/-- With at least a sample for each bit, all bits begin within the period or at its end. -/
theorem firstOf_le_periodLength (rate_pos : 0 < rate.toNat) (le : rate ≤ sampleRate)
    (lt : b < 128) : firstOf rate sampleRate b ≤ periodLength rate sampleRate := by
  rw [UInt32.le_iff_toNat_le] at le
  rw [firstOf, ceilDiv_le_iff_le_mul rate_pos]
  have cut : 128 * sampleRate.toNat <
      rate.toNat * periodLength rate sampleRate + rate.toNat := Nat.lt_mul_div_succ _ rate_pos
  have below : b * sampleRate.toNat + sampleRate.toNat ≤ 128 * sampleRate.toNat := by
    rw [← Nat.succ_mul]
    exact Nat.mul_le_mul_right _ lt
  omega

/-- The samples of a period that play a bit. -/
theorem filter_played (rate_pos : 0 < rate.toNat) (sampleRate_pos : 0 < sampleRate.toNat)
    (b : Nat) :
    {n ∈ Finset.range (periodLength rate sampleRate) | played rate sampleRate n = b} =
      Finset.Ico (firstOf rate sampleRate b)
        (min (firstOf rate sampleRate (b + 1)) (periodLength rate sampleRate)) := by
  ext n
  rw [Finset.mem_filter, Finset.mem_range, Finset.mem_Ico, Nat.lt_min,
    played_eq_iff rate_pos sampleRate_pos]
  tauto

/-- The period ends before the first sample that would play a bit behind the last one. -/
theorem periodLength_le_firstOf (rate_pos : 0 < rate.toNat)
    (sampleRate_pos : 0 < sampleRate.toNat) :
    periodLength rate sampleRate ≤ firstOf rate sampleRate 128 := by
  rw [← Nat.not_lt]
  intro lt
  have reached : 128 ≤ played rate sampleRate (firstOf rate sampleRate 128) :=
    (firstOf_le_iff rate_pos sampleRate_pos).1 (Nat.le_refl _)
  exact Nat.lt_irrefl 128 (Nat.lt_of_le_of_lt reached (played_lt lt))

/-- All bits but the last one have all their samples within the period. -/
theorem filter_played_of_lt (rate_pos : 0 < rate.toNat) (le : rate ≤ sampleRate) (lt : b < 127) :
    {n ∈ Finset.range (periodLength rate sampleRate) | played rate sampleRate n = b} =
      Finset.Ico (firstOf rate sampleRate b) (firstOf rate sampleRate (b + 1)) := by
  have within : firstOf rate sampleRate (b + 1) ≤ periodLength rate sampleRate :=
    firstOf_le_periodLength rate_pos le (by omega)
  rw [filter_played rate_pos (Nat.lt_of_lt_of_le rate_pos (UInt32.le_iff_toNat_le.1 le)),
    Nat.min_eq_left within]

/-- The samples of the last bit end with the period. -/
theorem filter_played_last (rate_pos : 0 < rate.toNat) (sampleRate_pos : 0 < sampleRate.toNat) :
    {n ∈ Finset.range (periodLength rate sampleRate) | played rate sampleRate n = 127} =
      Finset.Ico (firstOf rate sampleRate 127) (periodLength rate sampleRate) := by
  rw [filter_played rate_pos sampleRate_pos,
    Nat.min_eq_right (periodLength_le_firstOf rate_pos sampleRate_pos)]

/-- One period of a pattern at any rates. Each sample plays the bit that it has to, and none of the
    products on the way is too large for 64 bits. The bits are played one after the other; if there
    is at least a sample for each bit, a bit has one or more samples in a row, but the last bit may
    have none. -/
theorem render_exact (p : Pattern) (rate sampleRate : UInt32) :
    let R := rate.toNat
    let S := sampleRate.toNat
    let L := 128 * S / R
    let index (n : Nat) := n * R / S
    let samples := p.render rate sampleRate
    p.render? rate sampleRate = some samples ∧
    (rate = 0 ∨ sampleRate = 0 → samples = #[]) ∧
    (0 < rate → 0 < sampleRate →
      samples.size = L ∧
      (∀ n < L, index n < 128 ∧
        samples[n]? =
          some (.ofBit ((p.low.toBitVec ++ p.high.toBitVec).getMsbD (index n)))) ∧
      128 * S < UInt64.size ∧ (∀ n < L, n * R < UInt64.size) ∧
      index 0 = 0 ∧ Monotone index ∧
      (rate ≤ sampleRate →
        (∀ b ≤ 126,
          {n ∈ Finset.range L | index n = b} =
            Finset.Ico (b * S ⌈/⌉ R) ((b + 1) * S ⌈/⌉ R) ∧
          1 ≤ (b + 1) * S ⌈/⌉ R - b * S ⌈/⌉ R) ∧
        {n ∈ Finset.range L | index n = 127} = Finset.Ico (127 * S ⌈/⌉ R) L ∧
        127 * S ⌈/⌉ R ≤ L)) ∧
    ∃ rate sampleRate : UInt32, 0 < rate ∧ rate ≤ sampleRate ∧
      {n ∈ Finset.range (periodLength rate sampleRate) | played rate sampleRate n = 127} = ∅ := by
  intro R S L index samples
  have size : samples.size = L := size_render p rate sampleRate
  refine ⟨render?_eq p rate sampleRate, ?_, ?_, 199, 200, by decide, by decide, ?_⟩
  · intro zero
    rw [← Array.size_eq_zero_iff, size]
    exact periodLength_eq_zero zero
  · intro rate_pos sampleRate_pos
    have rate_pos : 0 < R := UInt32.lt_iff_toNat_lt.1 rate_pos
    have sampleRate_pos : 0 < S := UInt32.lt_iff_toNat_lt.1 sampleRate_pos
    refine ⟨size, fun n lt => ⟨played_lt lt, getElem?_render p lt⟩, mul_lt_size sampleRate,
      fun n lt => Nat.lt_trans (mul_rate_lt lt) (mul_lt_size sampleRate), ?_,
      fun m n le => played_mono le, ?_⟩
    · simp only [index, Nat.zero_mul, Nat.zero_div]
    · intro le
      refine ⟨?_, filter_played_last rate_pos sampleRate_pos,
        firstOf_le_periodLength rate_pos le (by decide)⟩
      intro b small
      exact ⟨filter_played_of_lt rate_pos le (Nat.lt_succ_of_le small),
        Nat.sub_pos_of_lt (firstOf_lt_succ rate_pos le b)⟩
  · rw [filter_played_last (by decide) (by decide)]
    decide

/-- A period of 170 samples, which plays its first bit twice and its second once; and one of which
    the last bit is cut off. -/
theorem render_exact_uneven :
    let p : Pattern := ⟨0x8000000000000000, 0⟩
    (p.render 3 4).size = 170 ∧ (p.render 3 4)[1]? = some .high ∧ (p.render 3 4)[2]? = some .low ∧
      {n ∈ Finset.range 170 | n * 3 / 4 = 0} = Finset.Ico 0 2 ∧
      {n ∈ Finset.range 170 | n * 3 / 4 = 1} = Finset.Ico 2 3 ∧
      {n ∈ Finset.range 128 | n * 199 / 200 = 127} = ∅ := by
  intro p
  obtain ⟨-, -, uneven, -⟩ := render_exact p 3 4
  obtain ⟨size, plays, -, -, -, -, runs⟩ := uneven (by decide) (by decide)
  obtain ⟨runs, -⟩ := runs (by decide)
  obtain ⟨-, -, clipped, -⟩ := render_exact p 199 200
  obtain ⟨-, -, -, -, -, -, clipped⟩ := clipped (by decide) (by decide)
  obtain ⟨-, last, -⟩ := clipped (by decide)
  have second := (plays 1 (by decide)).2
  have third := (plays 2 (by decide)).2
  exact ⟨size, second.trans (by decide), third.trans (by decide), (runs 0 (by decide)).1,
    (runs 1 (by decide)).1, last⟩

end Pattern

end XoChip
