import Mathlib.Data.List.Nodup
import XoChip.Machine.Registers

/-!
# Ranges of registers

A range of registers goes up or down, and every register of it stands where its distance from the
first one says. So setting the registers of a range one after the other sets each of them once.
-/

namespace XoChip

/-! ## Ranges -/

namespace Register

variable {x y r : Register}

/-- The registers from `x` to `y`, in either direction. -/
def Between (x y r : Register) : Prop := x ≤ r ∧ r ≤ y ∨ y ≤ r ∧ r ≤ x

instance (x y r : Register) : Decidable (Between x y r) := inferInstanceAs (Decidable (_ ∨ _))

/-- How far a register is from another one, in either direction. -/
def distance (x r : Register) : Nat := max x.val r.val - min x.val r.val

theorem between_comm : Between x y r ↔ Between y x r := or_comm

theorem between_zero_iff : Between 0 x r ↔ r ≤ x := by
  simp only [Between, Fin.le_def, Fin.val_zero]
  omega

theorem distance_zero (r : Register) : distance 0 r = r.val := by
  simp only [distance, Fin.val_zero]
  omega

theorem distance_lt (x r : Register) : distance x r < 16 := by
  have hx := x.isLt
  have hr := r.isLt
  unfold distance
  omega

theorem range_eq (x y : Register) :
    range x y =
      (List.range (distance x y + 1)).map fun k =>
        Fin.ofNat 16 (if x ≤ y then x.val + k else x.val - k) := by
  unfold range distance
  split
  · next le =>
    have count : max x.val y.val - min x.val y.val = y.val - x.val := by omega
    simp only [count, if_pos (Fin.le_def.2 le)]
  · next gt =>
    have count : max x.val y.val - min x.val y.val = x.val - y.val := by omega
    simp only [count, if_neg (mt Fin.le_def.1 gt)]

theorem range_zero (x : Register) : range 0 x = (List.range (x.val + 1)).map (Fin.ofNat 16) := by
  rw [range_eq]
  simp only [distance_zero, if_pos (Fin.zero_le x), Fin.val_zero, Nat.zero_add]

theorem length_range (x y : Register) :
    (range x y).length = max x.val y.val - min x.val y.val + 1 := by
  rw [range_eq, List.length_map, List.length_range, distance]

/-- A register of a range stands in it where its distance from the first one says. -/
theorem getElem?_range_eq_some_iff {k : Nat} :
    (range x y)[k]? = some r ↔ Between x y r ∧ k = distance x r := by
  have hx := x.isLt
  have hy := y.isLt
  have hr := r.isLt
  rw [range_eq, List.getElem?_map]
  simp only [Between, Fin.le_def]
  by_cases short : k < distance x y + 1
  · rw [List.getElem?_range short, Option.map_some, Option.some_inj, Fin.ext_iff, Fin.val_ofNat]
    unfold distance at short ⊢
    split
    · omega
    · omega
  · rw [List.getElem?_eq_none (by rw [List.length_range]; omega)]
    unfold distance at short ⊢
    refine ⟨nofun, ?_⟩
    rintro ⟨between, rfl⟩
    omega

theorem mem_range : r ∈ range x y ↔ Between x y r := by
  rw [List.mem_iff_getElem?]
  constructor
  · rintro ⟨k, there⟩
    exact (getElem?_range_eq_some_iff.1 there).1
  · intro between
    exact ⟨_, getElem?_range_eq_some_iff.2 ⟨between, rfl⟩⟩

theorem nodup_range (x y : Register) : (range x y).Nodup := by
  rw [List.nodup_iff_getElem?_ne_getElem?]
  intro i j lt short same
  have there := List.getElem?_eq_getElem short
  have far := (getElem?_range_eq_some_iff.1 there).2
  have near := (getElem?_range_eq_some_iff.1 (same.trans there)).2
  omega

theorem idxOf_range (h : Between x y r) : (range x y).idxOf r = distance x r := by
  obtain ⟨short, there⟩ := List.getElem?_eq_some_iff.1 (getElem?_range_eq_some_iff.2 ⟨h, rfl⟩)
  have found := (nodup_range x y).idxOf_getElem (distance x r) short
  rwa [there] at found

end Register

/-! ## Several registers -/

namespace Registers

theorem getElem?_val (v : Registers) (r : Register) : v[r.val]? = some (v.get r) :=
  Vector.getElem?_eq_getElem r.isLt

theorem get_set (v : Registers) {index : Nat} (h : index < 16) (b : UInt8) (r : Register) :
    (v.set index b h).get r = if index = r.val then b else v.get r :=
  Vector.getElem_set h r.isLt

/-- What setting several registers, each of them once, leaves in one of them. -/
theorem get_setMany (v : Registers) {registers : List Register} {values : List UInt8}
    (nodup : registers.Nodup) (length : values.length = registers.length) (r : Register) :
    (v.setMany (registers.zip values)).get r =
      (values[registers.idxOf r]?).getD (v.get r) := by
  -- The registers behind the first one do not set it again, since they are different from it.
  induction registers generalizing v values with
  | nil =>
    rw [List.length_nil, List.length_eq_zero_iff] at length
    subst length
    rfl
  | cons first registers ih =>
    obtain ⟨b, values, rfl⟩ := List.exists_cons_of_length_eq_add_one length
    obtain ⟨absent, nodup⟩ := List.nodup_cons.1 nodup
    have length : values.length = registers.length := Nat.succ.inj length
    rw [List.zip_cons_cons, setMany, ih _ nodup length, get_set]
    by_cases same : first = r
    · subst same
      have last : values[registers.idxOf first]? = none := by
        rw [List.idxOf_of_notMem absent, ← length]
        exact List.getElem?_eq_none (Nat.le_refl _)
      rw [last, if_pos rfl, List.idxOf_cons_self]
      rfl
    · rw [if_neg (fun h => same (Fin.ext h)), List.idxOf_cons_ne _ same, Nat.succ_eq_add_one,
        List.getElem?_cons_succ]

/-- What setting the registers of a range leaves in one of them. -/
theorem get_setMany_range (v : Registers) {x y : Register} {values : List UInt8}
    (length : values.length = (Register.range x y).length) (r : Register) :
    (v.setMany ((Register.range x y).zip values)).get r =
      if Register.Between x y r then (values[Register.distance x r]?).getD (v.get r)
      else v.get r := by
  rw [get_setMany v (Register.nodup_range x y) length]
  split
  · next between => rw [Register.idxOf_range between]
  · next beside =>
    rw [List.idxOf_of_notMem (mt Register.mem_range.1 beside),
      List.getElem?_eq_none (Nat.le_of_eq length)]
    rfl

/-! ## The first registers -/

theorem length_upTo (v : Registers) (x : Register) : (v.upTo x).length = x.val + 1 := by
  have lt := x.isLt
  rw [upTo, List.length_take, Vector.length_toList]
  omega

theorem getElem?_upTo (v : Registers) (x r : Register) :
    (v.upTo x)[r.val]? = if r ≤ x then some (v.get r) else none := by
  rw [upTo, List.getElem?_take, Vector.getElem?_toList, getElem?_val]
  simp only [Fin.le_def, Nat.lt_succ_iff]

/-- The values of the first registers, read one by one. -/
theorem upTo_eq (v : Registers) (x : Register) : v.upTo x = (Register.range 0 x).map v.get := by
  rw [upTo, Register.range_zero, List.map_map]
  apply List.ext_getElem?
  intro k
  rw [List.getElem?_take, List.getElem?_map]
  have hx := x.isLt
  by_cases lt : k < x.val + 1
  · have mod_eq : k % 16 = k := Nat.mod_eq_of_lt (by omega)
    have lt_size : k < 16 := by omega
    rw [if_pos lt, List.getElem?_range lt]
    simp [Vector.get, mod_eq, lt_size]
  · rw [if_neg lt, List.getElem?_eq_none (by rw [List.length_range]; omega)]
    rfl

/-- Setting the first registers to those of another file. -/
theorem get_setFirst (v w : Registers) (x r : Register) :
    (v.setFirst (w.upTo x)).get r = if r ≤ x then w.get r else v.get r := by
  show (v.setFirst (w.upTo x))[r.val] = _
  rw [setFirst, Vector.getElem_ofFn, getElem?_upTo]
  split <;> rfl

/-- Setting the first registers one after the other sets them all. -/
theorem setMany_range_zero (v : Registers) (x : Register) {values : List UInt8}
    (length : values.length = x.val + 1) :
    v.setMany ((Register.range 0 x).zip values) = v.setFirst values := by
  have count : (Register.range 0 x).length = x.val + 1 := by
    rw [Register.range_zero, List.length_map, List.length_range]
  apply Vector.ext
  intro k lt
  have set := get_setMany_range v (length.trans count.symm) ⟨k, lt⟩
  simp only [Register.between_zero_iff, Register.distance_zero] at set
  rw [setFirst, Vector.getElem_ofFn]
  refine set.trans ?_
  split
  · rfl
  · next gt =>
    rw [Fin.le_def] at gt
    rw [List.getElem?_eq_none (by rw [length]; omega)]
    rfl

end Registers

end XoChip
