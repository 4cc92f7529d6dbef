import XoChip.Proofs.Timer

/-!
# A timer that is read again and again

Every reading moves the mark of a timer, and the next one starts from there. On a clock that only moves
forward this makes no difference to what is shown; on one that jumps back, what is shown never goes up.
The arithmetic is done once more with machine numbers, in which sums, products and differences may have
no result, to see that they always have one.
-/

namespace XoChip

namespace Timer

/-- What a timer shows when it is read at one moment after the other. -/
def shown : List Nat → Timer → List UInt8
  | [], _ => []
  | now :: later, t => (t.settle now).ticks :: shown later (t.settle now)

/-! ## Forward -/

/-- On a clock that only moves forward, a reading depends on no other one. -/
theorem shown_eq_map {readings : List Nat} (forward : readings.Pairwise (· ≤ ·)) (t : Timer) :
    shown readings t = readings.map t.left := by
  induction forward generalizing t with
  | nil => rfl
  | @cons now later le _ ih =>
    have same : later.map (t.settle now).left = later.map t.left :=
      List.map_congr_left fun moment mem => left_settle t (le moment mem)
    rw [shown, ih, same]
    rfl

/-! ## Back and forth -/

/-- A reading never adds ticks. -/
theorem ticks_settle_le (t : Timer) (now : Nat) : (t.settle now).ticks ≤ t.ticks := by
  have left := toNat_left t now
  rw [UInt8.le_iff_toNat_le, ← Timer.left, left]
  exact Nat.sub_le _ _

theorem le_of_mem_shown {readings : List Nat} {t : Timer} : ∀ b ∈ shown readings t, b ≤ t.ticks := by
  induction readings generalizing t with
  | nil => nofun
  | cons now later ih =>
    have le := ticks_settle_le t now
    intro b mem
    rcases List.mem_cons.1 mem with rfl | mem
    · exact le
    · exact UInt8.le_trans (ih b mem) le

/-- Whatever the clock does, no reading is higher than one before it. -/
theorem pairwise_shown (readings : List Nat) (t : Timer) :
    (shown readings t).Pairwise fun before after => after ≤ before := by
  induction readings generalizing t with
  | nil => exact .nil
  | cons now later ih => exact .cons le_of_mem_shown (ih (t.settle now))

/-- A timer that has shown zero goes on to show zero. -/
theorem eq_zero_of_shown {readings : List Nat} {t : Timer} {before after : List UInt8}
    (expired : shown readings t = before ++ 0 :: after) : ∀ b ∈ after, b = 0 := by
  have falling := pairwise_shown readings t
  rw [expired] at falling
  obtain ⟨-, falling, -⟩ := List.pairwise_append.1 falling
  intro b mem
  exact UInt8.le_zero_iff.1 ((List.pairwise_cons.1 falling).1 b mem)

/-! ## Machine numbers -/

/-- The longest span of time that can be told, a nanosecond less than `2 ^ 64` seconds. -/
def spanMax : Nat := UInt64.size * 1000000000 - 1

/-- The most nanoseconds that can be counted, in 128 bits. -/
def nanosMax : Nat := UInt64.size * UInt64.size - 1

/-- A number, absent if it is too large. -/
def atMost? (max n : Nat) : Option Nat := if n ≤ max then some n else none

/-- Bring a timer up to date with machine numbers. The ticks that have passed are cut down to 8 bits
    for the ticks that are left, and to 32 bits for the mark; a negative difference has no result, and
    neither has a span that cannot be told. -/
def settle? (t : Timer) (now : Nat) : Option Timer := do
  let elapsed ← atMost? nanosMax (now - t.mark)
  let passed := elapsed / tickNanos
  if t.ticks.toNat ≤ passed then return ⟨0, now⟩
  else
    let ticks ← if UInt8.ofNat passed ≤ t.ticks then some (t.ticks - UInt8.ofNat passed) else none
    let moved ← atMost? spanMax (tickNanos * (UInt32.ofNat passed).toNat)
    let mark ← atMost? spanMax (t.mark + moved)
    return ⟨ticks, mark⟩

/-- What a timer shows, with machine numbers. -/
def shown? : List Nat → Timer → Option (List UInt8)
  | [], _ => some []
  | now :: later, t => do
    let t ← t.settle? now
    let rest ← shown? later t
    return t.ticks :: rest

theorem atMost?_eq {max n : Nat} (h : n ≤ max) : atMost? max n = some n := if_pos h

theorem settle?_eq {t : Timer} {now : Nat} (marked : t.mark ≤ spanMax) (read : now ≤ spanMax) :
    t.settle? now = some (t.settle now) := by
  have whole : tickNanos * t.elapsed now ≤ now - t.mark := Nat.mul_div_le _ _
  have wide : spanMax ≤ nanosMax := by decide
  rw [settle?, atMost?_eq (by omega), settle]
  simp only [Option.bind_eq_bind, Option.bind_some]
  rw [← elapsed]
  split
  · rfl
  · next running =>
    have lt_size := t.ticks.toNat_lt
    have byte : (UInt8.ofNat (t.elapsed now)).toNat = t.elapsed now := by
      rw [UInt8.toNat_ofNat']
      omega
    have word : (UInt32.ofNat (t.elapsed now)).toNat = t.elapsed now := by
      rw [UInt32.toNat_ofNat']
      omega
    have fits : UInt8.ofNat (t.elapsed now) ≤ t.ticks := by
      rw [UInt8.le_iff_toNat_le, byte]
      omega
    rw [if_pos fits, word, atMost?_eq (by omega)]
    simp only [Option.bind_some]
    rw [atMost?_eq (by omega)]
    rfl

/-- A reading never moves the mark past the moment at which it is made. -/
theorem mark_settle_le_max (t : Timer) (now : Nat) : (t.settle now).mark ≤ max t.mark now := by
  have whole : tickNanos * t.elapsed now ≤ now - t.mark := Nat.mul_div_le _ _
  unfold settle
  split
  · exact Nat.le_max_right _ _
  · dsimp only
    omega

theorem shown?_eq {readings : List Nat} {t : Timer} (marked : t.mark ≤ spanMax)
    (read : ∀ now ∈ readings, now ≤ spanMax) : shown? readings t = some (shown readings t) := by
  induction readings generalizing t with
  | nil => rfl
  | cons now later ih =>
    obtain ⟨read_now, read_later⟩ := List.forall_mem_cons.1 read
    have mark_le := mark_settle_le_max t now
    have marked_later : (t.settle now).mark ≤ spanMax := by omega
    rw [shown?, settle?_eq marked read_now]
    simp only [Option.bind_eq_bind, Option.bind_some, ih marked_later read_later]
    rfl

/-- A clock of 64 bits does not reach the longest span. -/
theorem now_le_spanMax (c : Clock) : c.now ≤ spanMax := by
  have lt : c.now < UInt64.size := c.nanos.toNat_lt
  have le : UInt64.size ≤ spanMax := by decide
  omega

/-- A timer that was set to `n` shows `n` less the whole ticks since then, however often it was read
    before, as long as the clock only moves forward. Whatever the clock does, what is shown never goes
    up, and zero stays; every number that is worked out on the way exists, and no reading moves the mark
    past the moment at which it is made. -/
theorem countdown_exact :
    (∀ (n : UInt8) (m : Nat) (readings : List Nat), readings.Pairwise (· ≤ ·) →
      (shown readings (start n m)).map UInt8.toNat =
        readings.map fun now => n.toNat - (now - m) / 16666667) ∧
    (∀ (t : Timer) (readings : List Nat),
      ((shown readings t).Pairwise fun before after => after ≤ before) ∧
      ∀ before after, shown readings t = before ++ 0 :: after → ∀ b ∈ after, b = 0) ∧
    (∀ (t : Timer) (readings : List Nat), t.mark ≤ spanMax → (∀ now ∈ readings, now ≤ spanMax) →
      shown? readings t = some (shown readings t)) ∧
    ∀ (t : Timer) (now : Nat), (t.settle now).mark ≤ max t.mark now := by
  refine ⟨?_, ?_, fun t readings marked read => shown?_eq marked read, mark_settle_le_max⟩
  · intro n m readings forward
    rw [shown_eq_map forward, List.map_map]
    apply List.map_congr_left
    intro now _
    exact toNat_left (start n m) now
  · intro t readings
    exact ⟨pairwise_shown readings t, fun before after => eq_zero_of_shown⟩

/-- A timer set to three that is read twice at one moment and once a nanosecond before its last tick;
    and one whose clock jumps back, before and after it has expired. -/
theorem countdown_exact_jumping :
    let t := start 3 10
    let forward := [20000010, 20000010, 50000010, 50000011]
    let clocks : List Clock := [⟨20000010⟩, ⟨5⟩, ⟨60000000⟩, ⟨0⟩, ⟨16666677⟩]
    let jumping := clocks.map Clock.now
    forward.Pairwise (· ≤ ·) ∧ (shown forward t).map UInt8.toNat = [2, 2, 1, 0] ∧
      t.mark ≤ spanMax ∧ (∀ now ∈ jumping, now ≤ spanMax) ∧
      shown? jumping t = some (shown jumping t) ∧ shown jumping t = [2, 2] ++ 0 :: [0, 0] ∧
      ∀ b ∈ [(0 : UInt8), 0], b = 0 := by
  intro t forward clocks jumping
  obtain ⟨exact_forward, falling, exists_all, -⟩ := countdown_exact
  have never_back : forward.Pairwise (· ≤ ·) := by decide
  have marked : t.mark ≤ spanMax := by decide
  have read : ∀ now ∈ jumping, now ≤ spanMax :=
    List.forall_mem_map.2 fun c _ => now_le_spanMax c
  have shows : shown jumping t = [2, 2] ++ 0 :: [0, 0] := by decide
  exact ⟨never_back, exact_forward 3 10 forward never_back, marked, read,
    exists_all t jumping marked read, shows, (falling t jumping).2 _ _ shows⟩

end Timer

end XoChip
