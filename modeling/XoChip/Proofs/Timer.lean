import XoChip.Timer

/-!
# Readings of the delay timer

A timer that was set to `n` shows `n` less the whole ticks since then, and never less than zero.
Bringing it up to date moves its mark but not what it will show: on a clock that only moves
forward, a timer that is read and one that is left alone agree for ever.
-/

namespace XoChip

theorem tickNanos_pos : 0 < tickNanos := by decide

namespace Timer

variable {t u : Timer} {now later : Nat}

theorem elapsed_mono (t : Timer) (h : now ≤ later) : t.elapsed now ≤ t.elapsed later :=
  Nat.div_le_div_right (Nat.sub_le_sub_right h _)

/-- What a timer shows: its ticks less those that have passed. -/
theorem toNat_left (t : Timer) (now : Nat) :
    (t.left now).toNat = t.ticks.toNat - t.elapsed now := by
  unfold left settle
  split
  · next expired => rw [Nat.sub_eq_zero_of_le expired]; rfl
  · next running =>
    have lt_size := t.ticks.toNat_lt
    have toNat_elapsed : (UInt8.ofNat (t.elapsed now)).toNat = t.elapsed now := by
      rw [UInt8.toNat_ofNat']
      omega
    rw [UInt8.toNat_sub_of_le, toNat_elapsed]
    rw [UInt8.le_iff_toNat_le, toNat_elapsed]
    omega

theorem left_eq_iff : t.left now = u.left later ↔
    t.ticks.toNat - t.elapsed now = u.ticks.toNat - u.elapsed later := by
  rw [← UInt8.toNat_inj, toNat_left, toNat_left]

/-- The ticks that pass after a timer was brought up to date are those that it had not counted. -/
theorem elapsed_settle (t : Timer) (running : t.elapsed now < t.ticks.toNat) (later : Nat) :
    (t.settle now).elapsed later = t.elapsed later - t.elapsed now := by
  rw [settle, if_neg (Nat.not_le.2 running)]
  simp only [elapsed]
  rw [← Nat.sub_sub, Nat.sub_mul_div]

/-- Bringing a timer up to date does not change what it shows later. -/
theorem left_settle (t : Timer) (h : now ≤ later) :
    (t.settle now).left later = t.left later := by
  rw [left_eq_iff]
  by_cases running : t.elapsed now < t.ticks.toNat
  · rw [elapsed_settle t running]
    have shown := toNat_left t now
    have mono := elapsed_mono t h
    unfold left at shown
    rw [shown]
    omega
  · have mono := elapsed_mono t h
    rw [settle, if_pos (Nat.not_lt.1 running)]
    simp only [UInt8.toNat_zero]
    omega

/-- The mark moves with the time, but never past it. -/
theorem mark_settle_le (t : Timer) (h : t.mark ≤ now) : (t.settle now).mark ≤ now := by
  unfold settle
  split
  · exact Nat.le_refl now
  · have whole : tickNanos * ((now - t.mark) / tickNanos) ≤ now - t.mark := Nat.mul_div_le _ _
    rw [elapsed]
    dsimp only
    omega

/-- A timer that has just been set shows what it was set to. -/
theorem left_start (ticks : UInt8) (now : Nat) : (start ticks now).left now = ticks := by
  rw [← UInt8.toNat_inj, toNat_left, start, elapsed, Nat.sub_self, Nat.zero_div, Nat.sub_zero]

theorem elapsed_start (ticks : UInt8) (now later : Nat) :
    (start ticks now).elapsed later = (later - now) / tickNanos := rfl

/-! ## Timers that cannot be told apart -/

/-- From `now` on, two timers show the same. -/
def AgreeFrom (now : Nat) (t u : Timer) : Prop := ∀ later, now ≤ later → t.left later = u.left later

namespace AgreeFrom

theorem refl (now : Nat) (t : Timer) : AgreeFrom now t t := fun _ _ => rfl

theorem symm (h : AgreeFrom now t u) : AgreeFrom now u t := fun later le => (h later le).symm

theorem trans {w : Timer} (h : AgreeFrom now t u) (h' : AgreeFrom now u w) : AgreeFrom now t w :=
  fun later le => (h later le).trans (h' later le)

/-- Timers that agree from one moment on agree from every later one on. -/
theorem mono (h : AgreeFrom now t u) (le : now ≤ later) : AgreeFrom later t u :=
  fun moment le' => h moment (Nat.le_trans le le')

end AgreeFrom

/-- Bringing a timer up to date cannot be noticed. -/
theorem agreeFrom_settle (now : Nat) (t : Timer) : AgreeFrom now t (t.settle now) :=
  fun _ le => (left_settle t le).symm

/-- A timer set anew to what another one shows agrees with that one, unless a part of a tick was
    pending there. -/
theorem agreeFrom_start (whole : t.left now = 0 ∨ ∃ k, now = t.mark + k * tickNanos) :
    AgreeFrom now t (start (t.left now) now) := by
  intro later le
  rw [left_eq_iff, elapsed_start, start, toNat_left]
  have mono := elapsed_mono t le
  rcases whole with expired | ⟨k, rfl⟩
  · have zero : t.ticks.toNat - t.elapsed now = 0 := by
      rw [← toNat_left, expired]
      rfl
    rw [zero, Nat.zero_sub]
    omega
  · have elapsed_now : t.elapsed (t.mark + k * tickNanos) = k := by
      rw [elapsed, Nat.add_sub_cancel_left, Nat.mul_div_cancel _ tickNanos_pos]
    have elapsed_later :
        t.elapsed later = k + (later - (t.mark + k * tickNanos)) / tickNanos := by
      rw [elapsed, Nat.sub_add_eq, Nat.mul_comm k, Nat.sub_mul_div]
      have le_elapsed : k ≤ (later - t.mark) / tickNanos := by
        rw [Nat.le_div_iff_mul_le tickNanos_pos]
        omega
      omega
    rw [elapsed_now, elapsed_later]
    omega

/-- From `now` on, the second timer is behind the first one by at most one tick. -/
def BehindFrom (now : Nat) (t u : Timer) : Prop :=
  ∀ later, now ≤ later →
    t.left later ≤ u.left later ∧ (u.left later).toNat ≤ (t.left later).toNat + 1

/-- Whatever was pending, a timer set anew to what another one shows is behind that one by at most
    one tick. -/
theorem behindFrom_start (t : Timer) (marked : t.mark ≤ now) :
    BehindFrom now t (start (t.left now) now) := by
  intro later le
  -- The time since the mark is split at `now`; rounding both parts loses at most one tick.
  have split : later - t.mark = now - t.mark + (later - now) := by omega
  have elapsed_later : t.elapsed later = t.elapsed now + (later - now) / tickNanos +
      if tickNanos ≤ (now - t.mark) % tickNanos + (later - now) % tickNanos then 1 else 0 := by
    rw [elapsed, elapsed, split, Nat.add_div tickNanos_pos]
  rw [UInt8.le_iff_toNat_le]
  simp only [toNat_left, elapsed_start]
  rw [start, toNat_left, elapsed_later]
  generalize (later - now) / tickNanos = since
  split <;> omega

end Timer

end XoChip
