import Mathlib.Data.Nat.Bitwise
import XoChip.Instruction.Word
import XoChip.Proofs.Keypad.History

/-!
# Held keys and the log tell one story

Which keys are held is kept twice: as a mask, and, for keys that were touched lately, in the log.
`Keypad.Consistent` says that a key is held if its last touch was a press, and that the newest event
of a key in the log is a press exactly if the key is held. A touch keeps both, whatever number it
names and whether or not the log is full, and so does every sequence of touches.
-/

namespace XoChip

/-! ## Keys and their bits -/

namespace Key

theorem toNat_bit : ∀ k : Key, k.bit.toNat = 2 ^ k.val := by decide

theorem testBit_not_bit : ∀ j k : Key, (~~~j.bit).toNat.testBit k.val = decide (j ≠ k) := by
  decide

theorem ofByte?_eq_some_iff {n : UInt8} {k : Key} : ofByte? n = some k ↔ n.toNat = k.val := by
  have lt := k.isLt
  by_cases small : n.toNat < 16
  · simp [ofByte?, small, Fin.ext_iff]
  · simp only [ofByte?, small, dite_false, reduceCtorEq, false_iff]
    omega

theorem ofByte?_eq_none_iff {n : UInt8} : ofByte? n = none ↔ 16 ≤ n.toNat := by
  simp [ofByte?]

end Key

namespace KeyEvent

def key : KeyEvent → Key
  | down k | up k => k

/-- The mask of held keys after an event. -/
def mask (m : UInt16) : KeyEvent → UInt16
  | down k => m ||| k.bit
  | up k => m &&& ~~~k.bit

/-- An event settles whether its own key is held, and says nothing of the others. -/
theorem testBit_mask (m : UInt16) (e : KeyEvent) (k : Key) :
    (e.mask m).toNat.testBit k.val =
      if e.key = k then decide (e = .down k) else m.toNat.testBit k.val := by
  cases e with
  | down j =>
    by_cases same : j = k
    · simp [mask, key, same, Key.toNat_bit]
    · have apart : j.val ≠ k.val := fun h => same (Fin.ext h)
      simp [mask, key, same, Key.toNat_bit, Nat.testBit_two_pow_of_ne apart]
  | up j =>
    rw [mask, UInt16.toNat_and, Nat.testBit_and, Key.testBit_not_bit]
    by_cases same : j = k <;> simp [key, same]

end KeyEvent

namespace Keypad

/-! ## Last touches and newest events -/

/-- The number that a touch names, whether or not there is such a key. -/
def Touch.number : Touch → UInt8
  | press n | release n => n

/-- The last touch that names a number. -/
def lastTouch? (ts : List Touch) (n : UInt8) : Option Touch := ts.reverse.find? (·.number = n)

/-- The newest event of a key in a log. -/
def newest? (log : List (Nat × KeyEvent)) (k : Key) : Option KeyEvent :=
  (log.map Prod.snd).reverse.find? (·.key = k)

def holds (p : Keypad) (k : Key) : Bool := p.mask.toNat.testBit k.val

variable {p : Keypad} {n : UInt8} {ts : List Touch} {t : Touch} {e : KeyEvent} {k : Key}

/-- A key is held if its number is that of a key whose bit is set. -/
theorem isPressed_iff :
    p.isPressed n = true ↔ n.toNat < 16 ∧ p.mask.toNat.testBit n.toNat = true := by
  by_cases small : n.toNat < 16
  · have present := Key.ofByte?_eq_some_iff.2 (show n.toNat = (⟨_, small⟩ : Key).val from rfl)
    have masked : (p.mask &&& Key.bit ⟨n.toNat, small⟩).toNat =
        (p.mask.toNat.testBit n.toNat).toNat * 2 ^ n.toNat := by
      rw [UInt16.toNat_and, Key.toNat_bit, Nat.and_two_pow]
    rw [isPressed, present, bne_iff_ne, ne_eq, ← UInt16.toNat_inj, masked]
    simp [small]
  · have absent := Key.ofByte?_eq_none_iff.2 (Nat.le_of_not_lt small)
    simp [isPressed, absent, small]

@[simp] theorem lastTouch?_append (ts : List Touch) (t : Touch) (n : UInt8) :
    lastTouch? (ts ++ [t]) n = if t.number = n then some t else lastTouch? ts n := by
  by_cases names : t.number = n <;> simp [lastTouch?, names]

@[simp] theorem newest?_append (log : List (Nat × KeyEvent)) (entry : Nat × KeyEvent) (k : Key) :
    newest? (log ++ [entry]) k = if entry.2.key = k then some entry.2 else newest? log k := by
  by_cases own : entry.2.key = k <;> simp [newest?, own]

/-- An event that is the newest one among the younger entries is the newest one of all. -/
theorem newest?_of_drop {log : List (Nat × KeyEvent)} {count : Nat}
    (h : newest? (log.drop count) k = some e) : newest? log k = some e := by
  have younger : ((log.drop count).map Prod.snd).reverse <+: (log.map Prod.snd).reverse := by
    rw [List.reverse_prefix]
    exact (List.drop_suffix count log).map Prod.snd
  exact younger.find?_eq_some h

/-- A key with an entry in the log has a newest one. -/
theorem exists_newest? {log : List (Nat × KeyEvent)} (h : ∃ entry ∈ log, entry.2.key = k) :
    ∃ e, newest? log k = some e := by
  obtain ⟨entry, member, own⟩ := h
  rw [← Option.isSome_iff_exists, newest?, List.find?_isSome]
  exact ⟨entry.2, by simpa using ⟨entry.1, member⟩, by simpa using own⟩

theorem key_of_newest? {log : List (Nat × KeyEvent)} (h : newest? log k = some e) : e.key = k := by
  simpa using List.find?_some h

/-- A number without a key is ignored. -/
theorem touch_of_large (p : Keypad) (large : 16 ≤ t.number.toNat) : p.touch t = p := by
  have absent := Key.ofByte?_eq_none_iff.2 large
  cases t <;> simp_all [touch, press, release, Touch.number]

/-- A touch of a key is an event, which changes the mask and is recorded. -/
theorem exists_touch_eq (p : Keypad) (small : t.number.toNat < 16) :
    ∃ e : KeyEvent, e.key.val = t.number.toNat ∧ (e = .down e.key ↔ t = .press t.number) ∧
      p.touch t = { p with mask := e.mask p.mask }.record e := by
  have present := Key.ofByte?_eq_some_iff.2 (show t.number.toNat = (⟨_, small⟩ : Key).val from rfl)
  cases t with
  | press n =>
    refine ⟨.down ⟨n.toNat, small⟩, rfl, by simp [KeyEvent.key, Touch.number], ?_⟩
    simp_all [touch, press, Touch.number, KeyEvent.mask]
  | release n =>
    refine ⟨.up ⟨n.toNat, small⟩, rfl, by simp, ?_⟩
    simp_all [touch, release, Touch.number, KeyEvent.mask]

/-- A newest event is the one just recorded, or it was the newest one of its key before. -/
theorem newest?_record {e' : KeyEvent} (h : newest? (p.record e).log k = some e') :
    e.key = k ∧ e' = e ∨ e.key ≠ k ∧ newest? p.log k = some e' := by
  simp only [record, newest?_append] at h
  by_cases own : e.key = k
  · simp only [own, if_true, Option.some.injEq] at h
    exact .inl ⟨own, h.symm⟩
  · simp only [own, if_false] at h
    refine .inr ⟨own, ?_⟩
    split at h
    · exact newest?_of_drop h
    · exact h

/-! ## One story -/

/-- The mask tells of every key how it was touched last, and the log does not contradict it. -/
structure Consistent (p : Keypad) (ts : List Touch) : Prop where
  held : ∀ n : UInt8, n.toNat < 16 →
    (p.mask.toNat.testBit n.toNat = true ↔ lastTouch? ts n = some (.press n))
  newest : ∀ k e, newest? p.log k = some e → (e = .down k ↔ p.holds k = true)

theorem consistent_nil : Consistent {} [] where
  held := by simp [lastTouch?]
  newest := by simp [newest?]

namespace Consistent

/-- An event is recorded together with what it does to the mask. -/
theorem newest_record (h : p.Consistent ts) (e : KeyEvent) {e' : KeyEvent}
    (found : newest? ({ p with mask := e.mask p.mask }.record e).log k = some e') :
    e' = .down k ↔ ({ p with mask := e.mask p.mask }.record e).holds k = true := by
  have holds : ({ p with mask := e.mask p.mask }.record e).holds k =
      if e.key = k then decide (e = .down k) else p.holds k := e.testBit_mask p.mask k
  rcases newest?_record found with ⟨own, rfl⟩ | ⟨other, before⟩
  · simp [holds, own]
  · simpa [holds, other] using h.newest k e' before

theorem touch (h : p.Consistent ts) (t : Touch) : (p.touch t).Consistent (ts ++ [t]) := by
  by_cases small : t.number.toNat < 16
  · obtain ⟨e, number, pressed, after⟩ := exists_touch_eq p small
    rw [after]
    refine ⟨?_, fun k e' => h.newest_record e⟩
    intro n small_n
    have bit : (e.mask p.mask).toNat.testBit n.toNat =
        if e.key = ⟨n.toNat, small_n⟩ then decide (e = .down ⟨n.toNat, small_n⟩)
        else p.mask.toNat.testBit n.toNat := e.testBit_mask p.mask ⟨n.toNat, small_n⟩
    by_cases names : t.number = n
    · subst names
      have own : e.key = ⟨t.number.toNat, small_n⟩ := Fin.ext number
      rw [own] at pressed
      simp [record, bit, own, pressed]
    · have other : e.key ≠ ⟨n.toNat, small_n⟩ := by
        intro own
        rw [own] at number
        exact names (UInt8.toNat_inj.1 number.symm)
      simpa [record, bit, other, names] using h.held n small_n
  · have large := Nat.le_of_not_lt small
    rw [touch_of_large p large]
    refine ⟨?_, h.newest⟩
    intro n small_n
    have other : t.number ≠ n := by
      rintro rfl
      exact small small_n
    simpa [other] using h.held n small_n

theorem foldl_touch (h : p.Consistent ts) (later : List Touch) :
    (later.foldl Keypad.touch p).Consistent (ts ++ later) := by
  induction later generalizing p ts with
  | nil => simpa using h
  | cons t later ih => simpa using ih (h.touch t)

end Consistent

theorem consistent_foldl_touch (ts : List Touch) : (ts.foldl touch {}).Consistent ts := by
  simpa using consistent_nil.foldl_touch ts

theorem map_numbered (first : Nat) (events : List KeyEvent) :
    (numbered first events).map Prod.snd = events := by
  induction events generalizing first with
  | nil => rfl
  | cons e events ih => simp [numbered, ih]

/-- After any touches, a key's bit is set exactly if it was touched last by a press, and this is
    what a question for the key is answered by. A number without a key is never pressed, and
    touching it changes nothing. The log holds the newest thirty-two events, and the newest one of
    any key that still has one there agrees with the key's bit. -/
theorem mask_and_log_agree (ts : List Touch) :
    let p := ts.foldl touch {}
    (∀ n : UInt8, n.toNat < 16 →
      (p.mask.toNat.testBit n.toNat = true ↔ lastTouch? ts n = some (.press n))) ∧
    (∀ n : UInt8,
      p.isPressed n = if n.toNat < 16 then p.mask.toNat.testBit n.toNat else false) ∧
    (∀ t : Touch, 16 ≤ t.number.toNat → p.touch t = p) ∧
    p.log.map Prod.snd = (history ts).drop ((history ts).length - 32) ∧
    ∀ k : Key, (∃ entry ∈ p.log, entry.2.key = k) →
      newest? p.log k = some (if p.mask.toNat.testBit k.val then .down k else .up k) := by
  intro p
  have consistent : p.Consistent ts := consistent_foldl_touch ts
  refine ⟨consistent.held, ?_, fun t => touch_of_large p, ?_, ?_⟩
  · intro n
    rw [Bool.eq_iff_iff, isPressed_iff]
    by_cases small : n.toNat < 16 <;> simp [small]
  · rw [(records_foldl_touch ts).log, List.map_drop, map_numbered]
    rfl
  · intro k remembered
    obtain ⟨e, newest⟩ := exists_newest? remembered
    have story := consistent.newest k e newest
    have own := key_of_newest? newest
    rw [newest]
    cases e with
    | down j =>
      obtain rfl : j = k := own
      have set : p.mask.toNat.testBit j.val = true := story.1 rfl
      simp [set]
    | up j =>
      obtain rfl : j = k := own
      have clear : p.mask.toNat.testBit j.val = false := by simpa [holds] using story
      simp [clear]

/-- Seventeen strokes of a key overflow the log, and behind them come two presses of a held key, a
    release of a key that was up, and numbers whose lowest bits are those of a key. -/
theorem mask_and_log_agree_overflowed :
    let ts := (List.replicate 17 [Touch.press 1, .release 1]).flatten ++
      [.press 2, .press 2, .release 3, .press 17, .release 18]
    let p := ts.foldl touch {}
    p.mask.toNat.testBit 2 = true ∧ p.isPressed 2 = true ∧ p.isPressed 18 = false ∧
      p.touch (.press 17) = p ∧
      newest? p.log 1 = some (.up 1) ∧ newest? p.log 2 = some (.down 2) ∧
      newest? p.log 3 = some (.up 3) := by
  intro ts p
  obtain ⟨bits, answers, ignored, -, newest⟩ := mask_and_log_agree ts
  have held : p.mask.toNat.testBit 2 = true := (bits 2 (by decide)).2 (by decide +kernel)
  refine ⟨held, ?_, answers 18, ignored _ (by decide), ?_, ?_, ?_⟩
  · rw [answers 2]
    exact held
  · rw [newest 1 (by decide +kernel)]
    decide +kernel
  · rw [newest 2 (by decide +kernel)]
    decide +kernel
  · rw [newest 3 (by decide +kernel)]
    decide +kernel

end Keypad

end XoChip
