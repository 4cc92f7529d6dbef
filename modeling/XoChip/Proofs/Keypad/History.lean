import XoChip.Keypad

/-!
# The keypad's log against the full history

A keypad forgets all but the newest thirty-two events. `Keypad.Records p history` says of a keypad
that its log is the end of a history, and that the events carry their places in it; every press and
release keeps this true. What a watch finds in the log is what an automaton finds in the history:
`KeyEvent.detect` goes through the events until a key that is armed is released.
-/

namespace XoChip

/-! ## The automaton -/

namespace KeyEvent

/-- A press arms its key in place of the one armed before; a release leaves the armed key alone. -/
def arm (armed : Option Key) : KeyEvent → Option Key
  | down k => some k
  | up _ => armed

/-- A release of the armed key fires. -/
def fire (armed : Option Key) : KeyEvent → Option Key
  | down _ => none
  | up k => if armed = some k then some k else none

/-- The key that is armed after some events. -/
def armedAfter (armed : Option Key) (events : List KeyEvent) : Option Key := events.foldl arm armed

/-- All keys that fire in the course of some events. -/
def fired (armed : Option Key) : List KeyEvent → List Key
  | [] => []
  | e :: events => (e.fire armed).toList ++ fired (e.arm armed) events

/-- What the automaton has found: the key that fired, the key that is armed, and how many events it
    went through, the one that fired included. -/
structure Detection where
  key : Option Key
  armed : Option Key
  consumed : Nat
  deriving DecidableEq, Repr

/-- Go through events up to the first that fires. -/
def detect (armed : Option Key) : List KeyEvent → Detection
  | [] => ⟨none, armed, 0⟩
  | e :: events =>
    match e.fire armed with
    | some k => ⟨some k, e.arm armed, 1⟩
    | none =>
      let d := detect (e.arm armed) events
      { d with consumed := d.consumed + 1 }

variable {armed : Option Key} {e : KeyEvent} {events later : List KeyEvent} {k : Key}

theorem fire_eq_some_iff : e.fire armed = some k ↔ e = .up k ∧ armed = some k := by
  cases e with
  | down j => simp [fire]
  | up j =>
    simp only [fire, Option.ite_none_right_eq_some, Option.some.injEq, up.injEq]
    constructor
    · rintro ⟨h, rfl⟩
      exact ⟨rfl, h⟩
    · rintro ⟨rfl, h⟩
      exact ⟨h, rfl⟩

@[simp] theorem armedAfter_nil : armedAfter armed [] = armed := rfl

@[simp] theorem armedAfter_append :
    armedAfter armed (events ++ later) = armedAfter (armedAfter armed events) later :=
  List.foldl_append

/-- A key is armed because it was before, or because it was pressed. -/
theorem armedAfter_eq_some (h : armedAfter armed events = some k) :
    armed = some k ∨ .down k ∈ events := by
  induction events generalizing armed with
  | nil => exact .inl h
  | cons e events ih =>
    rcases ih h with before | pressed
    · cases e with
      | down j =>
        simp only [arm, Option.some.injEq] at before
        simp [before]
      | up j => exact .inl before
    · exact .inr (List.mem_cons_of_mem _ pressed)

theorem fired_append :
    fired armed (events ++ later) =
      fired armed events ++ fired (armedAfter armed events) later := by
  induction events generalizing armed with
  | nil => rfl
  | cons e events ih => simp [fired, ih, armedAfter]

theorem detect_cons_of_fire (h : e.fire armed = some k) :
    detect armed (e :: events) = ⟨some k, e.arm armed, 1⟩ := by
  simp [detect, h]

theorem detect_cons_of_not_fire (h : e.fire armed = none) :
    detect armed (e :: events) =
      { detect (e.arm armed) events with
        consumed := (detect (e.arm armed) events).consumed + 1 } := by
  simp [detect, h]

/-- The automaton stops at the first key that fires. -/
theorem key_detect (armed : Option Key) (events : List KeyEvent) :
    (detect armed events).key = (fired armed events).head? := by
  induction events generalizing armed with
  | nil => rfl
  | cons e events ih =>
    cases h : e.fire armed with
    | some k => simp [detect_cons_of_fire h, fired, h]
    | none => simp [detect_cons_of_not_fire h, fired, h, ih]

theorem consumed_detect_le (armed : Option Key) (events : List KeyEvent) :
    (detect armed events).consumed ≤ events.length := by
  induction events generalizing armed with
  | nil => simp [detect]
  | cons e events ih =>
    cases h : e.fire armed with
    | some k => simp [detect_cons_of_fire h]
    | none => simpa [detect_cons_of_not_fire h] using ih _

/-- The automaton goes through all events unless one fires. -/
theorem consumed_detect (h : (detect armed events).key = none) :
    (detect armed events).consumed = events.length := by
  induction events generalizing armed with
  | nil => rfl
  | cons e events ih =>
    cases hf : e.fire armed with
    | some k => simp [detect_cons_of_fire hf] at h
    | none =>
      rw [detect_cons_of_not_fire hf] at h ⊢
      simp [ih h]

/-- Something is consumed wherever there is something. -/
theorem consumed_detect_pos (armed : Option Key) (h : events ≠ []) :
    0 < (detect armed events).consumed := by
  cases events with
  | nil => exact absurd rfl h
  | cons e events =>
    cases hf : e.fire armed with
    | some k => simp [detect_cons_of_fire hf]
    | none => simp [detect_cons_of_not_fire hf]

/-- The armed key is the one that the consumed events arm. -/
theorem armed_detect (armed : Option Key) (events : List KeyEvent) :
    (detect armed events).armed =
      armedAfter armed (events.take (detect armed events).consumed) := by
  induction events generalizing armed with
  | nil => rfl
  | cons e events ih =>
    cases h : e.fire armed with
    | some k => simp [detect_cons_of_fire h, armedAfter]
    | none =>
      rw [detect_cons_of_not_fire h]
      exact ih _

/-- Among the consumed events only the last one may fire. -/
theorem fired_take_consumed (armed : Option Key) (events : List KeyEvent) :
    fired armed (events.take (detect armed events).consumed) =
      (detect armed events).key.toList := by
  induction events generalizing armed with
  | nil => rfl
  | cons e events ih =>
    cases h : e.fire armed with
    | some k => simp [detect_cons_of_fire h, fired, h]
    | none => simp [detect_cons_of_not_fire h, fired, h, ih]

/-- What fires is the release of a key that was armed just before. -/
theorem exists_take_consumed_eq (h : (detect armed events).key = some k) :
    ∃ before, events.take (detect armed events).consumed = before ++ [.up k] ∧
      armedAfter armed before = some k := by
  induction events generalizing armed with
  | nil => simp [detect] at h
  | cons e events ih =>
    cases hf : e.fire armed with
    | some j =>
      rw [detect_cons_of_fire hf] at h ⊢
      obtain rfl : j = k := by simpa using h
      obtain ⟨rfl, same⟩ := fire_eq_some_iff.1 hf
      exact ⟨[], by simp, same⟩
    | none =>
      rw [detect_cons_of_not_fire hf] at h ⊢
      obtain ⟨before, taken, same⟩ := ih h
      exact ⟨e :: before, by simp [taken], same⟩

theorem getElem?_of_key_detect (h : (detect armed events).key = some k) :
    events[(detect armed events).consumed - 1]? = some (.up k) := by
  obtain ⟨before, taken, -⟩ := exists_take_consumed_eq h
  have length := congrArg List.length taken
  have consumed_le := consumed_detect_le armed events
  simp only [List.length_take, List.length_append, List.length_singleton] at length
  have last : (detect armed events).consumed - 1 = before.length := by omega
  have within : before.length < (detect armed events).consumed := by omega
  rw [last, ← List.getElem?_take_of_lt within, taken]
  simp

end KeyEvent

namespace Keypad

variable {first : Nat} {events later : List KeyEvent}

/-! ## Numbered events -/

/-- Events with their numbers, the first of which is given. -/
def numbered (first : Nat) : List KeyEvent → List (Nat × KeyEvent)
  | [] => []
  | e :: events => (first, e) :: numbered (first + 1) events

@[simp] theorem length_numbered (first : Nat) (events : List KeyEvent) :
    (numbered first events).length = events.length := by
  induction events generalizing first with
  | nil => rfl
  | cons e events ih => simp [numbered, ih]

theorem numbered_append (first : Nat) (events later : List KeyEvent) :
    numbered first (events ++ later) =
      numbered first events ++ numbered (first + events.length) later := by
  induction events generalizing first with
  | nil => rfl
  | cons e events ih => simp [numbered, ih, Nat.add_assoc, Nat.add_comm 1]

theorem drop_numbered (first count : Nat) (events : List KeyEvent) :
    (numbered first events).drop count = numbered (first + count) (events.drop count) := by
  induction count generalizing first events with
  | zero => rfl
  | succ count ih =>
    cases events with
    | nil => rfl
    | cons e events => simp [numbered, ih, Nat.add_assoc, Nat.add_comm 1]

theorem le_of_mem_numbered {entry : Nat × KeyEvent} (h : entry ∈ numbered first events) :
    first ≤ entry.1 := by
  induction events generalizing first with
  | nil => simp [numbered] at h
  | cons e events ih =>
    rcases List.mem_cons.1 h with rfl | h
    · exact Nat.le_refl _
    · exact Nat.le_of_succ_le (ih h)

/-- The events from a number on. -/
theorem filter_le_numbered (first since : Nat) (events : List KeyEvent) :
    (numbered first events).filter (fun (number, _) => since ≤ number) =
      numbered (max since first) (events.drop (since - first)) := by
  induction events generalizing first with
  | nil => simp [numbered]
  | cons e events ih =>
    by_cases h : since ≤ first
    · have later : since ≤ first + 1 := by omega
      simp [numbered, h, ih, Nat.sub_eq_zero_of_le, later]
    · have gap : since - first = since - (first + 1) + 1 := by omega
      have above : max since (first + 1) = max since first := by omega
      simp [numbered, h, ih, gap, above]

/-- The events below a number. -/
theorem filter_lt_numbered (first count : Nat) (events : List KeyEvent) :
    (numbered first events).filter (fun (number, _) => number < first + count) =
      numbered first (events.take count) := by
  induction count generalizing first events with
  | zero =>
    simp only [List.take_zero, numbered, List.filter_eq_nil_iff]
    intro entry member
    simpa using le_of_mem_numbered member
  | succ count ih =>
    cases events with
    | nil => rfl
    | cons e events =>
      have next := ih (first + 1) events
      rw [Nat.add_right_comm] at next
      simp [numbered, ← next, Nat.add_assoc]

/-! ## What is recorded -/

/-- What a host does to a key. -/
inductive Touch
  | press (n : UInt8)
  | release (n : UInt8)
  deriving DecidableEq, Repr

/-- The event that is recorded for it; for a number without a key there is none. -/
def Touch.event? : Touch → Option KeyEvent
  | press n => (Key.ofByte? n).map .down
  | release n => (Key.ofByte? n).map .up

def touch (p : Keypad) : Touch → Keypad
  | .press n => p.press n
  | .release n => p.release n

/-- All events that a sequence of touches causes. -/
def history (ts : List Touch) : List KeyEvent := ts.filterMap Touch.event?

/-- A keypad whose log is the end of a history. -/
structure Records (p : Keypad) (events : List KeyEvent) : Prop where
  log : p.log = (numbered 0 events).drop (events.length - capacity)
  next : p.next = events.length

theorem records_nil : Records {} [] := ⟨rfl, rfl⟩

namespace Records

variable {p : Keypad}

/-- Which keys are held does not matter. -/
theorem setMask (h : p.Records events) (mask : UInt16) :
    ({ p with mask } : Keypad).Records events :=
  ⟨h.log, h.next⟩

theorem length_log (h : p.Records events) : p.log.length = min capacity events.length := by
  rw [h.log, List.length_drop, length_numbered]
  omega

/-- One more event takes the place of the oldest one when the log is full. -/
theorem record (h : p.Records events) (e : KeyEvent) : (p.record e).Records (events ++ [e]) where
  log := by
    have length := h.length_log
    have kept : (if p.log.length = capacity then p.log.drop 1 else p.log) =
        (numbered 0 events).drop (events.length + 1 - capacity) := by
      split
      · next full =>
        rw [h.log, List.drop_drop]
        congr 1
        omega
      · next room =>
        rw [h.log]
        congr 1
        omega
    have fits : events.length + 1 - capacity ≤ (numbered 0 events).length := by
      rw [length_numbered, capacity]
      omega
    simp only [Keypad.record, kept, h.next, numbered_append, List.length_append, Nat.zero_add]
    rw [List.length_singleton, List.drop_append_of_le_length fits]
    rfl
  next := by simp [Keypad.record, h.next]

theorem touch (h : p.Records events) (t : Touch) :
    (p.touch t).Records (events ++ t.event?.toList) := by
  cases t with
  | press n =>
    simp only [Keypad.touch, press, Touch.event?]
    cases Key.ofByte? n with
    | none => simpa using h
    | some k => exact (h.setMask _).record _
  | release n =>
    simp only [Keypad.touch, release, Touch.event?]
    cases Key.ofByte? n with
    | none => simpa using h
    | some k => exact (h.setMask _).record _

theorem foldl_touch (h : p.Records events) (ts : List Touch) :
    (ts.foldl Keypad.touch p).Records (events ++ history ts) := by
  induction ts generalizing p events with
  | nil => simpa [history] using h
  | cons t ts ih =>
    have rest := ih (h.touch t)
    cases he : t.event? <;> simpa [history, he] using rest

end Records

/-- A keypad records what is done to it. -/
theorem records_foldl_touch (ts : List Touch) :
    (ts.foldl touch {}).Records (history ts) := by
  simpa using records_nil.foldl_touch ts

/-! ## What a watch finds -/

/-- On numbered events a watch does what the automaton does. -/
theorem scan_numbered (since first : Nat) (armed : Option Key) (events : List KeyEvent) :
    scan ⟨since, armed⟩ (numbered first events) =
      ((KeyEvent.detect armed events).key,
        ⟨if events = [] then since else first + (KeyEvent.detect armed events).consumed,
          (KeyEvent.detect armed events).armed⟩) := by
  induction events generalizing since first armed with
  | nil => rfl
  | cons e events ih =>
    have reached : ∀ w : Option Key,
        (if events = [] then first + 1 else first + 1 + (KeyEvent.detect w events).consumed) =
          first + ((KeyEvent.detect w events).consumed + 1) := by
      intro w
      split
      · next none_left => simp [none_left, KeyEvent.detect]
      · omega
    cases e with
    | down k =>
      simp only [numbered, scan, ih, reached]
      rfl
    | up k =>
      by_cases h : armed = some k
      · simp [numbered, scan, KeyEvent.detect, KeyEvent.fire, KeyEvent.arm, h]
      · simp [numbered, scan, KeyEvent.detect, KeyEvent.fire, KeyEvent.arm, h, ih, reached]

/-- The number of the first event that a poll shows to a watch: events that have left the log are
    passed over. -/
def firstShown (w : Watch) (events : List KeyEvent) : Nat := max w.since (events.length - capacity)

/-- What a poll shows to a watch. -/
theorem Records.filter_log {p : Keypad} (h : p.Records events) (w : Watch) :
    p.log.filter (fun (number, _) => w.since ≤ number) =
      numbered (firstShown w events) (events.drop (firstShown w events)) := by
  rw [h.log, drop_numbered, filter_le_numbered, List.drop_drop, firstShown, Nat.zero_add]
  congr 2
  omega

/-- A poll lets the automaton go on through the history, from where the watch has got to. -/
theorem Records.poll_eq {p : Keypad} (h : p.Records events) (w : Watch) :
    let d := KeyEvent.detect w.armed (events.drop (firstShown w events))
    p.poll w = (d.key, ⟨firstShown w events + d.consumed, d.armed⟩) := by
  intro d
  rw [poll, h.filter_log, scan_numbered]
  split
  · next none_left =>
    -- Nothing is unseen, so the place of the watch is the place where the scan would start.
    have none_later : events.length ≤ firstShown w events := List.drop_eq_nil_iff.1 none_left
    have stays : firstShown w events = w.since := by
      simp only [firstShown, capacity] at none_later ⊢
      omega
    have idle : d = ⟨none, w.armed, 0⟩ := by
      simp only [d, none_left, KeyEvent.detect]
    rw [idle, none_left, stays]
    rfl
  · rfl

end Keypad

end XoChip
