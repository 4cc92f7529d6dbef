import XoChip.Instruction.Word
import XoChip.Proofs.Keypad.History

/-!
# Watches that are polled now and then

A host touches keys and polls a watch, in any order. As long as no more than thirty-two events are
unseen at a poll, every event is shown to the watch once and in order, and the keys that the watch
yields are those that fire in the course of the history, whenever it is polled.
-/

namespace XoChip.Keypad

/-- What happens to a keypad and to a watch on it. -/
inductive Act
  | touch (t : Touch)
  | poll
  deriving DecidableEq, Repr

def Act.event? : Act → Option KeyEvent
  | touch t => t.event?
  | poll => none

/-- The events that a sequence of acts causes. -/
def caused (as : List Act) : List KeyEvent := as.filterMap Act.event?

@[simp] theorem caused_append (as bs : List Act) : caused (as ++ bs) = caused as ++ caused bs :=
  List.filterMap_append

@[simp] theorem caused_touch (t : Touch) : caused [.touch t] = t.event?.toList := by
  cases h : t.event? <;> simp [caused, Act.event?, h]

@[simp] theorem caused_poll : caused [.poll] = [] := rfl

/-- A keypad and a watch on it, with the log entries that polls have shown to the watch and the keys
    that it has yielded. -/
structure Vigil where
  keypad : Keypad
  watch : Watch
  shown : List (Nat × KeyEvent) := []
  keys : List Key := []
  deriving DecidableEq

namespace Vigil

/-- A watch just made. -/
def start (p : Keypad) : Vigil := { keypad := p, watch := p.watch }

/-- How many events the watch has not seen. -/
def unseen (v : Vigil) : Nat := v.keypad.next - v.watch.since

/-- A poll shows to the watch the log entries from where it was to where it gets. -/
def perform (v : Vigil) : Act → Vigil
  | .touch t => { v with keypad := v.keypad.touch t }
  | .poll =>
    let (key, watch) := v.keypad.poll v.watch
    { v with
      watch
      shown := v.shown ++ v.keypad.log.filter fun (number, _) =>
        v.watch.since ≤ number ∧ number < watch.since
      keys := v.keys ++ key.toList }

def run : List Act → Vigil → Vigil
  | [], v => v
  | a :: as, v => run as (v.perform a)

@[simp] theorem run_append (as bs : List Act) (v : Vigil) :
    run (as ++ bs) v = run bs (run as v) := by
  induction as generalizing v with
  | nil => rfl
  | cons a as ih => exact ih _

/-- What every touch and every poll keeps true of the recorded events and a vigil is kept true by a
    run. -/
theorem run_induction {P : List KeyEvent → Vigil → Prop}
    (touch : ∀ {events v} t, P events v → P (events ++ t.event?.toList) (v.perform (.touch t)))
    (poll : ∀ {events v}, P events v → P events (v.perform .poll))
    {events : List KeyEvent} {v : Vigil} (h : P events v) (as : List Act) :
    P (events ++ caused as) (run as v) := by
  induction as generalizing events v with
  | nil => simpa [caused, run] using h
  | cons a as ih =>
    have next : P (events ++ caused [a]) (v.perform a) := by
      cases a with
      | touch t => simpa using touch t h
      | poll => simpa using poll h
    have rest := ih next
    rw [List.append_assoc, ← caused_append] at rest
    exact rest

/-- No more events are unseen at a poll than the log can hold. -/
def Timely : List Act → Vigil → Prop
  | [], _ => True
  | a :: as, v => (a = .poll → v.unseen ≤ capacity) ∧ Timely as (v.perform a)

instance decidableTimely : (as : List Act) → (v : Vigil) → Decidable (Timely as v)
  | [], _ => .isTrue trivial
  | a :: as, v =>
    have := decidableTimely as (v.perform a)
    inferInstanceAs (Decidable (_ ∧ _))

theorem timely_append (as bs : List Act) (v : Vigil) :
    Timely (as ++ bs) v ↔ Timely as v ∧ Timely bs (run as v) := by
  induction as generalizing v with
  | nil => simp [Timely, run]
  | cons a as ih => simp [Timely, run, ih, and_assoc]

/-! ## Where a watch has got to -/

/-- A vigil that began when `first` events had been recorded, and the events recorded until now. -/
structure Follows (first : Nat) (events : List KeyEvent) (v : Vigil) : Prop where
  records : v.keypad.Records events
  first_le : first ≤ v.watch.since
  since_le : v.watch.since ≤ events.length

/-- The events since the beginning of the vigil that the watch has passed. -/
def passed (first : Nat) (events : List KeyEvent) (v : Vigil) : List KeyEvent :=
  (events.take v.watch.since).drop first

variable {first : Nat} {events : List KeyEvent} {v : Vigil}

theorem follows_start {p : Keypad} (h : p.Records events) :
    Follows events.length events (start p) :=
  ⟨h, Nat.le_of_eq h.next.symm, Nat.le_of_eq h.next⟩

theorem passed_start (events : List KeyEvent) (p : Keypad) :
    passed events.length events (start p) = [] :=
  List.drop_eq_nil_of_le (List.length_take_le' _ _)

namespace Follows

theorem unseen_eq (h : Follows first events v) :
    v.unseen = events.length - v.watch.since := by
  rw [unseen, h.records.next]

/-- The events since the beginning are those passed and those not yet seen. -/
theorem passed_append (h : Follows first events v) :
    passed first events v ++ events.drop v.watch.since = events.drop first := by
  have first_le := h.first_le
  have since_le := h.since_le
  rw [passed, ← List.drop_append_of_le_length (by rw [List.length_take]; omega),
    List.take_append_drop]

theorem length_passed (h : Follows first events v) :
    (passed first events v).length = v.watch.since - first := by
  have since_le := h.since_le
  simp [passed, since_le]

/-- A touch adds an event that the watch has not passed. -/
theorem touch (h : Follows first events v) (t : Touch) :
    Follows first (events ++ t.event?.toList) (v.perform (.touch t)) where
  records := h.records.touch t
  first_le := h.first_le
  since_le := by
    have since_le := h.since_le
    simp only [perform, List.length_append]
    omega

theorem passed_touch (h : Follows first events v) (t : Touch) :
    passed first (events ++ t.event?.toList) (v.perform (.touch t)) = passed first events v := by
  simp only [passed, perform, List.take_append_of_le_length h.since_le]

theorem watch_poll (h : Follows first events v) :
    let d := KeyEvent.detect v.watch.armed (events.drop (firstShown v.watch events))
    (v.perform .poll).watch = ⟨firstShown v.watch events + d.consumed, d.armed⟩ ∧
      (v.perform .poll).keys = v.keys ++ d.key.toList := by
  simp only [perform, h.records.poll_eq]
  trivial

theorem firstShown_le (h : Follows first events v) : firstShown v.watch events ≤ events.length := by
  have since_le := h.since_le
  rw [firstShown]
  omega

/-- A poll moves the watch on, but not past the end. -/
theorem poll (h : Follows first events v) : Follows first events (v.perform .poll) where
  records := h.records
  first_le := by
    have first_le := h.first_le
    rw [h.watch_poll.1, firstShown]
    dsimp only
    omega
  since_le := by
    have shown_le := h.firstShown_le
    have consumed_le := KeyEvent.consumed_detect_le v.watch.armed
      (events.drop (firstShown v.watch events))
    rw [List.length_drop] at consumed_le
    rw [h.watch_poll.1]
    dsimp only
    omega

theorem run (h : Follows first events v) (as : List Act) :
    Follows first (events ++ caused as) (Vigil.run as v) :=
  run_induction (fun t h => h.touch t) (fun h => h.poll) h as

/-- The events that a watch has passed are the first ones that came after it was made. -/
theorem passed_eq_take {later : List KeyEvent}
    (h : Follows events.length (events ++ later) v) :
    passed events.length (events ++ later) v = later.take (v.watch.since - events.length) := by
  rw [passed, List.take_append, List.take_of_length_le h.first_le, List.drop_left]

/-- With a poll the watch passes the events that it is not shown, and those that the automaton
    consumes. -/
theorem passed_poll (h : Follows first events v) :
    let shown := events.drop (firstShown v.watch events)
    passed first events (v.perform .poll) =
      (events.take (firstShown v.watch events)).drop first ++
        shown.take (KeyEvent.detect v.watch.armed shown).consumed := by
  have first_le := h.first_le
  have since_le := h.firstShown_le
  have since_le_shown : v.watch.since ≤ firstShown v.watch events := Nat.le_max_left _ _
  intro shown
  rw [passed, h.watch_poll.1]
  dsimp only
  rw [List.take_add, List.drop_append_of_le_length (by rw [List.length_take]; omega)]

/-! ## Polls in time -/

theorem firstShown_eq (h : Follows first events v) (timely : v.unseen ≤ capacity) :
    firstShown v.watch events = v.watch.since := by
  rw [h.unseen_eq] at timely
  rw [firstShown]
  omega

theorem shown_poll (h : Follows first events v) (timely : v.unseen ≤ capacity) :
    (v.perform .poll).shown = v.shown ++ numbered v.watch.since
      ((events.drop v.watch.since).take
        (KeyEvent.detect v.watch.armed (events.drop v.watch.since)).consumed) := by
  have log := h.records.filter_log v.watch
  have since := congrArg Watch.since h.watch_poll.1
  rw [h.firstShown_eq timely] at log since
  have shown : (v.perform .poll).shown = v.shown ++ v.keypad.log.filter fun (number, _) =>
      v.watch.since ≤ number ∧ number < (v.perform .poll).watch.since := rfl
  rw [shown, since, ← filter_lt_numbered, ← log, List.filter_filter]
  congr 2
  funext entry
  simp [Bool.and_comm]

end Follows

/-! ## What a watch yields -/

/-- A watch that was shown some events, the first of which has the given number, each once and in
    order, and that has yielded the keys that fired in the course of them. -/
structure Delivered (first : Nat) (events : List KeyEvent) (v : Vigil) : Prop where
  shown : v.shown = numbered first events
  keys : v.keys = KeyEvent.fired none events

/-- A watch that has delivered the events that it has passed, and goes on where they end. -/
structure Current (first : Nat) (events : List KeyEvent) (v : Vigil) : Prop
    extends Follows first events v where
  armed : v.watch.armed = KeyEvent.armedAfter none (passed first events v)
  delivered : Delivered first (passed first events v) v

theorem current_start {p : Keypad} (h : p.Records events) :
    Current events.length events (start p) where
  toFollows := follows_start h
  armed := by
    rw [passed_start]
    rfl
  delivered := by
    rw [passed_start]
    exact ⟨rfl, rfl⟩

namespace Current

theorem touch (h : Current first events v) (t : Touch) :
    Current first (events ++ t.event?.toList) (v.perform (.touch t)) where
  toFollows := h.toFollows.touch t
  armed := by rw [h.passed_touch]; exact h.armed
  delivered := by rw [h.passed_touch]; exact ⟨h.delivered.shown, h.delivered.keys⟩

/-- The place up to which the watch has passed is where it will be shown the next event. -/
theorem first_add_length_passed (h : Current first events v) :
    first + (passed first events v).length = v.watch.since := by
  have first_le := h.first_le
  rw [h.length_passed]
  omega

/-- A poll in time delivers the events that it passes. -/
theorem poll (h : Current first events v) (timely : v.unseen ≤ capacity) :
    Current first events (v.perform .poll) where
  toFollows := h.toFollows.poll
  armed := by
    rw [h.passed_poll, h.watch_poll.1, h.firstShown_eq timely, KeyEvent.armedAfter_append,
      ← passed, ← h.armed]
    exact KeyEvent.armed_detect _ _
  delivered := by
    rw [h.passed_poll, h.firstShown_eq timely, ← passed]
    constructor
    · rw [h.shown_poll timely, h.delivered.shown, numbered_append, h.first_add_length_passed]
    · rw [h.watch_poll.2, h.firstShown_eq timely, h.delivered.keys, KeyEvent.fired_append,
        ← h.armed, KeyEvent.fired_take_consumed]

theorem run (h : Current first events v) {as : List Act} (timely : Timely as v) :
    Current first (events ++ caused as) (Vigil.run as v) := by
  induction as generalizing v events with
  | nil => simpa [caused, Vigil.run] using h
  | cons a as ih =>
    obtain ⟨now, later⟩ := timely
    have next : Current first (events ++ caused [a]) (v.perform a) := by
      cases a with
      | touch t => simpa using h.touch t
      | poll => simpa using h.poll (now rfl)
    have rest := ih next later
    rw [List.append_assoc, ← caused_append] at rest
    exact rest

/-- A watch that has seen everything has delivered everything. -/
theorem delivered_of_unseen (h : Current first events v) (seen : v.unseen = 0) :
    Delivered first (events.drop first) v := by
  have since_le := h.since_le
  have all : events.length ≤ v.watch.since := by
    rw [h.unseen_eq] at seen
    omega
  have delivered := h.delivered
  rw [passed, List.take_of_length_le all] at delivered
  exact delivered

/-- A poll in time that yields no key has shown everything. -/
theorem unseen_poll_of_none (h : Current first events v) (timely : v.unseen ≤ capacity)
    (none_fired : (v.keypad.poll v.watch).1 = none) : (v.perform .poll).unseen = 0 := by
  have since_le := h.since_le
  rw [h.records.poll_eq] at none_fired
  have consumed := KeyEvent.consumed_detect none_fired
  rw [h.toFollows.poll.unseen_eq, h.watch_poll.1]
  dsimp only
  rw [consumed, h.firstShown_eq timely, List.length_drop]
  omega

/-- Every poll in time shows something, if anything is unseen. -/
theorem unseen_poll_le (h : Current first events v) (timely : v.unseen ≤ capacity) :
    (v.perform .poll).unseen ≤ v.unseen - 1 := by
  rw [h.toFollows.poll.unseen_eq, h.unseen_eq, h.watch_poll.1, h.firstShown_eq timely]
  dsimp only
  by_cases seen : events.drop v.watch.since = []
  · rw [List.drop_eq_nil_iff] at seen
    omega
  · have progress := KeyEvent.consumed_detect_pos v.watch.armed seen
    omega

/-- As many polls as there are unseen events show them all. -/
theorem drain (h : Current first events v) (timely : v.unseen ≤ capacity) {n : Nat}
    (enough : v.unseen ≤ n) :
    Current first events (Vigil.run (List.replicate n .poll) v) ∧
      (Vigil.run (List.replicate n .poll) v).unseen = 0 := by
  induction n generalizing v with
  | zero => exact ⟨h, Nat.le_zero.1 enough⟩
  | succ n ih =>
    have fewer := h.unseen_poll_le timely
    exact ih (h.poll timely) (by omega) (by omega)

end Current

end Vigil

open Vigil in
/-- Whatever was done to a keypad: its log is the end of the history, a poll goes through the
    history as the automaton does, no watch gets past the end, and a watch that is polled in time
    delivers the events since it was made, however often it is polled. -/
theorem log_refines_history (ts : List Touch) :
    let p : Keypad := ts.foldl touch {}
    let events := history ts
    (p.log = (numbered 0 events).drop (events.length - capacity) ∧ p.next = events.length) ∧
      (∀ w : Watch,
        let first := max w.since (events.length - capacity)
        let d := KeyEvent.detect w.armed (events.drop first)
        p.poll w = (d.key, ⟨first + d.consumed, d.armed⟩) ∧
          (∀ k, d.key = some k → events[first + d.consumed - 1]? = some (.up k)) ∧
          (d.key = none → w.since ≤ events.length → first + d.consumed = events.length)) ∧
      ∀ as,
        let v := run as (start p)
        let later := caused as
        v.watch.since ≤ events.length + later.length ∧
          (Timely as (start p) →
            Delivered events.length (later.take (v.watch.since - events.length)) v) ∧
          (Timely (as ++ [.poll]) (start p) →
            ((v.keypad.poll v.watch).1 = none → Delivered events.length later (v.perform .poll)) ∧
              ∀ n, v.unseen ≤ n →
                Delivered events.length later (run (List.replicate n .poll) v)) := by
  intro p events
  have records : p.Records events := records_foldl_touch ts
  refine ⟨⟨records.log, records.next⟩, ?_, ?_⟩
  · intro w first d
    refine ⟨records.poll_eq w, ?_, ?_⟩
    · intro k fired
      have some_left : events.drop first ≠ [] := by
        intro none_left
        simp [d, none_left, KeyEvent.detect] at fired
      have consumed_pos := KeyEvent.consumed_detect_pos w.armed some_left
      have last := KeyEvent.getElem?_of_key_detect fired
      rw [List.getElem?_drop] at last
      rw [Nat.add_sub_assoc consumed_pos]
      exact last
    · intro none_fired within
      have consumed : d.consumed = (events.drop first).length := KeyEvent.consumed_detect none_fired
      rw [consumed, List.length_drop]
      omega
  · intro as v later
    have follows := (follows_start records).run as
    refine ⟨by simpa using follows.since_le, ?_, ?_⟩
    · intro timely
      have delivered := ((current_start records).run timely).delivered
      rw [follows.passed_eq_take] at delivered
      exact delivered
    · intro timely
      obtain ⟨timely, now, -⟩ := (timely_append _ _ _).1 timely
      have current := (current_start records).run timely
      have all : (events ++ later).drop events.length = later := List.drop_left
      constructor
      · intro none_fired
        have seen := current.unseen_poll_of_none (now rfl) none_fired
        have delivered := (current.poll (now rfl)).delivered_of_unseen seen
        rw [all] at delivered
        exact delivered
      · intro n enough
        obtain ⟨drained, seen⟩ := current.drain (now rfl) enough
        have delivered := drained.delivered_of_unseen seen
        rw [all] at delivered
        exact delivered

open Vigil in
/-- Seventeen strokes of a key overflow the log; of what comes then, a watch is shown the events of
    the key that it reports twice, in two polls, and the release of a key that is not armed. -/
theorem log_refines_history_overflowed :
    let ts := (List.replicate 17 [Touch.press 1, .release 1]).flatten
    let as := [Act.touch (.press 5), .poll, .touch (.press 200), .touch (.release 5),
      .touch (.release 5), .touch (.release 1)]
    let v := run as (start (ts.foldl touch {}))
    Timely (as ++ [.poll]) (start (ts.foldl touch {})) ∧
      (run (List.replicate 3 .poll) v).keys = [5, 5] ∧
      Delivered 34 [.down 5, .up 5, .up 5, .up 1] (run (List.replicate 3 .poll) v) := by
  intro ts as v
  have timely : Timely (as ++ [.poll]) (start (ts.foldl touch {})) := by decide +kernel
  have delivered := ((log_refines_history ts).2.2 as).2.2 timely |>.2 3 (by decide +kernel)
  exact ⟨timely, delivered.keys, delivered⟩

end XoChip.Keypad
