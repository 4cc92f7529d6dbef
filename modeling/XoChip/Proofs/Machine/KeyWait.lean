import XoChip.Proofs.Keypad.Stroke
import XoChip.Proofs.Machine.Halting

/-!
# Waiting for a key

A machine that waits for a key stays on the instruction until a poll finds one. In between, a host
touches keys and polls, in any order: `Waiting.run` is where this leads. To the keypad and to the
watch of the wait it is a `Keypad.Vigil`, so what is known of watches holds of waits.
-/

namespace XoChip

def Keypad.Touch.move : Keypad.Touch → Console.Move
  | press n => .press n
  | release n => .release n

/-- The machine with a key in `VX` and the program counter behind the instruction at `a`, after it
    has told of the key. Nothing else is changed. -/
def Console.storeKey (s : Console) (x : Register) (a : UInt16) (k : Key) : Console :=
  { machine :=
      { s.machine with
        state :=
          { s.state with v := s.state.v.set x.val (UInt8.ofNat k.val) x.val_lt, pc := a + 2 } }
    context := s.context.tell (.keyStored k x) }

/-! ## Looking for a key -/

namespace KeyWait

variable {w : KeyWait} {s : Console} {k : Key} {watch : Watch}

theorem poll_of_none (h : s.context.keypad.poll w.watch = (none, watch)) :
    w.poll s = (false, ⟨w.register, w.pc, watch⟩, s) := by
  simp only [poll, h]

theorem poll_of_some (h : s.context.keypad.poll w.watch = (some k, watch)) :
    w.poll s = (true, ⟨w.register, w.pc, watch⟩, s.storeKey w.register w.pc k) := by
  simp only [poll, h]
  rfl

theorem await_of_none (h : s.context.keypad.poll w.watch = (none, watch)) (cancelled : Bool) :
    w.await cancelled s =
      (if cancelled then .interrupted else .blocked, ⟨w.register, w.pc, watch⟩, s) := by
  cases cancelled <;> simp [await, Context.await, h]

theorem await_of_some (h : s.context.keypad.poll w.watch = (some k, watch)) (cancelled : Bool) :
    w.await cancelled s =
      (.released k, ⟨w.register, w.pc, watch⟩,
        Console.storeKey { s with context := s.context.tell (.keyReleased k) }
          w.register w.pc k) := by
  simp only [await, Context.await, h]
  rfl

end KeyWait

/-! ## A host that waits -/

/-- A wait, the machine that waits, and whether a key has been stored. -/
structure Waiting where
  wait : KeyWait
  console : Console
  done : Bool := false

namespace Waiting

def perform (w : Waiting) : Keypad.Act → Waiting
  | .touch t => { w with console := (w.console.perform t.move).2 }
  | .poll =>
    let (stored, wait, console) := w.wait.poll w.console
    { wait, console, done := w.done || stored }

def run : List Keypad.Act → Waiting → Waiting
  | [], w => w
  | a :: as, w => run as (w.perform a)

/-- A wait like another one but for the watch, which is that of a vigil on the keypad. -/
structure Mirrors (wait : KeyWait) (v : Keypad.Vigil) (w : Waiting) : Prop where
  wait_eq : w.wait = { wait with watch := v.watch }
  keypad : w.console.context.keypad = v.keypad
  done : w.done = false ↔ v.keys = []

variable {wait : KeyWait} {v : Keypad.Vigil} {w : Waiting}

/-- The wait finds what the vigil finds. -/
theorem Mirrors.found (h : Mirrors wait v w) :
    w.console.context.keypad.poll w.wait.watch = v.keypad.poll v.watch := by
  rw [h.keypad, h.wait_eq]

theorem Mirrors.register_pc (h : Mirrors wait v w) :
    w.wait.register = wait.register ∧ w.wait.pc = wait.pc := by
  rw [h.wait_eq]
  exact ⟨rfl, rfl⟩

theorem Mirrors.touch (h : Mirrors wait v w) (t : Keypad.Touch) :
    Mirrors wait (v.perform (.touch t)) (w.perform (.touch t)) where
  wait_eq := h.wait_eq
  keypad := by
    show (w.console.perform t.move).2.context.keypad = v.keypad.touch t
    rw [← h.keypad]
    cases t with
    | press n =>
      show (w.console.context.press n).keypad = w.console.context.keypad.press n
      unfold Context.press Keypad.press
      cases Key.ofByte? n <;> rfl
    | release n =>
      show (w.console.context.release n).keypad = w.console.context.keypad.release n
      unfold Context.release Keypad.release
      cases Key.ofByte? n <;> rfl
  done := h.done

theorem Mirrors.poll (h : Mirrors wait v w) : Mirrors wait (v.perform .poll) (w.perform .poll) := by
  obtain ⟨register, pc⟩ := h.register_pc
  rcases hp : v.keypad.poll v.watch with ⟨key | k, watch⟩
  · simp only [perform, Keypad.Vigil.perform, KeyWait.poll_of_none (h.found.trans hp), hp]
    exact ⟨by rw [register, pc], h.keypad, by simpa using h.done⟩
  · simp only [perform, Keypad.Vigil.perform, KeyWait.poll_of_some (h.found.trans hp), hp]
    exact ⟨by rw [register, pc], h.keypad, by simp⟩

theorem Mirrors.run (h : Mirrors wait v w) (as : List Keypad.Act) :
    Mirrors wait (Keypad.Vigil.run as v) (Waiting.run as w) := by
  induction as generalizing v w with
  | nil => exact h
  | cons a as ih =>
    cases a with
    | touch t => exact ih (h.touch t)
    | poll => exact ih h.poll

/-- Until a key is stored the machine stands still. -/
theorem still_perform {a : Keypad.Act} (h : (w.perform a).done = false) :
    w.done = false ∧ Console.Still w.console (w.perform a).console := by
  cases a with
  | touch t =>
    refine ⟨h, ?_⟩
    cases t with
    | press n => exact Console.still_press _ n
    | release n => exact Console.still_release _ n
  | poll =>
    rcases hp : w.console.context.keypad.poll w.wait.watch with ⟨key | k, watch⟩
    · simp only [perform, KeyWait.poll_of_none hp, Bool.or_false] at h ⊢
      exact ⟨h, .refl _⟩
    · simp [perform, KeyWait.poll_of_some hp] at h

theorem still_run {as : List Keypad.Act} (h : (run as w).done = false) :
    w.done = false ∧ Console.Still w.console (run as w).console := by
  induction as generalizing w with
  | nil => exact ⟨h, .refl _⟩
  | cons a as ih =>
    obtain ⟨first, later⟩ := ih h
    obtain ⟨now, still⟩ := still_perform first
    exact ⟨now, still.trans later⟩

/-- The wait that a step begins on an instruction that waits for a key in `VX`. -/
def start (s : Console) (x : Register) : Waiting where
  wait := ⟨x, s.state.pc, s.context.keypad.watch⟩
  console := s.step.2

/-- What a poll does to a wait for a key in `VX` by an instruction at `a`, when some events have
    come since the wait began. A blocking wait that was cancelled beforehand does the same. -/
inductive Polls (x : Register) (a : UInt16) (events : List KeyEvent) (w : Waiting) : Prop
  /-- Nothing is changed. -/
  | blocks {watch : Watch}
      (poll : w.wait.poll w.console = (false, ⟨x, a, watch⟩, w.console))
      (await : w.wait.await true w.console = (.interrupted, ⟨x, a, watch⟩, w.console))
  /-- A key that was pressed and then released is stored. -/
  | stores {k : Key} {watch : Watch}
      (poll : w.wait.poll w.console = (true, ⟨x, a, watch⟩, w.console.storeKey x a k))
      (await : w.wait.await true w.console =
        (.released k, ⟨x, a, watch⟩,
          Console.storeKey { w.console with context := w.console.context.tell (.keyReleased k) }
            x a k))
      (stroke : [.down k, .up k].Sublist events)

/-- A key is stored by the first poll that comes after a stroke, and it is the key of the first
    stroke, which nothing that is done later can change. -/
structure Prompt (x : Register) (a : UInt16) (as : List Keypad.Act) (w : Waiting) : Prop where
  done : w.done = false ↔
    ∀ bs, bs ++ [.poll] <+: as → ∀ k, ¬ KeyEvent.FirstStroke (Keypad.caused bs) k
  stores : w.done = false → ∀ k, KeyEvent.FirstStroke (Keypad.caused as) k →
    (w.wait.poll w.console).1 = true ∧ (w.wait.poll w.console).2.2 = w.console.storeKey x a k
  blocks : w.done = false → (∀ k, ¬ KeyEvent.FirstStroke (Keypad.caused as) k) →
    (w.wait.poll w.console).1 = false
  settled : ∀ k, KeyEvent.FirstStroke (Keypad.caused as) k →
    ∀ bs j, KeyEvent.FirstStroke (Keypad.caused (as ++ bs)) j ↔ j = k

theorem Mirrors.polls {first : Nat} {events : List KeyEvent} (h : Mirrors wait v w)
    (armed : Keypad.Vigil.Armed first events v) :
    w.Polls wait.register wait.pc (events.drop first) := by
  obtain ⟨register, pc⟩ := h.register_pc
  rcases hp : v.keypad.poll v.watch with ⟨key | k, watch⟩
  · have poll := KeyWait.poll_of_none (h.found.trans hp)
    have await := KeyWait.await_of_none (h.found.trans hp) true
    rw [register, pc] at poll await
    exact .blocks poll await
  · have poll := KeyWait.poll_of_some (h.found.trans hp)
    have await := KeyWait.await_of_some (h.found.trans hp) true
    rw [register, pc] at poll await
    exact .stores poll await (armed.stroke (by rw [hp]))

theorem Mirrors.stores {k : Key} (h : Mirrors wait v w)
    (fires : (v.keypad.poll v.watch).1 = some k) :
    (w.wait.poll w.console).1 = true ∧
      (w.wait.poll w.console).2.2 = w.console.storeKey wait.register wait.pc k := by
  obtain ⟨register, pc⟩ := h.register_pc
  have hp : v.keypad.poll v.watch = (some k, (v.keypad.poll v.watch).2) := Prod.ext fires rfl
  rw [KeyWait.poll_of_some (h.found.trans hp), register, pc]
  exact ⟨rfl, rfl⟩

theorem Mirrors.blocks (h : Mirrors wait v w) (nothing : (v.keypad.poll v.watch).1 = none) :
    (w.wait.poll w.console).1 = false := by
  have hp : v.keypad.poll v.watch = (none, (v.keypad.poll v.watch).2) := Prod.ext nothing rfl
  rw [KeyWait.poll_of_none (h.found.trans hp)]

end Waiting

/-! ## The instruction -/

namespace Console

open Keypad

variable {s : Console} {x : Register} {ts : List Touch}

/-- A step that begins to wait changes nothing, and the program counter stays on the instruction. -/
theorem step_of_awaitKey (running : s.state.halted = none)
    (word : s.state.word = Word.ofNibbles 0xF x 0x0 0xA) :
    s.step =
      (.awaits ⟨x, s.state.pc, s.context.keypad.watch⟩,
        { machine := { s.machine with drew := false }
          context :=
            (s.context.tell (.executing s.state.pc s.state.word)).tell
              (.waitingForKey s.state.pc) }) := by
  rw [step_of_ok running (State.next_eq_awaitKey_iff.2 word)]
  rfl

theorem mirrors_run (running : s.state.halted = none)
    (word : s.state.word = Word.ofNibbles 0xF x 0x0 0xA) (as : List Act) :
    Waiting.Mirrors ⟨x, s.state.pc, s.context.keypad.watch⟩
      (Vigil.run as (Vigil.start s.context.keypad)) (Waiting.run as (.start s x)) := by
  refine Waiting.Mirrors.run ⟨rfl, ?_, iff_of_true rfl rfl⟩ as
  rw [Waiting.start, step_of_awaitKey running word]
  rfl

/-- An instruction that waits for a key does nothing until a key has been pressed and released after
    the step, and then it does all that it does at once. What it stores, if it is polled in time,
    is a matter of the events after the step alone. -/
theorem awaitKey_atomic (running : s.state.halted = none)
    (word : s.state.word = Word.ofNibbles 0xF x 0x0 0xA)
    (keypad : s.context.keypad = ts.foldl touch {}) :
    let a := s.state.pc
    s.step =
        (.awaits ⟨x, a, s.context.keypad.watch⟩,
          { machine := { s.machine with drew := false }
            context :=
              (s.context.tell (.executing a s.state.word)).tell (.waitingForKey a) }) ∧
      ∀ as,
        let w := Waiting.run as (.start s x)
        let v := Vigil.run as (Vigil.start s.context.keypad)
        (w.done = false → Still s.step.2 w.console) ∧ w.Polls x a (caused as) ∧
          (w.console.context.keypad = v.keypad ∧ w.wait.watch = v.watch) ∧
          (Vigil.Timely (as ++ [.poll]) (Vigil.start s.context.keypad) → w.Prompt x a as) := by
  intro a
  refine ⟨step_of_awaitKey running word, ?_⟩
  intro as w v
  have records : s.context.keypad.Records (history ts) := keypad ▸ records_foldl_touch ts
  have mirrors := mirrors_run running word as
  -- The vigil begins with the step, so the events that count are those after it.
  have since : (history ts ++ caused as).drop (history ts).length = caused as := List.drop_left
  refine ⟨?_, ?_, ⟨mirrors.keypad, by rw [mirrors.wait_eq]⟩, ?_⟩
  · intro not_done
    exact (Waiting.still_run not_done).2
  · have polls := mirrors.polls ((Vigil.armed_start records).run as)
    rw [since] at polls
    exact polls
  · intro timely
    obtain ⟨timely, now, -⟩ := (Vigil.timely_append _ _ _).1 timely
    have current := (Vigil.current_start records).run timely
    have key (not_done : w.done = false) :
        (v.keypad.poll v.watch).1 = (KeyEvent.fired none (caused as)).head? := by
      rw [current.key_poll (now rfl) (mirrors.done.1 not_done), since]
    refine ⟨?_, ?_, ?_, ?_⟩
    · rw [mirrors.done]
      exact Vigil.keys_run_eq_nil_iff records timely
    · intro not_done k stroke
      exact mirrors.stores ((key not_done).trans (KeyEvent.head?_fired_iff.2 stroke))
    · intro not_done no_stroke
      apply mirrors.blocks
      rw [key not_done, KeyEvent.fired_none_eq_nil_iff.2 no_stroke]
      rfl
    · intro k stroke bs j
      rw [caused_append]
      exact stroke.append_iff

/-- A key that was held before, a poll in the middle of a stroke, and another key that is stored. -/
theorem awaitKey_atomic_held :
    let s : Console :=
      { machine :=
          { state :=
              { memory := (Memory.blank.write 0x200 0xF3).write 0x201 0x0A, delay := .expired 0 }
            dialect := {}, random := .ofSeed 0 }
        context := { keypad := [Touch.press 3].foldl touch {} } }
    let as := [Act.touch (.press 7), .poll, .touch (.release 3), .touch (.release 7)]
    let w := Waiting.run as (.start s 3)
    s.state.halted = none ∧ s.state.word = Word.ofNibbles 0xF 3 0x0 0xA ∧
      Vigil.Timely (as ++ [.poll]) (Vigil.start s.context.keypad) ∧
      Still s.step.2 w.console ∧ (w.wait.poll w.console).1 = true ∧
      (w.wait.poll w.console).2.2 = w.console.storeKey 3 0x200 7 := by
  intro s as w
  have word : s.state.word = Word.ofNibbles 0xF 3 0x0 0xA := by
    simp only [s, State.word, Memory.readWord, Memory.read_write, Memory.read_blank]
    decide
  have timely : Vigil.Timely (as ++ [.poll]) (Vigil.start s.context.keypad) := by decide +kernel
  have not_done : w.done = false := (mirrors_run rfl word as).done.2 (by decide +kernel)
  have waited := (@awaitKey_atomic s 3 [.press 3] rfl word rfl).2 as
  have still : Still s.step.2 w.console := waited.1 not_done
  have prompt : w.Prompt 3 0x200 as := waited.2.2.2 timely
  have stored := prompt.stores not_done 7 (KeyEvent.head?_fired_iff.1 (by decide))
  exact ⟨rfl, word, timely, still, stored⟩

end Console

end XoChip
