import XoChip.Blueprint

/-!
# Runs of a machine and its host

A host starts from a machine that was made from a program or from a snapshot. From then on it
steps the machine, completes its key waits, presses and releases keys, moves the clock, draws on
the display and takes pictures of it, in any order. `Session.run` is the state after such a
sequence; `Console.run` is the part of it that leaves the display to the machine.
-/

namespace XoChip

/-! ## The display as the host uses it -/

/-- What a host does with the display that it shares with a machine. -/
inductive Display.Call
  | setHires (hires : Bool)
  | select (planes : UInt8)
  | clear
  | scrollRight
  | scrollLeft
  | scrollDown (lines : UInt8)
  | scrollUp (lines : UInt8)
  | draw (x y : UInt64) (bytes : List UInt8) (lines : UInt8)
  | reset
  deriving DecidableEq, Repr

def Display.perform (d : Display) : Display.Call → Display
  | .setHires hires => d.setHires hires
  | .select planes => d.select planes
  | .clear => d.clear
  | .scrollRight => d.scrollRight
  | .scrollLeft => d.scrollLeft
  | .scrollDown lines => d.scrollDown lines
  | .scrollUp lines => d.scrollUp lines
  | .draw x y bytes lines => (d.draw x.toNat y.toNat bytes lines).2
  | .reset => Display.reset

/-! ## The machine as the host uses it -/

namespace Console

/-- A machine just made, in any surroundings, under any dialect and with any random generator. -/
inductive Started : Console → Prop
  | loaded {program : List UInt8} {state : State} (dialect : Dialect) (random : Random)
      (context : Context) (fits : State.load program context.clock.now = .ok state) :
      Started ⟨{ state, dialect, random }, { context with display := Display.reset }⟩
  | restored {snapshot : Snapshot} {state : State} {display : Display} (dialect : Dialect)
      (random : Random) (context : Context)
      (accepted : snapshot.restore context.clock.now = .ok (state, display)) :
      Started ⟨{ state, dialect, random }, { context with display }⟩

theorem started_of_build {b : Blueprint} {c : Context} {s : Console} (h : b.build c = .ok s) :
    Started s := by
  unfold Blueprint.build at h
  cases hs : b.start c.clock.now with
  | error cause => rw [hs] at h; cases h
  | ok result =>
    rw [hs] at h
    cases h
    unfold Blueprint.start at hs
    split at hs
    · split at hs
      · next accepted => cases hs; exact .restored _ _ _ accepted
      · cases hs
    · split at hs
      · next fits => cases hs; exact .loaded _ _ _ fits
      · cases hs
    · cases hs

/-- What a host does with a machine and its surroundings, the display apart. -/
inductive Move
  | step
  | tick (count : Nat)
  | poll (wait : KeyWait)
  | await (wait : KeyWait) (cancelled : Bool)
  | press (n : UInt8)
  | release (n : UInt8)
  | advance (nanos : Nat)
  deriving DecidableEq, Repr

/-- What a host learns from a move. -/
inductive Answer
  | outcome (outcome : Outcome)
  | polled (stored : Bool) (wait : KeyWait)
  | awaited (result : Awaited) (wait : KeyWait)
  | nothing
  deriving DecidableEq, Repr

/-- The answer to a move, and the machine after it. -/
def perform (s : Console) : Move → Answer × Console
  | .step => (.outcome s.step.1, s.step.2)
  | .tick count => (.outcome (tick count s).1, (tick count s).2)
  | .poll wait => (.polled (wait.poll s).1 (wait.poll s).2.1, (wait.poll s).2.2)
  | .await wait cancelled =>
    (.awaited (wait.await cancelled s).1 (wait.await cancelled s).2.1,
      (wait.await cancelled s).2.2)
  | .press n => (.nothing, { s with context := s.context.press n })
  | .release n => (.nothing, { s with context := s.context.release n })
  | .advance nanos =>
    (.nothing, { s with context := { s.context with clock := s.context.clock.advance nanos } })

def run : List Move → Console → Console
  | [], s => s
  | m :: ms, s => run ms (s.perform m).2

/-- The answers to a sequence of moves. -/
def answers : List Move → Console → List Answer
  | [], _ => []
  | m :: ms, s => (s.perform m).1 :: answers ms (s.perform m).2

/-- The moment that the clock of the surroundings shows. -/
abbrev now (s : Console) : Nat := s.context.clock.now

/-- The clock never goes back during a sequence of moves. -/
def Forward : List Move → Console → Prop
  | [], _ => True
  | m :: ms, s => s.now ≤ (s.perform m).2.now ∧ Forward ms (s.perform m).2

instance decidableForward : (ms : List Move) → (s : Console) → Decidable (Forward ms s)
  | [], _ => .isTrue trivial
  | m :: ms, s =>
    have := decidableForward ms (s.perform m).2
    inferInstanceAs (Decidable (_ ∧ _))

end Console

/-! ## Sessions -/

/-- A machine in its surroundings, and the pictures that the host has in hand. -/
structure Session where
  console : Console
  frames : List Frame := []

namespace Session

/-- One act of a host. A picture is either put together from planes or taken from the display,
    written over one that the host has in hand if it names one. -/
inductive Act
  | move (m : Console.Move)
  | call (c : Display.Call)
  | compose (width height : UInt64) (plane1 plane2 : Array UInt8)
  | take (recycled : Option Nat)
  deriving DecidableEq

/-- The picture that the host hands over for recycling. -/
def recycled (s : Session) (index : Option Nat) : Option Frame :=
  index.bind fun k => s.frames[k]?

def perform (s : Session) : Act → Session
  | .move m => { s with console := (s.console.perform m).2 }
  | .call c => { s with console := s.console.mapDisplay (·.perform c) }
  | .compose width height plane1 plane2 =>
    { s with frames := s.frames ++ (Frame.ofPlanes? width height plane1 plane2).toList }
  | .take index =>
    { s with frames := s.frames ++ [s.console.context.display.nextFrame (s.recycled index)] }

def run : List Act → Session → Session
  | [], s => s
  | a :: as, s => run as (s.perform a)

/-- The clock never goes back during a sequence of acts. -/
def Forward : List Act → Session → Prop
  | [], _ => True
  | a :: as, s => s.console.now ≤ (s.perform a).console.now ∧ Forward as (s.perform a)

end Session

end XoChip
