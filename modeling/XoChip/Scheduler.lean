import XoChip.Blueprint

/-!
# The scheduler

A scheduler drives one machine. While the machine is at work it belongs to a worker, which executes
a fixed number of instructions per frame until the program stops or the scheduler takes the machine
back. `Scheduler.turn` is one round of the worker; how many rounds pass between two calls of the
host is up to the host.
-/

namespace XoChip

/-- How a scheduler drives its machine: instructions per frame, and the length of a frame in
    nanoseconds. -/
structure Pace where
  cycles : Nat := 10
  frameNanos : Nat := tickNanos
  deriving DecidableEq, Repr, Inhabited

/-- How far a worker has got. -/
inductive Stage
  /-- It executes batches of instructions. -/
  | ticking
  /-- Its machine waits for a key. -/
  | waiting (wait : KeyWait)
  /-- The program has stopped, but the worker has not yet said so. -/
  | leaving
  /-- It has said so. Its thread may not have exited yet. -/
  | finished
  deriving DecidableEq, Repr

/-- A machine at work. -/
structure Worker where
  machine : Machine
  stage : Stage := .ticking
  deriving DecidableEq

/-- The machine of a worker that is told to stop. A wait for a key is interrupted, unless the key
    has come. -/
def Worker.stop (w : Worker) (c : Context) : Console :=
  match w.stage with
  | .waiting wait => (wait.await true ⟨w.machine, c⟩).2.2
  | _ => ⟨w.machine, c⟩

/-- A scheduler. -/
structure Scheduler where
  context : Context := {}
  pace : Pace := {}
  /-- The machine, unless it is with a worker. -/
  machine? : Option Machine := none
  worker? : Option Worker := none
  /-- Set when a worker is started, and cleared by the worker when it comes to an end. -/
  running : Bool := false
  /-- How the last machine stopped, if it did. -/
  halt : Option Halt := none

namespace Scheduler

def tell (s : Scheduler) (n : Notice) : Scheduler := { s with context := s.context.tell n }

/-- Change the number of instructions per frame, from the next frame on. -/
def setCycles (s : Scheduler) (cycles : Nat) : Scheduler :=
  { s.tell (.speed cycles) with pace := { s.pace with cycles } }

/-- Whether a machine is at work and has not come to an end. -/
def isRunning (s : Scheduler) : Bool := s.running

/-! ## The worker -/

/-- Put the result of a worker's round back. -/
def putBack (s : Scheduler) (console : Console) (stage : Stage) : Scheduler :=
  { s with
    context := console.context
    worker? := some { machine := console.machine, stage } }

/-- The worker's part of a round in which the machine waits for a key. -/
def turnWaiting (s : Scheduler) (machine : Machine) (wait : KeyWait) : Scheduler :=
  match wait.await false ⟨machine, s.context⟩ with
  | (.released _, _, console) => s.putBack console .ticking
  | (_, wait, console) => s.putBack console (.waiting wait)

/-- The worker's part of a round in which a batch of instructions is executed. -/
def turnTicking (s : Scheduler) (machine : Machine) : Scheduler :=
  match Console.tick s.pace.cycles ⟨machine, s.context⟩ with
  | (.ran, console) => s.putBack console .ticking
  | (.awaits wait, console) => s.putBack console (.waiting wait)
  | (.halts reason, console) =>
    { (s.putBack console .leaving).tell (.stopped reason) with halt := some reason }

/-- One round of the worker: it looks at the keypad if the machine waits for a key and executes a
    batch of instructions otherwise. After the round in which the program stops there is one more,
    in which the worker comes to an end. -/
def turn (s : Scheduler) : Scheduler :=
  match s.worker? with
  | none => s
  | some worker =>
    match worker.stage with
    | .ticking => s.turnTicking worker.machine
    | .waiting wait => s.turnWaiting worker.machine wait
    | .leaving => { s with worker? := some { worker with stage := .finished }, running := false }
    | .finished => s

/-! ## The calls of the host -/

/-- Take the machine back from its worker. Tells whether the machine was still running. -/
def pause (s : Scheduler) : Bool × Scheduler :=
  match s.worker? with
  | none => (false, s)
  | some worker =>
    let console := worker.stop s.context
    (s.running,
      { s with
        context := console.context
        machine? := some console.machine
        worker? := none
        running := false }.tell .paused)

/-- Give the machine to a worker. A worker that is there already is ended first. -/
def run (s : Scheduler) : Scheduler :=
  let s := s.pause.2
  match s.machine? with
  | none => s.tell .nothingToRun
  | some machine =>
    { s with machine? := none, worker? := some { machine }, running := true }.tell .started

/-- Keep the previous machine, which goes on if it was running. -/
def keep (s : Scheduler) (cause : Error) (resume : Bool) : Scheduler :=
  let s := s.tell (.keepingPrevious cause)
  if resume then s.run else s

/-- Put another machine in the place of the previous one. It runs if the previous one did. -/
def install (s : Scheduler) (console : Console) (notice : Notice) (resume : Bool) : Scheduler :=
  let s :=
    { s with
      context := console.context.tell notice
      machine? := some console.machine
      halt := console.state.halted }
  if resume then s.run else s

/-- Replace the machine by one built from a blueprint. If building fails, the previous one is
    kept. -/
def replace (s : Scheduler) (b : Blueprint) (announce : Console → Notice) :
    Except Error Unit × Scheduler :=
  let (resume, s) := s.pause
  match b.build s.context with
  | .error cause => (.error cause, s.keep cause resume)
  | .ok console => (.ok (), s.install console (announce console) resume)

/-- Replace the machine by one that starts a program. -/
def load (s : Scheduler) (program : List UInt8) (dialect : Dialect) (seed : UInt64) :
    Except Error Unit × Scheduler :=
  s.replace { program := some program, dialect, seed } fun _ => .loaded program.length

/-- Replace the machine by one restored from a snapshot. -/
def restore (s : Scheduler) (snapshot : Snapshot) (dialect : Dialect) (seed : UInt64) :
    Except Error Unit × Scheduler :=
  s.replace { snapshot := some snapshot, dialect, seed } fun console =>
    .restored console.state.pc

/-- Take the machine back from a worker that has come to an end by itself, if its thread has been
    seen to exit. -/
def collect (s : Scheduler) (exited : Bool) : Scheduler :=
  match s.worker? with
  | some { machine := _, stage := .finished } => if exited then s.pause.2 else s
  | _ => s

/-- A snapshot of the machine, unless it is still with a worker or there is none. Between the end of
    a worker and the exit of its thread, the machine is still with it. -/
def snapshot (s : Scheduler) (exited : Bool := true) : Option Snapshot × Scheduler :=
  let s := s.collect exited
  match s.worker?, s.machine? with
  | none, some machine =>
    let (snapshot, state) :=
      Snapshot.capture machine.state s.context.display s.context.clock.now
    (some snapshot, { s with machine? := some { machine with state } })
  | _, _ => (none, s)

end Scheduler

end XoChip
