import XoChip.Proofs.Scheduler.History

/-!
# What a machine executes in the course of a history

A machine executes its program in the rounds of a worker and at no other time, while the host goes
about its business. `Leads` says what one event does to a machine that it does not replace, and
`Executes` follows a machine through a history, from the call that built it on. Both keep hold of
the wait in which the machine is: it is begun by an instruction in a round of the worker, it is
moved on by looking for the key, and it ends with the instruction or with an interruption.
-/

namespace XoChip

/-- What the machine of a worker waits for. -/
def Stage.wait? : Stage → Option KeyWait
  | waiting wait => some wait
  | ticking | leaving | finished => none

namespace Scheduler

/-- The calls that take the machine back from its worker, whatever comes then. -/
def Event.takesBack : Event → Bool
  | .load .. | .restore .. | .run | .resume | .pause => true
  | _ => false

/-- What an event makes of a machine that it does not replace, and how many instructions the machine
    executes in it. `working` tells whether a worker has the machine. -/
inductive Leads (working : Bool) :
    Event → Option KeyWait → Console → Nat → Option KeyWait → Console → Prop
  /-- In the rounds of its worker the machine is left to itself; -/
  | round {wait? wait?' : Option KeyWait} {s t : Console} {k : Nat} (works : working = true)
      (advances : s.Advances wait? k wait?' t) : Leads working .turn wait? s k wait?' t
  /-- without a worker there are none. -/
  | rest {s : Console} (idle : working = false) : Leads working .turn none s 0 none s
  | deed {wait? : Option KeyWait} {s : Console} (d : Deed) :
      Leads working (.deed d) wait? s 0 wait? { s with context := s.context.perform d }
  /-- A machine that is taken back does not go on with what it waits for. -/
  | taken {e : Event} {wait? : Option KeyWait} {s t : Console} {k : Nat}
      (takes : e.takesBack = true) (interrupts : Console.Interrupts wait? s k t) :
      Leads working e wait? s k none t
  | setCycles {wait? : Option KeyWait} {s : Console} (cycles : Nat) :
      Leads working (.setCycles cycles) wait? s 0 wait? s
  /-- A snapshot brings the delay timer up to date, -/
  | settled {s : Console} (exited : Bool) :
      Leads working (.snapshot exited) none s 0 none
        (s.setState { s.state with delay := s.state.delay.settle s.now })
  /-- unless it comes too early. -/
  | early {wait? : Option KeyWait} {s : Console} (exited : Bool) :
      Leads working (.snapshot exited) wait? s 0 wait? s

/-- In a history of the scheduler `start`, the machine that is built last is built as `c` and
    executes `k` instructions, each of them as a whole. Then it is `s`, and may wait for a key. -/
inductive Executes (start : Scheduler) :
    List Event → Console → Nat → Option KeyWait → Console → Prop
  | built {es : List Event} {e : Event} {c : Console} (new : (start.after es).built? e = some c) :
      Executes start (es ++ [e]) c 0 none c
  | event {es : List Event} {e : Event} {c s t : Console} {k l : Nat}
      {wait? wait?' : Option KeyWait} (before : Executes start es c k wait? s)
      (kept : (start.after es).built? e = none)
      (leads : Leads (start.after es).worker?.isSome e wait? s l wait?' t) :
      Executes start (es ++ [e]) c (k + l) wait?' t
  /-- The scheduler tells what it does. -/
  | tell {es : List Event} {c s : Console} {k : Nat} {wait? : Option KeyWait} {n : Notice}
      (before : Executes start es c k wait? s) (own : n.isOfScheduler = true) :
      Executes start es c k wait? (s.tell n)

variable {start : Scheduler} {es : List Event} {e : Event} {c s t : Console} {k : Nat}
  {wait? wait?' : Option KeyWait} {working : Bool}

theorem Leads.pending (leads : Leads working e wait? s k wait?' t)
    (h : ∀ wait, wait? = some wait → wait.Pending s.state) :
    ∀ wait, wait?' = some wait → wait.Pending t.state := by
  cases leads with
  | round _ advances => exact advances.pending h
  | deed | setCycles | early => exact h
  | rest | taken | settled => nofun

/-- A machine that waits for a key stands on the instruction that waits. -/
theorem Executes.pending (h : Executes start es c k wait? s) :
    ∀ wait, wait? = some wait → wait.Pending s.state := by
  induction h with
  | built => nofun
  | event _ _ leads ih => exact leads.pending ih
  | tell _ _ ih => exact ih

/-- It is the machine that was built last that executes instructions. -/
theorem Executes.lastBuilt_eq (h : Executes start es c k wait? s) :
    start.lastBuilt es = some c := by
  induction h with
  | built new => rw [lastBuilt_concat, new, Option.some_or]
  | event _ kept _ ih => rw [lastBuilt_of_kept kept, ih]
  | tell _ _ ih => exact ih

end Scheduler

end XoChip
