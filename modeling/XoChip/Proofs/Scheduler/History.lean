import XoChip.Proofs.Machine.Progress
import XoChip.Scheduler

/-!
# What happens to a scheduler

A history is a sequence of calls of the host, with rounds of the worker and deeds of the host in
between, as many as one likes. Rounds that the worker does while it is being paused count as rounds
before the call. A worker whose program has stopped may be paused before it says so, and is then
taken for one that was still running. A snapshot may be asked for before or after the thread of a
worker that has come to an end is seen to have exited.
-/

namespace XoChip

/-- What a scheduler itself has to say, apart from its machine. -/
def Notice.isOfScheduler : Notice → Bool
  | .speed _ | .loaded _ | .restored _ | .keepingPrevious _ | .nothingToRun | .started | .paused
  | .stopped _ => true
  | _ => false

namespace Scheduler

/-! ## Histories -/

/-- What happens to a scheduler: calls of the host, rounds of the worker, and what the host does to
    the surroundings. -/
inductive Event
  | load (program : List UInt8) (dialect : Dialect) (seed : UInt64)
  | restore (picture : Snapshot) (dialect : Dialect) (seed : UInt64)
  | run
  | resume
  | pause
  | snapshot (exited : Bool)
  | setCycles (cycles : Nat)
  | turn
  | deed (d : Deed)
  deriving DecidableEq

def perform (s : Scheduler) : Event → Scheduler
  | .load program dialect seed => (s.load program dialect seed).2
  | .restore picture dialect seed => (s.restore picture dialect seed).2
  | .run | .resume => s.run
  | .pause => s.pause.2
  | .snapshot exited => (s.snapshot exited).2
  | .setCycles cycles => s.setCycles cycles
  | .turn => s.turn
  | .deed d => { s with context := s.context.perform d }

/-- The scheduler after a sequence of events. -/
def after (s : Scheduler) : List Event → Scheduler
  | [] => s
  | e :: es => (s.perform e).after es

/-- The answer to a call that replaces the machine. -/
def answer? (s : Scheduler) : Event → Option (Except Error Unit)
  | .load program dialect seed => some (s.load program dialect seed).1
  | .restore picture dialect seed => some (s.restore picture dialect seed).1
  | _ => none

/-- What an event wants to have built. -/
def Event.blueprint? : Event → Option Blueprint
  | .load program dialect seed => some { program := some program, dialect, seed }
  | .restore picture dialect seed => some { snapshot := some picture, dialect, seed }
  | _ => none

/-- The machine that an event builds, in its surroundings. -/
def built? (s : Scheduler) (e : Event) : Option Console :=
  e.blueprint?.bind fun b => (b.build s.pause.2.context).toOption

/-- The machine that was built last in a sequence of events. -/
def lastBuilt (s : Scheduler) : List Event → Option Console
  | [] => none
  | e :: es => ((s.perform e).lastBuilt es).or (s.built? e)

/-- The scheduler has the machine in hand, or gets it from a worker that has been seen to exit. -/
def InHand (s : Scheduler) (exited : Bool) : Prop :=
  ∀ w, s.worker? = some w → w.stage = .finished ∧ exited = true

/-- The machine, whoever has it. -/
def held (s : Scheduler) : Option Machine := s.machine?.or (s.worker?.map Worker.machine)

variable {s : Scheduler}

theorem after_concat (s : Scheduler) (es : List Event) (e : Event) :
    s.after (es ++ [e]) = (s.after es).perform e := by
  induction es generalizing s with
  | nil => rfl
  | cons e' es ih => exact ih (s.perform e')

theorem lastBuilt_concat (s : Scheduler) (es : List Event) (e : Event) :
    s.lastBuilt (es ++ [e]) = ((s.after es).built? e).or (s.lastBuilt es) := by
  induction es generalizing s with
  | nil => simp [lastBuilt, after]
  | cons e' es ih => rw [List.cons_append, lastBuilt, ih, lastBuilt, after, Option.or_assoc]

/-- An event that builds nothing leaves the machine that was built last. -/
theorem lastBuilt_of_kept {es : List Event} {e : Event} (kept : (s.after es).built? e = none) :
    s.lastBuilt (es ++ [e]) = s.lastBuilt es := by
  rw [lastBuilt_concat, kept, Option.none_or]

/-! ## What the calls do -/

theorem pause_of_none (idle : s.worker? = none) : s.pause = (false, s) := by
  simp only [pause, idle]

theorem worker?_pause (s : Scheduler) : s.pause.2.worker? = none := by
  unfold pause
  split
  · assumption
  · rfl

theorem machine?_pause {w : Worker} (worker : s.worker? = some w) :
    s.pause.2.machine? = some (w.stop s.context).machine := by
  simp only [pause, worker]
  rfl

/-- A round that begins on an instruction that waits for a key. -/
theorem turn_of_awaits {m : Machine} {wait : KeyWait} (worker : s.worker? = some ⟨m, .ticking⟩)
    (allowed : 0 < s.pace.cycles) (awaits : (Console.step ⟨m, s.context⟩).1 = .awaits wait) :
    s.turn = s.putBack (Console.step ⟨m, s.context⟩).2 (.waiting wait) := by
  obtain ⟨n, cycles⟩ := Nat.exists_eq_add_of_lt allowed
  have ticked : Console.tick s.pace.cycles ⟨m, s.context⟩ =
      (.awaits wait, (Console.step ⟨m, s.context⟩).2) := by
    rw [cycles, Console.tick_succ_of_stops _ (by simp [awaits]), ← awaits]
  simp only [turn, worker, turnTicking, ticked]

/-- Only a machine that there is can have been running. -/
theorem exists_machine_of_pause (h : s.pause.1 = true) : ∃ m, s.pause.2.machine? = some m := by
  unfold pause at h ⊢
  split at h
  · cases h
  · next worker some_worker => exact ⟨(worker.stop s.context).machine, rfl⟩

/-- A machine that runs has been paused first. -/
theorem run_pause (s : Scheduler) : s.pause.2.run = s.run := by
  rw [run, run, pause_of_none (worker?_pause s)]

theorem run_of_idle (idle : s.worker? = none) {m : Machine} (ready : s.machine? = some m) :
    s.run =
      { s with machine? := none, worker? := some { machine := m }, running := true }.tell
        .started := by
  rw [run, pause_of_none idle]
  simp only [ready]

section Snapshot

variable {exited : Bool}

theorem collect_of_inHand (h : s.InHand exited) : s.collect exited = s.pause.2 := by
  cases worker : s.worker? with
  | none => simp only [collect, worker, pause]
  | some w =>
    obtain ⟨finished, rfl⟩ := h w worker
    obtain ⟨m, stage⟩ := w
    cases finished
    simp only [collect, worker, if_true]

/-- A scheduler that has the machine in hand takes a snapshot of it as it is after a pause. -/
theorem snapshot_of_some (h : s.InHand exited) {m : Machine}
    (machine : s.pause.2.machine? = some m) :
    let p := s.pause.2
    let picture := Snapshot.capture m.state p.context.display p.context.clock.now
    s.snapshot exited =
      (some picture.1, { p with machine? := some { m with state := picture.2 } }) := by
  simp only [snapshot, collect_of_inHand h, worker?_pause, machine]

theorem snapshot_of_none (h : s.InHand exited) (nothing : s.pause.2.machine? = none) :
    s.snapshot exited = (none, s.pause.2) := by
  simp only [snapshot, collect_of_inHand h, worker?_pause, nothing]

/-- While the machine is with a worker there is no snapshot. -/
theorem snapshot_of_not_inHand (h : ¬ s.InHand exited) : s.snapshot exited = (none, s) := by
  simp only [InHand, not_forall] at h
  obtain ⟨⟨m, stage⟩, worker, other⟩ := h
  have stays : s.collect exited = s := by
    cases stage with
    | finished =>
      have unseen : exited = false := by simpa using other
      simp only [collect, worker, unseen, Bool.false_eq_true, if_false]
    | _ => simp only [collect, worker]
  simp only [snapshot, stays, worker]

end Snapshot

section Replace

variable {b : Blueprint} {announce : Console → Notice}

theorem replace_of_error {cause : Error} (h : b.build s.pause.2.context = .error cause) :
    s.replace b announce = (.error cause, s.pause.2.keep cause s.pause.1) := by
  simp only [replace, h]

theorem replace_of_ok {c : Console} (h : b.build s.pause.2.context = .ok c) :
    s.replace b announce = (.ok (), s.pause.2.install c (announce c) s.pause.1) := by
  simp only [replace, h]

end Replace

/-- Loading and restoring are two ways to replace the machine. -/
theorem exists_replace {e : Event} {b : Blueprint} (h : e.blueprint? = some b) (s : Scheduler) :
    ∃ announce : Console → Notice, (∀ c, (announce c).isOfScheduler = true) ∧
      s.perform e = (s.replace b announce).2 ∧ s.answer? e = some (s.replace b announce).1 := by
  cases e with
  | load | restore =>
    cases h
    exact ⟨_, fun _ => rfl, rfl, rfl⟩
  | _ => cases h

theorem answer?_of_none {e : Event} (h : e.blueprint? = none) : s.answer? e = none := by
  cases e with
  | load | restore => cases h
  | _ => rfl

/-- A call that replaces the machine succeeds if there is another one to put in its place. -/
theorem answer?_eq_ok_iff {e : Event} : s.answer? e = some (.ok ()) ↔ (s.built? e).isSome := by
  cases hb : e.blueprint? with
  | none => simp [answer?_of_none hb, built?, hb]
  | some b =>
    obtain ⟨announce, -, -, answer⟩ := exists_replace hb s
    rw [answer, built?, hb, Option.bind_some]
    cases built : b.build s.pause.2.context with
    | error cause => simp [replace_of_error built, Except.toOption]
    | ok c => simp [replace_of_ok built, Except.toOption]

end Scheduler

end XoChip
