import XoChip.Proofs.Scheduler.Execution

/-!
# Who has the machine

A machine passes from the scheduler to a worker and back, through calls that nest: a load pauses the
machine, builds another one and runs one of the two.

`Custody` lists the states that a scheduler can be in: it has no machine, or has one itself, or a
worker has one. In each of them it keeps account of the machine, of its halt and of whether it runs,
and the machine is what its execution in the history so far has made of it. Every event leads from
such a state to such a state, and so does every history.
-/

namespace XoChip

namespace Worker

variable {context : Context}

theorem halted_stop (w : Worker) (context : Context) :
    (w.stop context).state.halted = w.machine.state.halted := by
  unfold stop
  split
  · exact KeyWait.halted_await _ true _
  · rfl

/-- A wait that is interrupted leaves the machine as it is; -/
theorem stop_of_none {m : Machine} {wait : KeyWait}
    (nothing : (context.keypad.poll wait.watch).1 = none) :
    (stop ⟨m, .waiting wait⟩ context).machine = m := by
  rcases hp : context.keypad.poll wait.watch with ⟨_ | key, watch⟩
  · simp only [stop, KeyWait.await_of_none (s := ⟨m, context⟩) hp]
  · rw [hp] at nothing
    cases nothing

/-- one for which a key has come is completed. -/
theorem stop_of_some {m : Machine} {wait : KeyWait} {key : Key}
    (came : (context.keypad.poll wait.watch).1 = some key) :
    (stop ⟨m, .waiting wait⟩ context).machine =
      (Console.storeKey ⟨m, context⟩ wait.register wait.pc key).machine := by
  rcases hp : context.keypad.poll wait.watch with ⟨_ | key', watch⟩
  · rw [hp] at came
    cases came
  · rw [hp] at came
    cases came
    simp only [stop, KeyWait.await_of_some (s := ⟨m, context⟩) hp]
    rfl

/-- A worker that is told to stop interrupts what its machine waits for. -/
theorem interrupts_stop (w : Worker) (context : Context) :
    ∃ k, Console.Interrupts w.stage.wait? ⟨w.machine, context⟩ k (w.stop context) := by
  obtain ⟨m, stage⟩ := w
  cases stage with
  | waiting wait =>
    rcases hp : context.keypad.poll wait.watch with ⟨_ | key, watch⟩
    · refine ⟨0, .givenUp ?_⟩
      rw [KeyWait.await_of_none (s := ⟨m, context⟩) hp]
      rfl
    · have came : (wait.await true ⟨m, context⟩).1 = .released key := by
        rw [KeyWait.await_of_some (s := ⟨m, context⟩) hp]
      exact ⟨1, .completed came⟩
  | ticking | leaving | finished => exact ⟨0, .free⟩

end Worker

namespace Scheduler

variable {start s : Scheduler} {es : List Event} {e : Event}

/-! ## Machines that were built -/

theorem takesBack_of_blueprint? {b : Blueprint} (h : e.blueprint? = some b) :
    e.takesBack = true := by
  cases e with
  | load | restore => rfl
  | _ => cases h

theorem started_of_built? {c : Console} (h : s.built? e = some c) : c.Started := by
  unfold built? at h
  cases hb : e.blueprint? with
  | none => rw [hb] at h; cases h
  | some b =>
    rw [hb, Option.bind_some] at h
    cases built : b.build s.pause.2.context with
    | error cause => rw [built] at h; cases h
    | ok c' =>
      rw [built] at h
      cases h
      exact Console.started_of_build built

theorem started_of_lastBuilt {c : Console} (h : s.lastBuilt es = some c) : c.Started := by
  induction es generalizing s with
  | nil => cases h
  | cons e es ih =>
    rcases Option.or_eq_some_iff.1 h with later | ⟨-, first⟩
    · exact ih later
    · exact started_of_built? first

/-- A machine has been built exactly if a call that replaces the machine has succeeded. -/
theorem isSome_lastBuilt_iff (s : Scheduler) (es : List Event) :
    (s.lastBuilt es).isSome = true ↔
      ∃ es₁ e es₂, es = es₁ ++ e :: es₂ ∧ (s.after es₁).answer? e = some (.ok ()) := by
  induction es generalizing s with
  | nil => simp [lastBuilt]
  | cons e es ih =>
    rw [lastBuilt, Option.isSome_or, Bool.or_eq_true, ih, ← answer?_eq_ok_iff]
    constructor
    · rintro (⟨es₁, e', es₂, rfl, succeeds⟩ | succeeds)
      · exact ⟨e :: es₁, e', es₂, rfl, succeeds⟩
      · exact ⟨[], e, es, rfl, succeeds⟩
    · rintro ⟨es₁, e', es₂, eq, succeeds⟩
      cases es₁ with
      | nil =>
        cases eq
        exact .inr succeeds
      | cons e₁ es₁ =>
        cases eq
        exact .inl ⟨es₁, e', es₂, rfl, succeeds⟩

/-! ## Keeping account -/

/-- A scheduler keeps account of its machine. If it has one, it is what the machine that was built
    last has become by executing its program in the history `es`. -/
inductive Custody (start : Scheduler) (es : List Event) (s : Scheduler) : Prop
  | nothing (machine : s.machine? = none) (worker : s.worker? = none) (running : s.running = false)
      (halt : s.halt = none) (unbuilt : start.lastBuilt es = none)
  | idle {c : Console} {k : Nat} {m : Machine} (machine : s.machine? = some m)
      (worker : s.worker? = none) (running : s.running = false) (halt : s.halt = m.state.halted)
      (executes : Executes start es c k none ⟨m, s.context⟩)
  | working {c : Console} {k : Nat} {w : Worker} (machine : s.machine? = none)
      (worker : s.worker? = some w) (running : s.running = true ↔ w.stage ≠ .finished)
      (halt : s.halt = w.machine.state.halted)
      (executes : Executes start es c k w.stage.wait? ⟨w.machine, s.context⟩)

namespace Custody

theorem apart (h : Custody start es s) : s.machine? = none ∨ s.worker? = none := by
  cases h with
  | nothing machine | working machine => exact .inl machine
  | idle _ worker => exact .inr worker

theorem executes_machine (h : Custody start es s) {m : Machine} (machine : s.machine? = some m) :
    ∃ c k, Executes start es c k none ⟨m, s.context⟩ := by
  cases h with
  | nothing none_machine | working none_machine => rw [none_machine] at machine; cases machine
  | idle machine' _ _ _ executes =>
    cases machine'.symm.trans machine
    exact ⟨_, _, executes⟩

/-- All that a scheduler knows of a machine that is with a worker. -/
theorem of_worker (h : Custody start es s) {w : Worker} (worker : s.worker? = some w) :
    s.machine? = none ∧ (s.running = true ↔ w.stage ≠ .finished) ∧
      s.halt = w.machine.state.halted ∧
      ∃ c k, Executes start es c k w.stage.wait? ⟨w.machine, s.context⟩ := by
  cases h with
  | nothing _ idle | idle _ idle => rw [idle] at worker; cases worker
  | working machine worker' running halt executes =>
    cases worker'.symm.trans worker
    exact ⟨machine, running, halt, _, _, executes⟩

theorem running_of_idle (h : Custody start es s) (idle : s.worker? = none) : s.running = false := by
  cases h with
  | nothing _ _ running | idle _ _ running => exact running
  | working _ worker => rw [idle] at worker; cases worker

theorem running_pause (h : Custody start es s) : s.pause.2.running = false := by
  cases worker : s.worker? with
  | none =>
    rw [pause_of_none worker]
    exact h.running_of_idle worker
  | some w => simp only [Scheduler.pause, worker, Scheduler.tell]

theorem halt_eq (h : Custody start es s) : s.halt = s.held.bind (·.state.halted) := by
  cases h with
  | nothing machine worker _ halt => simp [held, machine, worker, halt]
  | idle machine _ _ halt => simp [held, machine, halt]
  | working machine worker _ halt => simp [held, machine, worker, halt]

theorem isSome_held (h : Custody start es s) : s.held.isSome = (start.lastBuilt es).isSome := by
  cases h with
  | nothing machine worker _ _ unbuilt => simp [held, machine, worker, unbuilt]
  | idle machine _ _ _ executes => simp [held, machine, executes.lastBuilt_eq]
  | working machine worker _ _ executes => simp [held, machine, worker, executes.lastBuilt_eq]

/-! ## Parts of calls -/

theorem tell (h : Custody start es s) {n : Notice} (own : n.isOfScheduler = true) :
    Custody start es (s.tell n) := by
  cases h with
  | nothing machine worker running halt unbuilt =>
    exact .nothing machine worker running halt unbuilt
  | idle machine worker running halt executes =>
    exact .idle machine worker running halt (executes.tell own)
  | working machine worker running halt executes =>
    exact .working machine worker running halt (executes.tell own)

/-- A machine that is given to a worker has not executed anything there. -/
theorem run_of_idle (h : Custody start es s) (idle : s.worker? = none) :
    Custody start es s.run := by
  unfold Scheduler.run
  rw [pause_of_none idle]
  cases h with
  | nothing machine worker running halt unbuilt =>
    simp only [machine]
    exact (Custody.nothing machine worker running halt unbuilt).tell rfl
  | idle machine worker running halt executes =>
    simp only [machine]
    apply Custody.tell _ rfl
    exact .working rfl rfl (by simp) halt executes
  | working machine worker =>
    rw [idle] at worker
    cases worker

theorem keep (h : Custody start es s) (idle : s.worker? = none) (cause : Error) (resume : Bool) :
    Custody start es (s.keep cause resume) := by
  have told : Custody start es (s.tell (.keepingPrevious cause)) := h.tell rfl
  unfold Scheduler.keep
  split
  · exact told.run_of_idle idle
  · exact told

/-- A machine that has just been built takes the place of the previous one. Of that, it only matters
    that no worker has it. -/
theorem install {c : Console} {n : Notice} (new : (start.after es).built? e = some c)
    (idle : s.worker? = none) (stopped : s.running = false) (own : n.isOfScheduler = true)
    (resume : Bool) : Custody start (es ++ [e]) (s.install c n resume) := by
  have installed : Custody start (es ++ [e])
      { s with
        context := c.context.tell n
        machine? := some c.machine
        halt := c.state.halted } :=
    .idle rfl idle stopped rfl ((Executes.built new).tell own)
  unfold Scheduler.install
  split
  · exact installed.run_of_idle idle
  · exact installed

/-- A worker that goes on with a machine keeps account of it. -/
theorem putBack {c t : Console} {k : Nat} {stage : Stage} (machine : s.machine? = none)
    (running : s.running = true) (halt : s.halt = t.state.halted)
    (executes : Executes start es c k stage.wait? t) (goes_on : stage ≠ .finished) :
    Custody start es (s.putBack t stage) :=
  .working machine rfl (iff_of_true running goes_on) halt executes

/-! ## Events -/

theorem pause (h : Custody start es (start.after es)) (takes : e.takesBack = true)
    (kept : (start.after es).built? e = none) :
    Custody start (es ++ [e]) (start.after es).pause.2 := by
  cases h with
  | nothing machine worker running halt unbuilt =>
    rw [pause_of_none worker]
    exact .nothing machine worker running halt ((lastBuilt_of_kept kept).trans unbuilt)
  | idle machine worker running halt executes =>
    rw [pause_of_none worker]
    exact .idle machine worker running halt (executes.event kept (.taken takes .free))
  | @working c k w machine worker running halt executes =>
    obtain ⟨l, interrupts⟩ := w.interrupts_stop (start.after es).context
    simp only [Scheduler.pause, worker]
    apply Custody.tell _ rfl
    exact .idle rfl rfl rfl (halt.trans (w.halted_stop _).symm)
      (executes.event kept (.taken takes interrupts))

theorem run (h : Custody start es (start.after es)) (takes : e.takesBack = true)
    (kept : (start.after es).built? e = none) :
    Custody start (es ++ [e]) (start.after es).run := by
  rw [← run_pause]
  exact (h.pause takes kept).run_of_idle (worker?_pause _)

theorem replace (h : Custody start es (start.after es)) {b : Blueprint}
    {announce : Console → Notice} (wants : e.blueprint? = some b)
    (own : ∀ c, (announce c).isOfScheduler = true) :
    Custody start (es ++ [e]) ((start.after es).replace b announce).2 := by
  cases built : b.build (start.after es).pause.2.context with
  | error cause =>
    have kept : (start.after es).built? e = none := by simp [built?, wants, built, Except.toOption]
    rw [replace_of_error built]
    exact (h.pause (takesBack_of_blueprint? wants) kept).keep (worker?_pause _) cause _
  | ok c =>
    have new : (start.after es).built? e = some c := by simp [built?, wants, built, Except.toOption]
    rw [replace_of_ok built]
    exact install new (worker?_pause _) h.running_pause (own c) _

/-- Events that are no concern of the scheduler's machine. -/
theorem spared (h : Custody start es s) {context : Context} {pace : Pace}
    (kept : (start.after es).built? e = none)
    (leads : ∀ wait? m, Leads (start.after es).worker?.isSome e wait? ⟨m, s.context⟩ 0 wait?
      ⟨m, context⟩) :
    Custody start (es ++ [e]) { s with context, pace } := by
  cases h with
  | nothing machine worker running halt unbuilt =>
    exact .nothing machine worker running halt ((lastBuilt_of_kept kept).trans unbuilt)
  | idle machine worker running halt executes =>
    exact .idle machine worker running halt (executes.event kept (leads _ _))
  | working machine worker running halt executes =>
    exact .working machine worker running halt (executes.event kept (leads _ _))

theorem snapshot (h : Custody start es (start.after es)) (exited : Bool) :
    Custody start (es ++ [.snapshot exited]) ((start.after es).snapshot exited).2 := by
  by_cases inHand : (start.after es).InHand exited
  · cases h with
    | nothing machine worker running halt unbuilt =>
      have paused := pause_of_none worker
      rw [snapshot_of_none inHand (by rw [paused]; exact machine), paused]
      exact .nothing machine worker running halt ((lastBuilt_of_kept rfl).trans unbuilt)
    | idle machine worker running halt executes =>
      have paused := pause_of_none worker
      rw [snapshot_of_some inHand (by rw [paused]; exact machine), paused]
      exact .idle rfl worker running halt (executes.event rfl (.settled exited))
    | @working c k w machine worker running halt executes =>
      obtain ⟨finished, rfl⟩ := inHand w worker
      obtain ⟨m, stage⟩ := w
      cases finished
      rw [snapshot_of_some inHand (machine?_pause worker)]
      simp only [Scheduler.pause, worker]
      exact .idle rfl rfl rfl halt ((executes.event rfl (.settled true)).tell rfl)
  · rw [snapshot_of_not_inHand inHand]
    exact h.spared rfl fun _ _ => .early exited

theorem turnWaiting (h : Custody start es (start.after es)) {m : Machine} {wait : KeyWait}
    (worker : (start.after es).worker? = some ⟨m, .waiting wait⟩) :
    Custody start (es ++ [.turn]) ((start.after es).turnWaiting m wait) := by
  obtain ⟨machine, running, halt, c, k, executes⟩ := h.of_worker worker
  have running : (start.after es).running = true := running.2 nofun
  have works : (start.after es).worker?.isSome = true := by rw [worker]; rfl
  have same := KeyWait.halted_await wait false ⟨m, (start.after es).context⟩
  have waits : Console.Advances (some wait) ⟨m, (start.after es).context⟩ 0 (some wait)
      ⟨m, (start.after es).context⟩ := .refl
  unfold Scheduler.turnWaiting
  rcases hp : (start.after es).context.keypad.poll wait.watch with ⟨_ | key, watch⟩
  · have looked := KeyWait.await_of_none (s := ⟨m, (start.after es).context⟩) hp false
    have advances := waits.looks (congrArg (·.1) looked)
    rw [looked] at advances ⊢
    exact putBack machine running halt (executes.event rfl (.round works advances)) nofun
  · have looked := KeyWait.await_of_some (s := ⟨m, (start.after es).context⟩) hp false
    have advances := waits.key (congrArg (·.1) looked)
    rw [looked] at advances same ⊢
    exact putBack machine running (halt.trans same.symm)
      (executes.event rfl (.round works advances)) nofun

theorem turnTicking (h : Custody start es (start.after es)) {m : Machine}
    (worker : (start.after es).worker? = some ⟨m, .ticking⟩) :
    Custody start (es ++ [.turn]) ((start.after es).turnTicking m) := by
  obtain ⟨machine, running, halt, c, k, executes⟩ := h.of_worker worker
  have running : (start.after es).running = true := running.2 nofun
  have works : (start.after es).worker?.isSome = true := by rw [worker]; rfl
  obtain ⟨l, advances⟩ := Console.Advances.refl.exists_tick
    (s := ⟨m, (start.after es).context⟩) (start.after es).pace.cycles
  have records :=
    Console.records_tick (start.after es).pace.cycles ⟨m, (start.after es).context⟩
  have ticked := executes.event rfl (.round works advances)
  unfold Scheduler.turnTicking
  generalize Console.tick (start.after es).pace.cycles ⟨m, (start.after es).context⟩ = result
    at ticked records
  obtain ⟨outcome, t⟩ := result
  cases outcome with
  | ran =>
    have same : t.state.halted = m.state.halted := records
    exact putBack machine running (halt.trans same.symm) ticked nofun
  | awaits wait =>
    obtain ⟨before, pending⟩ : m.state.halted = none ∧ wait.Pending t.state := records
    have same : (start.after es).halt = t.state.halted :=
      halt.trans (before.trans pending.running.symm)
    exact putBack machine running same ticked nofun
  | halts reason =>
    have stopped : t.state.halted = some reason := records
    have told := ticked.tell (n := .stopped reason) rfl
    exact .working machine rfl (iff_of_true running nofun) stopped.symm told

theorem turn (h : Custody start es (start.after es)) :
    Custody start (es ++ [.turn]) (start.after es).turn := by
  have goes_on := h
  cases h with
  | nothing machine worker running halt unbuilt =>
    simp only [Scheduler.turn, worker]
    exact .nothing machine worker running halt ((lastBuilt_of_kept rfl).trans unbuilt)
  | idle machine worker running halt executes =>
    simp only [Scheduler.turn, worker]
    exact .idle machine worker running halt (executes.event rfl (.rest (by rw [worker]; rfl)))
  | @working c k w machine worker running halt executes =>
    have works : (start.after es).worker?.isSome = true := by rw [worker]; rfl
    have stays := executes.event rfl (.round works .refl)
    obtain ⟨m, stage⟩ := w
    simp only [Scheduler.turn, worker]
    cases stage with
    | ticking => exact goes_on.turnTicking worker
    | waiting wait => exact goes_on.turnWaiting worker
    | leaving => exact .working machine rfl (by simp) halt stays
    | finished => exact .working machine worker running halt stays

/-- Every event leaves a scheduler that keeps account of its machine. -/
theorem perform (h : Custody start es (start.after es)) (e : Event) :
    Custody start (es ++ [e]) ((start.after es).perform e) := by
  cases e with
  | load | restore => exact h.replace rfl fun _ => rfl
  | run | resume => exact h.run rfl rfl
  | pause => exact h.pause rfl rfl
  | snapshot exited => exact h.snapshot exited
  | setCycles cycles =>
    have spared : Custody start (es ++ [.setCycles cycles])
        { start.after es with pace := { (start.after es).pace with cycles } } :=
      h.spared rfl fun _ _ => .setCycles cycles
    exact spared.tell rfl
  | turn => exact h.turn
  | deed d => exact h.spared rfl fun _ _ => .deed d

end Custody

/-! ## Calls that fail -/

/-- A scheduler that has gone on with the machine of a paused one, at work again if it is to resume.
    Only notices have been added. -/
structure Kept (p t : Scheduler) (resume : Bool) : Prop where
  held : t.held = p.machine?
  display : t.context.display = p.context.display
  keypad : t.context.keypad = p.context.keypad
  clock : t.context.clock = p.context.clock
  halt : t.halt = p.halt
  worker : t.worker?.isSome = resume
  running : t.isRunning = resume

theorem Custody.kept (h : Custody start es s) {cause : Error}
    (fails : s.answer? e = some (.error cause)) : Kept s.pause.2 (s.perform e) s.pause.1 := by
  have idle := worker?_pause s
  have stopped := h.running_pause
  cases hb : e.blueprint? with
  | none => rw [answer?_of_none hb] at fails; cases fails
  | some b =>
    obtain ⟨announce, -, performed, answer⟩ := exists_replace hb s
    rw [answer] at fails
    cases built : b.build s.pause.2.context with
    | ok c => rw [replace_of_ok built] at fails; cases fails
    | error cause' =>
      rw [performed, replace_of_error built]
      cases resume : s.pause.1 with
      | false =>
        have held : (s.pause.2.tell (.keepingPrevious cause')).held = s.pause.2.machine? := by
          simp [Scheduler.held, Scheduler.tell, idle]
        have worker : (s.pause.2.tell (.keepingPrevious cause')).worker?.isSome = false := by
          simp [Scheduler.tell, idle]
        exact ⟨held, rfl, rfl, rfl, rfl, worker, stopped⟩
      | true =>
        obtain ⟨m, ready⟩ := exists_machine_of_pause resume
        have resumed : s.pause.2.keep cause' true = _ :=
          Scheduler.run_of_idle (s := s.pause.2.tell (.keepingPrevious cause')) idle ready
        rw [resumed]
        exact ⟨ready.symm, rfl, rfl, rfl, rfl, rfl, rfl⟩

/-! ## Every history -/

/-- A scheduler into which nothing has been loaded yet keeps account of what is loaded later. -/
theorem custody_after (context : Context) (pace : Pace) (es : List Event) :
    let start : Scheduler := { context, pace }
    Custody start es (start.after es) := by
  intro start
  induction es using List.reverseRecOn with
  | nil => exact .nothing rfl rfl rfl rfl rfl
  | append_singleton es e ih =>
    rw [after_concat]
    exact ih.perform e

/-- Whatever is called while the worker does any number of rounds, the machine is neither lost nor
    duplicated, and what the scheduler tells of it is true. A machine that is taken back stands
    between two instructions of its program, which it has executed in the rounds of this history,
    and one that waits for a key has begun to wait in one of them and stands on the instruction. A
    call that fails to replace the machine does nothing but pause it and let it go on. A snapshot is
    given exactly of a machine that is in hand. -/
theorem machine_in_custody (context : Context) (pace : Pace) (es : List Event) :
    let start : Scheduler := { context, pace }
    let s := start.after es
    let p := s.pause.2
    ((s.machine? = none ∨ s.worker? = none) ∧
      ((s.machine?.isSome || s.worker?.isSome) = true ↔
        ∃ es₁ e es₂, es = es₁ ++ e :: es₂ ∧ (start.after es₁).answer? e = some (.ok ()))) ∧
    (s.worker? = none → s.isRunning = false ∧ s.halt = s.machine?.bind (·.state.halted)) ∧
    (p.worker? = none ∧ p.machine?.isSome = (s.machine?.isSome || s.worker?.isSome) ∧
      (∀ m, p.machine? = some m → ∃ c k, start.lastBuilt es = some c ∧ c.Started ∧
        Executes start (es ++ [.pause]) c k none ⟨m, p.context⟩) ∧
      ∀ m wait, s.worker? = some ⟨m, .waiting wait⟩ →
        (∃ c k, start.lastBuilt es = some c ∧
          Executes start es c k (some wait) ⟨m, s.context⟩) ∧
        wait.Pending m.state ∧
        ((s.context.keypad.poll wait.watch).1 = none → p.machine? = some m) ∧
        ∀ key, (s.context.keypad.poll wait.watch).1 = some key →
          p.machine? = some (Console.storeKey ⟨m, s.context⟩ wait.register wait.pc key).machine) ∧
    (∀ e cause, s.answer? e = some (.error cause) → Kept p (s.perform e) s.pause.1) ∧
    ∀ exited,
      (s.InHand exited → (s.snapshot exited).1 = p.machine?.map fun m =>
        (Snapshot.capture m.state p.context.display p.context.clock.now).1) ∧
      (¬ s.InHand exited → s.snapshot exited = (none, s)) := by
  intro start s p
  have custody : Custody start es s := custody_after context pace es
  have paused : Custody start (es ++ [.pause]) p := custody.pause rfl rfl
  have idle : p.worker? = none := worker?_pause s
  have held : (s.machine?.isSome || s.worker?.isSome) = (start.lastBuilt es).isSome := by
    rw [← custody.isSome_held, Scheduler.held, Option.isSome_or, Option.isSome_map]
  have same : start.lastBuilt (es ++ [.pause]) = start.lastBuilt es := lastBuilt_of_kept rfl
  have held_paused : p.machine?.isSome = (start.lastBuilt es).isSome := by
    rw [← same, ← paused.isSome_held, Scheduler.held, idle, Option.map_none, Option.or_none]
  refine ⟨⟨custody.apart, ?_⟩, ?_, ⟨idle, held_paused.trans held.symm, ?_, ?_⟩, ?_, ?_⟩
  · rw [held]
    exact isSome_lastBuilt_iff start es
  · intro no_worker
    refine ⟨custody.running_of_idle no_worker, ?_⟩
    rw [custody.halt_eq, Scheduler.held, no_worker, Option.map_none, Option.or_none]
  · intro m machine
    obtain ⟨c, k, executes⟩ := paused.executes_machine machine
    have built := same.symm.trans executes.lastBuilt_eq
    exact ⟨c, k, built, started_of_lastBuilt built, executes⟩
  · intro m wait worker
    obtain ⟨-, -, -, c, k, executes⟩ := custody.of_worker worker
    refine ⟨⟨c, k, executes.lastBuilt_eq, executes⟩, executes.pending wait rfl, ?_, ?_⟩
    · intro nothing
      rw [machine?_pause worker, Worker.stop_of_none nothing]
    · intro key came
      rw [machine?_pause worker, Worker.stop_of_some came]
  · intro e cause fails
    exact custody.kept fails
  · intro exited
    refine ⟨?_, snapshot_of_not_inHand⟩
    intro inHand
    cases machine : p.machine? with
    | none => rw [snapshot_of_none inHand machine, Option.map_none]
    | some m => rw [snapshot_of_some inHand machine, Option.map_some]

/-- A machine that is waiting for a key when a snapshot of another version is to be restored. The
    key that was pressed and released before it began to wait does not count. -/
theorem machine_in_custody_waiting :
    let start : Scheduler := {}
    let es :=
      [.load [0xF3, 0x0A] {} 0, .deed (.press 5), .deed (.release 5), .run, .turn]
    let wait : KeyWait := ⟨3, 0x200, ⟨2, none⟩⟩
    let other : Snapshot :=
      { version := 2, v := Registers.blank, flags := Registers.blank, stack := #[], depth := 0
        memory := #[], i := 0, pc := 0x200, halted := none, delay := 0
        display := ⟨false, 1, 64, 32, #[], #[]⟩ }
    let s := start.after es
    ∃ m, s.worker? = some ⟨m, .waiting wait⟩ ∧ wait.Pending m.state ∧
      (∃ c k, Executes start es c k (some wait) ⟨m, s.context⟩) ∧ s.pause.2.machine? = some m ∧
      s.answer? (.restore other {} 0) = some (.error (.invalidSnapshot (.version 2))) ∧
      Kept s.pause.2 (s.perform (.restore other {} 0)) s.pause.1 := by
  intro start es wait other s
  -- What else is in memory does not matter, and it takes long to compute.
  obtain ⟨memory, loaded, word⟩ : ∃ memory : Memory,
      State.load [0xF3, 0x0A] 0 = .ok { State.blank 0 with memory } ∧
        memory.readWord 0x200 = Word.ofNibbles 0xF 3 0x0 0xA := by
    refine ⟨_, rfl, ?_⟩
    simp only [Memory.writeMany, Memory.readWord, Memory.read_write]
    decide
  let c : Console :=
    ⟨⟨{ State.blank 0 with memory }, {}, .ofSeed 0, false⟩, { display := Display.reset }⟩
  let ready := start.install c (.loaded 2) false
  let u := ((ready.perform (.deed (.press 5))).perform (.deed (.release 5))).run
  have built : Blueprint.build { program := some [0xF3, 0x0A] } start.pause.2.context = .ok c := by
    have loaded : State.load [0xF3, 0x0A] start.pause.2.context.clock.now =
        .ok { State.blank 0 with memory } := loaded
    simp only [Blueprint.build, Blueprint.start, loaded]
    rfl
  have reached : s = u.turn := by
    simp only [s, es, after, perform, load, replace_of_ok built]
    rfl
  have step := Console.step_of_awaitKey (s := ⟨c.machine, u.context⟩) rfl word
  have turned := turn_of_awaits (s := u) rfl (Nat.succ_pos 9) (by rw [step])
  have worker : s.worker? = some ⟨c.machine, .waiting wait⟩ := by
    rw [reached, turned, step]
    rfl
  have nothing : (s.context.keypad.poll wait.watch).1 = none := by
    rw [reached, turned, step]
    rfl
  have refused : Blueprint.build { snapshot := some other } s.pause.2.context =
      .error (.invalidSnapshot (.version 2)) := rfl
  have fails : s.answer? (.restore other {} 0) = some (.error (.invalidSnapshot (.version 2))) := by
    rw [answer?, restore, replace_of_error refused]
  have custody := machine_in_custody {} {} es
  have same : Scheduler.after { context := {}, pace := {} } es = s := rfl
  simp only [same] at custody
  obtain ⟨-, -, ⟨-, -, -, waits⟩, kept, -⟩ := custody
  obtain ⟨⟨c', k, -, executes⟩, pending, interrupted, -⟩ := waits _ wait worker
  exact ⟨_, worker, pending, ⟨c', k, executes⟩, interrupted nothing, fails, kept _ _ fails⟩

end Scheduler

end XoChip
