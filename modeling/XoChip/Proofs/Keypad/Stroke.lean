import Mathlib.Data.List.Infix
import XoChip.Proofs.Keypad.Vigil

/-!
# Strokes

A stroke is the release of the key that was pressed last. `KeyEvent.FirstStroke` says of a key that
the first stroke in a list of events is one of that key, and this is what a watch yields first if it
is polled in time. Even a watch that is polled too late yields no key that was not pressed and then
released while it was watching.
-/

namespace XoChip

/-! ## Strokes in lists of events -/

namespace KeyEvent

/-- The last press among some events is one of the given key. -/
def LastPressed (events : List KeyEvent) (k : Key) : Prop :=
  ∃ before after, events = before ++ .down k :: after ∧ ∀ j, .down j ∉ after

/-- The first release of a key pressed last is one of the given key. -/
def FirstStroke (events : List KeyEvent) (k : Key) : Prop :=
  ∃ before after, events = before ++ .up k :: after ∧ LastPressed before k ∧
    ∀ earlier j later, before = earlier ++ .up j :: later → ¬ LastPressed earlier j

variable {armed : Option Key} {e : KeyEvent} {events : List KeyEvent} {k : Key}

theorem lastPressed_cons :
    LastPressed (e :: events) k ↔
      LastPressed events k ∨ e = .down k ∧ ∀ j, .down j ∉ events := by
  constructor
  · rintro ⟨before, after, split, none_after⟩
    cases before with
    | nil =>
      cases split
      exact .inr ⟨rfl, none_after⟩
    | cons b before =>
      cases split
      exact .inl ⟨before, after, rfl, none_after⟩
  · rintro (⟨before, after, rfl, none_after⟩ | ⟨rfl, none_after⟩)
    · exact ⟨e :: before, after, rfl, none_after⟩
    · exact ⟨[], events, rfl, none_after⟩

/-- A key stays armed until one is pressed. -/
theorem armedAfter_eq_some_iff :
    armedAfter armed events = some k ↔
      LastPressed events k ∨ armed = some k ∧ ∀ j, .down j ∉ events := by
  induction events generalizing armed with
  | nil => simp [LastPressed]
  | cons e events ih =>
    have next : armedAfter armed (e :: events) = armedAfter (e.arm armed) events := rfl
    rw [next, ih, lastPressed_cons]
    cases e with
    | down i =>
      have pressed : ¬ ∀ j, .down j ∉ .down i :: events := fun none_pressed =>
        none_pressed i (List.mem_cons_self ..)
      simp only [pressed, and_false, or_false, arm, Option.some.injEq, down.injEq]
    | up i => simp [arm]

theorem armedAfter_none_eq_some_iff : armedAfter none events = some k ↔ LastPressed events k := by
  simp [armedAfter_eq_some_iff]

/-- Nothing fires as long as no armed key is released. -/
theorem fired_eq_nil_iff :
    fired armed events = [] ↔
      ∀ before j after, events = before ++ .up j :: after → armedAfter armed before ≠ some j := by
  induction events generalizing armed with
  | nil => simp [fired]
  | cons e events ih =>
    simp only [fired, List.append_eq_nil_iff, Option.toList_eq_nil_iff, ih]
    constructor
    · rintro ⟨now, later⟩ before j after split same
      cases before with
      | nil =>
        cases split
        cases now.symm.trans (fire_eq_some_iff.2 ⟨rfl, same⟩)
      | cons b before =>
        cases split
        exact later before j after rfl same
    · intro never
      refine ⟨?_, ?_⟩
      · cases fires : e.fire armed with
        | none => rfl
        | some j =>
          obtain ⟨rfl, same⟩ := fire_eq_some_iff.1 fires
          exact absurd same (never [] j events rfl)
      · intro before j after split
        exact never (e :: before) j after (by rw [split]; rfl)

/-- The first key that fires is the first armed one that is released. -/
theorem head?_fired_eq_some_iff :
    (fired armed events).head? = some k ↔
      ∃ before after, events = before ++ .up k :: after ∧ armedAfter armed before = some k ∧
        fired armed before = [] := by
  constructor
  · intro h
    induction events generalizing armed with
    | nil => simp [fired] at h
    | cons e events ih =>
      cases fires : e.fire armed with
      | some j =>
        obtain ⟨rfl, same⟩ := fire_eq_some_iff.1 fires
        obtain rfl : j = k := by simpa [fired, fires] using h
        exact ⟨[], events, rfl, same, rfl⟩
      | none =>
        obtain ⟨before, after, rfl, same, nothing⟩ := ih (by simpa [fired, fires] using h)
        exact ⟨e :: before, after, rfl, same, by simp [fired, fires, nothing]⟩
  · rintro ⟨before, after, rfl, same, nothing⟩
    simp [fired_append, nothing, fired, fire_eq_some_iff.2 ⟨rfl, same⟩]

/-- The first stroke is what fires first. -/
theorem head?_fired_iff : (fired none events).head? = some k ↔ FirstStroke events k := by
  simp only [head?_fired_eq_some_iff, fired_eq_nil_iff, armedAfter_none_eq_some_iff, FirstStroke,
    ne_eq]

theorem fired_none_eq_nil_iff : fired none events = [] ↔ ∀ k, ¬ FirstStroke events k := by
  simp only [← head?_fired_iff, ← Option.eq_none_iff_forall_ne_some, List.head?_eq_none_iff]

/-- Once there is a first stroke, later events do not change which it is. -/
theorem FirstStroke.append_iff {later : List KeyEvent} {j : Key} (h : FirstStroke events k) :
    FirstStroke (events ++ later) j ↔ j = k := by
  rw [← head?_fired_iff] at h ⊢
  simp [fired_append, List.head?_append, h, eq_comm]

end KeyEvent

/-! ## Strokes that a watch yields -/

namespace Keypad.Vigil

variable {first : Nat} {events : List KeyEvent} {v : Vigil} {k : Key}

/-- What a watch has passed it also has when it passes over some events. -/
theorem passed_sublist (first : Nat) (events : List KeyEvent) (v : Vigil) :
    (passed first events v).Sublist ((events.take (firstShown v.watch events)).drop first) :=
  (List.take_prefix_take_left (Nat.le_max_left _ _)).sublist.drop first

/-- A watch whose armed key was pressed when the watch had been made already. -/
structure Armed (first : Nat) (events : List KeyEvent) (v : Vigil) : Prop
    extends Follows first events v where
  pressed : ∀ k, v.watch.armed = some k → .down k ∈ passed first events v

theorem armed_start {p : Keypad} (h : p.Records events) : Armed events.length events (start p) where
  toFollows := follows_start h
  pressed := by nofun

namespace Armed

theorem touch (h : Armed first events v) (t : Touch) :
    Armed first (events ++ t.event?.toList) (v.perform (.touch t)) where
  toFollows := h.toFollows.touch t
  pressed := by
    rw [h.passed_touch]
    exact h.pressed

theorem poll (h : Armed first events v) : Armed first events (v.perform .poll) where
  toFollows := h.toFollows.poll
  pressed := by
    intro k same
    rw [h.watch_poll.1, KeyEvent.armed_detect] at same
    rw [h.passed_poll, List.mem_append]
    rcases KeyEvent.armedAfter_eq_some same with before | shown
    · exact .inl ((passed_sublist first events v).mem (h.pressed k before))
    · exact .inr shown

theorem run (h : Armed first events v) (as : List Act) :
    Armed first (events ++ caused as) (Vigil.run as v) :=
  run_induction (fun t h => h.touch t) (fun h => h.poll) h as

/-- A poll, late or not, yields only a key that was pressed and then released while the watch was
    there. -/
theorem stroke (h : Armed first events v) (fires : (v.keypad.poll v.watch).1 = some k) :
    [.down k, .up k].Sublist (events.drop first) := by
  rw [h.records.poll_eq] at fires
  obtain ⟨before, taken, same⟩ := KeyEvent.exists_take_consumed_eq fires
  have within : (passed first events (v.perform .poll)).Sublist (events.drop first) := by
    rw [← h.toFollows.poll.passed_append]
    exact List.sublist_append_left _ _
  rw [h.passed_poll, taken] at within
  refine List.Sublist.trans ?_ within
  rcases KeyEvent.armedAfter_eq_some same with earlier | shown
  · have pressed := (passed_sublist first events v).mem (h.pressed k earlier)
    exact (List.singleton_sublist.2 pressed).append (List.sublist_append_right before [.up k])
  · have released : [.down k, KeyEvent.up k].Sublist (before ++ [.up k]) :=
      (List.singleton_sublist.2 shown).append (.refl _)
    exact released.trans (List.sublist_append_right _ _)

end Armed

/-- A watch that has been polled in time and has yielded nothing yields the key of the first stroke,
    if there is one. -/
theorem Current.key_poll (h : Current first events v) (timely : v.unseen ≤ capacity)
    (nothing : v.keys = []) :
    (v.keypad.poll v.watch).1 = (KeyEvent.fired none (events.drop first)).head? := by
  rw [← h.passed_append, KeyEvent.fired_append, ← h.delivered.keys, nothing, ← h.armed,
    h.records.poll_eq, h.firstShown_eq timely]
  exact KeyEvent.key_detect _ _

/-- A watch that is polled in time has yielded nothing as long as no poll came after a stroke. -/
theorem keys_run_eq_nil_iff {p : Keypad} (records : p.Records events) {as : List Act}
    (timely : Timely as (start p)) :
    (run as (start p)).keys = [] ↔
      ∀ bs, bs ++ [.poll] <+: as → ∀ k, ¬ KeyEvent.FirstStroke (caused bs) k := by
  -- From the end: whether the last poll finds a key depends on everything before it.
  induction as using List.reverseRecOn with
  | nil => simp [run, start]
  | append_singleton as a ih =>
    obtain ⟨timely, now, -⟩ := (timely_append _ _ _).1 timely
    have current := (current_start records).run timely
    simp only [List.prefix_concat_iff, List.append_singleton_inj, or_imp, forall_and]
    rw [← ih timely, run_append]
    generalize run as (start p) = v at now current ⊢
    cases a with
    | touch t =>
      show v.keys = [] ↔ _
      simp
    | poll =>
      have keys : (run [.poll] v).keys = v.keys ++ (v.keypad.poll v.watch).1.toList := rfl
      have yields (nothing : v.keys = []) :
          (v.keypad.poll v.watch).1.toList = [] ↔
            ∀ k, ¬ KeyEvent.FirstStroke (caused as) k := by
        rw [current.key_poll (now rfl) nothing, List.drop_left, Option.toList_eq_nil_iff,
          List.head?_eq_none_iff, KeyEvent.fired_none_eq_nil_iff]
      rw [keys, List.append_eq_nil_iff]
      constructor
      · rintro ⟨nothing, none_now⟩
        refine ⟨?_, nothing⟩
        rintro bs ⟨rfl, -⟩
        exact (yields nothing).1 none_now
      · rintro ⟨never, nothing⟩
        exact ⟨nothing, (yields nothing).2 (never as ⟨rfl, rfl⟩)⟩

end Keypad.Vigil

end XoChip
