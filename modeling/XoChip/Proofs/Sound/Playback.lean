import XoChip.Proofs.Sound.Rendering
import XoChip.Sound.Synth

/-!
# The synthesizer as a mailbox

A synthesizer has one slot. A request to play puts its samples there, in place of those that nobody
has taken, and taking them empties the slot. What is played is settled when it is asked for: by the
pattern and the rate that were set last before.
-/

namespace XoChip

/-! ## Samples of a playback -/

namespace Playback

/-- A period without samples plays nothing, however long it lasts. -/
theorem samples_of_periodLength_eq_zero (p : Playback)
    (h : Pattern.periodLength p.rate p.sampleRate = 0) : p.samples = #[] := by
  have empty : ¬ 0 < (p.pattern.render p.rate p.sampleRate).size := by
    rw [Pattern.size_render, h]
    exact Nat.lt_irrefl 0
  exact dif_neg empty

/-- The samples of a period are repeated until the ticks are over. -/
theorem samples_of_periodLength_pos (p : Playback)
    (h : 0 < Pattern.periodLength p.rate p.sampleRate) :
    p.samples.size = samplesOfTicks p.ticks p.sampleRate ∧
      ∀ k < samplesOfTicks p.ticks p.sampleRate,
        p.samples[k]? =
          (p.pattern.render p.rate p.sampleRate)[k %
            Pattern.periodLength p.rate p.sampleRate]? := by
  rw [← Pattern.size_render p.pattern] at h ⊢
  unfold samples
  dsimp only
  rw [dif_pos h, Array.size_map, Array.size_range]
  refine ⟨rfl, ?_⟩
  intro k lt
  rw [Array.getElem?_map, Array.getElem?_range, if_pos lt, Option.map_some,
    Array.getElem?_eq_getElem (Nat.mod_lt k h)]

end Playback

/-! ## Playing on

The waveform goes on for ever. Measured in steps of which a bit takes as many as the sample rate, it
repeats itself after `128 * sampleRate`, and sample `k` finds it at `k * rate`.
-/

namespace Pattern

variable {rate sampleRate : UInt32}

/-- A period that is begun anew stays with the waveform, exactly if it ends with a whole sample. -/
theorem phase_mod_periodLength_iff (rate_pos : 0 < rate.toNat) :
    (∀ k, k % periodLength rate sampleRate * rate.toNat =
        k * rate.toNat % (128 * sampleRate.toNat)) ↔
      rate.toNat ∣ 128 * sampleRate.toNat := by
  constructor
  · intro stays
    -- The first seam is enough: the waveform is at its beginning there.
    have seam := stays (periodLength rate sampleRate)
    rw [Nat.mod_self, Nat.zero_mul] at seam
    have le : periodLength rate sampleRate * rate.toNat ≤ 128 * sampleRate.toNat :=
      Nat.div_mul_le_self _ _
    rcases Nat.eq_or_lt_of_le le with exact_end | early
    · exact ⟨_, exact_end.symm.trans (Nat.mul_comm _ _)⟩
    · rw [Nat.mod_eq_of_lt early] at seam
      have none : periodLength rate sampleRate = 0 :=
        (Nat.mul_eq_zero.1 seam.symm).resolve_right (Nat.ne_of_gt rate_pos)
      have first := stays 1
      rw [none, Nat.mod_zero, Nat.one_mul] at first
      have wrapped : rate.toNat < 128 * sampleRate.toNat := by
        rw [first]
        exact Nat.mod_lt _ (Nat.lt_of_le_of_lt (Nat.zero_le _) early)
      have fits : 0 < periodLength rate sampleRate :=
        Nat.div_pos (Nat.le_of_lt wrapped) rate_pos
      exact absurd none (Nat.ne_of_gt fits)
  · intro whole k
    have exact_end : periodLength rate sampleRate * rate.toNat = 128 * sampleRate.toNat :=
      Nat.div_mul_cancel whole
    rw [← exact_end, Nat.mul_mod_mul_right]

/-- A period that ends with a whole sample has one, unless there are none in a second. -/
theorem periodLength_eq_zero_iff_of_dvd (rate_pos : 0 < rate.toNat)
    (whole : rate.toNat ∣ 128 * sampleRate.toNat) :
    periodLength rate sampleRate = 0 ↔ sampleRate.toNat = 0 := by
  rw [periodLength_eq_zero_iff]
  constructor
  · rintro (still | fast)
    · exact absurd still (Nat.ne_of_gt rate_pos)
    · have none : 128 * sampleRate.toNat = 0 := Nat.eq_zero_of_dvd_of_lt whole fast
      omega
  · intro none
    rw [none]
    exact .inr rate_pos

/-- A sample of a repeated period plays the bit at which the waveform is. -/
theorem played_mod_periodLength (rate_pos : 0 < rate.toNat)
    (whole : rate.toNat ∣ 128 * sampleRate.toNat) (k : Nat) :
    played rate sampleRate (k % periodLength rate sampleRate) =
      played rate sampleRate k % 128 := by
  rw [played, (phase_mod_periodLength_iff rate_pos).2 whole, Nat.mod_mul_left_div_self]
  rfl

end Pattern

/-! ## Histories -/

/-- How a list that ends with `c` can be split at an element. -/
theorem concat_eq_append_cons {α : Type} {c x : α} {xs before after : List α}
    (h : xs ++ [c] = before ++ x :: after) :
    xs = before ∧ c = x ∧ after = [] ∨
      ∃ front, after = front ++ [c] ∧ xs = before ++ x :: front := by
  rcases List.eq_nil_or_concat' after with rfl | ⟨front, last, rfl⟩
  · obtain ⟨rfl, same⟩ := List.append_inj' h rfl
    cases same
    exact .inl ⟨rfl, rfl, rfl⟩
  · rw [← List.cons_append, ← List.append_assoc] at h
    obtain ⟨rfl, same⟩ := List.append_inj' h rfl
    cases same
    exact .inr ⟨front, rfl, rfl⟩

namespace Synth

/-- What is done with a synthesizer. -/
inductive Call
  | request (r : SoundRequest)
  | take
  deriving DecidableEq, Repr

def perform (s : Synth) : Call → Synth
  | .request r => s.handle r
  | .take => s.take.2

def run (calls : List Call) (s : Synth) : Synth := calls.foldl perform s

/-- A pattern or a rate is set. -/
def Call.IsSetting : Call → Prop
  | .request (.setPattern _) | .request (.setRate _) => True
  | _ => False

def Call.pattern? : Call → Option Pattern
  | .request (.setPattern pattern) => some pattern
  | _ => none

def Call.rate? : Call → Option UInt32
  | .request (.setRate rate) => some rate
  | _ => none

/-- The last of the values that some calls set, or the one there was before. -/
def lastSet {α : Type} (value? : Call → Option α) (before : α) (calls : List Call) : α :=
  ((calls.filterMap value?).getLast?).getD before

/-- The pattern in force after some calls. -/
def patternAfter (calls : List Call) : Pattern := lastSet Call.pattern? {} calls

/-- The rate in force after some calls. -/
def rateAfter (calls : List Call) : UInt32 := lastSet Call.rate? defaultRate calls

/-- The last request to play comes after the calls `before` and lasts for `ticks`, and its samples
    have not been taken. -/
def LastPlay (calls before : List Call) (ticks : UInt8) : Prop :=
  ∃ after, calls = before ++ .request (.play ticks) :: after ∧ ∀ c ∈ after, c.IsSetting

variable {sampleRate : UInt32} {calls before : List Call} {c : Call} {ticks : UInt8}

theorem run_concat (calls : List Call) (c : Call) (s : Synth) :
    run (calls ++ [c]) s = (run calls s).perform c := by
  rw [run, run, List.foldl_append]
  rfl

theorem lastSet_concat {α : Type} (value? : Call → Option α) (x : α) (calls : List Call)
    (c : Call) :
    lastSet value? x (calls ++ [c]) = (value? c).getD (lastSet value? x calls) := by
  rw [lastSet, List.filterMap_append, List.filterMap_cons]
  cases value? c with
  | none => simp [lastSet]
  | some y => simp

/-- The settings of a synthesizer are those that were made last. -/
theorem settings_run (sampleRate : UInt32) (calls : List Call) :
    let s := run calls { sampleRate }
    s.sampleRate = sampleRate ∧ s.pattern = patternAfter calls ∧ s.rate = rateAfter calls := by
  induction calls using List.reverseRecOn with
  | nil => exact ⟨rfl, rfl, rfl⟩
  | append_singleton calls c ih =>
    rw [run_concat, patternAfter, rateAfter, lastSet_concat, lastSet_concat]
    obtain ⟨sampleRate_eq, pattern_eq, rate_eq⟩ := ih
    cases c with
    | take => exact ⟨sampleRate_eq, pattern_eq, rate_eq⟩
    | request r =>
      cases r with
      | setPattern => exact ⟨sampleRate_eq, rfl, rate_eq⟩
      | setRate => exact ⟨sampleRate_eq, pattern_eq, rfl⟩
      | play => exact ⟨sampleRate_eq, pattern_eq, rate_eq⟩

theorem pending_perform_of_isSetting (s : Synth) (h : c.IsSetting) :
    (s.perform c).pending = s.pending := by
  cases c with
  | take => exact h.elim
  | request r =>
    cases r with
    | setPattern | setRate => rfl
    | play => exact h.elim

/-- What is in the slot is the last request to play, with what was set when it was made. -/
theorem pending_of_lastPlay (sampleRate : UInt32) (h : LastPlay calls before ticks) :
    (run calls { sampleRate }).pending =
      some ⟨patternAfter before, rateAfter before, sampleRate, ticks⟩ := by
  obtain ⟨after, rfl, settings⟩ := h
  induction after using List.reverseRecOn with
  | nil =>
    obtain ⟨sampleRate_eq, pattern_eq, rate_eq⟩ := settings_run sampleRate before
    rw [run_concat, ← pattern_eq, ← rate_eq]
    simp only [perform, handle, sampleRate_eq]
  | append_singleton after c ih =>
    rw [List.forall_mem_append, List.forall_mem_singleton] at settings
    rw [← List.cons_append, ← List.append_assoc, run_concat,
      pending_perform_of_isSetting _ settings.2, ih settings.1]

theorem LastPlay.concat (h : LastPlay calls before ticks) (setting : c.IsSetting) :
    LastPlay (calls ++ [c]) before ticks := by
  obtain ⟨after, rfl, settings⟩ := h
  refine ⟨after ++ [c], List.append_assoc .., ?_⟩
  rw [List.forall_mem_append, List.forall_mem_singleton]
  exact ⟨settings, setting⟩

/-- Either every request to play has been taken, and the slot is empty, or there is a last one. -/
theorem pending_cases (sampleRate : UInt32) (calls : List Call) :
    (run calls { sampleRate }).pending = none ∧
        (∀ before ticks after, calls = before ++ .request (.play ticks) :: after → .take ∈ after) ∨
      ∃ before ticks, LastPlay calls before ticks := by
  induction calls using List.reverseRecOn with
  | nil =>
    refine .inl ⟨rfl, ?_⟩
    intro before ticks after split
    exact absurd split.symm (List.append_ne_nil_of_right_ne_nil before (List.cons_ne_nil _ _))
  | append_singleton calls c ih =>
    by_cases setting : c.IsSetting
    -- A setting changes neither the slot nor which request was the last.
    · rcases ih with ⟨empty, taken⟩ | ⟨before, ticks, last⟩
      · refine .inl ⟨by rw [run_concat, pending_perform_of_isSetting _ setting, empty], ?_⟩
        intro before ticks after split
        rcases concat_eq_append_cons split with ⟨-, rfl, -⟩ | ⟨front, rfl, rest⟩
        · exact setting.elim
        · exact List.mem_append_left _ (taken before ticks front rest)
      · exact .inr ⟨before, ticks, last.concat setting⟩
    · cases c with
      | take =>
        refine .inl ⟨by rw [run_concat]; rfl, ?_⟩
        intro before ticks after split
        rcases concat_eq_append_cons split with ⟨-, taken, -⟩ | ⟨front, rfl, -⟩
        · cases taken
        · exact List.mem_append_right _ (List.mem_singleton_self _)
      | request r =>
        cases r with
        | play ticks => exact .inr ⟨calls, ticks, [], rfl, nofun⟩
        | setPattern | setRate => exact absurd trivial setting

/-- The slot is full if something has been asked for since it was emptied. -/
theorem isSome_pending_iff (sampleRate : UInt32) (calls : List Call) :
    (run calls { sampleRate }).pending.isSome ↔
      ∃ before ticks after,
        calls = before ++ .request (.play ticks) :: after ∧ .take ∉ after := by
  rcases pending_cases sampleRate calls with ⟨empty, taken⟩ | ⟨before, ticks, last⟩
  · rw [empty]
    refine ⟨nofun, ?_⟩
    rintro ⟨before, ticks, after, split, untaken⟩
    exact absurd (taken before ticks after split) untaken
  · rw [pending_of_lastPlay sampleRate last]
    obtain ⟨after, split, settings⟩ := last
    exact iff_of_true rfl ⟨before, ticks, after, split, fun mem => settings _ mem⟩

/-- A synthesizer after any calls. There is something to take if it has been asked for since
    something was taken; then it is what was asked for last, from the pattern and at the rate that
    were in force then. -/
theorem mailbox_exact (sampleRate : UInt32) (calls : List Call) :
    let s := run calls { sampleRate }
    (s.take.1.isSome ↔ ∃ before ticks after,
      calls = before ++ .request (.play ticks) :: after ∧ .take ∉ after) ∧
    (s.take.1.isSome → ∃ before ticks, LastPlay calls before ticks) ∧
    (∀ before ticks, LastPlay calls before ticks →
      let R := (rateAfter before).toNat
      let S := sampleRate.toNat
      let L := 128 * S / R
      let period := (patternAfter before).render (rateAfter before) sampleRate
      ∃ buffer, s.take.1 = some buffer ∧ period.size = L ∧
        (1 ≤ L → buffer.size = ticks.toNat * S / 60 ∧
          ∀ k < ticks.toNat * S / 60, buffer[k]? = period[k % L]?) ∧
        (L = 0 → buffer = #[]) ∧
        (L = 0 ↔ R = 0 ∨ 128 * S < R)) ∧
    s.take.2.take.1 = none := by
  intro s
  have taken : s.take.1 = s.pending.map Playback.samples := rfl
  refine ⟨?_, ?_, ?_, rfl⟩
  · rw [taken, Option.isSome_map]
    exact isSome_pending_iff sampleRate calls
  · rw [taken, Option.isSome_map]
    intro full
    rcases pending_cases sampleRate calls with ⟨empty, -⟩ | last
    · rw [show s.pending = none from empty] at full
      cases full
    · exact last
  · intro before ticks last R S L period
    let p : Playback := ⟨patternAfter before, rateAfter before, sampleRate, ticks⟩
    have pending : s.pending = some p := pending_of_lastPlay sampleRate last
    refine ⟨p.samples, by rw [taken, pending, Option.map_some], Pattern.size_render _ _ _,
      p.samples_of_periodLength_pos, p.samples_of_periodLength_eq_zero,
      Pattern.periodLength_eq_zero_iff⟩

/-- A pattern that is low and then high is asked for, and settings made later do not change it. In
    three ticks it begins again. At a rate that is too high there is nothing to hear. -/
theorem mailbox_exact_looping :
    let s := run [.take, .request (.setPattern ⟨0, 0xFFFFFFFFFFFFFFFF⟩), .request (.play 3),
      .request (.setRate 8000), .request (.setPattern {})] { sampleRate := 48000 }
    let t := run [.request (.setRate 6144001), .request (.play 255)] { sampleRate := 48000 }
    (∃ buffer, s.take.1 = some buffer ∧ buffer.size = 2400 ∧ buffer[767]? = some .low ∧
      buffer[768]? = some .high ∧ buffer[1536]? = some .low) ∧
    s.take.2.take.1 = none ∧ t.take.1 = some #[] := by
  intro s t
  let split : Pattern := ⟨0, 0xFFFFFFFFFFFFFFFF⟩
  have sounding {n : Nat} (lt : n < Pattern.periodLength 4000 48000) :=
    split.getElem?_render lt
  obtain ⟨-, -, mailbox, emptied⟩ := mailbox_exact 48000 [.take, .request (.setPattern split),
    .request (.play 3), .request (.setRate 8000), .request (.setPattern {})]
  obtain ⟨buffer, taken, -, repeats, -⟩ := mailbox [.take, .request (.setPattern split)] 3
    ⟨[.request (.setRate 8000), .request (.setPattern {})], rfl, by simp [Call.IsSetting]⟩
  obtain ⟨size, samples⟩ := repeats (by decide)
  obtain ⟨-, -, mailbox, -⟩ :=
    mailbox_exact 48000 [.request (.setRate 6144001), .request (.play 255)]
  obtain ⟨nothing, taken_t, -, -, silent, -⟩ :=
    mailbox [.request (.setRate 6144001)] 255 ⟨[], rfl, nofun⟩
  refine ⟨⟨buffer, taken, size, ?_, ?_, ?_⟩, emptied, ?_⟩
  · exact (samples 767 (by decide)).trans ((sounding (by decide)).trans (by decide))
  · exact (samples 768 (by decide)).trans ((sounding (by decide)).trans (by decide))
  · exact (samples 1536 (by decide)).trans ((sounding (by decide)).trans (by decide))
  · rw [← silent (by decide)]
    exact taken_t

/-- A request to play, at a rate that ends the period with a whole sample. The period is rendered
    once and begun anew whenever it is over, and yet every sample plays the bit at which the endless
    waveform is by then: a seam is no jump. -/
theorem loops_seamlessly (s : Synth) (ticks : UInt8) (rate_pos : 0 < s.rate)
    (whole : s.rate.toNat ∣ 128 * s.sampleRate.toNat) :
    let R := s.rate.toNat
    let S := s.sampleRate.toNat
    let L := 128 * S / R
    ∃ buffer, (s.handle (.play ticks)).take.1 = some buffer ∧
      buffer.size = ticks.toNat * S / 60 ∧
      (∀ k < ticks.toNat * S / 60,
        buffer[k]? = (s.pattern.render s.rate s.sampleRate)[k % L]? ∧
        buffer[k]? =
          some (.ofBit ((s.pattern.low.toBitVec ++ s.pattern.high.toBitVec).getMsbD
            (k * R / S % 128)))) ∧
      ∀ k, k % L * R = k * R % (128 * S) := by
  intro R S L
  have rate_pos : 0 < R := UInt32.lt_iff_toNat_lt.1 rate_pos
  let p : Playback := ⟨s.pattern, s.rate, s.sampleRate, ticks⟩
  refine ⟨p.samples, rfl, ?_, ?_, (Pattern.phase_mod_periodLength_iff rate_pos).2 whole⟩
  · rcases Nat.eq_zero_or_pos L with silent | sounds
    · have none : S = 0 := (Pattern.periodLength_eq_zero_iff_of_dvd rate_pos whole).1 silent
      rw [p.samples_of_periodLength_eq_zero silent, none, Nat.mul_zero, Nat.zero_div]
      rfl
    · exact (p.samples_of_periodLength_pos sounds).1
  · intro k lt
    have sounds : 0 < L := by
      apply Nat.pos_of_ne_zero
      intro silent
      have none : S = 0 := (Pattern.periodLength_eq_zero_iff_of_dvd rate_pos whole).1 silent
      rw [none, Nat.mul_zero, Nat.zero_div] at lt
      exact Nat.not_lt_zero k lt
    have repeated := (p.samples_of_periodLength_pos sounds).2 k lt
    refine ⟨repeated, ?_⟩
    rw [repeated, Pattern.getElem?_render _ (Nat.mod_lt k sounds),
      Pattern.played_mod_periodLength rate_pos whole]
    rfl

/-- A rate beyond the sample rate: a period has three samples and is heard four times. Behind the
    first seam the waveform is at bit 213, which is bit 85 again. -/
theorem loops_seamlessly_skipping :
    let s : Synth := { sampleRate := 3, pattern := ⟨0, 0x40000000000⟩, rate := 128 }
    0 < s.rate ∧ s.rate.toNat ∣ 128 * s.sampleRate.toNat ∧
      ∃ buffer, (s.handle (.play 255)).take.1 = some buffer ∧ buffer.size = 12 ∧
        buffer[4]? = some .low ∧ buffer[5]? = some .high := by
  intro s
  obtain ⟨buffer, taken, size, plays, -⟩ := loops_seamlessly s 255 (by decide) (by decide)
  exact ⟨by decide, by decide, buffer, taken, size.trans (by decide),
    (plays 4 (by decide)).2.trans (by decide), (plays 5 (by decide)).2.trans (by decide)⟩

end Synth

end XoChip
