import XoChip.Snapshot
import XoChip.Proofs.Timer
import XoChip.Proofs.Display.Invariant

/-!
# What a restore accepts, and what it gives

Restoring undoes capturing and capturing undoes restoring: `restore_eq_ok_iff` says that a
snapshot is accepted exactly when it is the capture of a machine with a well-formed stack and
display, and that this machine is what comes back. `Intact` lists the conditions on the raw data.
`restoreOnto` does the same on a display that the host shares with others; it hands the screen over
behind the last check, so a refused snapshot leaves no trace.
-/

namespace XoChip

/-! ## Raw data and what it stands for -/

/-- The dimensions of a resolution, and no others, name it. -/
theorem Resolution.ofSize?_eq_some_iff {width height : UInt64} {r : Resolution} :
    ofSize? width height = some r ↔
      width = UInt64.ofNat r.width ∧ height = UInt64.ofNat r.height := by
  unfold ofSize?
  split
  · next h => cases h; cases r <;> decide
  · next h =>
    split
    · next h' => cases h'; cases r <;> decide
    · next h' => cases r <;> simp_all [Resolution.width, Resolution.height]

/-- The pixels of a resolution, counted by its 64-bit dimensions. -/
theorem Resolution.toNat_width_mul_height (r : Resolution) :
    (UInt64.ofNat r.width * UInt64.ofNat r.height).toNat = r.area := by
  cases r <;> rfl

namespace Plane

@[simp] theorem size_bytes (p : Plane) : p.bytes.size = p.size := Array.size_map

theorem bytes_le_one (p : Plane) : ∀ b ∈ p.bytes, b ≤ 1 := by
  intro b hb
  rcases eq_zero_or_one_of_mem_bytes b hb with rfl | rfl <;> decide

theorem ofBytes?_of_le_one {bytes : Array UInt8} (h : ∀ b ∈ bytes, b ≤ 1) :
    ofBytes? bytes = some (bytes.map (· == 1)) := by
  rw [ofBytes?, if_pos]
  rw [Array.all_eq_true']
  exact fun b hb => decide_eq_true (h b hb)

/-- Bytes stand for a plane if they are its pixels as bytes. -/
theorem ofBytes?_eq_some_iff {bytes : Array UInt8} {p : Plane} :
    ofBytes? bytes = some p ↔ bytes = p.bytes := by
  constructor
  · intro h
    unfold ofBytes? at h
    split at h
    · next binary =>
      cases h
      apply Array.ext_getElem?
      intro k
      cases hk : bytes[k]? with
      | none => simp [Plane.bytes, hk]
      | some b =>
        have le_one : b ≤ 1 := by
          have := Array.all_eq_true'.1 binary b (Array.mem_of_getElem? hk)
          simpa using this
        have zero_or_one : b = 0 ∨ b = 1 := by
          rw [UInt8.le_iff_toNat_le] at le_one
          rw [← UInt8.toNat_inj, ← UInt8.toNat_inj]
          have : (1 : UInt8).toNat = 1 := rfl
          have : (0 : UInt8).toNat = 0 := rfl
          omega
        rcases zero_or_one with rfl | rfl <;> simp [Plane.bytes, hk]
    · cases h
  · rintro rfl
    have inverse : ((fun b : UInt8 => b == 1) ∘ fun lit : Bool => if lit then 1 else 0) = id := by
      funext lit
      cases lit <;> rfl
    rw [ofBytes?_of_le_one p.bytes_le_one, Plane.bytes, Array.map_map, inverse, Array.map_id]

end Plane

theorem Memory.ofArray?_eq_some_iff {bytes : Array UInt8} {m : Memory} :
    ofArray? bytes = some m ↔ bytes = m.bytes := by
  unfold ofArray?
  constructor
  · intro h
    split at h
    · cases h; rfl
    · cases h
  · rintro rfl
    rw [dif_pos m.size_bytes]

namespace Snapshot

/-- The picture of a well-formed display is put together again from its plain data. -/
theorem ofPlanes?_ofDisplay {d : Display} (h : d.WellFormed) :
    Frame.ofPlanes? (ofDisplay d).width (ofDisplay d).height (ofDisplay d).plane1
      (ofDisplay d).plane2 = some d.frame := by
  rw [Frame.ofPlanes?_eq_some, Resolution.ofSize?_eq_some_iff, Plane.ofBytes?_eq_some_iff,
    Plane.ofBytes?_eq_some_iff]
  refine ⟨⟨rfl, rfl⟩, ?_, ?_, rfl, rfl⟩
  · exact (Plane.size_bytes _).trans h.frame.size_plane1
  · exact (Plane.size_bytes _).trans h.frame.size_plane2

/-- A screen in plain data is accepted if it shows a well-formed display. -/
theorem restoreDisplay_eq_ok_iff {p : DisplaySnapshot} {d : Display} :
    restoreDisplay p = .ok d ↔ d.WellFormed ∧ p = ofDisplay d := by
  constructor
  · intro h
    unfold restoreDisplay at h
    split at h
    · cases h
    next selection =>
    split at h
    · cases h
    next frame hframe =>
    split at h
    · next resolution =>
      cases h
      refine ⟨⟨Frame.wellFormed_of_ofPlanes? hframe, resolution, UInt8.not_lt.1 selection⟩, ?_⟩
      obtain ⟨size, -, -, bytes1, bytes2⟩ := Frame.ofPlanes?_eq_some.1 hframe
      obtain ⟨width, height⟩ := Resolution.ofSize?_eq_some_iff.1 size
      cases p
      simp only [ofDisplay, DisplaySnapshot.mk.injEq]
      exact ⟨trivial, trivial, width, height, Plane.ofBytes?_eq_some_iff.1 bytes1,
        Plane.ofBytes?_eq_some_iff.1 bytes2⟩
    · cases h
  · rintro ⟨h, rfl⟩
    have selection : ¬ 3 < (ofDisplay d).selection := UInt8.not_lt.2 h.selection
    have resolution : d.frame.resolution = Display.resolutionOf (ofDisplay d).hires :=
      h.resolution
    unfold restoreDisplay
    rw [if_neg selection, ofPlanes?_ofDisplay h]
    dsimp only
    rw [if_pos resolution]
    rfl

theorem restoreStack_eq_ok {slots : Array UInt16} {depth : UInt64} (size : slots.size = 64)
    (le : depth ≤ 64) :
    restoreStack slots depth = .ok { slots := ⟨slots, size⟩, depth := depth.toNat } := by
  rw [restoreStack, dif_pos size, if_pos le]

theorem restoreStack_eq_error {slots : Array UInt16} {depth : UInt64}
    (flaw : slots.size ≠ 64 ∨ 64 < depth) :
    restoreStack slots depth = .error (.stack slots.size depth) := by
  unfold restoreStack
  by_cases size : slots.size = 64
  · rcases flaw with other | deeper
    · exact absurd size other
    · rw [dif_pos size, if_neg (UInt64.not_le.2 deeper)]
  · rw [dif_neg size]

/-- A call stack in plain data is accepted if it has the right length and is not deeper. -/
theorem restoreStack_eq_ok_iff {slots : Array UInt16} {depth : UInt64} {stack : CallStack} :
    restoreStack slots depth = .ok stack ↔
      stack.depth ≤ CallStack.capacity ∧ slots = stack.slots.toArray ∧
        depth = UInt64.ofNat stack.depth := by
  constructor
  · intro h
    by_cases flaw : slots.size ≠ 64 ∨ 64 < depth
    · rw [restoreStack_eq_error flaw] at h
      cases h
    · obtain ⟨size, le⟩ := not_or.1 flaw
      rw [restoreStack_eq_ok (Decidable.not_not.1 size) (UInt64.not_lt.1 le)] at h
      cases h
      exact ⟨UInt64.le_iff_toNat_le.1 (UInt64.not_lt.1 le), rfl, UInt64.ofNat_toNat.symm⟩
  · rintro ⟨le, rfl, rfl⟩
    have toNat_depth : (UInt64.ofNat stack.depth).toNat = stack.depth := by
      apply UInt64.toNat_ofNat_of_lt'
      exact Nat.lt_of_le_of_lt le (by decide)
    have le_capacity : UInt64.ofNat stack.depth ≤ 64 := by
      rw [UInt64.le_iff_toNat_le, toNat_depth]
      exact le
    rw [restoreStack_eq_ok stack.slots.size_toArray le_capacity, toNat_depth]

/-- The parts of a snapshot are restored one after the other, and the first flaw is reported. -/
theorem restore_eq (s : Snapshot) (now : Nat) :
    s.restore now =
      if s.version = currentVersion then
        match restoreStack s.stack s.depth, Memory.ofArray? s.memory, restoreDisplay s.display with
        | .error flaw, _, _ => .error flaw
        | .ok _, none, _ => .error (.memory s.memory.size)
        | .ok _, some _, .error flaw => .error flaw
        | .ok stack, some memory, .ok display =>
          .ok ({ v := s.v, flags := s.flags, stack, memory, i := s.i, pc := s.pc,
                 halted := s.halted, delay := .start s.delay now }, display)
      else .error (.version s.version) := by
  unfold restore
  by_cases version : s.version = currentVersion
  · rw [if_neg (fun h => h version), if_pos version]
    cases restoreStack s.stack s.depth with
    | error flaw => rfl
    | ok stack =>
      cases Memory.ofArray? s.memory with
      | none => rfl
      | some memory => cases restoreDisplay s.display <;> rfl
  · rw [if_pos version, if_neg version]
    rfl

/-- A restore succeeds if each of its four parts does. -/
theorem restore_eq_ok {s : Snapshot} {now : Nat} {state : State} {display : Display} :
    s.restore now = .ok (state, display) ↔
      s.version = currentVersion ∧ restoreStack s.stack s.depth = .ok state.stack ∧
        Memory.ofArray? s.memory = some state.memory ∧ restoreDisplay s.display = .ok display ∧
        state = { v := s.v, flags := s.flags, stack := state.stack, memory := state.memory,
                  i := s.i, pc := s.pc, halted := s.halted, delay := .start s.delay now } := by
  rw [restore_eq]
  by_cases version : s.version = currentVersion
  · rw [if_pos version]
    split
    · next flaw hs => simp [hs]
    · next hs hm => simp [hm]
    · next hs hm hd => simp [hd]
    · next stack memory d hs hm hd =>
      rw [hs, hm, hd]
      constructor
      · rintro ⟨⟩
        exact ⟨version, rfl, rfl, rfl, rfl⟩
      · rintro ⟨-, ⟨⟩, ⟨⟩, ⟨⟩, hstate⟩
        rw [← hstate]
  · rw [if_neg version]
    simp [version]

/-- Restoring undoes capturing, and capturing undoes restoring: a snapshot is accepted if it is
    the capture of a machine with a well-formed stack and display, whose delay timer has just been
    set. -/
theorem restore_eq_ok_iff {s : Snapshot} {now : Nat} {state : State} {display : Display} :
    s.restore now = .ok (state, display) ↔
      state.stack.depth ≤ CallStack.capacity ∧ display.WellFormed ∧
        state.delay = .start s.delay now ∧ s = (capture state display now).1 := by
  rw [restore_eq_ok, restoreStack_eq_ok_iff, Memory.ofArray?_eq_some_iff, restoreDisplay_eq_ok_iff]
  have reading : (Timer.settle (.start s.delay now) now).ticks = s.delay :=
    Timer.left_start s.delay now
  constructor
  · rintro ⟨version, ⟨depth, slots, hdepth⟩, memory, ⟨wf, hdisplay⟩, hstate⟩
    refine ⟨depth, wf, by rw [hstate], ?_⟩
    rw [hstate, capture]
    dsimp only
    rw [reading, ← slots, ← hdepth, ← memory, ← hdisplay, ← version]
  · rintro ⟨depth, wf, delay, hs⟩
    refine ⟨congrArg version hs, ⟨depth, congrArg stack hs, congrArg Snapshot.depth hs⟩,
      congrArg memory hs, ⟨wf, congrArg Snapshot.display hs⟩, ?_⟩
    have hv : s.v = state.v := congrArg v hs
    have hflags : s.flags = state.flags := congrArg flags hs
    have hi : s.i = state.i := congrArg i hs
    have hpc : s.pc = state.pc := congrArg pc hs
    have hhalted : s.halted = state.halted := congrArg halted hs
    rw [hv, hflags, hi, hpc, hhalted, ← delay]

/-- Capturing a machine with a well-formed stack and display and restoring it at the same moment
    gives the machine back, with its delay timer set anew. -/
theorem restore_capture {state : State} {display : Display}
    (depth : state.stack.depth ≤ CallStack.capacity) (wf : display.WellFormed) (now : Nat) :
    (capture state display now).1.restore now =
      .ok ({ state with delay := .start (state.delay.left now) now }, display) := by
  rw [restore_eq_ok_iff]
  refine ⟨depth, wf, rfl, ?_⟩
  have reading : (Timer.settle (.start (state.delay.left now) now) now).ticks =
      state.delay.left now := Timer.left_start _ _
  simp only [capture, reading]
  rfl

/-! ## The conditions on the raw data -/

/-- What a snapshot has to be like to be accepted. The product of the dimensions is taken modulo
    `2 ^ 64`. -/
structure Intact (s : Snapshot) : Prop where
  version : s.version = 1
  stack : s.stack.size = 64
  depth : s.depth ≤ 64
  memory : s.memory.size = 65536
  selection : s.display.selection ≤ 3
  size : (s.display.width = 64 ∧ s.display.height = 32) ∨
    (s.display.width = 128 ∧ s.display.height = 64)
  plane1 : s.display.plane1.size = (s.display.width * s.display.height).toNat
  plane2 : s.display.plane2.size = (s.display.width * s.display.height).toNat
  pixels1 : ∀ b ∈ s.display.plane1, b ≤ 1
  pixels2 : ∀ b ∈ s.display.plane2, b ≤ 1
  mode : s.display.hires = true ↔ s.display.width = 128

theorem intact_of_restore {s : Snapshot} {now : Nat} {state : State} {display : Display}
    (h : s.restore now = .ok (state, display)) : s.Intact := by
  obtain ⟨depth, wf, -, rfl⟩ := restore_eq_ok_iff.1 h
  have resolution := wf.resolution
  constructor
  case version => rfl
  case stack => exact state.stack.slots.size_toArray
  case depth =>
    rw [UInt64.le_iff_toNat_le]
    exact Nat.le_trans (Nat.mod_le _ _) depth
  case memory => exact state.memory.size_bytes
  case selection => exact wf.selection
  case size =>
    cases hr : display.frame.resolution with
    | lores => left; simp [capture, ofDisplay, hr, Resolution.width, Resolution.height]
    | hires => right; simp [capture, ofDisplay, hr, Resolution.width, Resolution.height]
  case plane1 =>
    exact (Plane.size_bytes _).trans
      (wf.frame.size_plane1.trans (Resolution.toNat_width_mul_height _).symm)
  case plane2 =>
    exact (Plane.size_bytes _).trans
      (wf.frame.size_plane2.trans (Resolution.toNat_width_mul_height _).symm)
  case pixels1 => exact Plane.bytes_le_one _
  case pixels2 => exact Plane.bytes_le_one _
  case mode =>
    cases hires : display.hires <;>
      simp [capture, ofDisplay, resolution, hires, Display.resolutionOf, Resolution.width]

/-- The dimensions of an intact snapshot are those of its mode. -/
theorem Intact.dimensions {s : Snapshot} (h : s.Intact) :
    s.display.width = UInt64.ofNat (Display.resolutionOf s.display.hires).width ∧
      s.display.height = UInt64.ofNat (Display.resolutionOf s.display.hires).height := by
  have mode := h.mode
  rcases h.size with ⟨width, height⟩ | ⟨width, height⟩
  · have lores : s.display.hires = false := by
      rw [width] at mode
      simpa using mode
    rw [width, height, lores]
    exact ⟨rfl, rfl⟩
  · rw [width, height, mode.2 width]
    exact ⟨rfl, rfl⟩

/-- The screen of an intact snapshot is accepted. -/
theorem Intact.exists_restoreDisplay {s : Snapshot} (h : s.Intact) :
    ∃ display, restoreDisplay s.display = .ok display := by
  obtain ⟨width, height⟩ := h.dimensions
  have bytes1 := Plane.ofBytes?_eq_some_iff.1 (Plane.ofBytes?_of_le_one h.pixels1)
  have bytes2 := Plane.ofBytes?_eq_some_iff.1 (Plane.ofBytes?_of_le_one h.pixels2)
  have area : (s.display.width * s.display.height).toNat =
      (Display.resolutionOf s.display.hires).area := by
    rw [width, height, Resolution.toNat_width_mul_height]
  have frame : Frame.WellFormed
      { resolution := Display.resolutionOf s.display.hires
        plane1 := s.display.plane1.map (· == 1)
        plane2 := s.display.plane2.map (· == 1) } := by
    constructor
    · exact Array.size_map.trans (h.plane1.trans area)
    · exact Array.size_map.trans (h.plane2.trans area)
  refine ⟨⟨s.display.hires, s.display.selection, _⟩, restoreDisplay_eq_ok_iff.2
    ⟨⟨frame, rfl, h.selection⟩, ?_⟩⟩
  unfold ofDisplay
  dsimp only
  rw [← width, ← height, ← bytes1, ← bytes2]

theorem Intact.exists_restore {s : Snapshot} (h : s.Intact) (now : Nat) :
    ∃ state display, s.restore now = .ok (state, display) := by
  obtain ⟨display, hdisplay⟩ := h.exists_restoreDisplay
  have stack := restoreStack_eq_ok h.stack h.depth
  have memory : Memory.ofArray? s.memory = some ⟨s.memory, h.memory⟩ := by
    rw [Memory.ofArray?, dif_pos h.memory]
  refine ⟨{ v := s.v, flags := s.flags, stack := ⟨⟨s.stack, h.stack⟩, s.depth.toNat⟩,
            memory := ⟨s.memory, h.memory⟩, i := s.i, pc := s.pc, halted := s.halted,
            delay := .start s.delay now }, display, restore_eq_ok.2 ?_⟩
  exact ⟨h.version, stack, memory, hdisplay, rfl⟩

/-! ## Restoring onto a shared display -/

/-- Restore a snapshot onto a display that its host has in hand. The checks come in the order in
    which flaws are reported; the screen is handed over behind the last of them, and the machine is
    put together after that. -/
def restoreOnto (s : Snapshot) (now : Nat) (d : Display) : Except SnapshotFlaw State × Display :=
  let screen := s.display
  if s.version ≠ currentVersion then (.error (.version s.version), d)
  else if s.stack.size ≠ 64 ∨ 64 < s.depth then (.error (.stack s.stack.size s.depth), d)
  else if s.memory.size ≠ 0x10000 then (.error (.memory s.memory.size), d)
  else if 3 < screen.selection then (.error (.plane screen.selection), d)
  else
    match Frame.ofPlanes? screen.width screen.height screen.plane1 screen.plane2 with
    | none => (.error (.frame screen.width screen.height), d)
    | some frame =>
      if screen.hires ≠ decide (Resolution.lores.width < frame.resolution.width) then
        (.error (.mode screen.width screen.height screen.hires), d)
      else
        let d : Display := { hires := screen.hires, selection := screen.selection, frame }
        match restoreStack s.stack s.depth, Memory.ofArray? s.memory with
        | .ok stack, some memory =>
          (.ok { v := s.v, flags := s.flags, stack, memory, i := s.i, pc := s.pc,
                 halted := s.halted, delay := .start s.delay now }, d)
        | .error flaw, _ => (.error flaw, d)
        | _, none => (.error (.memory s.memory.size), d)

/-- A screen mode and a resolution agree if the picture is wide in the large mode only. -/
theorem resolution_eq_resolutionOf {r : Resolution} {hires : Bool} :
    r = Display.resolutionOf hires ↔ hires = decide (Resolution.lores.width < r.width) := by
  cases r <;> cases hires <;> decide

/-- What a restore onto a display makes of it: the display of the snapshot if it is accepted, and
    nothing otherwise. -/
theorem restoreOnto_eq (s : Snapshot) (now : Nat) (d : Display) :
    s.restoreOnto now d =
      match s.restore now with
      | .ok (state, display) => (.ok state, display)
      | .error flaw => (.error flaw, d) := by
  unfold restoreOnto
  dsimp only
  rw [restore_eq]
  by_cases version : s.version = currentVersion
  case neg => rw [if_pos version, if_neg version]
  rw [if_neg (fun h => h version), if_pos version]
  by_cases flaw : s.stack.size ≠ 64 ∨ 64 < s.depth
  · rw [if_pos flaw, restoreStack_eq_error flaw]
  obtain ⟨size, depth⟩ := not_or.1 flaw
  rw [if_neg flaw, restoreStack_eq_ok (Decidable.not_not.1 size) (UInt64.not_lt.1 depth)]
  by_cases memory : s.memory.size = 0x10000
  case neg => rw [if_pos memory, Memory.ofArray?, dif_neg memory]
  rw [if_neg (fun h => h memory), Memory.ofArray?, dif_pos memory]
  unfold restoreDisplay
  by_cases selection : 3 < s.display.selection
  · rw [if_pos selection, if_pos selection]
  rw [if_neg selection, if_neg selection]
  cases Frame.ofPlanes? s.display.width s.display.height s.display.plane1 s.display.plane2 with
  | none => rfl
  | some frame =>
    dsimp only
    by_cases mode : frame.resolution = Display.resolutionOf s.display.hires
    · rw [if_pos mode, if_neg (fun h => h (resolution_eq_resolutionOf.1 mode))]
    · rw [if_neg mode, if_pos (fun h => mode (resolution_eq_resolutionOf.2 h))]

/-- A snapshot is accepted exactly if it is intact. A refused one leaves the display as it was. An
    accepted one gives the display its screen, and the capture of its machine at the same moment is
    the very same snapshot. -/
theorem restore_exact_and_atomic (s : Snapshot) (now : Nat) (d : Display) :
    ((∃ state display, s.restore now = .ok (state, display)) ↔ s.Intact) ∧
      (∀ flaw, s.restore now = .error flaw → s.restoreOnto now d = (.error flaw, d)) ∧
      ∀ state display, s.restore now = .ok (state, display) →
        s.restoreOnto now d = (.ok state, display) ∧
        ofDisplay display = s.display ∧
        (capture state display now).1 = s := by
  rw [restoreOnto_eq]
  refine ⟨⟨?_, fun h => h.exists_restore now⟩, ?_, ?_⟩
  · rintro ⟨state, display, accepted⟩
    exact intact_of_restore accepted
  · intro flaw refused
    rw [refused]
  · intro state display accepted
    obtain ⟨-, -, -, hs⟩ := restore_eq_ok_iff.1 accepted
    rw [accepted]
    exact ⟨rfl, (congrArg Snapshot.display hs).symm, hs.symm⟩

end Snapshot

end XoChip
