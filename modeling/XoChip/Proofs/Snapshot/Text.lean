import Mathlib.Data.List.Nodup
import XoChip.Proofs.Json.RoundTrip
import XoChip.Proofs.Partial
import XoChip.Snapshot.Record

/-!
# Snapshots survive their text

Every snapshot is read back from its own text, whether or not it would be accepted by a restore.
The text is that of a plain JSON value, so what is left to show is that the fields of a record are
found under their names, and that numbers come back as numbers of their own widths.
-/

namespace XoChip

namespace Json

/-! ## Records -/

theorem plain_naturals (ns : List Nat) : Plain (naturals ns) := by
  refine .array ?_
  intro e he
  obtain ⟨n, -, rfl⟩ := List.mem_map.1 he
  exact .natural n

theorem plain_record {fields : List (String × Json)} (h : ∀ field ∈ fields, Plain field.2) :
    Plain (record fields) := by
  constructor
  · intro field hf
    obtain ⟨field, -, rfl⟩ := List.mem_map.1 hf
    rfl
  · intro field hf
    obtain ⟨field, mem, rfl⟩ := List.mem_map.1 hf
    exact h field mem

/-- A field is found under its name if no other one has that name. -/
theorem field?_eq {fields : List (List Char × Json)} (nodup : (fields.map Prod.fst).Nodup)
    {field : List Char × Json} (mem : field ∈ fields) :
    field? fields field.1 = some (some field.2) := by
  have found : fields.filter (·.1 = field.1) = [field] := by
    induction fields with
    | nil => cases mem
    | cons first fields ih =>
      obtain ⟨new, nodup⟩ := List.nodup_cons.1 nodup
      rcases List.mem_cons.1 mem with rfl | mem
      · rw [List.filter_cons_of_pos (by simp), List.filter_eq_nil_iff.2]
        intro other hother same
        rw [← of_decide_eq_true same] at new
        exact new (List.mem_map_of_mem hother)
      · have different : first.1 ≠ field.1 := by
          intro same
          rw [same] at new
          exact new (List.mem_map_of_mem mem)
        rw [List.filter_cons_of_neg (by simpa using different), ih nodup mem]
  rw [field?, found]

/-- A record is read as the values of its fields. -/
theorem toRecord?_record {fields : List (String × Json)} {names : List String}
    (hnames : fields.map Prod.fst = names) (nodup : names.Nodup) :
    (record fields).toRecord? names = some (fields.map fun field => some field.2) := by
  subst hnames
  have nodup' : ((fields.map fun field => (field.1.toList, field.2)).map Prod.fst).Nodup := by
    have injective : Function.Injective String.toList := fun _ _ => String.toList_inj.1
    have distinct := nodup.map injective
    rw [List.map_map] at distinct ⊢
    exact distinct
  have found : ∀ field ∈ fields, field? (fields.map fun field => (field.1.toList, field.2))
      field.1.toList = some (some field.2) := by
    intro field mem
    exact field?_eq nodup' (List.mem_map_of_mem mem)
  rw [record, toRecord?, List.mapM_map, mapM_eq_some (g := fun field => (field.1.toList, field.2))]
  · simp only [Option.bind_eq_bind, Option.bind_some]
    rw [List.mapM_map]
    exact mapM_eq_some found
  · exact fun _ _ => rfl

/-! ## Numbers of fixed width -/

theorem toNatBelow?_natural {bound n : Nat} (h : n < bound) :
    toNatBelow? bound (.natural n) = some n := if_pos h

@[simp] theorem toUInt8?_natural (b : UInt8) : toUInt8? (.natural b.toNat) = some b := by
  rw [toUInt8?, toNatBelow?_natural b.toNat_lt, Option.map_some, UInt8.ofNat_toNat]

@[simp] theorem toUInt16?_natural (w : UInt16) : toUInt16? (.natural w.toNat) = some w := by
  rw [toUInt16?, toNatBelow?_natural w.toNat_lt, Option.map_some, UInt16.ofNat_toNat]

@[simp] theorem toUInt32?_natural (w : UInt32) : toUInt32? (.natural w.toNat) = some w := by
  rw [toUInt32?, toNatBelow?_natural w.toNat_lt, Option.map_some, UInt32.ofNat_toNat]

@[simp] theorem toUInt64?_natural (w : UInt64) : toUInt64? (.natural w.toNat) = some w := by
  rw [toUInt64?, toNatBelow?_natural w.toNat_lt, Option.map_some, UInt64.ofNat_toNat]

/-- An array of numbers is read as a list if each number is. -/
theorem toListOf?_naturals {α : Type} {read : Json → Option α} {toNat : α → Nat}
    (h : ∀ x, read (.natural (toNat x)) = some x) (xs : List α) :
    (naturals (xs.map toNat)).toListOf? read = some xs := by
  rw [naturals, toListOf?, List.mapM_map, List.mapM_map, mapM_eq_some (g := id), List.map_id]
  exact fun x _ => h x

end Json

/-! ## Halts -/

namespace Halt

theorem plain_toJson (h : Halt) : Json.Plain h.toJson := by
  cases h with
  | exit | spin | underflow | overflow =>
    refine Json.plain_record (List.forall_mem_singleton.2 (Json.plain_record ?_))
    exact List.forall_mem_singleton.2 (.natural _)
  | illegal | badPlane =>
    refine Json.plain_record (List.forall_mem_singleton.2 (Json.plain_record ?_))
    exact List.forall_mem_cons.2 ⟨.natural _, List.forall_mem_singleton.2 (.natural _)⟩

theorem onlyPc?_record (pc : UInt16) :
    onlyPc? (.record [("pc", .natural pc.toNat)]) = some pc := by
  rw [onlyPc?, Json.toRecord?_record]
  · exact Json.toUInt16?_natural pc
  · rfl
  · decide

/-- A halt is read back from its record, whatever its reason is. -/
theorem ofJson?_toJson (h : Halt) : ofJson? h.toJson = some h := by
  have named : ∀ (name : String) (details : Json),
      ofJson? (.record [(name, details)]) = ofDetails? name details := by
    intro name details
    show ofDetails? (String.ofList name.toList) details = _
    rw [String.ofList_toList]
  cases h with
  | exit pc | spin pc | underflow pc | overflow pc =>
    rw [toJson, named]
    show Option.map _ (onlyPc? _) = _
    rw [onlyPc?_record]
    rfl
  | illegal pc word =>
    rw [toJson, named, ofDetails?, Json.toRecord?_record]
    · simp
    · rfl
    · decide
  | badPlane pc planes =>
    rw [toJson, named, ofDetails?, Json.toRecord?_record]
    · simp
    · rfl
    · decide

end Halt

/-! ## Snapshots -/

namespace Snapshot

theorem plain_displayToJson (d : DisplaySnapshot) : Json.Plain (displayToJson d) := by
  refine Json.plain_record ?_
  simp only [List.forall_mem_cons, List.not_mem_nil, false_imp_iff, implies_true, and_true]
  exact ⟨.bool _, .natural _, .natural _, .natural _, Json.plain_naturals _, Json.plain_naturals _⟩

theorem plain_toJson (s : Snapshot) : Json.Plain s.toJson := by
  have halted : Json.Plain ((s.halted.map Halt.toJson).getD .null) := by
    cases s.halted with
    | none => exact .null
    | some h => exact h.plain_toJson
  refine Json.plain_record ?_
  simp only [List.forall_mem_cons, List.not_mem_nil, false_imp_iff, implies_true, and_true]
  exact ⟨.natural _, Json.plain_naturals _, Json.plain_naturals _, Json.plain_naturals _,
    .natural _, Json.plain_naturals _, .natural _, .natural _, halted, .natural _,
    plain_displayToJson _⟩

theorem bytesOfJson?_bytesToJson (bytes : Array UInt8) :
    bytesOfJson? (bytesToJson bytes) = some bytes := by
  rw [bytesOfJson?, bytesToJson, Json.toListOf?_naturals Json.toUInt8?_natural]
  rfl

theorem registersOfJson?_registersToJson (v : Registers) :
    registersOfJson? (registersToJson v) = some v := by
  have bytes := bytesOfJson?_bytesToJson v.toArray
  rw [bytesToJson] at bytes
  rw [registersOfJson?, registersToJson, Vector.toList, bytes]
  exact dif_pos v.size_toArray

theorem haltedOfJson?_getD (halted : Option Halt) :
    haltedOfJson? (some ((halted.map Halt.toJson).getD .null)) = some halted := by
  cases halted with
  | none => rfl
  | some h =>
    have read := congrArg (Option.map some) h.ofJson?_toJson
    cases h <;> exact read

theorem displayOfJson?_displayToJson (d : DisplaySnapshot) :
    displayOfJson? (displayToJson d) = some d := by
  rw [displayOfJson?, displayToJson, Json.toRecord?_record]
  · simp only [List.map_cons, List.map_nil, Option.bind_eq_bind, Option.bind_some, Json.toBool?,
      Json.toUInt8?_natural, Json.toUInt64?_natural, bytesOfJson?_bytesToJson]
    rfl
  · rfl
  · decide

/-- A snapshot is read back from its record. -/
theorem ofJson?_toJson (s : Snapshot) : ofJson? s.toJson = some s := by
  rw [ofJson?, toJson, Json.toRecord?_record]
  · simp only [List.map_cons, List.map_nil, Option.bind_eq_bind, Option.bind_some,
      Json.toUInt8?_natural, Json.toUInt16?_natural, Json.toUInt32?_natural,
      Json.toUInt64?_natural, Json.toListOf?_naturals Json.toUInt16?_natural,
      bytesOfJson?_bytesToJson, registersOfJson?_registersToJson, haltedOfJson?_getD,
      displayOfJson?_displayToJson]
    rfl
  · rfl
  · decide

theorem decode?_encode (s : Snapshot) : decode? s.encode = some s := by
  rw [decode?, encode, Json.parse?_print s.plain_toJson, Option.bind_some, ofJson?_toJson]

/-- Every snapshot is read back from its text. -/
theorem decode_encode (s : Snapshot) : decode s.encode = .ok s := by
  rw [decode, decode?_encode]

theorem ofBytes_eq_decode (s : Snapshot) : ofBytes s.toBytes = decode s.encode := by
  have valid : (String.ofList s.encode).toUTF8.IsValidUTF8 := String.isValidUTF8 _
  have text : String.fromUTF8? s.toBytes = some (String.ofList s.encode) := dif_pos valid
  rw [ofBytes, text]
  dsimp only
  rw [String.toList_ofList]

/-- Every snapshot is read back from its bytes, and no two have the same. -/
theorem ofBytes_toBytes (s t : Snapshot) :
    ofBytes s.toBytes = .ok s ∧ (s.toBytes = t.toBytes ↔ s = t) := by
  refine ⟨?_, ?_, congrArg toBytes⟩
  · rw [ofBytes_eq_decode, decode_encode]
  · intro same
    have read := congrArg ofBytes same
    rw [ofBytes_eq_decode, ofBytes_eq_decode, decode_encode, decode_encode] at read
    exact Except.ok.inj read

end Snapshot

end XoChip
