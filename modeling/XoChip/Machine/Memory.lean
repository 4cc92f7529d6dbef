/-!
# Memory

Sixty-four kibibytes, addressed by 16-bit words, so that every address names a byte and sums of
addresses wrap around at the end. `read_write` is all that there is to say about a write, and
`read_writeMany` about a write of several bytes.
-/

namespace XoChip

/-- The bytes at all the addresses. -/
structure Memory where
  bytes : Array UInt8
  size_bytes : bytes.size = 0x10000
  deriving DecidableEq

namespace Memory

def size : Nat := 0x10000

def blank : Memory := ⟨Array.replicate 0x10000 0, by simp⟩

instance : Inhabited Memory := ⟨blank⟩

/-- Memory with the given bytes, if they are as many as there are addresses. -/
def ofArray? (bytes : Array UInt8) : Option Memory :=
  if h : bytes.size = 0x10000 then some ⟨bytes, h⟩ else none

theorem toNat_lt_size (m : Memory) (a : UInt16) : a.toNat < m.bytes.size := by
  rw [m.size_bytes]
  exact a.toNat_lt

def read (m : Memory) (a : UInt16) : UInt8 :=
  have := m.toNat_lt_size a
  m.bytes[a.toNat]

def write (m : Memory) (a : UInt16) (b : UInt8) : Memory :=
  ⟨m.bytes.set a.toNat b (m.toNat_lt_size a), by simp [m.size_bytes]⟩

theorem read_write (m : Memory) (a a' : UInt16) (b : UInt8) :
    (m.write a b).read a' = if a = a' then b else m.read a' := by
  simp [read, write, Array.getElem_set, UInt16.toNat_inj]

@[simp] theorem read_blank (a : UInt16) : blank.read a = 0 := by
  simp [read, blank]

/-- Memories with the same byte at every address are equal. -/
@[ext] theorem ext {m n : Memory} (h : ∀ a, m.read a = n.read a) : m = n := by
  cases m with | mk bytes size_bytes =>
  cases n with | mk bytes' size_bytes' =>
  simp only [mk.injEq]
  apply Array.ext
  · rw [size_bytes, size_bytes']
  · intro k hk hk'
    have lt_size : k < UInt16.size := by rw [size_bytes] at hk; exact hk
    have toNat_ofNat : (UInt16.ofNat k).toNat = k := UInt16.toNat_ofNat_of_lt' lt_size
    simpa only [read, toNat_ofNat] using h (UInt16.ofNat k)

/-- Change the bytes at an address and those after it. -/
def writeMany (m : Memory) (a : UInt16) : List UInt8 → Memory
  | [] => m
  | b :: bs => (m.write a b).writeMany (a + 1) bs

/-- What a write of several bytes leaves at an address, by its distance from the first one. -/
theorem read_writeMany (m : Memory) (a b : UInt16) {bytes : List UInt8}
    (fits : bytes.length ≤ 0x10000) :
    (m.writeMany a bytes).read b = (bytes[(b - a).toNat]?).getD (m.read b) := by
  induction bytes generalizing m a with
  | nil => rfl
  | cons byte bytes ih =>
    rw [List.length_cons] at fits
    have ha := a.toNat_lt
    have hb := b.toNat_lt
    have next : (a + 1).toNat = (a.toNat + 1) % 0x10000 := UInt16.toNat_add a 1
    have here := UInt16.toNat_sub b a
    have there := UInt16.toNat_sub b (a + 1)
    rw [writeMany, ih _ _ (by omega), read_write]
    by_cases same : a = b
    · subst same
      -- All the way round from behind the address is farther than there are bytes.
      have last : bytes[(a - (a + 1)).toNat]? = none := List.getElem?_eq_none (by omega)
      have first : (a - a).toNat = 0 := by omega
      rw [last, first, if_pos rfl]
      rfl
    · have apart : a.toNat ≠ b.toNat := fun h => same (UInt16.toNat_inj.1 h)
      have succ : (b - a).toNat = (b - (a + 1)).toNat + 1 := by omega
      rw [if_neg same, succ, List.getElem?_cons_succ]

/-- The bytes at an address and those after it. -/
def readMany (m : Memory) (a : UInt16) (count : Nat) : List UInt8 :=
  (List.range count).map fun k => m.read (a + UInt16.ofNat k)

@[simp] theorem length_readMany (m : Memory) (a : UInt16) (count : Nat) :
    (m.readMany a count).length = count := by
  simp [readMany]

theorem getElem?_readMany (m : Memory) (a : UInt16) {k count : Nat} (lt : k < count) :
    (m.readMany a count)[k]? = some (m.read (a + UInt16.ofNat k)) := by
  simp [readMany, lt]

/-- What has been written can be read again. -/
theorem readMany_writeMany (m : Memory) (a : UInt16) {bytes : List UInt8}
    (fits : bytes.length ≤ 0x10000) : (m.writeMany a bytes).readMany a bytes.length = bytes := by
  apply List.ext_getElem?
  intro k
  by_cases lt : k < bytes.length
  · have far : (a + UInt16.ofNat k - a).toNat = k := by
      rw [UInt16.add_comm, UInt16.add_sub_cancel]
      exact UInt16.toNat_ofNat_of_lt' (Nat.lt_of_lt_of_le lt fits)
    rw [getElem?_readMany _ _ lt, read_writeMany _ _ _ fits, far, List.getElem?_eq_getElem lt]
    rfl
  · rw [List.getElem?_eq_none (by rw [length_readMany]; omega), List.getElem?_eq_none (by omega)]

/-- The word at an address, its high byte first. -/
def readWord (m : Memory) (a : UInt16) : UInt16 :=
  UInt16.ofNat ((m.read a).toNat * 0x100 + (m.read (a + 1)).toNat)

end Memory

end XoChip
