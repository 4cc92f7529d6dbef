/-!
# Dialects

Interpreters of the past disagree about a handful of instructions. Each disagreement is a
`Toggle`, and a `Dialect` says which toggles are on. A toggle is named after the behaviour it
switches on; all are off by default. The machine obeys those for which `Toggle.implemented`
holds and carries the others along.
-/

namespace XoChip

/-- A behaviour on which interpreters disagree. -/
inductive Toggle
  | shiftXOnly
  | memoryIncrementByX
  | memoryIUnchanged
  | spriteWrap
  | jumpByVX
  | vsyncDraw
  | logicResetsVF
  | resultOverFlag
  deriving DecidableEq, Repr

namespace Toggle

/-- All toggles, in the order in which they are listed. -/
def all : List Toggle :=
  [shiftXOnly, memoryIncrementByX, memoryIUnchanged, spriteWrap, jumpByVX, vsyncDraw,
   logicResetsVF, resultOverFlag]

theorem mem_all (t : Toggle) : t ∈ all := by cases t <;> decide

/-- The name in a dialect's text. -/
def name : Toggle → String
  | shiftXOnly => "ShiftXOnly"
  | memoryIncrementByX => "MemoryIncrementByX"
  | memoryIUnchanged => "MemoryIUnchanged"
  | spriteWrap => "SpriteWrapQuirk"
  | jumpByVX => "BXNNJumpQuirk"
  | vsyncDraw => "VSyncDraw"
  | logicResetsVF => "CosmacLogicQuirk"
  | resultOverFlag => "OverwriteVFQuirk"

/-- The key in configuration files and JSON records. -/
def key : Toggle → String
  | shiftXOnly => "shift_x_only"
  | memoryIncrementByX => "memory_increment_by_x"
  | memoryIUnchanged => "memory_i_unchanged"
  | spriteWrap => "sprite_wrap"
  | jumpByVX => "bxnn_jump"
  | vsyncDraw => "vsync_draw"
  | logicResetsVF => "cosmac_logic"
  | resultOverFlag => "overwrite_vf"

/-- What the toggle is about, for people. -/
def description : Toggle → String
  | shiftXOnly =>
    "On most systems the shift opcodes take `vY` as input and store the shifted version of `vY` " ++
    "into `vX`. The interpreters for the HP48 took `vX` as both the input and the output."
  | memoryIncrementByX =>
    "On most systems storing and retrieving registers increments `i` by `X + 1`. The CHIP-48 " ++
    "interpreter incremented it by `X` only."
  | memoryIUnchanged =>
    "The Superchip 1.1 interpreter did not increment `i` at all when storing and retrieving " ++
    "registers."
  | spriteWrap =>
    "Most systems clip sprites at the edges of the screen. Octo wraps them around to the other " ++
    "side instead."
  | jumpByVX =>
    "The HP48 interpreters implemented jump to `<address> + v0` as jump to `<address> + vX`."
  | vsyncDraw =>
    "The Cosmac VIP interpreter waited for vertical blank before each sprite draw, limiting " ++
    "programs to one draw per 60Hz frame."
  | logicResetsVF =>
    "On the Cosmac VIP interpreter `vF` was reset after each of the logic opcodes `8XY1`, " ++
    "`8XY2` and `8XY3`."
  | resultOverFlag =>
    "Most implementations set `vF` after an arithmetic operation even when `vF` was its " ++
    "destination. With this quirk the result overwrites the flag instead."

def implemented : Toggle → Bool
  | jumpByVX | vsyncDraw | logicResetsVF | resultOverFlag => true
  | _ => false

def ofName? (s : String) : Option Toggle := all.find? fun t => t.name == s

def ofKey? (s : String) : Option Toggle := all.find? fun t => t.key == s

end Toggle

/-- A setting of all toggles. -/
structure Dialect where
  shiftXOnly : Bool := false
  memoryIncrementByX : Bool := false
  memoryIUnchanged : Bool := false
  spriteWrap : Bool := false
  jumpByVX : Bool := false
  vsyncDraw : Bool := false
  logicResetsVF : Bool := false
  resultOverFlag : Bool := false
  deriving DecidableEq, Repr, Inhabited

namespace Dialect

def get (d : Dialect) : Toggle → Bool
  | .shiftXOnly => d.shiftXOnly
  | .memoryIncrementByX => d.memoryIncrementByX
  | .memoryIUnchanged => d.memoryIUnchanged
  | .spriteWrap => d.spriteWrap
  | .jumpByVX => d.jumpByVX
  | .vsyncDraw => d.vsyncDraw
  | .logicResetsVF => d.logicResetsVF
  | .resultOverFlag => d.resultOverFlag

def set (d : Dialect) (t : Toggle) (on : Bool) : Dialect :=
  match t with
  | .shiftXOnly => { d with shiftXOnly := on }
  | .memoryIncrementByX => { d with memoryIncrementByX := on }
  | .memoryIUnchanged => { d with memoryIUnchanged := on }
  | .spriteWrap => { d with spriteWrap := on }
  | .jumpByVX => { d with jumpByVX := on }
  | .vsyncDraw => { d with vsyncDraw := on }
  | .logicResetsVF => { d with logicResetsVF := on }
  | .resultOverFlag => { d with resultOverFlag := on }

@[simp] theorem get_set (d : Dialect) (t u : Toggle) (on : Bool) :
    (d.set t on).get u = if t = u then on else d.get u := by
  cases t <;> cases u <;> rfl

/-- Dialects with the same toggles on are equal. -/
theorem eq_of_get_eq {d e : Dialect} (h : ∀ t, d.get t = e.get t) : d = e := by
  cases d
  cases e
  simp only [mk.injEq]
  exact ⟨h .shiftXOnly, h .memoryIncrementByX, h .memoryIUnchanged, h .spriteWrap, h .jumpByVX,
    h .vsyncDraw, h .logicResetsVF, h .resultOverFlag⟩

/-- The toggles that are on, in the order in which they are listed. -/
def enabled (d : Dialect) : List Toggle := Toggle.all.filter d.get

/-- The dialect with exactly the given toggles on. -/
def ofList (ts : List Toggle) : Dialect := ts.foldl (fun d t => d.set t true) {}

end Dialect

end XoChip
