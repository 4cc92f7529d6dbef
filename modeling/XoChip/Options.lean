import XoChip.Text.Blank
import XoChip.Text.Duration
import XoChip.Text.Numeral

/-!
# Options of the command line

The arguments of the program as a value. An option's value follows as the next argument or behind
an equals sign, and of the options only `-v` may be repeated. `Options.ofArguments` reads all
arguments from left to right and reports the first that is wrong.
-/

namespace XoChip

/-- What a run of the program is asked to do. -/
structure Options where
  rom : Option String := none
  config : Option String := none
  /-- The text of a dialect, in place of the configured one. -/
  dialect : Option String := none
  /-- Instructions per frame, in place of the configured number. -/
  cycles : Option Nat := none
  nanos : Option Nat := none
  /-- List the program in place of running it. -/
  disassemble : Bool := false
  /-- The file to which a snapshot is written at the end. -/
  snapshot : Option String := none
  /-- How often more notices were asked for. -/
  verbosity : Nat := 0
  deriving DecidableEq, Repr

/-- An option that has a value. -/
inductive Setting
  | config
  | dialect
  | cycles
  | seconds
  | snapshot
  deriving DecidableEq, Repr

namespace Setting

def all : List Setting := [config, dialect, cycles, seconds, snapshot]

def name : Setting → String
  | config => "--config"
  | dialect => "--quirks"
  | cycles => "--cycles"
  | seconds => "--seconds"
  | snapshot => "--snapshot"

def placeholder : Setting → String
  | config | snapshot => "<PATH>"
  | dialect => "<QUIRKS>"
  | cycles => "<N>"
  | seconds => "<SECONDS>"

def usage (s : Setting) : String := s.name ++ " " ++ s.placeholder

def ofName? (name : String) : Option Setting := all.find? fun s => s.name == name

end Setting

/-- Why arguments cannot be read. -/
inductive UsageError
  | missingRom
  | unexpected (argument : String)
  | missingValue (setting : Setting)
  | badValue (setting : Setting) (value : String)
  | repeated (setting : Setting)
  deriving DecidableEq, Repr

def UsageError.message : UsageError → String
  | missingRom => "the following required arguments were not provided:\n  <ROM>"
  | unexpected argument => "unexpected argument '" ++ argument ++ "' found"
  | missingValue s => "a value is required for '" ++ s.usage ++ "' but none was supplied"
  | badValue s value => "invalid value '" ++ value ++ "' for '" ++ s.usage ++ "'"
  | repeated s => "the argument '" ++ s.usage ++ "' cannot be used multiple times"

namespace Options

/-- The number that decimal digits write, with a plus sign or without. -/
def natural? (cs : List Char) : Option Nat :=
  let ds :=
    match cs with
    | '+' :: ds => ds
    | ds => ds
  if ds.isEmpty then none else Numeral.decimal? ds

/-- Nanoseconds in a number of seconds that may have a fraction; places after the ninth do not
    count. -/
def secondsToNanos? (cs : List Char) : Option Nat := do
  let (whole, places) := (Text.splitOnce '.' cs).getD (cs, ['0'])
  let places := places.take 9
  return (← natural? whole) * 1000000000 +
    (← Numeral.decimal? places) * Nat.pow 10 (9 - places.length)

def assign (o : Options) (s : Setting) (value : String) : Except UsageError Options :=
  match s with
  | .config =>
    if o.config.isSome then .error (.repeated s) else .ok { o with config := some value }
  | .dialect =>
    if o.dialect.isSome then .error (.repeated s) else .ok { o with dialect := some value }
  | .snapshot =>
    if o.snapshot.isSome then .error (.repeated s) else .ok { o with snapshot := some value }
  | .cycles =>
    if o.cycles.isSome then .error (.repeated s)
    else
      match natural? value.toList with
      | some n => if n < UInt64.size then .ok { o with cycles := some n } else .error (.badValue s value)
      | none => .error (.badValue s value)
  | .seconds =>
    if o.nanos.isSome then .error (.repeated s)
    else
      match secondsToNanos? value.toList with
      | some n => .ok { o with nanos := some n }
      | none => .error (.badValue s value)

/-- An argument that is no option names the program. -/
def positional (o : Options) (argument : String) : Except UsageError Options :=
  if o.rom.isSome then .error (.unexpected argument) else .ok { o with rom := some argument }

/-- Read the arguments behind those that have been read. Behind `--` there are no options. -/
def read (o : Options) : List String → Except UsageError Options
  | [] => .ok o
  | "--" :: rest => rest.foldlM positional o
  | "--disassemble" :: rest => read { o with disassemble := true } rest
  | "--verbose" :: rest => read { o with verbosity := o.verbosity + 1 } rest
  | argument :: rest =>
    match Setting.ofName? argument, rest with
    | some s, [] => .error (.missingValue s)
    | some s, value :: rest =>
      match o.assign s value with
      | .ok o => read o rest
      | .error e => .error e
    | none, rest =>
      match argument.toList with
      | '-' :: '-' :: _ =>
        match Text.splitOnce '=' argument.toList with
        | none => .error (.unexpected argument)
        | some (name, value) =>
          match Setting.ofName? (String.ofList name) with
          | none => .error (.unexpected argument)
          | some s =>
            match o.assign s (String.ofList value) with
            | .ok o => read o rest
            | .error e => .error e
      | '-' :: c :: letters =>
        if (c :: letters).all (· = 'v') then
          read { o with verbosity := o.verbosity + (c :: letters).length } rest
        else .error (.unexpected argument)
      | _ =>
        match o.positional argument with
        | .ok o => read o rest
        | .error e => .error e

/-- Read all arguments, among which there has to be a program. -/
def ofArguments (arguments : List String) : Except UsageError (Options × String) :=
  match read {} arguments with
  | .error e => .error e
  | .ok o =>
    match o.rom with
    | none => .error .missingRom
    | some rom => .ok (o, rom)

/-- How long a program runs unless it is said otherwise, in nanoseconds. -/
def defaultNanos : Nat := 2000000000

def runNanos (o : Options) : Nat := o.nanos.getD defaultNanos

end Options

end XoChip
