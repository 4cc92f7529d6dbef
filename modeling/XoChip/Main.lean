import XoChip.Config
import XoChip.Dialect.Text
import XoChip.Disassembly
import XoChip.Options
import XoChip.Snapshot.Record

/-!
# The program

Runs a program without a window for a stretch of time, or until it stops by itself, and prints
its last screen. Everything that it decides is decided elsewhere; here files are read and written,
the clock of the machine follows the clock on the wall, and effects are worked off: notices go to
the standard error stream, and sound is synthesized and discarded.
-/

namespace XoChip

/-- Why a run ends early. -/
inductive Failure
  | usage (cause : UsageError)
  | configuration
  | machine (cause : Error)

def Failure.message : Failure → String
  | usage cause =>
    "error: " ++ cause.message ++
      "\n\nUsage: chip8 [OPTIONS] <ROM>\n\nFor more information, try '--help'."
  | configuration => "Error: config"
  | machine cause => "Error: " ++ cause.message

def Failure.status : Failure → UInt32
  | usage _ => 2
  | _ => 1

def help : String :=
  "Run a CHIP-8 program headless and print its final screen\n\n" ++
  "Usage: chip8 [OPTIONS] <ROM>\n\n" ++
  "Arguments:\n" ++
  "  <ROM>  Program image to load at 0x200\n\n" ++
  "Options:\n" ++
  "      --config <PATH>      TOML host configuration\n" ++
  "      --quirks <QUIRKS>    Quirks as `Name:bool,...`, replacing the configured ones\n" ++
  "      --cycles <N>         Instructions per 60Hz frame\n" ++
  "      --seconds <SECONDS>  Wall clock time to run for, unless the program exits first " ++
  "[default: 2]\n" ++
  "      --disassemble        Print a disassembly instead of running\n" ++
  "      --snapshot <PATH>    Write a snapshot of the stopped machine to this file\n" ++
  "  -v, --verbose            More logging, repeat for more\n" ++
  "  -h, --help               Print help\n" ++
  "  -V, --version            Print version"

/-- The program's name and version. -/
def version : String := "chip8 0.1.0"

/-- Print a line of the log if its level is shown. -/
def logLine (shown level : Level) (topic text : String) : IO Unit := do
  if level.rank ≤ shown.rank then
    let padding := String.ofList (List.replicate (5 - level.name.length) ' ')
    IO.eprintln ("[" ++ level.name ++ padding ++ "][" ++ topic ++ "] " ++ text)

/-- Print a notice if its level is shown. -/
def logNotice (shown : Level) (n : Notice) : IO Unit :=
  logLine shown n.level n.topic n.text

def workOff (shown : Level) (synth : Synth) : Effect → IO Synth
  | .notice n => do
    logNotice shown n
    return synth
  | .sound request => do
    if let some n := synth.notice? request then logNotice shown n
    let (samples, synth) := (synth.handle request).take
    if let some samples := samples then
      logLine shown .debug "host" s!"Beep of {samples.size} samples"
    return synth

def workOffAll (shown : Level) (synth : Synth) (s : Scheduler) : IO (Synth × Scheduler) := do
  let synth ← s.context.effects.foldlM (workOff shown) synth
  return (synth, { s with context := { s.context with effects := #[] } })

def setClock (s : Scheduler) (nanos : Nat) : Scheduler :=
  { s with context := { s.context with clock := ⟨UInt64.ofNat nanos⟩ } }

/-- The configuration in a file, or the default one without a file. -/
def readConfigFile (path : Option String) : IO (Option Config) := do
  match path with
  | none => return some {}
  | some path => return Config.parse? (← IO.FS.readFile path)

/-- The configuration that the options ask for. -/
def readConfig (o : Options) : IO (Except Failure Config) := do
  match ← readConfigFile o.config with
  | none => return .error .configuration
  | some c =>
    let c := { c with cycles := o.cycles.getD c.cycles }
    match o.dialect.map Dialect.parse with
    | none => return .ok c
    | some (.ok dialect) => return .ok { c with dialect }
    | some (.error cause) => return .error (.machine cause)

/-- A seed that nobody has chosen. -/
def freshSeed : IO UInt64 := do
  let bytes ← IO.getRandomBytes 8
  return Pattern.wordOfBytes bytes.toList

/-- Let a scheduler run until its program stops or the time is over. -/
def runFor (shown : Level) (nanos : Nat) (synth : Synth) (s : Scheduler) :
    IO (Synth × Scheduler) := do
  let start ← IO.monoNanosNow
  let mut synth := synth
  let mut s := s
  let mut now := start
  while s.isRunning && now - start < nanos do
    (synth, s) ← workOffAll shown synth (setClock s (now - start)).turn
    let spent := (← IO.monoNanosNow) - now
    if s.isRunning then
      IO.sleep (UInt32.ofNat ((s.pace.frameNanos - spent) / 1000000))
    now ← IO.monoNanosNow
  return (synth, s)

/-- Run a program and print its last screen. -/
def runProgram (o : Options) (program : List UInt8) : IO (Except Failure Unit) := do
  let shown := Level.ofVerbosity o.verbosity
  match ← readConfig o with
  | .error failure => return .error failure
  | .ok c =>
    let (loaded, s) := ({ pace := c.pace } : Scheduler).load program c.dialect (← freshSeed)
    let (synth, s) ← workOffAll shown { sampleRate := c.sampleRate } s
    match loaded with
    | .error cause => return .error (.machine cause)
    | .ok () =>
      let (synth, s) ← runFor shown o.runNanos synth s.run
      let (_, s) ← workOffAll shown synth s.pause.2
      match s.halt with
      | some reason => logLine shown .info "host" ("Stopped: " ++ reason.message)
      | none =>
        logLine shown .info "host" ("Still running after " ++ Text.inUnit 9 "s" o.runNanos)
      IO.print s.context.display.frame.ascii
      match o.snapshot, s.snapshot.1 with
      | none, _ => return .ok ()
      | some _, none => logLine shown .warn "host" "No machine to snapshot"
      | some path, some snapshot =>
        IO.FS.writeFile path (String.ofList snapshot.encode)
        logLine shown .info "host" ("Snapshot written to " ++ path)
      return .ok ()

def runArguments (arguments : List String) : IO (Except Failure Unit) := do
  match Options.ofArguments arguments with
  | .error cause => return .error (.usage cause)
  | .ok (o, rom) =>
    let program := (← IO.FS.readBinFile rom).toList
    if o.disassemble then
      IO.println (Disassembly.listing program)
      return .ok ()
    else runProgram o program

end XoChip

/-- The entry point; the result is the exit status. -/
def main (arguments : List String) : IO UInt32 := do
  if arguments.contains "--help" || arguments.contains "-h" then
    IO.println XoChip.help
    return 0
  if arguments.contains "--version" || arguments.contains "-V" then
    IO.println XoChip.version
    return 0
  match ← XoChip.runArguments arguments with
  | .ok () => return 0
  | .error failure =>
    IO.eprintln failure.message
    return failure.status
