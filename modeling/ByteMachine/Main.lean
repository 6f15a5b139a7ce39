import ByteMachine.Assembly.Emit
import ByteMachine.Program
import ByteMachine.Machine.Run
import ByteMachine.Clock
/-!
# Command line

`run`, `compile` and `check` on an assembly file or a program text. Everything but reading
files, sleeping between paced steps and printing is a function of the library.
-/

set_option autoImplicit false

namespace ByteMachine.CommandLine

/-- What the command line asks for. -/
inductive Command where
  | run (path : String) (config : Config) (clock : Option Clock)
  | compile (path : String) (destination : Option String)
  | check (path : String)
  | welcome

/-- A register count between 1 and 256. -/
def readRegisterCount (text : String) : Except String Nat :=
  match Text.readUnsigned? (Registers.limit + 1) text with
  | some count => if 0 < count then .ok count else .error "registers range from 1 to 256"
  | none => .error "registers range from 1 to 256"

def readRunOptions : List String → Config → Option Clock → Except String (Config × Option Clock)
  | [], config, clock => .ok (config, clock)
  | flag :: value :: rest, config, clock =>
    if flag = "--registers" ∨ flag = "-r" then do
      let count ← readRegisterCount value
      readRunOptions rest { config with registers := count } clock
    else if flag = "--memory" then
      match Text.readUnsigned? Clock.wordBound value with
      | some size => readRunOptions rest { config with memory := size } clock
      | none => .error ("invalid memory size " ++ value)
    else if flag = "--clock" ∨ flag = "-c" then
      match Clock.parse value with
      | .ok rate => readRunOptions rest config (some rate)
      | .error e => .error e.message
    else .error ("unexpected argument " ++ flag)
  | [flag], _, _ => .error ("unexpected argument " ++ flag)

/-- Reads the arguments after the program name. -/
def Command.parse : List String → Except String Command
  | [] => .ok .welcome
  | ["check", path] => .ok (.check path)
  | ["compile", path] => .ok (.compile path none)
  | ["compile", path, destination] => .ok (.compile path (some destination))
  | "run" :: path :: options => do
    let (config, clock) ← readRunOptions options {} none
    pure (.run path config clock)
  | [path] => .ok (.run path {} none)
  | _ => .error "usage: run FILE [--registers N] [--memory N] [--clock RATE] | compile FILE [DEST] | check FILE"

/-- The extension of the last component of a path, if it has one. -/
def extension (path : String) : Option String :=
  let name := (path.splitOn "/").getLastD ""
  match name.splitOn "." with
  | [] | [_] => none
  | parts => some (parts.getLastD "")

/-- A path with its extension replaced. -/
def withExtension (path : String) (ext : String) : String :=
  match extension path with
  | some old => String.ofList (path.toList.take (path.length - old.length)) ++ ext
  | none => path ++ "." ++ ext

/-- A program from a file: assembled from `.asm` source or read from `.bin` program text. -/
def readProgram (path : String) : IO (Except String Program) := do
  match extension path with
  | some "asm" =>
    let source ← IO.FS.readFile path
    pure ((assemble source).mapError (·.message))
  | some "bin" =>
    let text ← IO.FS.readFile path
    pure ((Program.parse text).mapError (·.message))
  | some _ => pure (.error "File has unknown extension. Exiting...")
  | none => pure (.error "File has no extension. Exiting...")

/-- Steps a machine until it stops, waiting a tick between steps when paced. -/
partial def runToStop (machine : Machine) (tickNanos : Option Nat) : IO Machine := do
  if machine.isRunning then
    if let some nanos := tickNanos then
      IO.sleep (nanos / 1000000).toUInt32
    runToStop machine.step tickNanos
  else
    pure machine

/-- Carries out a command; the exit code is zero on success. -/
def execute : Command → IO UInt32
  | .welcome => do
    IO.println "An assembler and interpreter for a tiny byte-addressable machine."
    IO.println "Commands: run FILE, compile FILE [DEST], check FILE."
    pure 0
  | .check path => do
    match ← readProgram path with
    | .ok _ => IO.println "no errors found"; pure 0
    | .error message => IO.eprintln message; pure 1
  | .compile path destination => do
    match ← readProgram path with
    | .ok program =>
      let target := destination.getD (withExtension path "bin")
      IO.FS.writeFile target program.render
      IO.println ("saved " ++ target)
      pure 0
    | .error message => IO.eprintln message; pure 1
  | .run path config clock => do
    match ← readProgram path with
    | .error message => IO.eprintln message; pure 1
    | .ok program =>
      match (Machine.new config).load program with
      | .error fault => IO.eprintln fault.message; pure 1
      | .ok machine =>
        let stopped ← runToStop machine (clock.map Clock.tickNanos)
        for line in stopped.dump do
          IO.println line
        match stopped.outcome with
        | .ok () => pure 0
        | .error fault => IO.eprintln fault.message; pure 1

end ByteMachine.CommandLine

def main (args : List String) : IO UInt32 := do
  match ByteMachine.CommandLine.Command.parse args with
  | .ok command => ByteMachine.CommandLine.execute command
  | .error message =>
    IO.eprintln message
    pure 2
