import ByteMachine.Machine.Memory
import ByteMachine.Machine.Flags
import ByteMachine.Machine.Fault
import ByteMachine.Program
/-!
# Machines

A machine holds memory, two register banks, flags, a program counter, the entry offset and a
status. Loading resets it around a program, and fails exactly when the image is longer than
memory (`load_eq_error_iff`). A dump prints it one item per line.
-/

set_option autoImplicit false

namespace ByteMachine

/-- Whether the machine runs, has halted, or has stopped on a fault. -/
inductive Status where
  | running
  | halted
  | faulted (fault : Fault)
deriving DecidableEq, Repr

/-- The size of a machine: registers in each bank and cells of memory. -/
structure Config where
  registers : Nat := 8
  memory : Nat := 256
deriving DecidableEq, Repr

structure Machine where
  memory : Memory
  registers : Registers
  flags : Flags
  pc : Nat
  start : Nat
  status : Status

namespace Machine

/-- A machine of the given size with zero memory and registers, halted until a program is
loaded. -/
def new (config : Config) : Machine where
  memory := Memory.new config.memory
  registers := Registers.new config.registers
  flags := {}
  pc := 0
  start := 0
  status := .halted

/-- The machine reset with a program's image at the start of memory, running from the
program's entry offset. An image longer than memory is refused with a fault at the entry
offset, and the machine stays as it was. -/
def load (machine : Machine) (program : Program) : Except Fault Machine :=
  let start := program.start.toNat
  match (Memory.new machine.memory.capacity).load program.bytes with
  | .ok memory => .ok
    { memory
      registers := Registers.new machine.registers.count
      flags := {}
      pc := start
      start
      status := .running }
  | .error address => .error (.outOfBounds start (.memory address))

/-- Whether the machine executes its next step. -/
def isRunning (machine : Machine) : Bool := machine.status == .running

/-- What the last step reported: the fault the machine stopped on, if any. -/
def outcome (machine : Machine) : Except Fault Unit :=
  match machine.status with
  | .faulted fault => .error fault
  | .running | .halted => .ok ()

theorem load_eq_error_iff (machine : Machine) (program : Program) (fault : Fault) :
    machine.load program = .error fault ↔
      machine.memory.capacity < program.bytes.length ∧
        fault = .outOfBounds program.start.toNat (.memory machine.memory.capacity) := by
  unfold load
  split
  · rename_i memory hload
    simp only [reduceCtorEq, false_iff, not_and]
    intro hlt
    have herr := (Memory.load_eq_error_iff (Memory.new machine.memory.capacity) program.bytes
      machine.memory.capacity).mpr ⟨by simpa using hlt, by simp⟩
    rw [hload] at herr
    cases herr
  · rename_i address hload
    have := (Memory.load_eq_error_iff _ _ _).mp hload
    simp only [Memory.capacity_new] at this
    simp only [Except.error.injEq]
    constructor
    · rintro rfl
      exact ⟨this.1, by rw [this.2]⟩
    · rintro ⟨-, rfl⟩
      rw [this.2]

/-! ## Dumps -/

/-- One line per register, the data bank first, then the program counter. -/
def registerLines (machine : Machine) : List String :=
  machine.registers.toList.map (fun (register, value) => register.name ++ " " ++ toString value.toInt) ++
    ["pc " ++ toString machine.pc]

/-- The flags line: each flag as its name and `0` or `1`, in order. -/
def flagsLine (machine : Machine) : String :=
  "flags " ++ " ".intercalate (machine.flags.named.map fun (name, set) =>
    name ++ "=" ++ (if set then "1" else "0"))

/-- The rows of memory, each led by the address of its first cell in four digits. -/
def memoryLines (machine : Machine) : List String :=
  (List.range machine.memory.rows).map fun row =>
    let address := row * Memory.rowWidth
    let cells := (machine.memory.cells.extract address (address + Memory.rowWidth)).toList
    Hex.padded 4 address ++ ": " ++ " ".intercalate (cells.map Hex.byte)

def dump (machine : Machine) : List String :=
  machine.registerLines ++ [machine.flagsLine] ++ machine.memoryLines

end Machine

end ByteMachine
