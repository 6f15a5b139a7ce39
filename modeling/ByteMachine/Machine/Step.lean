import ByteMachine.Machine.Basic
/-!
# One step of the machine

A step fetches the instruction at the program counter, executes it as an `Exec` computation
that may fault, and moves the program counter on. A fault is recorded over the machine as the
fault found it (`step_of_cycle_error`); a stopped machine does not change.
-/

set_option autoImplicit false

namespace ByteMachine

/-- A byte read as a signed number and widened to a word. -/
def signExtend (byte : UInt8) : Int32 := byte.toInt8.toInt32

def lowByte (value : Int32) : UInt8 := value.toInt8.toUInt8

@[simp] theorem lowByte_signExtend (byte : UInt8) : lowByte (signExtend byte) = byte := by
  simp [lowByte, signExtend]

theorem signExtend_inj {byte other : UInt8} : signExtend byte = signExtend other ↔ byte = other := by
  constructor
  · intro same
    rw [← lowByte_signExtend byte, same, lowByte_signExtend]
  · rintro rfl
    rfl

theorem lowByte_add (value other : Int32) : lowByte (value + other) = lowByte value + lowByte other := by
  simp [lowByte, Int32.toInt8_add, Int8.toUInt8_add]

theorem lowByte_sub (value other : Int32) : lowByte (value - other) = lowByte value - lowByte other := by
  simp [lowByte, Int32.toInt8_sub, Int8.toUInt8_sub]

/-- Where the program counter goes after an instruction. -/
inductive Flow where
  | next
  | jump (target : Nat)
  | halt
deriving DecidableEq, Repr

/-- The equal flag set to a comparison's outcome. -/
def Flags.withEqual (flags : Flags) (equal : Bool) : Flags := { flags with equal }

section Fields

variable (flags : Flags) (equal : Bool)

@[simp] theorem Flags.withEqual_negative : (flags.withEqual equal).negative = flags.negative := rfl
@[simp] theorem Flags.withEqual_zero : (flags.withEqual equal).zero = flags.zero := rfl
@[simp] theorem Flags.withEqual_carry : (flags.withEqual equal).carry = flags.carry := rfl
@[simp] theorem Flags.withEqual_overflow : (flags.withEqual equal).overflow = flags.overflow := rfl
@[simp] theorem Flags.withEqual_equal : (flags.withEqual equal).equal = equal := rfl

end Fields

/-- A computation on a machine that may fault. A fault comes with the machine as it stood when
the fault was raised, so a change made before it is kept. -/
abbrev Exec := EStateM Fault Machine

namespace Exec

/-- Asks the machine something and changes nothing. -/
def query {α : Type} (ask : Machine → Except Fault α) : Exec α := fun machine =>
  match ask machine with
  | .ok value => .ok value machine
  | .error fault => .error fault machine

/-- Replaces the machine by a changed one, or faults before changing it. -/
def update {α : Type} (change : Machine → Except Fault (Machine × α)) : Exec α := fun machine =>
  match change machine with
  | .ok (changed, value) => .ok value changed
  | .error fault => .error fault machine

/-- Faults at the instruction the program counter is on. -/
def raise {α : Type} (fault : Nat → Fault) : Exec α := fun machine =>
  .error (fault machine.pc) machine

def setFlags (change : Flags → Flags) : Exec Unit := fun machine =>
  .ok () { machine with flags := change machine.flags }

end Exec

namespace Machine

/-- A fault at the current instruction. -/
def outOfBounds (machine : Machine) (location : Location) : Fault :=
  .outOfBounds machine.pc location

/-- The value of a register, or a fault if its bank has no such register. -/
def readRegister (machine : Machine) (register : Register) : Except Fault Int32 :=
  match machine.registers.get? register with
  | some value => .ok value
  | none => .error (machine.outOfBounds (.register register))

/-- The value an operand stands for: a register's value, a memory cell sign-extended, or the
immediate itself. -/
def read (machine : Machine) (operand : Operand) : Except Fault Int32 :=
  match operand.kind with
  | .data => machine.readRegister ⟨.data, operand.value⟩
  | .address => machine.readRegister ⟨.address, operand.value⟩
  | .memory =>
    match machine.memory.get? operand.value.toNat with
    | some byte => .ok (signExtend byte)
    | none => .error (machine.outOfBounds (.memory operand.value.toNat))
  | .number => .ok operand.immediate

/-- Stores a value in a register, or faults if its bank has no such register. -/
def writeRegister (machine : Machine) (register : Register) (value : Int32) :
    Except Fault (Machine × Int32) :=
  match machine.registers.set? register value with
  | some registers => .ok ({ machine with registers }, value)
  | none => .error (machine.outOfBounds (.register register))

/-- Stores a value where an operand names, and gives the value as it reads back: a register
keeps the word, a memory cell its low byte. An immediate cannot be written to. A write that
faults has found no place to write, so it changes nothing. -/
def write (machine : Machine) (opcode : Opcode) (operand : Operand) (value : Int32) :
    Except Fault (Machine × Int32) :=
  match operand.kind with
  | .data => machine.writeRegister ⟨.data, operand.value⟩ value
  | .address => machine.writeRegister ⟨.address, operand.value⟩ value
  | .memory =>
    match machine.memory.set? operand.value.toNat (lowByte value) with
    | some memory => .ok ({ machine with memory }, signExtend (lowByte value))
    | none => .error (machine.outOfBounds (.memory operand.value.toNat))
  | .number => .error (.unsupportedAddressingMode machine.pc opcode .number)

/-- Executes an instruction in place and says where the program counter goes.

* A move reads the source and the old destination, writes, and compares the old destination
  with the value as it reads back.
* Arithmetic reads the source, refuses a zero divisor, then a destination that is not a data
  register, and compares the destination's old value with the source.
* An adjustment of an immediate changes only the flags, and keeps carry and overflow.
* A comparison sets the flags from the destination minus the source. -/
def execute : Instruction → Exec Flow
  | .noop => pure .next
  | .halt => pure .halt
  | .move src dest => do
    let value ← Exec.query (·.read src)
    let old ← Exec.query (·.read dest)
    let stored ← Exec.update (·.write .move dest value)
    Exec.setFlags fun flags =>
      ((flags.withEqual (old == stored)).setResult stored).clearCarryOverflow
    pure .next
  | .arithmetic op src dest => do
    let rhs ← Exec.query (·.read src)
    if op = .div ∧ rhs = 0 then Exec.raise .divisionByZero
    if dest.kind ≠ .data then
      Exec.raise fun pc => .unsupportedAddressingMode pc (.arithmetic op) dest.kind
    let lhs ← Exec.query (·.read dest)
    let result := op.apply lhs rhs
    let _ ← Exec.update (·.write (.arithmetic op) dest result)
    Exec.setFlags fun flags =>
      ((flags.withEqual (lhs == rhs)).setResult result).clearCarryOverflow
    pure .next
  | .adjust direction dest => do
    let old ← Exec.query (·.read dest)
    let new := direction.apply old
    let stored ←
      if dest.kind = .number then pure new
      else Exec.update (·.write (.adjust direction) dest new)
    Exec.setFlags fun flags => (flags.withEqual (old == stored)).setResult stored
    pure .next
  | .compare src dest => do
    let rhs ← Exec.query (·.read src)
    let lhs ← Exec.query (·.read dest)
    Exec.setFlags fun flags =>
      ((flags.withEqual (lhs == rhs)).setResult (lhs - rhs)).clearCarryOverflow
    pure .next
  | .branch condition target =>
    Exec.query fun machine =>
      .ok (if condition.holds machine.flags then .jump target.toNat else .next)

/-- Reads the instruction at the program counter. The code byte must be in memory and name an
operation, and all its operand bytes must be in memory. -/
def fetch (machine : Machine) : Except Fault Instruction :=
  let pc := machine.pc
  match machine.memory.get? pc with
  | none => .error (.outOfBounds pc (.memory pc))
  | some code =>
    match Opcode.ofCode? code with
    | none => .error (.unknownOpcode pc code)
    | some opcode =>
      match machine.memory.slice? (pc + 1) (opcode.length - 1) with
      | none => .error (.outOfBounds pc (.memory machine.memory.capacity))
      | some operandBytes =>
        match opcode.decode operandBytes with
        | .ok instruction => .ok instruction
        | .error (.invalidOperandTag tag) => .error (.invalidOperandTag pc tag)
        | .error _ => .error (.outOfBounds pc (.memory machine.memory.capacity))

/-- The machine after an instruction of `length` bytes: the program counter moves past it or
to a branch target, or the machine halts where it is. -/
def advance (machine : Machine) (length : Nat) : Flow → Machine
  | .next => { machine with pc := machine.pc + length }
  | .jump target => { machine with pc := target }
  | .halt => { machine with status := .halted }

/-- Fetches and executes the instruction at the program counter, then moves the program
counter on or halts. -/
def cycle : Exec Unit := do
  let instruction ← Exec.query fetch
  let flow ← execute instruction
  modify (·.advance instruction.length flow)

/-- One step. A running machine executes one instruction, and on a fault it keeps the fault
in its status over the machine as the fault found it; a halted or faulted machine stays as it
is. -/
def step (machine : Machine) : Machine :=
  match machine.status with
  | .running =>
    match cycle.run machine with
    | .ok () next => next
    | .error fault stopped => { stopped with status := .faulted fault }
  | .halted | .faulted _ => machine

theorem step_of_cycle_error {machine stopped : Machine} {fault : Fault}
    (running : machine.status = .running) (faulted : cycle.run machine = .error fault stopped) :
    machine.step = { stopped with status := .faulted fault } := by
  simp [step, running, faulted]

theorem step_of_not_running {machine : Machine} (h : machine.isRunning = false) :
    machine.step = machine := by
  unfold isRunning at h
  unfold step
  split <;> simp_all

end Machine

end ByteMachine
