import ByteMachine.Machine.Register
import ByteMachine.Isa.Instruction
/-!
# Faults

A fault stops the machine and records the program counter of the instruction that raised it,
with its cause.
-/

set_option autoImplicit false

namespace ByteMachine

/-- A place the machine tried to reach. -/
inductive Location where
  | memory (address : Nat)
  | register (register : Register)
deriving DecidableEq, Repr

/-- The place in words, as messages name it. -/
def Location.describe : Location → String
  | .memory address => "memory address " ++ Hex.prefixed address
  | .register slot => "register " ++ slot.name

/-- Why the machine stopped. -/
inductive Fault where
  /-- The code byte at `pc` names no operation. -/
  | unknownOpcode (pc : Nat) (code : UInt8)
  /-- A memory cell or register outside the machine was reached. -/
  | outOfBounds (pc : Nat) (location : Location)
  /-- A division by zero. -/
  | divisionByZero (pc : Nat)
  /-- The instruction writes to an operand of a kind it cannot write to. -/
  | unsupportedAddressingMode (pc : Nat) (opcode : Opcode) (kind : OperandKind)
  /-- An operand tag byte names no operand kind. -/
  | invalidOperandTag (pc : Nat) (tag : UInt8)
deriving DecidableEq, Repr

namespace Fault

/-- The program counter of the instruction that raised the fault. -/
def pc : Fault → Nat
  | .unknownOpcode pc _ | .outOfBounds pc _ | .divisionByZero pc
  | .unsupportedAddressingMode pc _ _ | .invalidOperandTag pc _ => pc

def message : Fault → String
  | .unknownOpcode pc code =>
    "unknown opcode " ++ Hex.prefixed code.toNat ++ " at pc " ++ toString pc
  | .outOfBounds pc location => location.describe ++ " is out of bounds at pc " ++ toString pc
  | .divisionByZero pc => "division by zero at pc " ++ toString pc
  | .unsupportedAddressingMode pc opcode kind =>
    "`" ++ opcode.mnemonic ++ "` cannot write to a " ++ kind.describe ++ " at pc " ++ toString pc
  | .invalidOperandTag pc tag =>
    "invalid operand tag " ++ Hex.prefixed tag.toNat ++ " at pc " ++ toString pc

end Fault

end ByteMachine
