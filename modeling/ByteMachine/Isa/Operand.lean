import ByteMachine.Isa.Opcode
/-!
# Operands

An operand is a kind and a byte: a register index, a memory address, or a signed immediate.
It is written as the kind's tag byte followed by the byte.
-/

set_option autoImplicit false

namespace ByteMachine

/-- Where an operand's value lives. -/
inductive OperandKind where
  | data
  | address
  | memory
  | number
deriving DecidableEq, Repr

namespace OperandKind

/-- The tag byte that stands before an operand in an instruction. -/
def tag : OperandKind → UInt8
  | .data => 0
  | .address => 1
  | .memory => 2
  | .number => 3

def ofTag? : UInt8 → Option OperandKind
  | 0 => some .data
  | 1 => some .address
  | 2 => some .memory
  | 3 => some .number
  | _ => none

/-- The kind in words, as messages name it. -/
def describe : OperandKind → String
  | .data => "data register"
  | .address => "address register"
  | .memory => "memory cell"
  | .number => "immediate"

theorem ofTag?_tag (kind : OperandKind) : ofTag? kind.tag = some kind := by
  cases kind <;> rfl

end OperandKind

/-- An operand: a kind and the byte that goes with it. -/
structure Operand where
  kind : OperandKind
  value : UInt8
deriving DecidableEq, Repr

/-- The byte of an immediate read as a signed number and widened to a word. -/
def Operand.immediate (operand : Operand) : Int32 := operand.value.toInt8.toInt32

/-- The operand bytes of an instruction, shaped by its layout. -/
inductive Operands where
  | none
  | unary (dest : Operand)
  | binary (src dest : Operand)
  | target (target : UInt8)
deriving DecidableEq, Repr

/-- The bytes of the operands: tag and value for each operand, source first, or the single
target byte of a branch. -/
def Operands.bytes : Operands → List UInt8
  | .none => []
  | .unary dest => [dest.kind.tag, dest.value]
  | .binary src dest => [src.kind.tag, src.value, dest.kind.tag, dest.value]
  | .target byte => [byte]

/-- The layout an operand shape fits. -/
def Operands.layout : Operands → Layout
  | .none => .nullary
  | .unary _ => .unary
  | .binary _ _ => .binary
  | .target _ => .branch

theorem Operands.length_bytes (operands : Operands) :
    operands.bytes.length + 1 = operands.layout.length := by
  cases operands <;> rfl

end ByteMachine
