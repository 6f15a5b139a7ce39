import ByteMachine.Isa.Operand
import ByteMachine.Text.Hex
/-!
# Instructions

An instruction is an operation with exactly the operands its layout asks for, written as its
code byte and operand bytes. Encoding checks the operands against the layout; decoding reads
operand bytes back, and either can fail with an `IsaError`.
-/

set_option autoImplicit false

namespace ByteMachine

/-- An operation with its operands. -/
inductive Instruction where
  | arithmetic (op : ArithOp) (src dest : Operand)
  | adjust (direction : Adjust) (dest : Operand)
  | noop
  | move (src dest : Operand)
  | branch (condition : Condition) (target : UInt8)
  | halt
  | compare (src dest : Operand)
deriving DecidableEq, Repr

namespace Instruction

def opcode : Instruction → Opcode
  | .arithmetic op _ _ => .arithmetic op
  | .adjust direction _ => .adjust direction
  | .noop => .noop
  | .move _ _ => .move
  | .branch condition _ => .branch condition
  | .halt => .halt
  | .compare _ _ => .compare

/-- The operands of an instruction, in the shape of its layout. -/
def operands : Instruction → Operands
  | .arithmetic _ src dest | .move src dest | .compare src dest => .binary src dest
  | .adjust _ dest => .unary dest
  | .noop | .halt => .none
  | .branch _ byte => .target byte

/-- The bytes of an instruction: its code, then its operand bytes. -/
def bytes (instruction : Instruction) : List UInt8 :=
  instruction.opcode.code :: instruction.operands.bytes

def length (instruction : Instruction) : Nat := instruction.opcode.length

theorem operands_layout (instruction : Instruction) :
    instruction.operands.layout = instruction.opcode.layout := by
  cases instruction <;> rfl

theorem length_bytes (instruction : Instruction) :
    instruction.bytes.length = instruction.length := by
  rw [length, Opcode.length, ← operands_layout, ← Operands.length_bytes, bytes,
    List.length_cons]

end Instruction

/-! ## Encoding and decoding -/

/-- A failure of the instruction set's look-ups, encoder or decoder. -/
inductive IsaError where
  /-- No operation has this mnemonic or code; the text is kept as it was given. -/
  | unknownOpcode (ident : String)
  /-- The operand shape does not fit the layout of the operation. -/
  | layoutMismatch (opcode : Opcode)
  /-- An operand tag byte names no operand kind. -/
  | invalidOperandTag (tag : UInt8)
  /-- Fewer operand bytes were given than the layout needs. -/
  | truncated (expected found : Nat)
deriving DecidableEq, Repr

def IsaError.message : IsaError → String
  | .unknownOpcode ident => "`" ++ ident ++ "` is not a known mnemonic or opcode"
  | .layoutMismatch opcode => "operands do not match the layout of `" ++ opcode.mnemonic ++ "`"
  | .invalidOperandTag tag => "invalid operand tag " ++ Hex.prefixed tag.toNat
  | .truncated expected found =>
    "expected " ++ toString expected ++ " operand bytes, found " ++ toString found

/-- One operand read from its tag byte and its value byte. -/
def Operand.ofBytes (tag value : UInt8) : Except IsaError Operand :=
  match OperandKind.ofTag? tag with
  | some kind => .ok ⟨kind, value⟩
  | none => .error (.invalidOperandTag tag)

/-- The operand of a one-operand layout; fewer than two bytes are too few. -/
def Operands.readUnary : List UInt8 → Except IsaError Operand
  | tag :: value :: _ => Operand.ofBytes tag value
  | bytes => .error (.truncated 2 bytes.length)

/-- The operands of a two-operand layout, the source's tag checked first; fewer than four
bytes are too few. -/
def Operands.readBinary : List UInt8 → Except IsaError (Operand × Operand)
  | srcTag :: srcValue :: destTag :: destValue :: _ => do
    let src ← Operand.ofBytes srcTag srcValue
    let dest ← Operand.ofBytes destTag destValue
    pure (src, dest)
  | bytes => .error (.truncated 4 bytes.length)

def Operands.readTarget : List UInt8 → Except IsaError UInt8
  | byte :: _ => .ok byte
  | [] => .error (.truncated 1 0)

namespace Opcode

/-- The instruction made of an opcode and operands of the shape its layout asks for. -/
def withOperands? : Opcode → Operands → Option Instruction
  | .arithmetic op, .binary src dest => some (.arithmetic op src dest)
  | .adjust direction, .unary dest => some (.adjust direction dest)
  | .noop, .none => some .noop
  | .move, .binary src dest => some (.move src dest)
  | .branch condition, .target byte => some (.branch condition byte)
  | .halt, .none => some .halt
  | .compare, .binary src dest => some (.compare src dest)
  | _, _ => none

/-- The bytes of an instruction given by its opcode and operands; operands of another shape
than the layout's are refused. -/
def encode (op : Opcode) (operands : Operands) : Except IsaError (List UInt8) :=
  match op.withOperands? operands with
  | some instruction => .ok instruction.bytes
  | none => .error (.layoutMismatch op)

/-- Reads the operand bytes that follow a code into an instruction. Bytes beyond the layout
are ignored; too few bytes are reported before a bad tag. -/
def decode : Opcode → List UInt8 → Except IsaError Instruction
  | .arithmetic op, bytes => (fun (src, dest) => .arithmetic op src dest) <$> Operands.readBinary bytes
  | .adjust direction, bytes => .adjust direction <$> Operands.readUnary bytes
  | .noop, _ => .ok .noop
  | .move, bytes => (fun (src, dest) => .move src dest) <$> Operands.readBinary bytes
  | .branch condition, bytes => .branch condition <$> Operands.readTarget bytes
  | .halt, _ => .ok .halt
  | .compare, bytes => (fun (src, dest) => .compare src dest) <$> Operands.readBinary bytes

theorem withOperands?_eq_some_iff (op : Opcode) (operands : Operands) (instruction : Instruction) :
    op.withOperands? operands = some instruction ↔
      instruction.opcode = op ∧ instruction.operands = operands := by
  constructor
  · intro h
    cases op <;> cases operands <;> simp [withOperands?] at h <;> subst h <;>
      exact ⟨rfl, rfl⟩
  · rintro ⟨rfl, rfl⟩
    cases instruction <;> rfl

theorem decode_operands_bytes (instruction : Instruction) (rest : List UInt8) :
    instruction.opcode.decode (instruction.operands.bytes ++ rest) = .ok instruction := by
  cases instruction with
  | arithmetic op src dest | move src dest | compare src dest | adjust _ dest =>
    simp [Instruction.opcode, Instruction.operands, Operands.bytes, decode, Operands.readBinary,
      Operands.readUnary, Operand.ofBytes, OperandKind.ofTag?_tag, bind, Except.bind, pure,
      Except.pure, Functor.map, Except.map]
  | _ => rfl

end Opcode

end ByteMachine
