/-!
# Opcodes

Fifteen operations, each with a code byte from `0x00` to `0x0e`, a mnemonic, a layout of
operand bytes and a family. Each entry is found again from its code and its mnemonic, and no
other code names one (`ofCode?_code`, `ofCode?_eq_none_iff`).
-/

set_option autoImplicit false

namespace ByteMachine

/-- The four arithmetic operations, on signed 32-bit words that wrap. -/
inductive ArithOp where
  | add
  | sub
  | mul
  | div
deriving DecidableEq, Repr

/-- The result of an arithmetic operation with the destination on the left. Division rounds
toward zero, and the least word divided by `-1` wraps to itself; a zero divisor is refused
before this is reached. -/
def ArithOp.apply : ArithOp → Int32 → Int32 → Int32
  | .add, lhs, rhs => lhs + rhs
  | .sub, lhs, rhs => lhs - rhs
  | .mul, lhs, rhs => lhs * rhs
  | .div, lhs, rhs => lhs / rhs

/-- The two single-step adjustments of a value. -/
inductive Adjust where
  | inc
  | dec
deriving DecidableEq, Repr

/-- Adds or subtracts one, wrapping at 32 bits. -/
def Adjust.apply : Adjust → Int32 → Int32
  | .inc, value => value + 1
  | .dec, value => value - 1

/-- The flag test that decides whether a branch is taken. -/
inductive Condition where
  | always
  | negative
  | zero
  | equal
  | notEqual
deriving DecidableEq, Repr

/-- How many operands follow an opcode and how they are laid out in bytes. -/
inductive Layout where
  | nullary
  | unary
  | binary
  | branch
deriving DecidableEq, Repr

/-- The number of bytes of an instruction of this layout, its code included. -/
def Layout.length : Layout → Nat
  | .nullary => 1
  | .unary => 3
  | .binary => 5
  | .branch => 2

/-- The number of operands written after the mnemonic in assembly text. -/
def Layout.operandCount : Layout → Nat
  | .nullary => 0
  | .unary => 1
  | .binary => 2
  | .branch => 1

/-- The way an instruction acts on the machine. -/
inductive Family where
  | noop
  | halt
  | move
  | arithmetic
  | step
  | compare
  | branch
deriving DecidableEq, Repr

/-- An operation of the machine. -/
inductive Opcode where
  | arithmetic (op : ArithOp)
  | adjust (direction : Adjust)
  | noop
  | move
  | branch (condition : Condition)
  | halt
  | compare
deriving DecidableEq, Repr

namespace Opcode

def code : Opcode → UInt8
  | .arithmetic .add => 0x00
  | .arithmetic .sub => 0x01
  | .arithmetic .mul => 0x02
  | .arithmetic .div => 0x03
  | .adjust .inc => 0x04
  | .adjust .dec => 0x05
  | .noop => 0x06
  | .move => 0x07
  | .branch .always => 0x08
  | .branch .negative => 0x09
  | .branch .zero => 0x0a
  | .branch .equal => 0x0b
  | .branch .notEqual => 0x0c
  | .halt => 0x0d
  | .compare => 0x0e

/-- The lower-case name of each operation in assembly text. Operations on two operands end
in `.b`. -/
def mnemonic : Opcode → String
  | .arithmetic .add => "add.b"
  | .arithmetic .sub => "sub.b"
  | .arithmetic .mul => "mul.b"
  | .arithmetic .div => "div.b"
  | .adjust .inc => "inc"
  | .adjust .dec => "dec"
  | .noop => "noop"
  | .move => "move.b"
  | .branch .always => "jmp"
  | .branch .negative => "jng"
  | .branch .zero => "jnz"
  | .branch .equal => "jeq"
  | .branch .notEqual => "jne"
  | .halt => "halt"
  | .compare => "cmp.b"

/-- The operand layout: arithmetic, moves and comparisons take two operands, adjustments
one, branches a target byte. -/
def layout : Opcode → Layout
  | .arithmetic _ | .move | .compare => .binary
  | .adjust _ => .unary
  | .noop | .halt => .nullary
  | .branch _ => .branch

def family : Opcode → Family
  | .arithmetic _ => .arithmetic
  | .adjust _ => .step
  | .noop => .noop
  | .move => .move
  | .branch _ => .branch
  | .halt => .halt
  | .compare => .compare

/-- The length in bytes of an instruction with this opcode. -/
def length (op : Opcode) : Nat := op.layout.length

/-- Every operation, in the order of their codes. -/
def all : List Opcode :=
  [.arithmetic .add, .arithmetic .sub, .arithmetic .mul, .arithmetic .div, .adjust .inc,
    .adjust .dec, .noop, .move, .branch .always, .branch .negative, .branch .zero,
    .branch .equal, .branch .notEqual, .halt, .compare]

def ofCode? (code : UInt8) : Option Opcode := all.find? (·.code == code)

/-- The operation with a given mnemonic, spelled exactly as in the table. -/
def ofMnemonic? (name : String) : Option Opcode := all.find? (·.mnemonic == name)

theorem mem_all (op : Opcode) : op ∈ all := by
  cases op with
  | arithmetic a => cases a <;> decide
  | adjust a => cases a <;> decide
  | branch c => cases c <;> decide
  | _ => decide

theorem all_map_code : all.map code = (List.range 15).map Nat.toUInt8 := by decide

theorem ofCode?_code (op : Opcode) : ofCode? op.code = some op := by
  cases op with
  | arithmetic a => cases a <;> decide
  | adjust a => cases a <;> decide
  | branch c => cases c <;> decide
  | _ => decide

theorem ofMnemonic?_mnemonic (op : Opcode) : ofMnemonic? op.mnemonic = some op := by
  cases op with
  | arithmetic a => cases a <;> decide +kernel
  | adjust a => cases a <;> decide +kernel
  | branch c => cases c <;> decide +kernel
  | _ => decide +kernel

theorem code_ofCode? {code : UInt8} {op : Opcode} (h : ofCode? code = some op) :
    op.code = code := by
  have := List.find?_some h
  simpa using this

theorem ofCode?_eq_none_iff (code : UInt8) : ofCode? code = none ↔ 0x0e < code := by
  have table : ∀ n, n < 256 → (ofCode? n.toUInt8 = none ↔ 0x0e < n.toUInt8) := by
    decide +kernel
  simpa using table code.toNat code.toNat_lt

end Opcode

end ByteMachine
