import ByteMachine.Isa.Opcode
/-!
# Condition flags

Five flags record what the last instruction saw. As a byte they are the bits 1 to 16, and they
read back from it (`ofBits_bits`).
-/

set_option autoImplicit false

namespace ByteMachine

/-- The condition flags. -/
structure Flags where
  negative : Bool := false
  zero : Bool := false
  carry : Bool := false
  overflow : Bool := false
  equal : Bool := false
deriving DecidableEq, Repr

namespace Flags

/-- The flags as a byte: negative 1, zero 2, carry 4, overflow 8, equal 16. -/
def bits (flags : Flags) : UInt8 :=
  (if flags.negative then 1 else 0) ||| (if flags.zero then 2 else 0) |||
    (if flags.carry then 4 else 0) ||| (if flags.overflow then 8 else 0) |||
    (if flags.equal then 16 else 0)

/-- The flags of a byte; bits above the fifth are ignored. -/
def ofBits (bits : UInt8) : Flags where
  negative := bits &&& 1 != 0
  zero := bits &&& 2 != 0
  carry := bits &&& 4 != 0
  overflow := bits &&& 8 != 0
  equal := bits &&& 16 != 0

/-- The flags that are set in either. -/
def union (flags other : Flags) : Flags where
  negative := flags.negative || other.negative
  zero := flags.zero || other.zero
  carry := flags.carry || other.carry
  overflow := flags.overflow || other.overflow
  equal := flags.equal || other.equal

/-- Negative and zero describe a result; the other flags stay. -/
def setResult (flags : Flags) (value : Int32) : Flags :=
  { flags with negative := decide (value < 0), zero := decide (value = 0) }

/-- Clears carry and overflow, which no instruction computes. -/
def clearCarryOverflow (flags : Flags) : Flags :=
  { flags with carry := false, overflow := false }

section Fields

variable (flags : Flags) (value : Int32)

@[simp] theorem setResult_negative : (flags.setResult value).negative = decide (value < 0) := rfl
@[simp] theorem setResult_zero : (flags.setResult value).zero = decide (value = 0) := rfl
@[simp] theorem setResult_carry : (flags.setResult value).carry = flags.carry := rfl
@[simp] theorem setResult_overflow : (flags.setResult value).overflow = flags.overflow := rfl
@[simp] theorem setResult_equal : (flags.setResult value).equal = flags.equal := rfl

@[simp] theorem clearCarryOverflow_negative : flags.clearCarryOverflow.negative = flags.negative :=
  rfl
@[simp] theorem clearCarryOverflow_zero : flags.clearCarryOverflow.zero = flags.zero := rfl
@[simp] theorem clearCarryOverflow_carry : flags.clearCarryOverflow.carry = false := rfl
@[simp] theorem clearCarryOverflow_overflow : flags.clearCarryOverflow.overflow = false := rfl
@[simp] theorem clearCarryOverflow_equal : flags.clearCarryOverflow.equal = flags.equal := rfl

end Fields

/-- Each flag with its name, in the order negative, zero, carry, overflow, equal. -/
def named (flags : Flags) : List (String × Bool) :=
  [("negative", flags.negative), ("zero", flags.zero), ("carry", flags.carry),
    ("overflow", flags.overflow), ("equal", flags.equal)]

/-- The names of the flags that are set, in order. -/
def names (flags : Flags) : List String :=
  (flags.named.filter (·.2)).map (·.1)

theorem ofBits_bits (flags : Flags) : ofBits flags.bits = flags := by
  rcases flags with ⟨n, z, c, o, e⟩
  cases n <;> cases z <;> cases c <;> cases o <;> cases e <;> decide

end Flags

/-- Whether a branch condition holds under the flags: always, on negative, on zero, on equal,
or on not equal. -/
def Condition.holds (condition : Condition) (flags : Flags) : Bool :=
  match condition with
  | .always => true
  | .negative => flags.negative
  | .zero => flags.zero
  | .equal => flags.equal
  | .notEqual => !flags.equal

end ByteMachine
