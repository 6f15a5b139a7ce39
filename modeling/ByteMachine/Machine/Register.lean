import ByteMachine.Isa.Operand
import ByteMachine.Text.Basic
/-!
# Registers

Two banks of signed 32-bit registers, data and address, of the same size and at most 256 each,
named by bank letter and index as in `d0` or `a3`.
-/

set_option autoImplicit false

namespace ByteMachine

/-- The two register banks. -/
inductive Bank where
  | data
  | address
deriving DecidableEq, Repr

/-- A register: a bank and an index in it. -/
structure Register where
  bank : Bank
  index : UInt8
deriving DecidableEq, Repr

namespace Register

/-- The letter that names a bank. -/
def Bank.letter : Bank → Char
  | .data => 'd'
  | .address => 'a'

/-- The name of a register: its bank letter, then its index in decimal. -/
def name (register : Register) : String :=
  (Bank.letter register.bank).toString ++ toString register.index.toNat

/-- Reads a register name: `d` or `a` in either case, then one or more ASCII digits whose
value is at most 255. Leading zeros are allowed. -/
def parse? (text : String) : Option Register :=
  match text.toList with
  | letter :: digits => do
    let bank ← if letter = 'd' ∨ letter = 'D' then some Bank.data
      else if letter = 'a' ∨ letter = 'A' then some Bank.address
      else none
    let index ← Text.naturalOfDigits? digits
    if index < 256 then some ⟨bank, index.toUInt8⟩ else none
  | [] => none

/-- The operand that names this register. -/
def toOperand (register : Register) : Operand :=
  match register.bank with
  | .data => ⟨.data, register.index⟩
  | .address => ⟨.address, register.index⟩

/-- The register an operand names, if it names one. -/
def ofOperand? (operand : Operand) : Option Register :=
  match operand.kind with
  | .data => some ⟨.data, operand.value⟩
  | .address => some ⟨.address, operand.value⟩
  | .memory | .number => none

theorem ofOperand?_toOperand (register : Register) :
    ofOperand? register.toOperand = some register := by
  cases register with
  | mk bank index => cases bank <;> rfl

example : parse? "D012" = some ⟨.data, 12⟩ ∧ parse? "a255" = some ⟨.address, 255⟩ := by
  decide
example : [parse? "d", parse? "d256", parse? "d+1", parse? "x1", parse? "a1b"].all
    (· = none) := by decide

end Register

/-- Most registers a bank can hold: an operand byte indexes every one of them. -/
def Registers.limit : Nat := 256

/-- The two register banks, of equal size and at most `Registers.limit` registers each. -/
structure Registers where
  data : Array Int32
  address : Array Int32
  address_size : address.size = data.size
  data_size_le : data.size ≤ Registers.limit

namespace Registers

/-- Zeroed banks of `count` registers each; a larger count is cut to the limit. -/
def new (count : Nat) : Registers where
  data := Array.replicate (min count limit) 0
  address := Array.replicate (min count limit) 0
  address_size := by simp
  data_size_le := by
    rw [Array.size_replicate]
    exact Nat.min_le_right count limit

def count (registers : Registers) : Nat := registers.data.size

def bank (registers : Registers) : Bank → Array Int32
  | .data => registers.data
  | .address => registers.address

/-- The value of a register, if its bank has it. -/
def get? (registers : Registers) (register : Register) : Option Int32 :=
  (registers.bank register.bank)[register.index.toNat]?

/-- The banks with one register changed, if its bank has it. -/
def set? (registers : Registers) (register : Register) (value : Int32) : Option Registers :=
  let i := register.index.toNat
  match register.bank with
  | .data =>
    if h : i < registers.data.size then
      some { registers with
        data := registers.data.set i value h
        address_size := by simp [registers.address_size]
        data_size_le := by simpa using registers.data_size_le }
    else none
  | .address =>
    if h : i < registers.address.size then
      some { registers with
        address := registers.address.set i value h
        address_size := by simp [registers.address_size] }
    else none

/-- Every register with its value, the data bank first, each bank in index order. -/
def toList (registers : Registers) : List (Register × Int32) :=
  registers.data.toList.zipIdx.map (fun (value, i) => (⟨.data, i.toUInt8⟩, value)) ++
    registers.address.toList.zipIdx.map (fun (value, i) => (⟨.address, i.toUInt8⟩, value))

theorem count_le_limit (registers : Registers) : registers.count ≤ limit :=
  registers.data_size_le

theorem count_new (count : Nat) : (new count).count = min count limit := by
  simp [new, Registers.count]

theorem get?_new (count : Nat) (register : Register) :
    (new count).get? register =
      if register.index.toNat < min count limit then some 0 else none := by
  rcases register with ⟨bank, index⟩
  cases bank <;> simp [new, get?, Registers.bank, Array.getElem?_replicate]

theorem bank_size (registers : Registers) (bank : Bank) :
    (registers.bank bank).size = registers.count := by
  cases bank
  · rfl
  · exact registers.address_size

theorem get?_isSome_iff (registers : Registers) (register : Register) :
    (registers.get? register).isSome ↔ register.index.toNat < registers.count := by
  simp [get?, bank_size]

theorem set?_isSome_iff (registers : Registers) (register : Register) (value : Int32) :
    (registers.set? register value).isSome ↔ register.index.toNat < registers.count := by
  unfold set?
  cases register.bank <;> simp [Registers.count, registers.address_size]

theorem get?_set?_same {registers updated : Registers} {register : Register} {value : Int32}
    (h : registers.set? register value = some updated) : updated.get? register = some value := by
  unfold set? at h
  rcases register with ⟨bank, index⟩
  cases bank <;> dsimp only at h <;> split at h <;> simp_all [get?, Registers.bank] <;>
    (cases h; simp_all)

theorem get?_set?_ne {registers updated : Registers} {register other : Register} {value : Int32}
    (h : registers.set? register value = some updated) (hne : other ≠ register) :
    updated.get? other = registers.get? other := by
  unfold set? at h
  rcases register with ⟨bank, index⟩
  rcases other with ⟨otherBank, otherIndex⟩
  have hne' : otherBank = bank → otherIndex.toNat ≠ index.toNat := by
    intro hb hi
    exact hne (by rw [hb, UInt8.toNat_inj.mp hi])
  cases bank <;> dsimp only at h <;> split at h <;> simp only [Option.some.injEq,
    reduceCtorEq] at h <;> subst h <;> cases otherBank <;>
    simp_all [get?, Registers.bank, Array.getElem?_set]
  all_goals exact fun e => absurd e.symm hne'

end Registers

end ByteMachine
