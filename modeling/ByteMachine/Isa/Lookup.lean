import ByteMachine.Isa.Instruction
/-!
# Finding an opcode

An operation is found by its mnemonic in any ASCII case, or by its code as exactly two
hexadecimal digits (`lookup_mnemonic`, `lookup_code`).
-/

set_option autoImplicit false

namespace ByteMachine.Opcode

/-- The code named by exactly two ASCII hexadecimal digits. -/
def ofHexDigits? (text : String) : Option UInt8 :=
  match text.toList with
  | [high, low] => do
    let h ← Hex.digitValue? high
    let l ← Hex.digitValue? low
    pure (h * 16 + l).toUInt8
  | _ => none

/-- The operation with a code byte; an unknown code is reported as two lower-case digits. -/
def ofCode (code : UInt8) : Except IsaError Opcode :=
  match ofCode? code with
  | some op => .ok op
  | none => .error (.unknownOpcode (Hex.byte code))

/-- The operation named by a mnemonic in any ASCII case, or by two hexadecimal digits that
name its code. Other letters are not folded, and the error keeps the text as given. -/
def lookup (ident : String) : Except IsaError Opcode :=
  let lowered := ident.map Char.toLower
  match ofMnemonic? lowered with
  | some op => .ok op
  | none =>
    match ofHexDigits? lowered >>= ofCode? with
    | some op => .ok op
    | none => .error (.unknownOpcode ident)

theorem eq_ok_of_toOption {result : Except IsaError Opcode} {op : Opcode}
    (h : result.toOption = some op) : result = .ok op := by
  cases result with
  | ok found =>
    injection h with h
    rw [h]
  | error _ => cases h

theorem lookup_mnemonic (op : Opcode) : lookup op.mnemonic = .ok op := by
  apply eq_ok_of_toOption
  cases op with
  | arithmetic a => cases a <;> decide +kernel
  | adjust a => cases a <;> decide +kernel
  | branch c => cases c <;> decide +kernel
  | _ => decide +kernel

theorem lookup_code (op : Opcode) : lookup (Hex.byte op.code) = .ok op := by
  apply eq_ok_of_toOption
  cases op with
  | arithmetic a => cases a <;> decide +kernel
  | adjust a => cases a <;> decide +kernel
  | branch c => cases c <;> decide +kernel
  | _ => decide +kernel

example : (lookup "MOVE.B").toOption = some .move ∧ (lookup "0E").toOption = some .compare := by
  decide +kernel
example : (lookup "0f").toOption = none := by decide +kernel

end ByteMachine.Opcode
