import ByteMachine.Assembly.Token
import ByteMachine.Assembly.Error
import ByteMachine.Machine.Register
/-!
# Operands in assembly text

Operand tokens read as an immediate `#$n` from -128 to 127, a memory cell `0xhh` up to
`0xff`, or a register name; a branch takes a label that is not spelled like a register.
-/

set_option autoImplicit false

namespace ByteMachine

namespace Token

/-- The error for a token that cannot stand where it stands. -/
def unexpected (token : Token) (line : Nat) : AsmError :=
  .unexpectedToken line token.text token.span

/-- The error for an operand of the wrong form. -/
def invalid (token : Token) (line : Nat) (reason : InvalidReason) : AsmError :=
  .invalidOperand line token.text reason token.span

/-- The characters after the two-character prefix of an immediate or a memory cell. -/
def afterPrefix (token : Token) : List Char := token.text.toList.drop 2

/-- The operand a token stands for. An immediate is kept as its byte in two's complement. -/
def toOperand (token : Token) (line : Nat) : Except AsmError Operand :=
  match token.kind with
  | .immediate =>
    match Text.readSigned? (-128) 127 (String.ofList token.afterPrefix) with
    | some value => .ok ⟨.number, (value % 256).toNat.toUInt8⟩
    | none => .error (token.invalid line .immediateRange)
  | .memory =>
    match Hex.natural? token.afterPrefix with
    | some address =>
      if address < 256 then .ok ⟨.memory, address.toUInt8⟩
      else .error (token.invalid line .memoryRange)
    | none => .error (token.invalid line .memoryRange)
  | .ident =>
    match Register.parse? token.text with
    | some register => .ok register.toOperand
    | none => .error (token.invalid line .notAnOperand)
  | _ => .error (token.unexpected line)

/-- The label a branch names: a name that is not a register. -/
def toLabel (token : Token) (line : Nat) : Except AsmError String :=
  if token.kind = .ident ∧ Register.parse? token.text = none then .ok token.text
  else .error (token.invalid line .notALabel)

end Token

/-- The operand tokens after a mnemonic. Each must be a name, an immediate or a memory cell,
and every comma must stand between two of them. -/
def operandTokens (line : Nat) : List Token → Except AsmError (List Token)
  | [] => .ok []
  | token :: rest =>
    if token.isOperand then
      match rest with
      | [] => .ok [token]
      | separator :: more =>
        if separator.kind = .comma then
          match more with
          | [] => .error (separator.unexpected line)
          | _ :: _ => (token :: ·) <$> operandTokens line more
        else .error (separator.unexpected line)
    else .error (token.unexpected line)

end ByteMachine
