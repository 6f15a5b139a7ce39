import ByteMachine.Assembly.Span
import ByteMachine.Isa.Instruction
/-!
# Assembly errors

What can be wrong with assembly source, each with its line (counted from one), the span of
the offending text, and its message.
-/

set_option autoImplicit false

namespace ByteMachine

/-- Why an operand is not accepted where it stands. -/
inductive InvalidReason where
  /-- An immediate outside the signed byte range. -/
  | immediateRange
  /-- A memory cell address that is empty or above a byte. -/
  | memoryRange
  /-- A name that is no register where a register, cell or immediate must stand. -/
  | notAnOperand
  /-- A branch target that is not a label name. -/
  | notALabel
deriving DecidableEq, Repr

def InvalidReason.describe : InvalidReason → String
  | .immediateRange => "immediates range from #$-128 to #$127"
  | .memoryRange => "memory cells range from 0x00 to 0xff"
  | .notAnOperand => "expected a register, memory cell or immediate"
  | .notALabel => "branches take a label"

/-- A fault in assembly source. -/
inductive AsmError where
  /-- The mnemonic names no operation. -/
  | unknownOpcode (line : Nat) (mnemonic : String) (span : Span)
  /-- A branch names a label that is never defined. -/
  | undefinedLabel (line : Nat) (label : String) (span : Span)
  /-- No label `start` marks the first instruction. -/
  | missingEntryPoint
  /-- A label is defined a second time. -/
  | duplicateLabel (line : Nat) (label : String) (span : Span)
  /-- A label is spelled like a register, so no branch could name it. -/
  | registerLabel (line : Nat) (label : String) (span : Span)
  /-- The operation takes another number of operands. -/
  | operandCount (line : Nat) (opcode : Opcode) (expected found : Nat) (span : Span)
  /-- An operand of the wrong form. -/
  | invalidOperand (line : Nat) (operand : String) (reason : InvalidReason) (span : Span)
  /-- A label's offset does not fit in the target byte of a branch or the entry offset. -/
  | targetOutOfRange (line : Nat) (label : String) (offset : Nat) (span : Span)
  /-- A token that cannot stand where it stands. -/
  | unexpectedToken (line : Nat) (found : String) (span : Span)
  /-- The instruction set refused to encode a statement. -/
  | encode (line : Nat) (error : IsaError)
deriving DecidableEq, Repr

namespace AsmError

/-- The line an error was found on, if it has one. -/
def line? : AsmError → Option Nat
  | .missingEntryPoint => none
  | .unknownOpcode line .. | .undefinedLabel line .. | .duplicateLabel line ..
  | .registerLabel line .. | .operandCount line .. | .invalidOperand line ..
  | .targetOutOfRange line .. | .unexpectedToken line .. | .encode line _ => some line

/-- The span of the offending text, if the error has one. -/
def span? : AsmError → Option Span
  | .missingEntryPoint | .encode _ _ => none
  | .unknownOpcode _ _ span | .undefinedLabel _ _ span | .duplicateLabel _ _ span
  | .registerLabel _ _ span | .operandCount _ _ _ _ span | .invalidOperand _ _ _ span
  | .targetOutOfRange _ _ _ span | .unexpectedToken _ _ span => some span

/-- The words after the line number. -/
def detail : AsmError → String
  | .unknownOpcode _ mnemonic _ => "`" ++ mnemonic ++ "` is not a recognised instruction"
  | .undefinedLabel _ label _ => "`" ++ label ++ "` is not a defined label"
  | .missingEntryPoint => "program has no `start` label"
  | .duplicateLabel _ label _ => "label `" ++ label ++ "` is defined twice"
  | .registerLabel _ label _ => "`" ++ label ++ "` names a register and cannot be a label"
  | .operandCount _ opcode expected found _ =>
    "`" ++ opcode.mnemonic ++ "` takes " ++ toString expected ++ " operand(s), found " ++
      toString found
  | .invalidOperand _ operand reason _ =>
    "invalid operand `" ++ operand ++ "`, " ++ reason.describe
  | .targetOutOfRange _ label offset _ =>
    "`" ++ label ++ "` resolves to offset " ++ toString offset ++ ", which does not fit in a byte"
  | .unexpectedToken _ found _ => "unexpected `" ++ found ++ "`"
  | .encode _ error => error.message

/-- The message of an assembly error: the line number first, where there is one. -/
def message (error : AsmError) : String :=
  match error.line? with
  | some line => "line " ++ toString line ++ ": " ++ error.detail
  | none => error.detail

end AsmError

end ByteMachine
