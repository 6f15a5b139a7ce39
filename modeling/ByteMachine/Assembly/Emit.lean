import ByteMachine.Assembly.Listing
import ByteMachine.Program
/-!
# Emitting a program

The second pass resolves each branch label to the offset it marks and encodes every
statement. Offsets are one byte, so the entry and every target must lie below 256; the entry
is checked first, then the statements in order.
-/

set_option autoImplicit false

namespace ByteMachine

namespace Listing

/-- A label's offset as a target byte, or an error at the line and span where it is used. -/
def target (label : String) (offset line : Nat) (span : Span) : Except AsmError UInt8 :=
  if offset < 256 then .ok offset.toUInt8 else .error (.targetOutOfRange line label offset span)

/-- The instruction of one statement, its branch label replaced by the offset it marks. -/
def resolve (listing : Listing) (statement : Statement) : Except AsmError Instruction :=
  match statement.body with
  | .instruction complete => .ok complete
  | .jump condition label span =>
    match listing.find? label with
    | some definition =>
      Instruction.branch condition <$> target label definition.offset statement.line span
    | none => .error (.undefinedLabel statement.line label span)

/-- The bytes of one statement: its resolved instruction encoded by its operation. -/
def encodeStatement (listing : Listing) (statement : Statement) : Except AsmError (List UInt8) := do
  let instruction ← listing.resolve statement
  (instruction.opcode.encode instruction.operands).mapError (.encode statement.line)

/-- The second pass: the program with the entry label's offset as its start and the bytes of
every statement. -/
def emit (listing : Listing) : Except AsmError Program := do
  let some entry := listing.entry? | throw .missingEntryPoint
  let start ← target entryLabel entry.offset entry.line entry.span
  let instructions ← listing.statements.mapM listing.encodeStatement
  pure ⟨start, instructions⟩

end Listing

/-- Assembles a source text into a program. -/
def assemble (source : String) : Except AsmError Program := do
  let listing ← Listing.parse source
  listing.emit

end ByteMachine
