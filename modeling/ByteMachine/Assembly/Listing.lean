import ByteMachine.Assembly.Operand
import ByteMachine.Isa.Lookup
import ByteMachine.Isa.Instruction
/-!
# Listings

The first pass reads source line by line into a listing: statements at the byte offset the
statements before them take, and labels at the offset of the statement that follows them.
Branch targets stay names until the second pass.
-/

set_option autoImplicit false

namespace ByteMachine

/-- A label definition: the offset it marks, and the line and span of its name. -/
structure LabelDef where
  name : String
  offset : Nat
  line : Nat
  span : Span
deriving DecidableEq, Repr

/-- What a statement assembles to: a complete instruction, or a branch whose target is still
a label name, with the span of that name. -/
inductive Body where
  | instruction (instruction : Instruction)
  | jump (condition : Condition) (label : String) (span : Span)
deriving DecidableEq, Repr

def Body.opcode : Body → Opcode
  | .instruction complete => complete.opcode
  | .jump condition _ _ => .branch condition

/-- A statement: its line, the span from its mnemonic to its last operand, and its body. -/
structure Statement where
  line : Nat
  span : Span
  body : Body
deriving DecidableEq, Repr

def Statement.length (statement : Statement) : Nat := statement.body.opcode.length

/-- The label that marks the first instruction to execute. -/
def entryLabel : String := "start"

/-- The statements and labels read so far, and the offset of the next statement. -/
structure Listing where
  statements : List Statement := []
  labels : List LabelDef := []
  offset : Nat := 0
deriving DecidableEq, Repr

namespace Listing

def find? (listing : Listing) (name : String) : Option LabelDef :=
  listing.labels.find? (·.name == name)

def entry? (listing : Listing) : Option LabelDef := listing.find? entryLabel

/-- Adds a statement at the current offset. -/
def addStatement (listing : Listing) (statement : Statement) : Listing :=
  { listing with
    statements := listing.statements ++ [statement]
    offset := listing.offset + statement.length }

/-- Defines a label at the current offset from its token, whose text ends in `:`. A name
spelled like a register is refused first, then a name defined before. -/
def defineLabel (listing : Listing) (line : Nat) (token : Token) : Except AsmError Listing :=
  let name := String.ofList token.text.toList.dropLast
  let span : Span := ⟨token.span.offset, token.span.length - 1⟩
  if (Register.parse? name).isSome then .error (.registerLabel line name span)
  else if (listing.find? name).isSome then .error (.duplicateLabel line name span)
  else .ok { listing with labels := listing.labels ++ [⟨name, listing.offset, line, span⟩] }

/-- The body of a statement from its opcode and operand tokens. The number of operands must
be the layout's; then each operand is read, source before destination. -/
def body (line : Nat) (opcode : Opcode) (span : Span) (operands : List Token) :
    Except AsmError Body :=
  match opcode, operands with
  | .arithmetic op, [src, dest] => do
    let src ← src.toOperand line
    let dest ← dest.toOperand line
    pure (.instruction (.arithmetic op src dest))
  | .adjust direction, [dest] => do
    let dest ← dest.toOperand line
    pure (.instruction (.adjust direction dest))
  | .noop, [] => pure (.instruction .noop)
  | .move, [src, dest] => do
    let src ← src.toOperand line
    let dest ← dest.toOperand line
    pure (.instruction (.move src dest))
  | .branch condition, [target] => do
    let label ← target.toLabel line
    pure (.jump condition label target.span)
  | .halt, [] => pure (.instruction .halt)
  | .compare, [src, dest] => do
    let src ← src.toOperand line
    let dest ← dest.toOperand line
    pure (.instruction (.compare src dest))
  | _, _ =>
    .error (.operandCount line opcode opcode.layout.operandCount operands.length span)

/-- Reads the statement of a line that starts with a mnemonic token. -/
def statement (line : Nat) (mnemonic : Token) (rest : List Token) :
    Except AsmError Statement := do
  if mnemonic.kind ≠ .ident then throw (mnemonic.unexpected line)
  let opcode ← match Opcode.lookup mnemonic.text with
    | .ok opcode => pure opcode
    | .error _ => throw (.unknownOpcode line mnemonic.text mnemonic.span)
  let operands ← operandTokens line rest
  let span := match operands.getLast? with
    | some last => mnemonic.span.cover last.span
    | none => mnemonic.span
  let body ← body line opcode span operands
  pure ⟨line, span, body⟩

/-- Reads one line of significant tokens: an optional label definition, then an optional
statement. -/
def addLine (listing : Listing) (line : Nat) (tokens : List Token) : Except AsmError Listing := do
  let (listing, rest) ← match tokens with
    | first :: more =>
      if first.kind = .label then do
        let defined ← listing.defineLabel line first
        pure (defined, more)
      else pure (listing, tokens)
    | [] => pure (listing, [])
  match rest with
  | [] => pure listing
  | mnemonic :: operands => do
    let statement ← statement line mnemonic operands
    pure (listing.addStatement statement)

/-- Reads lines in order, numbered from `line` on, stopping at the first error. -/
def addLines (listing : Listing) (line : Nat) : List (List Token) → Except AsmError Listing
  | [] => .ok listing
  | tokens :: rest => do
    let next ← listing.addLine line tokens
    next.addLines (line + 1) rest

/-- The significant tokens of a source, line by line. -/
def sourceLines (source : String) : List (List Token) :=
  ((Token.scan source).filter Token.isSignificant).splitOnP (·.kind == .newline)

/-- The first pass over a source. A source without the entry label is refused once all its
lines are read. -/
def parse (source : String) : Except AsmError Listing := do
  let listing ← ({} : Listing).addLines 1 (sourceLines source)
  if listing.entry?.isNone then throw .missingEntryPoint
  pure listing

end Listing

end ByteMachine
