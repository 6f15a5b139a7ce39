import ByteMachine.Text.Basic
import ByteMachine.Text.Hex
/-!
# Programs and their text

A program is the entry offset and the bytes of each instruction; its memory image is those
bytes in order. As text it is a data section with `START:` and `LENGTH:` headers, then a code
section of one line of hexadecimal digits per instruction. Reading is lenient where writing
is strict.
-/

set_option autoImplicit false

namespace ByteMachine

/-- An assembled program: the entry offset and the bytes of each instruction. -/
structure Program where
  start : UInt8
  instructions : List (List UInt8)
deriving DecidableEq, Repr

namespace Program

/-- The memory image: every instruction's bytes, in order. -/
def bytes (program : Program) : List UInt8 := program.instructions.flatten

def length (program : Program) : Nat := program.instructions.length

end Program

/-! ## Program text -/

/-- Why a text is not a program. -/
inductive LoadError where
  | missingStart
  | missingLength
  | missingCode
  /-- A line before the code section is neither a section name nor a well-formed header. -/
  | badHeader (line : Nat)
  /-- A line in the code section is not pairs of hexadecimal digits. -/
  | badHex (line : Nat)
  /-- The declared number of instructions differs from the number of code lines. -/
  | lengthMismatch (declared found : Nat)
deriving DecidableEq, Repr

def LoadError.message : LoadError → String
  | .missingStart => "program has no `START:` declaration"
  | .missingLength => "program has no `LENGTH:` declaration"
  | .missingCode => "program has no `.CODE` section"
  | .badHeader line => "line " ++ toString line ++ ": malformed header"
  | .badHex line => "line " ++ toString line ++ ": expected pairs of hex digits"
  | .lengthMismatch declared found =>
    "header declares " ++ toString declared ++ " instruction(s), found " ++ toString found

namespace Program

/-- The text of a program: the data section with the entry offset and the number of
instructions, an empty line, then the code section with each instruction in lower-case
digits. Every line ends in a newline. -/
def render (program : Program) : String :=
  ".DATA\nSTART: " ++ toString program.start.toNat ++ "\nLENGTH: " ++
    toString program.length ++ "\n\n.CODE\n" ++
    String.join (program.instructions.map fun bytes => Hex.encode bytes ++ "\n")

/-- What has been read of a program text so far. The code section, once it has begun, holds
the instructions read in it. -/
structure Reading where
  start : Option UInt8 := none
  length : Option Nat := none
  code : Option (List (List UInt8)) := none

/-- The characters of a header value after its key, if the line starts with the key. -/
def headerValue? (key : String) (line : List Char) : Option String :=
  if key.toList.isPrefixOf line then
    some (Text.trim (String.ofList (line.drop key.length)))
  else none

/-- Reads one line, numbered from one. -/
def Reading.line (reading : Reading) (number : Nat) (text : String) : Except LoadError Reading :=
  let trimmed := Text.trimChars text.toList
  if trimmed.isEmpty then .ok reading
  else
    match reading.code with
    | some instructions =>
      match Hex.decodeChars trimmed with
      | some bytes => .ok { reading with code := some (instructions ++ [bytes]) }
      | none => .error (.badHex number)
    | none =>
      if trimmed = ".CODE".toList then .ok { reading with code := some [] }
      else if trimmed = ".DATA".toList then .ok reading
      else
        match headerValue? "START:" trimmed with
        | some value =>
          match Text.readUnsigned? 256 value with
          | some start => .ok { reading with start := some start.toUInt8 }
          | none => .error (.badHeader number)
        | none =>
          match headerValue? "LENGTH:" trimmed with
          | some value =>
            match Text.readUnsigned? Text.wordBound value with
            | some length => .ok { reading with length := some length }
            | none => .error (.badHeader number)
          | none => .error (.badHeader number)

/-- The lines of a text: the pieces between line feeds. A final empty piece after a last line
feed is no line. -/
def lines (text : String) : List String :=
  (text.toList.splitOn '\n').map String.ofList

/-- Reads every line in order, numbered from one, stopping at the first error. -/
def readLines (reading : Reading) : Nat → List String → Except LoadError Reading
  | _, [] => .ok reading
  | number, line :: rest => do
    let next ← reading.line number line
    readLines next (number + 1) rest

/-- Reads a program text. After the lines, a missing entry offset is reported first, then a
missing length, then a missing code section, then a length that differs from the code. -/
def parse (text : String) : Except LoadError Program := do
  let reading ← readLines {} 1 (lines text)
  let some start := reading.start | throw .missingStart
  let some declared := reading.length | throw .missingLength
  let some instructions := reading.code | throw .missingCode
  if declared = instructions.length then
    pure ⟨start, instructions⟩
  else
    throw (.lengthMismatch declared instructions.length)

end Program

end ByteMachine
