import ByteMachine.Assembly.Span
import ByteMachine.Text.Hex
/-!
# Tokens

Source is cut into tokens, each decided by its first character: comments, line feeds, blank
runs, commas, immediates after `#$`, memory cells after `0x`, names and label definitions, and
single characters no rule accepts. The tokens' texts give the source back (`join_text_scan`).
-/

set_option autoImplicit false

namespace ByteMachine

inductive TokenKind where
  | ident
  | label
  | immediate
  | memory
  | comma
  | comment
  | blank
  | newline
  | unknown
deriving DecidableEq, Repr

/-- A token: its kind, its text and where it stands in the source. -/
structure Token where
  kind : TokenKind
  text : String
  span : Span
deriving DecidableEq, Repr

namespace Token

/-- A blank inside a line; line feeds are tokens of their own. -/
def isLineBlank (c : Char) : Bool := c == ' ' || c == '\t' || c == '\r'

/-- A character that may start a name: an ASCII letter or `_`. Digits start names too. -/
def isNameStart (c : Char) : Bool := c.isAlpha || c == '_'

/-- A character that may continue a name: an ASCII letter, digit, `_` or `.`, since
mnemonics such as `move.b` hold a dot. -/
def isNameChar (c : Char) : Bool := c.isAlphanum || c == '_' || c == '.'

/-- A name and, if a `:` follows it, the label it defines: the kind and the number of
characters taken after the first. -/
def nameExtent (rest : List Char) : TokenKind × Nat :=
  let length := (rest.takeWhile isNameChar).length
  match rest.drop length with
  | ':' :: _ => (.label, length + 1)
  | _ => (.ident, length)

/-- The kind of the token that starts with `first`, and how many of the characters after it
belong to the token too. -/
def extent (first : Char) (rest : List Char) : TokenKind × Nat :=
  if first = ';' then (.comment, (rest.takeWhile (· != '\n')).length)
  else if first = '\n' then (.newline, 0)
  else if isLineBlank first then (.blank, (rest.takeWhile isLineBlank).length)
  else if first = ',' then (.comma, 0)
  else if first = '#' then
    match rest with
    | '$' :: more =>
      let sign := match more with
        | '-' :: _ => 1
        | _ => 0
      (.immediate, 1 + sign + ((more.drop sign).takeWhile Char.isDigit).length)
    | _ => (.unknown, 0)
  else if first = '0' then
    match rest with
    | marker :: more =>
      if marker = 'x' ∨ marker = 'X' then (.memory, 1 + (more.takeWhile Hex.isDigit).length)
      else nameExtent rest
    | [] => nameExtent rest
  else if isNameStart first ∨ first.isDigit then nameExtent rest
  else (.unknown, 0)

/-- The tokens of a text whose first byte stands at `offset` in the source. -/
def scanFrom (chars : List Char) (offset : Nat) : List Token :=
  match chars with
  | [] => []
  | first :: rest =>
    let (kind, count) := extent first rest
    let text := first :: rest.take count
    let size := byteLength text
    ⟨kind, String.ofList text, ⟨offset, size⟩⟩ :: scanFrom (rest.drop count) (offset + size)
termination_by chars.length
decreasing_by simp only [List.length_drop, List.length_cons]; omega

def scan (source : String) : List Token := scanFrom source.toList 0

/-- Tokens that carry meaning: all but blanks and comments. -/
def isSignificant (token : Token) : Bool :=
  token.kind != .blank && token.kind != .comment

/-- Tokens that may stand as an operand: names, immediates and memory cells. -/
def isOperand (token : Token) : Bool :=
  token.kind == .ident || token.kind == .immediate || token.kind == .memory

theorem join_text_scanFrom (chars : List Char) (offset : Nat) :
    ((scanFrom chars offset).map (·.text.toList)).flatten = chars := by
  fun_induction scanFrom chars offset with
  | case1 => rfl
  | case2 offset first rest kind count hextent text size ih =>
    simp [text, ih]

theorem join_text_scan (source : String) :
    ((scan source).map (·.text.toList)).flatten = source.toList :=
  join_text_scanFrom source.toList 0

end Token

end ByteMachine
