/-!
# Blanks and decimal numerals

Header values, operands and clock rates are read after trimming Unicode blanks from both
ends; their numbers are an optional sign and ASCII digits, out of range meaning no number.
-/

set_option autoImplicit false

namespace ByteMachine.Text

/-! ## Blank characters -/

/-- The code points of `White_Space`: tab to carriage return, space, next line, no-break
space, ogham space mark, the spaces from en quad to hair space, line and paragraph separator,
narrow no-break space, medium mathematical space and ideographic space. -/
def isBlank (c : Char) : Bool :=
  let n := c.toNat
  (0x09 ≤ n && n ≤ 0x0D) || n == 0x20 || n == 0x85 || n == 0xA0 || n == 0x1680 ||
    (0x2000 ≤ n && n ≤ 0x200A) || n == 0x2028 || n == 0x2029 || n == 0x202F ||
    n == 0x205F || n == 0x3000

/-- The characters left after dropping blanks from both ends. -/
def trimChars (cs : List Char) : List Char :=
  ((cs.dropWhile isBlank).reverse.dropWhile isBlank).reverse

/-- A text without its leading and trailing blanks. -/
def trim (text : String) : String := String.ofList (trimChars text.toList)

theorem isBlank_of_isWhitespace (c : Char) (h : c.isWhitespace = true) : isBlank c = true := by
  simp only [Char.isWhitespace, Bool.or_eq_true, decide_eq_true_eq] at h
  rcases h with ((h | h) | h) | h <;> subst h <;> decide

example : trim " START: 1 " = "START: 1" := by decide +kernel
example : [0x85, 0xA0, 0x1680, 0x2003, 0x202F, 0x3000].all (fun n => isBlank (Char.ofNat n)) ∧
    [0x200B, 0xFEFF, 0x180E].any (fun n => isBlank (Char.ofNat n)) = false := by decide

/-! ## Decimal numerals -/

/-- The bound of unsigned 64-bit counts, 2^64: headers and clock rates stay below it. -/
def wordBound : Nat := 18446744073709551616

/-- The value of a run of ASCII decimal digits, most significant first. -/
def digitsValue (digits : List Char) : Nat :=
  digits.foldl (fun acc c => acc * 10 + (c.toNat - 48)) 0

/-- A non-empty run of ASCII decimal digits, and its value. -/
def naturalOfDigits? (digits : List Char) : Option Nat :=
  if digits ≠ [] ∧ digits.all Char.isDigit then some (digitsValue digits) else none

/-- Reads an unsigned number below `bound`: an optional `+`, then one or more ASCII
digits. -/
def readUnsigned? (bound : Nat) (text : String) : Option Nat :=
  let digits := match text.toList with
    | '+' :: rest => rest
    | cs => cs
  match naturalOfDigits? digits with
  | some value => if value < bound then some value else none
  | none => none

/-- Reads a signed number between `low` and `high`: an optional `+` or `-`, then one or more
ASCII digits. -/
def readSigned? (low high : Int) (text : String) : Option Int :=
  let (negative, digits) := match text.toList with
    | '-' :: rest => (true, rest)
    | '+' :: rest => (false, rest)
    | cs => (false, cs)
  match naturalOfDigits? digits with
  | some magnitude =>
    let value : Int := if negative then -(magnitude : Int) else magnitude
    if low ≤ value ∧ value ≤ high then some value else none
  | none => none

example : readUnsigned? 256 "+007" = some 7 ∧ readUnsigned? 256 "256" = none ∧
    readUnsigned? 256 "+" = none ∧ readUnsigned? 256 "-1" = none := by decide
example : readSigned? (-128) 127 "-128" = some (-128) ∧ readSigned? (-128) 127 "128" = none ∧
    readSigned? (-128) 127 "-" = none := by decide

end ByteMachine.Text
