/-!
# Hexadecimal text

Bytes are written as two lower-case hexadecimal digits each and read back from digits of either
case (`decode?_encode`).
-/

set_option autoImplicit false

namespace ByteMachine.Hex

/-- The lower-case digit of a value below sixteen. -/
def digit (value : Nat) : Char :=
  if value < 10 then Char.ofNat (48 + value) else Char.ofNat (87 + value)

/-- The value of an ASCII hexadecimal digit of either case. -/
def digitValue? (c : Char) : Option Nat :=
  if '0' ≤ c ∧ c ≤ '9' then some (c.toNat - 48)
  else if 'a' ≤ c ∧ c ≤ 'f' then some (c.toNat - 87)
  else if 'A' ≤ c ∧ c ≤ 'F' then some (c.toNat - 55)
  else none

def isDigit (c : Char) : Bool := (digitValue? c).isSome

/-- The value of a non-empty run of hexadecimal digits, most significant first. -/
def natural? (digits : List Char) : Option Nat :=
  if digits.isEmpty then none
  else digits.foldlM (fun acc c => (digitValue? c).map (acc * 16 + ·)) 0

/-- The digits of a number in base sixteen, most significant first, with no leading zero. -/
def natDigits (value : Nat) : List Char :=
  if value < 16 then [digit value] else natDigits (value / 16) ++ [digit (value % 16)]

/-- The digits of a number, padded with zeros on the left to at least `width` digits. -/
def padded (width value : Nat) : String :=
  let ds := natDigits value
  String.ofList (List.replicate (width - ds.length) '0' ++ ds)

/-- The two lower-case digits of a byte, high digit first. -/
def byteChars (b : UInt8) : List Char := [digit (b.toNat / 16), digit (b.toNat % 16)]

/-- A byte as exactly two lower-case digits. -/
def byte (b : UInt8) : String := String.ofList (byteChars b)

/-- A number as `0x` followed by at least two lower-case digits, the form codes take in
messages. -/
def prefixed (value : Nat) : String := "0x" ++ padded 2 value

/-- Bytes as text, two digits each. -/
def encode (bytes : List UInt8) : String := String.ofList (bytes.flatMap byteChars)

/-- Reads pairs of digits into bytes; an odd count or any other character is refused. -/
def decodeChars : List Char → Option (List UInt8)
  | [] => some []
  | [_] => none
  | high :: low :: rest => do
    let h ← digitValue? high
    let l ← digitValue? low
    let bytes ← decodeChars rest
    pure ((h * 16 + l).toUInt8 :: bytes)

/-- Reads text written as pairs of hexadecimal digits. -/
def decode? (text : String) : Option (List UInt8) := decodeChars text.toList

theorem digitValue?_digit (value : Nat) (h : value < 16) : digitValue? (digit value) = some value := by
  have : value < 10 ∨ 10 ≤ value := by omega
  rcases this with h10 | h10
  · have : value = 0 ∨ value = 1 ∨ value = 2 ∨ value = 3 ∨ value = 4 ∨ value = 5 ∨
        value = 6 ∨ value = 7 ∨ value = 8 ∨ value = 9 := by omega
    rcases this with rfl | rfl | rfl | rfl | rfl | rfl | rfl | rfl | rfl | rfl <;> decide
  · have : value = 10 ∨ value = 11 ∨ value = 12 ∨ value = 13 ∨ value = 14 ∨ value = 15 := by
      omega
    rcases this with rfl | rfl | rfl | rfl | rfl | rfl <;> decide

theorem decodeChars_byteChars (bytes : List UInt8) :
    decodeChars (bytes.flatMap byteChars) = some bytes := by
  induction bytes with
  | nil => rfl
  | cons b rest ih =>
    have hb := b.toNat_lt
    simp only [List.flatMap_cons, byteChars, List.cons_append, List.nil_append, decodeChars,
      digitValue?_digit _ (show b.toNat / 16 < 16 by omega),
      digitValue?_digit _ (show b.toNat % 16 < 16 by omega), ih, Option.pure_def,
      Option.bind_eq_bind, Option.bind_some]
    congr
    rw [show b.toNat / 16 * 16 + b.toNat % 16 = b.toNat by omega]
    simp

theorem decode?_encode (bytes : List UInt8) : decode? (encode bytes) = some bytes := by
  simp only [decode?, encode, String.toList_ofList, decodeChars_byteChars]

example : encode [0x07, 0x03, 0xab] = "0703ab" := by decide +kernel
example : prefixed 15 = "0x0f" ∧ prefixed 256 = "0x100" := by decide +kernel
example : natural? "0ff".toList = some 255 ∧ natural? [] = none ∧ natural? "g".toList = none := by
  decide
example : decode? "0A1b" = some [0x0a, 0x1b] ∧ decode? "abc" = none := by decide

end ByteMachine.Hex
