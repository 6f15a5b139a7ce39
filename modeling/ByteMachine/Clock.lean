import ByteMachine.Text.Basic
/-!
# Clock rates

A clock rate paces a run in wall-clock time and never changes what a program computes. It is a
whole number and a unit, above zero and below 2^64, so the tick is always defined
(`one_le_hertz`).
-/

set_option autoImplicit false

namespace ByteMachine

/-- The unit of a clock rate. -/
inductive Magnitude where
  | hz
  | khz
  | mhz
  | ghz
deriving DecidableEq, Repr

namespace Magnitude

/-- Cycles per second in one step of the unit. -/
def factor : Magnitude → Nat
  | .hz => 1
  | .khz => 1000
  | .mhz => 1000000
  | .ghz => 1000000000

def suffix : Magnitude → String
  | .hz => "Hz"
  | .khz => "kHz"
  | .mhz => "MHz"
  | .ghz => "GHz"

/-- The unit named in lower case. -/
def ofName? : String → Option Magnitude
  | "hz" => some .hz
  | "khz" => some .khz
  | "mhz" => some .mhz
  | "ghz" => some .ghz
  | _ => none

end Magnitude

/-- The bound of a rate's number, 2^64; frequencies stay below it too. -/
def Clock.wordBound : Nat := Text.wordBound

/-- A clock rate: a positive whole number of units, below `Clock.wordBound`. -/
structure Clock where
  speed : Nat
  magnitude : Magnitude
  speed_pos : 0 < speed
  speed_lt : speed < Clock.wordBound

/-- Why a text is not a clock rate. -/
inductive ClockError where
  /-- The trimmed text does not begin with a number of ASCII digits below 2^64. -/
  | notANumber (text : String)
  /-- The unit, trimmed and lower-cased, is none of `hz`, `khz`, `mhz`, `ghz`. -/
  | unknownUnit (unit : String)
  /-- The number is zero. -/
  | zeroRate
deriving DecidableEq, Repr

def ClockError.message : ClockError → String
  | .notANumber text => "`" ++ text ++ "` does not start with a whole number"
  | .unknownUnit unit => "unknown unit `" ++ unit ++ "`, expected hz, khz, mhz or ghz"
  | .zeroRate => "clock rate must be above zero"

namespace Clock

/-- The rate of `speed` units, if `speed` is positive and below the bound. -/
def new? (speed : Nat) (magnitude : Magnitude) : Option Clock :=
  if h : 0 < speed ∧ speed < wordBound then some ⟨speed, magnitude, h.1, h.2⟩ else none

/-- Cycles per second, at most the largest 64-bit count. -/
def hertz (clock : Clock) : Nat := min (clock.speed * clock.magnitude.factor) (wordBound - 1)

/-- Whole nanoseconds between two steps; zero above one gigahertz. -/
def tickNanos (clock : Clock) : Nat := 1000000000 / clock.hertz

/-- The rate as text: the number, a space, the unit. -/
def render (clock : Clock) : String := toString clock.speed ++ " " ++ clock.magnitude.suffix

/-- Reads a rate. Blanks around the text are ignored; the text starts with ASCII digits, and
the rest, trimmed and in any ASCII case, is the unit. -/
def parse (text : String) : Except ClockError Clock :=
  let trimmed := Text.trimChars text.toList
  let digits := trimmed.takeWhile Char.isDigit
  let unit := String.ofList (Text.trimChars (trimmed.dropWhile Char.isDigit)) |>.map Char.toLower
  match Text.naturalOfDigits? digits with
  | some speed =>
    if hlt : speed < wordBound then
      match Magnitude.ofName? unit with
      | some magnitude =>
        if hpos : 0 < speed then .ok ⟨speed, magnitude, hpos, hlt⟩ else .error .zeroRate
      | none => .error (.unknownUnit unit)
    else .error (.notANumber (String.ofList trimmed))
  | none => .error (.notANumber (String.ofList trimmed))

theorem one_le_hertz (clock : Clock) : 1 ≤ clock.hertz := by
  have hf : 1 ≤ clock.magnitude.factor := by cases clock.magnitude <;> decide
  have := Nat.mul_le_mul clock.speed_pos hf
  simp only [hertz, wordBound, Text.wordBound]
  omega

end Clock

end ByteMachine
