import Mathlib
import ByteMachine.Clock
import ByteMachine.Proofs.Program.RoundTrip
import ByteMachine.Proofs.Assembly.OperandText
/-!
# Clock rates as text

A rate reads exactly as trimmed digits and a unit, with its errors in a fixed order, and a
written rate reads back (`clock_text_grammar_and_round_trip`). Its tick is always defined.
-/

set_option autoImplicit false

namespace ByteMachine

/-- The value of ASCII decimal digits, most significant first. -/
def Text.decimal (digits : List Char) : Nat := Nat.ofDigits 10 ((digits.map (·.toNat - 48)).reverse)

theorem Text.digitsValue_eq_decimal (digits : List Char) : digitsValue digits = decimal digits :=
  digitsValue_eq_ofDigits digits

namespace Clock

/-- The unit of a rate as the reader compares it: trimmed of blanks, in ASCII lower case. -/
def unitName (unit : List Char) : String := (String.ofList (Text.trimChars unit)).toLower

theorem ext_of {clock other : Clock} (speed : clock.speed = other.speed)
    (magnitude : clock.magnitude = other.magnitude) : clock = other := by
  obtain ⟨_, _, _, _⟩ := clock
  obtain ⟨_, _, _, _⟩ := other
  simp only at speed magnitude
  subst speed magnitude
  rfl

/-! ## Units -/

theorem ofName?_eq_some_iff {name : String} {magnitude : Magnitude} :
    Magnitude.ofName? name = some magnitude ↔ name = magnitude.suffix.toLower := by
  constructor
  · intro named
    unfold Magnitude.ofName? at named
    split at named <;> cases named <;> decide +kernel
  · rintro rfl
    cases magnitude <;> decide +kernel

theorem ofName?_eq_none_iff {name : String} :
    Magnitude.ofName? name = none ↔ ∀ magnitude : Magnitude, name ≠ magnitude.suffix.toLower := by
  simp only [← ofName?_eq_some_iff, ne_eq, Option.eq_none_iff_forall_ne_some]

/-! ## Where the number ends -/

section Split

variable {text : String} {digits unit : List Char}

theorem takeWhile_dropWhile_of_split (split : Text.trimChars text.toList = digits ++ unit)
    (numeral : ∀ c ∈ digits, c.isDigit) (stops : ∀ c ∈ unit.head?, c.isDigit = false) :
    (Text.trimChars text.toList).takeWhile Char.isDigit = digits ∧
      (Text.trimChars text.toList).dropWhile Char.isDigit = unit := by
  rw [split, List.takeWhile_append_of_pos numeral, List.dropWhile_append_of_pos numeral]
  cases unit with
  | nil => simp
  | cons c rest => simp [stops c rfl]

variable (split : Text.trimChars text.toList = digits ++ unit) (numeral : ∀ c ∈ digits, c.isDigit)
  (stops : ∀ c ∈ unit.head?, c.isDigit = false)
include split numeral stops

theorem parse_of_split :
    parse text =
      match Text.naturalOfDigits? digits with
      | some speed =>
        if hlt : speed < wordBound then
          match Magnitude.ofName? (unitName unit) with
          | some magnitude =>
            if hpos : 0 < speed then .ok ⟨speed, magnitude, hpos, hlt⟩ else .error .zeroRate
          | none => .error (.unknownUnit (unitName unit))
        else .error (.notANumber (String.ofList (digits ++ unit)))
      | none => .error (.notANumber (String.ofList (digits ++ unit))) := by
  obtain ⟨taken, dropped⟩ := takeWhile_dropWhile_of_split split numeral stops
  simp only [parse]
  rw [taken, dropped, split]
  rfl

theorem parse_of_not_number (missing : digits = [] ∨ 2 ^ 64 ≤ Text.decimal digits) :
    parse text = .error (.notANumber (String.ofList (digits ++ unit))) := by
  rw [parse_of_split split numeral stops]
  rcases missing with rfl | large
  · rfl
  · have nonempty : digits ≠ [] := by
      rintro rfl
      cases large
    have tooLarge : ¬ Text.decimal digits < wordBound := by
      simpa [wordBound, Text.wordBound] using large
    rw [Text.naturalOfDigits?_of_digits nonempty numeral, Text.digitsValue_eq_decimal]
    simp only [dif_neg tooLarge]

theorem parse_of_unknown_unit (nonempty : digits ≠ []) (below : Text.decimal digits < 2 ^ 64)
    (unknown : ∀ magnitude : Magnitude, unitName unit ≠ magnitude.suffix.toLower) :
    parse text = .error (.unknownUnit (unitName unit)) := by
  have fits : Text.decimal digits < wordBound := by simpa [wordBound, Text.wordBound] using below
  rw [parse_of_split split numeral stops, Text.naturalOfDigits?_of_digits nonempty numeral,
    Text.digitsValue_eq_decimal]
  simp only [dif_pos fits, ofName?_eq_none_iff.mpr unknown]

theorem parse_of_zero (nonempty : digits ≠ []) (zero : Text.decimal digits = 0)
    {magnitude : Magnitude} (known : unitName unit = magnitude.suffix.toLower) :
    parse text = .error .zeroRate := by
  rw [parse_of_split split numeral stops, Text.naturalOfDigits?_of_digits nonempty numeral,
    Text.digitsValue_eq_decimal, zero]
  simp only [dif_pos (show 0 < wordBound by decide), ofName?_eq_some_iff.mpr known,
    Nat.lt_irrefl, dite_false]

theorem parse_of_rate {magnitude : Magnitude} (positive : 0 < Text.decimal digits)
    (below : Text.decimal digits < wordBound) (known : unitName unit = magnitude.suffix.toLower) :
    parse text = .ok ⟨Text.decimal digits, magnitude, positive, below⟩ := by
  have nonempty : digits ≠ [] := by
    rintro rfl
    cases positive
  rw [parse_of_split split numeral stops, Text.naturalOfDigits?_of_digits nonempty numeral]
  simp only [Text.digitsValue_eq_decimal, dif_pos below, ofName?_eq_some_iff.mpr known,
    dif_pos positive]

end Split

theorem exists_split (text : String) :
    ∃ digits unit, Text.trimChars text.toList = digits ++ unit ∧ (∀ c ∈ digits, c.isDigit) ∧
      ∀ c ∈ unit.head?, c.isDigit = false := by
  refine ⟨_, _, List.takeWhile_append_dropWhile.symm, fun _ within => List.mem_takeWhile_imp within,
    fun c first => ?_⟩
  have stopped := List.head?_dropWhile_not Char.isDigit (Text.trimChars text.toList)
  rw [Option.mem_def.mp first] at stopped
  exact stopped

theorem parse_eq_ok_iff (text : String) (clock : Clock) :
    parse text = .ok clock ↔
      ∃ digits unit, Text.trimChars text.toList = digits ++ unit ∧ digits ≠ [] ∧
        (∀ c ∈ digits, c.isDigit) ∧ (∀ c ∈ unit.head?, c.isDigit = false) ∧
        1 ≤ Text.decimal digits ∧ Text.decimal digits ≤ 2 ^ 64 - 1 ∧
        clock.speed = Text.decimal digits ∧ unitName unit = clock.magnitude.suffix.toLower := by
  constructor
  · intro read
    obtain ⟨digits, unit, split, numeral, stops⟩ := exists_split text
    have number : digits ≠ [] ∧ Text.decimal digits < 2 ^ 64 := by
      by_contra missing
      rw [parse_of_not_number split numeral stops (by grind)] at read
      cases read
    obtain ⟨magnitude, known⟩ : ∃ magnitude : Magnitude, unitName unit = magnitude.suffix.toLower := by
      by_contra unknown
      simp only [not_exists] at unknown
      rw [parse_of_unknown_unit split numeral stops number.1 number.2 unknown] at read
      cases read
    have positive : 0 < Text.decimal digits := by
      by_contra zero
      rw [parse_of_zero split numeral stops number.1 (by omega) known] at read
      cases read
    have fits : Text.decimal digits < wordBound := by simpa [wordBound, Text.wordBound] using number.2
    rw [parse_of_rate split numeral stops positive fits known] at read
    cases read
    exact ⟨digits, unit, split, number.1, numeral, stops, positive, by omega, rfl, known⟩
  · rintro ⟨digits, unit, split, -, numeral, stops, positive, below, speed, known⟩
    have fits : Text.decimal digits < wordBound := by
      simp only [wordBound, Text.wordBound]
      omega
    rw [parse_of_rate split numeral stops positive fits known]
    exact congrArg Except.ok (ext_of speed.symm rfl)

/-! ## Writing a rate -/

theorem suffix_trim (magnitude : Magnitude) :
    Text.trimChars (' ' :: magnitude.suffix.toList) = magnitude.suffix.toList ∧
      (' ' :: magnitude.suffix.toList).getLast? = some 'z' := by
  cases magnitude <;> decide

theorem render_toList (clock : Clock) :
    clock.render.toList = Nat.toDigits 10 clock.speed ++ ' ' :: clock.magnitude.suffix.toList := by
  simp [render]

theorem parse_render (clock : Clock) : parse clock.render = .ok clock := by
  have numeral : ∀ c ∈ Nat.toDigits 10 clock.speed, c.isDigit := fun _ =>
    Text.isDigit_of_mem_toDigits
  have value : Text.decimal (Nat.toDigits 10 clock.speed) = clock.speed := by
    rw [← Text.digitsValue_eq_decimal, Text.digitsValue_eq_ofDigitChars,
      Nat.ofDigitChars_ten_toDigits]
  have trimmed : Text.trimChars clock.render.toList =
      Nat.toDigits 10 clock.speed ++ ' ' :: clock.magnitude.suffix.toList := by
    rw [render_toList]
    apply Text.trimChars_of_ends
    · rw [List.head?_append_of_ne_nil _ Nat.toDigits_ne_nil]
      exact fun c first => Text.isBlank_of_isDigit (numeral c (List.mem_of_mem_head? first))
    · rw [List.getLast?_append_of_ne_nil _ (List.cons_ne_nil _ _)]
      rw [(suffix_trim clock.magnitude).2]
      intro c last
      cases last
      decide
  have unit : unitName (' ' :: clock.magnitude.suffix.toList) = clock.magnitude.suffix.toLower := by
    rw [unitName, (suffix_trim clock.magnitude).1, String.ofList_toList]
  have positive : 0 < Text.decimal (Nat.toDigits 10 clock.speed) := by
    rw [value]
    exact clock.speed_pos
  have fits : Text.decimal (Nat.toDigits 10 clock.speed) < wordBound := by
    rw [value]
    exact clock.speed_lt
  rw [parse_of_rate trimmed numeral (by simp) positive fits unit]
  exact congrArg Except.ok (ext_of value rfl)

/-- Clock rates read exactly their grammar, and a written rate reads back. A text reads as a rate
exactly when, trimmed, it is a run of digits worth one to 2^64 - 1 and then text that does not
start with a digit and names the unit once trimmed and lower-cased. Otherwise the reader reports
a missing or too large number first, whatever the unit, then an unknown unit, whatever the
number's value, and last a zero rate. -/
theorem clock_text_grammar_and_round_trip :
    (∀ text clock, parse text = .ok clock ↔
      ∃ digits unit, Text.trimChars text.toList = digits ++ unit ∧ digits ≠ [] ∧
        (∀ c ∈ digits, c.isDigit) ∧ (∀ c ∈ unit.head?, c.isDigit = false) ∧
        1 ≤ Text.decimal digits ∧ Text.decimal digits ≤ 2 ^ 64 - 1 ∧
        clock.speed = Text.decimal digits ∧ unitName unit = clock.magnitude.suffix.toLower) ∧
      (∀ text digits unit, Text.trimChars text.toList = digits ++ unit →
        (∀ c ∈ digits, c.isDigit) → (∀ c ∈ unit.head?, c.isDigit = false) →
        ((digits = [] ∨ 2 ^ 64 ≤ Text.decimal digits) →
            parse text = .error (.notANumber (String.ofList (digits ++ unit)))) ∧
          (digits ≠ [] → Text.decimal digits < 2 ^ 64 →
            (∀ magnitude : Magnitude, unitName unit ≠ magnitude.suffix.toLower) →
            parse text = .error (.unknownUnit (unitName unit))) ∧
          (digits ≠ [] → Text.decimal digits = 0 →
            ∀ magnitude : Magnitude, unitName unit = magnitude.suffix.toLower →
            parse text = .error .zeroRate)) ∧
      ∀ clock, parse clock.render = .ok clock :=
  ⟨parse_eq_ok_iff, fun _ _ _ split numeral stops =>
    ⟨parse_of_not_number split numeral stops, parse_of_unknown_unit split numeral stops,
      fun nonempty zero _ known => parse_of_zero split numeral stops nonempty zero known⟩,
    parse_render⟩

/-! ## The tick -/

theorem factor_mem (magnitude : Magnitude) :
    magnitude.factor ∈ [1, 1000, 1000000, 1000000000] := by
  cases magnitude <;> decide

theorem tickNanos_eq_zero_iff (clock : Clock) : clock.tickNanos = 0 ↔ 1000000000 < clock.hertz := by
  have := one_le_hertz clock
  simp only [tickNanos, Nat.div_eq_zero_iff]
  omega

theorem hertz_saturating_tick (clock : Clock) :
    clock.hertz = min (clock.speed * clock.magnitude.factor) (Clock.wordBound - 1) ∧
      clock.magnitude.factor ∈ [1, 1000, 1000000, 1000000000] ∧
      1 ≤ clock.hertz ∧
      clock.tickNanos = 1000000000 / clock.hertz ∧
      (clock.tickNanos = 0 ↔ 1000000000 < clock.hertz) :=
  ⟨rfl, factor_mem clock.magnitude, one_le_hertz clock, rfl, tickNanos_eq_zero_iff clock⟩

end Clock

end ByteMachine
