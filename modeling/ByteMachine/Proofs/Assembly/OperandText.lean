import ByteMachine.Proofs.Assembly.Slices
/-!
# How the first pass reads operand text

The scanner fixes an operand's shape by its first characters and the first pass checks its
digits against a byte. A name is a register exactly when spelled as one, and a branch takes
exactly the other names (`pass_one_classifies_operand_text`).
-/

set_option autoImplicit false

namespace ByteMachine

/-- How a register is written: `d` or `D` for a data register, `a` or `A` for an address
register, then one or more ASCII decimal digits whose value is its index. -/
def Register.Spelled (register : Register) (text : String) : Prop :=
  ∃ letter digits, text.toList = letter :: digits ∧
    ((letter = 'd' ∨ letter = 'D') ∧ register.bank = .data ∨
      (letter = 'a' ∨ letter = 'A') ∧ register.bank = .address) ∧
    digits ≠ [] ∧ (∀ c ∈ digits, c.isDigit) ∧
    Nat.ofDigits 10 ((digits.map (·.toNat - 48)).reverse) = register.index.toNat

/-! ## Values of digit runs -/

namespace Text

theorem foldl_digitsValue (digits : List Char) (acc : Nat) :
    digits.foldl (fun acc c => acc * 10 + (c.toNat - 48)) acc =
      acc * 10 ^ digits.length + Nat.ofDigits 10 ((digits.map (·.toNat - 48)).reverse) := by
  induction digits generalizing acc with
  | nil => simp
  | cons c rest ih =>
    rw [List.foldl_cons, ih, List.map_cons, List.reverse_cons, Nat.ofDigits_append,
      List.length_reverse, List.length_map, List.length_cons, Nat.pow_succ,
      Nat.ofDigits_singleton]
    ring

theorem digitsValue_eq_ofDigits (digits : List Char) :
    digitsValue digits = Nat.ofDigits 10 ((digits.map (·.toNat - 48)).reverse) := by
  rw [digitsValue, foldl_digitsValue]
  simp

theorem naturalOfDigits?_of_digits {digits : List Char} (nonempty : digits ≠ [])
    (all : ∀ c ∈ digits, c.isDigit) : naturalOfDigits? digits = some (digitsValue digits) := by
  simp [naturalOfDigits?, nonempty, List.all_eq_true.mpr all]

theorem naturalOfDigits?_eq_some_iff {digits : List Char} {value : Nat} :
    naturalOfDigits? digits = some value ↔
      digits ≠ [] ∧ (∀ c ∈ digits, c.isDigit) ∧ digitsValue digits = value := by
  unfold naturalOfDigits?
  split
  · rename_i valid
    simp only [Option.some.injEq]
    exact ⟨fun same => ⟨valid.1, List.all_eq_true.mp valid.2, same⟩, fun read => read.2.2⟩
  · rename_i invalid
    simp only [reduceCtorEq, false_iff]
    exact fun read => invalid ⟨read.1, List.all_eq_true.mpr read.2.1⟩

theorem readSigned?_sign_digits (negative : Bool) {digits : List Char}
    (all : ∀ c ∈ digits, c.isDigit) :
    readSigned? (-128) 127 (String.ofList ((if negative then ['-'] else []) ++ digits)) =
      let value : Int := (if negative then -1 else 1) * digitsValue digits
      if digits ≠ [] ∧ -128 ≤ value ∧ value ≤ 127 then some value else none := by
  have unsigned : ∀ first rest, digits = first :: rest → first ≠ '-' ∧ first ≠ '+' := by
    rintro first rest rfl
    have digit := all first List.mem_cons_self
    constructor <;> rintro rfl <;> simp at digit
  by_cases empty : digits = []
  · subst empty
    cases negative <;> simp [readSigned?, naturalOfDigits?]
  · obtain ⟨first, rest, rfl⟩ := List.exists_cons_of_ne_nil empty
    obtain ⟨notMinus, notPlus⟩ := unsigned first rest rfl
    cases negative <;>
      simp [readSigned?, naturalOfDigits?_of_digits empty all, notMinus, notPlus]

end Text

namespace Hex

theorem foldlM_natural (digits : List Char) (all : ∀ c ∈ digits, isDigit c) (acc : Nat) :
    digits.foldlM (fun acc c => (digitValue? c).map (acc * 16 + ·)) acc =
      some (acc * 16 ^ digits.length +
        Nat.ofDigits 16 ((digits.map fun c => (digitValue? c).getD 0).reverse)) := by
  induction digits generalizing acc with
  | nil => simp
  | cons c rest ih =>
    obtain ⟨value, valued⟩ := Option.isSome_iff_exists.mp (all c List.mem_cons_self)
    simp only [List.foldlM_cons, valued, Option.map_some, Option.bind_eq_bind, Option.bind_some]
    rw [ih fun other within => all other (List.mem_cons_of_mem c within), List.map_cons,
      List.reverse_cons, Nat.ofDigits_append, List.length_reverse, List.length_map,
      List.length_cons, Nat.pow_succ, valued, Option.getD_some, Nat.ofDigits_singleton]
    congr 1
    ring

theorem natural?_of_digits {digits : List Char} (nonempty : digits ≠ [])
    (all : ∀ c ∈ digits, isDigit c) :
    natural? digits = some (Nat.ofDigits 16 ((digits.map fun c => (digitValue? c).getD 0).reverse)) := by
  simp [natural?, List.isEmpty_iff, nonempty, foldlM_natural digits all 0]

end Hex

/-! ## Register names -/

namespace Register

theorem index_toUInt8_iff (value : Nat) (index : UInt8) :
    (value < 256 ∧ value.toUInt8 = index) ↔ value = index.toNat := by
  constructor
  · rintro ⟨small, rfl⟩
    rw [Nat.toUInt8_eq, UInt8.toNat_ofNat']
    omega
  · rintro rfl
    exact ⟨index.toNat_lt, by simp⟩

theorem index_read_eq_some_iff (chosen : Bank) (digits : List Char) (register : Register) :
    ((Text.naturalOfDigits? digits).bind fun value =>
      if value < 256 then some (⟨chosen, value.toUInt8⟩ : Register) else none) = some register ↔
    register.bank = chosen ∧ digits ≠ [] ∧ (∀ c ∈ digits, c.isDigit) ∧
      Nat.ofDigits 10 ((digits.map (·.toNat - 48)).reverse) = register.index.toNat := by
  simp only [Option.bind_eq_some_iff, Text.naturalOfDigits?_eq_some_iff,
    Option.ite_none_right_eq_some, Option.some.injEq, ← Text.digitsValue_eq_ofDigits]
  constructor
  · rintro ⟨value, ⟨nonempty, all, rfl⟩, small, rfl⟩
    exact ⟨rfl, nonempty, all, (index_toUInt8_iff _ _).mp ⟨small, rfl⟩⟩
  · obtain ⟨bank, index⟩ := register
    rintro ⟨rfl, nonempty, all, valued⟩
    obtain ⟨small, byte⟩ := (index_toUInt8_iff _ _).mpr valued
    exact ⟨_, ⟨nonempty, all, rfl⟩, small, by rw [byte]⟩

theorem parse?_eq_some_iff (text : String) (register : Register) :
    parse? text = some register ↔ register.Spelled text := by
  unfold parse? Spelled
  cases spelled : text.toList with
  | nil => simp
  | cons letter digits =>
    simp only [List.cons.injEq, and_assoc, exists_and_left, exists_eq_left']
    split_ifs with isData isAddress
    · have notAddress : ¬ (letter = 'a' ∨ letter = 'A') := by
        rcases isData with rfl | rfl <;> decide
      simp only [Option.bind_eq_bind, Option.bind_some, index_read_eq_some_iff, isData, notAddress,
        true_and, false_and, or_false]
    · simp only [Option.bind_eq_bind, Option.bind_some, index_read_eq_some_iff, isData, isAddress,
        true_and, false_and, false_or]
    · simp [isData, isAddress]

end Register

/-! ## What the scanner gives an operand -/

namespace Token

theorem extent_immediate {first : Char} {rest : List Char}
    (immediate : (extent first rest).1 = .immediate) : first = '#' ∧ ∃ more, rest = '$' :: more := by
  have shape := kind_cases first rest
  simpa only [immediate, reduceCtorEq, false_and, false_or, or_false, true_and] using shape

theorem take_extent_immediate (more : List Char) :
    ∃ (negative : Bool) (digits : List Char),
      '#' :: ('$' :: more).take (extent '#' ('$' :: more)).2 =
        '#' :: '$' :: ((if negative then ['-'] else []) ++ digits) ∧ ∀ c ∈ digits, c.isDigit := by
  have digitsOnly : ∀ after : List Char, ∀ c ∈ after.takeWhile Char.isDigit, c.isDigit :=
    fun after c within => List.mem_takeWhile_imp within
  rcases more with _ | ⟨first, after⟩
  · exact ⟨false, [], by simp [extent, isLineBlank], by simp⟩
  · by_cases minus : first = '-'
    · subst minus
      refine ⟨true, after.takeWhile Char.isDigit, ?_, digitsOnly after⟩
      simp [extent, isLineBlank]
      rw [Nat.add_comm, List.take_succ_cons, List.take_succ_cons, take_length_takeWhile]
    · refine ⟨false, (first :: after).takeWhile Char.isDigit, ?_, digitsOnly _⟩
      simp [extent, isLineBlank, minus]
      rw [Nat.add_comm, List.take_succ_cons, take_length_takeWhile]

theorem exists_extent_of_mem_scanFrom {input : List Char} {offset : Nat} {token : Token}
    (scanned : token ∈ scanFrom input offset) :
    ∃ first rest, token.kind = (extent first rest).1 ∧
      token.text.toList = first :: rest.take (extent first rest).2 := by
  fun_induction scanFrom input offset with
  | case1 => cases scanned
  | case2 offset first rest kind count extended text size ih =>
    rcases List.mem_cons.mp scanned with rfl | later
    · exact ⟨first, rest, by rw [extended], by simp [text, extended]⟩
    · exact ih later

variable {source : String} {token : Token}

theorem immediate_text_of_mem_scan (scanned : token ∈ scan source)
    (immediate : token.kind = .immediate) :
    ∃ (negative : Bool) (digits : List Char),
      token.text.toList = '#' :: '$' :: ((if negative then ['-'] else []) ++ digits) ∧
        ∀ c ∈ digits, c.isDigit := by
  obtain ⟨first, rest, kind, text⟩ := exists_extent_of_mem_scanFrom scanned
  obtain ⟨rfl, more, rfl⟩ := extent_immediate (kind ▸ immediate)
  rw [text]
  exact take_extent_immediate more

theorem memory_text_of_mem_scan (scanned : token ∈ scan source) (memory : token.kind = .memory) :
    ∃ marker hex, token.text.toList = '0' :: marker :: hex ∧ (marker = 'x' ∨ marker = 'X') ∧
      ∀ c ∈ hex, Hex.isDigit c := by
  obtain ⟨first, rest, kind, text⟩ := exists_extent_of_mem_scanFrom scanned
  obtain ⟨rfl, marker, more, rfl, isMarker, counted⟩ := extent_memory (kind ▸ memory)
  refine ⟨marker, more.takeWhile Hex.isDigit, ?_, isMarker,
    fun c within => List.mem_takeWhile_imp within⟩
  rw [text, counted, Nat.add_comm, List.take_succ_cons, take_length_takeWhile]

/-! ## What the first pass makes of an operand -/

variable {line : Nat}

theorem toOperand_immediate {negative : Bool} {digits : List Char}
    (immediate : token.kind = .immediate)
    (text : token.text.toList = '#' :: '$' :: ((if negative then ['-'] else []) ++ digits))
    (all : ∀ c ∈ digits, c.isDigit) :
    let value : Int :=
      (if negative then -1 else 1) * (Nat.ofDigits 10 ((digits.map (·.toNat - 48)).reverse) : Nat)
    token.toOperand line =
      if digits ≠ [] ∧ -128 ≤ value ∧ value ≤ 127 then .ok ⟨.number, (value % 256).toNat.toUInt8⟩
      else .error (token.invalid line .immediateRange) := by
  have read := Text.readSigned?_sign_digits negative all
  rw [Text.digitsValue_eq_ofDigits] at read
  have afterSign : token.afterPrefix = (if negative then ['-'] else []) ++ digits := by
    simp [afterPrefix, text]
  unfold toOperand
  simp only [immediate, afterSign, read]
  split_ifs <;> rfl

theorem toOperand_memory {marker : Char} {hex : List Char} (memory : token.kind = .memory)
    (text : token.text.toList = '0' :: marker :: hex) (all : ∀ c ∈ hex, Hex.isDigit c) :
    let address := Nat.ofDigits 16 ((hex.map fun c => (Hex.digitValue? c).getD 0).reverse)
    token.toOperand line =
      if hex ≠ [] ∧ address ≤ 255 then .ok ⟨.memory, address.toUInt8⟩
      else .error (token.invalid line .memoryRange) := by
  intro address
  have digits : token.afterPrefix = hex := by simp [afterPrefix, text]
  unfold toOperand
  rw [memory, digits]
  by_cases empty : hex = []
  · subst empty
    simp [Hex.natural?]
  · have natural : Hex.natural? hex = some address := Hex.natural?_of_digits empty all
    rw [natural]
    by_cases small : address ≤ 255
    · simp [empty, small, show address < 256 by omega]
    · simp [empty, small, show ¬ address < 256 by omega]

theorem toOperand_register {register : Register} (ident : token.kind = .ident)
    (spelled : register.Spelled token.text) : token.toOperand line = .ok register.toOperand := by
  simp [toOperand, ident, (Register.parse?_eq_some_iff _ _).mpr spelled]

theorem toOperand_not_register (ident : token.kind = .ident)
    (unspelled : ∀ register : Register, ¬ register.Spelled token.text) :
    token.toOperand line = .error (token.invalid line .notAnOperand) := by
  have none : Register.parse? token.text = none :=
    Option.eq_none_iff_forall_ne_some.mpr fun register parsed =>
      unspelled register ((Register.parse?_eq_some_iff _ _).mp parsed)
  simp [toOperand, ident, none]

theorem toLabel_eq_ok_iff :
    token.toLabel line = .ok token.text ↔
      token.kind = .ident ∧ ∀ register : Register, ¬ register.Spelled token.text := by
  have none_iff : Register.parse? token.text = none ↔
      ∀ register : Register, ¬ register.Spelled token.text := by
    rw [Option.eq_none_iff_forall_ne_some]
    exact forall_congr' fun register => not_congr (Register.parse?_eq_some_iff _ _)
  unfold toLabel
  split
  · rename_i taken
    simp only [true_iff]
    exact ⟨taken.1, none_iff.mp taken.2⟩
  · rename_i refused
    simp only [reduceCtorEq, false_iff]
    exact fun ⟨ident, unspelled⟩ => refused ⟨ident, none_iff.mpr unspelled⟩

theorem toLabel_of_not_ok (refused : token.toLabel line ≠ .ok token.text) :
    token.toLabel line = .error (token.invalid line .notALabel) := by
  unfold toLabel at refused ⊢
  split
  · rename_i taken
    simp [taken] at refused
  · rfl

end Token

namespace Listing

theorem defineLabel_registerLabel_iff (listing : Listing) (line : Nat) {label : Token}
    {name : String} (named : label.text.toList = name.toList ++ [':']) :
    (∃ span, listing.defineLabel line label = .error (.registerLabel line name span)) ↔
      ∃ register : Register, register.Spelled name := by
  have dropped : String.ofList label.text.toList.dropLast = name := by
    rw [named, List.dropLast_concat, String.ofList_toList]
  have some_iff : (Register.parse? name).isSome ↔ ∃ register : Register, register.Spelled name := by
    rw [Option.isSome_iff_exists]
    exact exists_congr fun register => Register.parse?_eq_some_iff _ _
  unfold defineLabel
  simp only [dropped]
  split
  · rename_i register
    exact ⟨fun _ => some_iff.mp register, fun _ => ⟨_, rfl⟩⟩
  · rename_i notRegister
    refine ⟨?_, fun spelled => absurd (some_iff.mpr spelled) notRegister⟩
    rintro ⟨span, refused⟩
    split at refused <;> cases refused

end Listing


open Token in
/-- The first pass classifies operand text exactly. Every token of every line of a source reads
as follows. An immediate is `#$`, a minus or not, and decimal digits; it is the number whose
byte is its value modulo 256 when there are digits and the value lies from -128 to 127, and an
invalid operand otherwise. A memory cell is `0x` or `0X` and hexadecimal digits of either case;
it is the cell of their value when there are digits and the value is at most 255, and an invalid
operand otherwise. A name spelled as a register is that register and no branch target; any
other name is an invalid operand but a branch target. Immediates and memory cells are never
branch targets. A name is read as a register exactly when it is spelled as one, and the same
test refuses it as a label, so a name can be defined as a label exactly when a branch can name
it. -/
theorem pass_one_classifies_operand_text (source : String) :
    (∀ tokens ∈ Listing.sourceLines source, ∀ token ∈ tokens, ∀ line,
      (token.kind = .immediate → ∃ (negative : Bool) (digits : List Char),
        token.text.toList = '#' :: '$' :: ((if negative then ['-'] else []) ++ digits) ∧
        (∀ c ∈ digits, c.isDigit) ∧
        (let value : Int :=
          (if negative then -1 else 1) * (Nat.ofDigits 10 ((digits.map (·.toNat - 48)).reverse) : Nat)
        token.toOperand line =
          if digits ≠ [] ∧ -128 ≤ value ∧ value ≤ 127 then .ok ⟨.number, (value % 256).toNat.toUInt8⟩
          else .error (token.invalid line .immediateRange)) ∧
        token.toLabel line = .error (token.invalid line .notALabel)) ∧
      (token.kind = .memory → ∃ marker hex, token.text.toList = '0' :: marker :: hex ∧
        (marker = 'x' ∨ marker = 'X') ∧ (∀ c ∈ hex, Hex.isDigit c) ∧
        (let address := Nat.ofDigits 16 ((hex.map fun c => (Hex.digitValue? c).getD 0).reverse)
        token.toOperand line =
          if hex ≠ [] ∧ address ≤ 255 then .ok ⟨.memory, address.toUInt8⟩
          else .error (token.invalid line .memoryRange)) ∧
        token.toLabel line = .error (token.invalid line .notALabel)) ∧
      (token.kind = .ident →
        (∀ register : Register, register.Spelled token.text →
          token.toOperand line = .ok register.toOperand ∧
            token.toLabel line = .error (token.invalid line .notALabel)) ∧
        ((∀ register : Register, ¬ register.Spelled token.text) →
          token.toOperand line = .error (token.invalid line .notAnOperand) ∧
            token.toLabel line = .ok token.text))) ∧
    (∀ text register, Register.parse? text = some register ↔ register.Spelled text) ∧
    ∀ (listing : Listing) line referenceLine (label reference : Token),
      label.text.toList = reference.text.toList ++ [':'] → reference.kind = .ident →
      ((∃ span, listing.defineLabel line label = .error (.registerLabel line reference.text span)) ↔
        ∃ error, reference.toLabel referenceLine = .error error) := by
  refine ⟨fun tokens lined token within line => ?_, Register.parse?_eq_some_iff,
    fun listing line referenceLine label reference named ident => ?_⟩
  · have scanned := Listing.mem_scan_of_mem_sourceLines lined within
    have notTarget : token.kind ≠ .ident → token.toLabel line = .error (token.invalid line .notALabel) :=
      fun notIdent => toLabel_of_not_ok fun taken => notIdent (toLabel_eq_ok_iff.mp taken).1
    refine ⟨fun immediate => ?_, fun memory => ?_, fun ident => ?_⟩
    · obtain ⟨negative, digits, text, all⟩ := immediate_text_of_mem_scan scanned immediate
      exact ⟨negative, digits, text, all, toOperand_immediate immediate text all,
        notTarget (by rw [immediate]; decide)⟩
    · obtain ⟨marker, hex, text, isMarker, all⟩ := memory_text_of_mem_scan scanned memory
      exact ⟨marker, hex, text, isMarker, all, toOperand_memory memory text all,
        notTarget (by rw [memory]; decide)⟩
    · refine ⟨fun register spelled => ⟨toOperand_register ident spelled, ?_⟩,
        fun unspelled => ⟨toOperand_not_register ident unspelled,
          toLabel_eq_ok_iff.mpr ⟨ident, unspelled⟩⟩⟩
      exact toLabel_of_not_ok fun taken => (toLabel_eq_ok_iff.mp taken).2 register spelled
  · rw [Listing.defineLabel_registerLabel_iff listing line named]
    constructor
    · rintro ⟨register, spelled⟩
      exact ⟨_, toLabel_of_not_ok fun taken => (toLabel_eq_ok_iff.mp taken).2 register spelled⟩
    · rintro ⟨error, refused⟩
      by_contra unspelled
      rw [toLabel_eq_ok_iff.mpr ⟨ident, fun register spelled => unspelled ⟨register, spelled⟩⟩]
        at refused
      cases refused

end ByteMachine
