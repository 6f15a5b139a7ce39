import Mathlib
import ByteMachine.Isa.Lookup
/-!
# Which texts name an operation

A mnemonic in any ASCII case or a code as two hexadecimal digits, and no other text, names an
operation (`lookup_accepts_names_and_codes`).
-/

set_option autoImplicit false

namespace ByteMachine.Opcode

/-- A text names an operation: in ASCII lower case it is the operation's mnemonic, or it is
exactly two ASCII hexadecimal digits, of either case, whose value is the operation's code. -/
def Names (text : String) (op : Opcode) : Prop :=
  text.toLower = op.mnemonic ∨
    ∃ high low h l, text.toList = [high, low] ∧ Hex.digitValue? high = some h ∧
      Hex.digitValue? low = some l ∧ h * 16 + l = op.code.toNat

/-! ## Case folding and digits -/

theorem toLower_eq_self_or_capital (c : Char) :
    c.toLower = c ∨ ∃ n, 65 ≤ n ∧ n ≤ 90 ∧ c = Char.ofNat n := by
  unfold Char.toLower
  split
  next capital =>
    right
    refine ⟨c.toNat, ?_, ?_, (Char.ofNat_toNat c).symm⟩
    · exact capital.1
    · exact capital.2
  next => exact .inl rfl

theorem digitValue?_toLower (c : Char) : Hex.digitValue? c.toLower = Hex.digitValue? c := by
  rcases toLower_eq_self_or_capital c with same | ⟨n, low, high, rfl⟩
  · rw [same]
  · have capitals : ∀ n ∈ List.range' 65 26,
        Hex.digitValue? (Char.ofNat n).toLower = Hex.digitValue? (Char.ofNat n) := by
      decide
    exact capitals n (List.mem_range'_1.mpr ⟨low, by omega⟩)

theorem digitValue?_lt {c : Char} {value : Nat} (read : Hex.digitValue? c = some value) :
    value < 16 := by
  unfold Hex.digitValue? at read
  split_ifs at read with decimal lower upper <;> cases read
  · have : c.toNat ≤ 57 := decimal.2
    omega
  · have : c.toNat ≤ 102 := lower.2
    omega
  · have : c.toNat ≤ 70 := upper.2
    omega

/-! ## The tables -/

theorem ofMnemonic?_eq_some_iff {name : String} {op : Opcode} :
    ofMnemonic? name = some op ↔ op.mnemonic = name := by
  constructor
  · intro found
    simpa using List.find?_some found
  · rintro rfl
    exact ofMnemonic?_mnemonic op

theorem ofCode?_eq_some_iff {code : UInt8} {op : Opcode} : ofCode? code = some op ↔ op.code = code :=
  ⟨code_ofCode?, fun named => named ▸ ofCode?_code op⟩

theorem length_mnemonic (op : Opcode) : 3 ≤ op.mnemonic.toList.length := by
  cases op with
  | arithmetic a => cases a <;> decide
  | adjust a => cases a <;> decide
  | branch c => cases c <;> decide
  | _ => decide

theorem mnemonic_nodup : (all.map mnemonic).Nodup := by decide

theorem ofHexDigits?_toLower_eq_some_iff {text : String} {code : UInt8} :
    ofHexDigits? text.toLower = some code ↔
      ∃ high low h l, text.toList = [high, low] ∧ Hex.digitValue? high = some h ∧
        Hex.digitValue? low = some l ∧ (h * 16 + l).toUInt8 = code := by
  unfold ofHexDigits?
  rw [String.toLower, String.toList_map]
  rcases shape : text.toList with _ | ⟨high, _ | ⟨low, _ | ⟨third, rest⟩⟩⟩
  all_goals simp only [List.map_nil, List.map_cons, reduceCtorEq, false_and, List.cons.injEq,
    and_false, exists_false]
  simp only [digitValue?_toLower, Option.pure_def, Option.bind_eq_bind, Option.bind_eq_some_iff,
    Option.some.injEq, and_true]
  constructor
  · rintro ⟨h, readHigh, l, readLow, rfl⟩
    exact ⟨high, low, h, l, ⟨rfl, rfl⟩, readHigh, readLow, rfl⟩
  · rintro ⟨_, _, h, l, ⟨rfl, rfl⟩, readHigh, readLow, rfl⟩
    exact ⟨h, readHigh, l, readLow, rfl⟩

theorem toUInt8_eq_code_iff {h l : Nat} (high : h < 16) (low : l < 16) (op : Opcode) :
    (h * 16 + l).toUInt8 = op.code ↔ h * 16 + l = op.code.toNat := by
  constructor
  · intro same
    rw [← same]
    exact (UInt8.toNat_ofNat_of_lt' (by rw [UInt8.size]; omega)).symm
  · intro same
    rw [same]
    exact UInt8.ofNat_toNat

theorem ofMnemonic?_eq_none_of_ofHexDigits? {name : String} {code : UInt8}
    (digits : ofHexDigits? name = some code) : ofMnemonic? name = none := by
  have pair : name.toList.length = 2 := by
    unfold ofHexDigits? at digits
    split at digits
    next high low shape => rw [shape]; rfl
    next => cases digits
  cases found : ofMnemonic? name with
  | none => rfl
  | some op =>
    have long := length_mnemonic op
    rw [ofMnemonic?_eq_some_iff.mp found] at long
    omega

/-! ## Looking up a text -/

theorem names_iff_found {text : String} {op : Opcode} :
    Names text op ↔
      ofMnemonic? text.toLower = some op ∨ (ofHexDigits? text.toLower >>= ofCode?) = some op := by
  have digits : (ofHexDigits? text.toLower >>= ofCode?) = some op ↔
      ofHexDigits? text.toLower = some op.code := by
    simp only [Option.bind_eq_bind, Option.bind_eq_some_iff, ofCode?_eq_some_iff]
    exact ⟨fun ⟨code, read, named⟩ => named ▸ read, fun read => ⟨op.code, read, rfl⟩⟩
  rw [Names, ofMnemonic?_eq_some_iff, @eq_comm _ op.mnemonic, digits,
    ofHexDigits?_toLower_eq_some_iff]
  refine or_congr_right (exists_congr fun high => exists_congr fun low =>
    exists_congr fun h => exists_congr fun l => ?_)
  constructor
  · rintro ⟨shape, readHigh, readLow, value⟩
    exact ⟨shape, readHigh, readLow,
      (toUInt8_eq_code_iff (digitValue?_lt readHigh) (digitValue?_lt readLow) op).mpr value⟩
  · rintro ⟨shape, readHigh, readLow, value⟩
    exact ⟨shape, readHigh, readLow,
      (toUInt8_eq_code_iff (digitValue?_lt readHigh) (digitValue?_lt readLow) op).mp value⟩

theorem lookup_eq_ok_iff_found {text : String} {op : Opcode} :
    lookup text = .ok op ↔
      ofMnemonic? text.toLower = some op ∨ (ofHexDigits? text.toLower >>= ofCode?) = some op := by
  have folded : text.map Char.toLower = text.toLower := rfl
  simp only [lookup, folded]
  split
  next found named =>
    constructor
    · rintro ⟨⟩
      exact .inl named
    · rintro (again | digits)
      · rw [named] at again
        cases again
        rfl
      · obtain ⟨code, read, -⟩ := Option.bind_eq_some_iff.mp digits
        rw [ofMnemonic?_eq_none_of_ofHexDigits? read] at named
        cases named
  next missing =>
    split
    next found digits => simp [missing, digits]
    next unread => simp [missing, unread]

theorem lookup_eq_ok_iff (text : String) (op : Opcode) : lookup text = .ok op ↔ Names text op := by
  rw [lookup_eq_ok_iff_found, names_iff_found]

theorem lookup_cases (text : String) :
    (∃ op, lookup text = .ok op) ∨ lookup text = .error (.unknownOpcode text) := by
  simp only [lookup]
  split
  · exact .inl ⟨_, rfl⟩
  · split
    · exact .inl ⟨_, rfl⟩
    · exact .inr rfl

theorem lookup_eq_error_iff (text : String) :
    (∀ op, ¬ Names text op) ↔ lookup text = .error (.unknownOpcode text) := by
  constructor
  · intro unnamed
    rcases lookup_cases text with ⟨op, found⟩ | refused
    · exact absurd ((lookup_eq_ok_iff text op).mp found) (unnamed op)
    · exact refused
  · intro refused op named
    rw [(lookup_eq_ok_iff text op).mpr named] at refused
    cases refused

/-! ## Looking up a code byte -/

theorem ofCode_eq_ok_iff {code : UInt8} {op : Opcode} : ofCode code = .ok op ↔ op.code = code := by
  rw [← ofCode?_eq_some_iff]
  unfold ofCode
  split <;> rename_i found <;> simp [found]

theorem getElem?_all_iff {code : UInt8} {op : Opcode} :
    all[code.toNat]? = some op ↔ op.code = code := by
  constructor
  · intro listed
    have coded : (all.map Opcode.code)[code.toNat]? = some op.code := by
      rw [List.getElem?_map, listed]
      rfl
    have within : code.toNat < 15 := (List.getElem?_eq_some_iff.mp listed).1
    rw [all_map_code, List.getElem?_map, List.getElem?_range within] at coded
    simp only [Option.map_some, Option.some.injEq] at coded
    rw [← coded]
    exact UInt8.ofNat_toNat
  · rintro rfl
    cases op with
    | arithmetic a => cases a <;> decide
    | adjust a => cases a <;> decide
    | branch c => cases c <;> decide
    | _ => decide

theorem ofCode_isOk_iff (code : UInt8) : (∃ op, ofCode code = .ok op) ↔ code ≤ 0x0e := by
  simp only [ofCode_eq_ok_iff, ← ofCode?_eq_some_iff, ← Option.isSome_iff_exists,
    Option.isSome_iff_ne_none, ne_eq, ofCode?_eq_none_iff, UInt8.not_lt]

theorem ofCode_of_lt {code : UInt8} (unknown : 0x0e < code) :
    ofCode code = .error (.unknownOpcode (Hex.byte code)) := by
  rw [ofCode, (ofCode?_eq_none_iff code).mpr unknown]

theorem byte_digits (b : UInt8) :
    ∃ high low, (Hex.byte b).toList = [high, low] ∧ Hex.digitValue? high = some (b.toNat / 16) ∧
      Hex.digitValue? low = some (b.toNat % 16) ∧ high.isUpper = false ∧ low.isUpper = false := by
  have lower : ∀ value < 16, (Hex.digit value).isUpper = false := by decide
  have := b.toNat_lt
  exact ⟨_, _, by simp [Hex.byte, Hex.byteChars], Hex.digitValue?_digit _ (by omega),
    Hex.digitValue?_digit _ (by omega), lower _ (by omega), lower _ (by omega)⟩

/-! ## Every spelling of an operation finds it -/

theorem names_mnemonic_toUpper (op : Opcode) : Names op.mnemonic.toUpper op := by
  left
  cases op with
  | arithmetic a => cases a <;> decide +kernel
  | adjust a => cases a <;> decide +kernel
  | branch c => cases c <;> decide +kernel
  | _ => decide +kernel

theorem names_byte_code (op : Opcode) : Names (Hex.byte op.code) op := by
  obtain ⟨high, low, shape, readHigh, readLow, -, -⟩ := byte_digits op.code
  exact .inr ⟨high, low, _, _, shape, readHigh, readLow, by omega⟩

theorem names_byte_code_toUpper (op : Opcode) : Names (Hex.byte op.code).toUpper op := by
  have upper : ∀ value < 16, Hex.digitValue? (Hex.digit value).toUpper = some value := by decide
  have := op.code.toNat_lt
  refine .inr ⟨_, _, op.code.toNat / 16, op.code.toNat % 16, ?_, upper _ (by omega),
    upper _ (by omega), by omega⟩
  simp only [String.toUpper, String.toList_map, Hex.byte, Hex.byteChars, String.toList_ofList,
    List.map_cons, List.map_nil]

/-- Looking an operation up accepts exactly its mnemonic in any ASCII case and its code as two
hexadecimal digits of either case, and reports any other text as it was given. A code byte
finds the table entry at that position exactly when it is at most `0x0e`, and is otherwise
reported as two lower-case digits. The table lists the codes `0x00` to `0x0e` in order under
distinct mnemonics, so an operation's mnemonic, its upper-case form and its code in either case
all find it. -/
theorem lookup_accepts_names_and_codes :
    (∀ text op, lookup text = .ok op ↔ Names text op) ∧
      (∀ text, (∀ op, ¬ Names text op) ↔ lookup text = .error (.unknownOpcode text)) ∧
      (∀ code op, ofCode code = .ok op ↔ all[code.toNat]? = some op) ∧
      (∀ code, (∃ op, ofCode code = .ok op) ↔ code ≤ 0x0e) ∧
      (∀ code, 0x0e < code → ofCode code = .error (.unknownOpcode (Hex.byte code))) ∧
      (∀ code : UInt8, ∃ high low, (Hex.byte code).toList = [high, low] ∧
        Hex.digitValue? high = some (code.toNat / 16) ∧
        Hex.digitValue? low = some (code.toNat % 16) ∧
        high.isUpper = false ∧ low.isUpper = false) ∧
      all.map Opcode.code = (List.range 15).map Nat.toUInt8 ∧ (all.map mnemonic).Nodup ∧
      ∀ op, lookup op.mnemonic = .ok op ∧ lookup op.mnemonic.toUpper = .ok op ∧
        lookup (Hex.byte op.code) = .ok op ∧ lookup (Hex.byte op.code).toUpper = .ok op := by
  refine ⟨lookup_eq_ok_iff, lookup_eq_error_iff, fun code op => ?_, ofCode_isOk_iff,
    fun _ => ofCode_of_lt, byte_digits, all_map_code, mnemonic_nodup, fun op => ?_⟩
  · rw [ofCode_eq_ok_iff, getElem?_all_iff]
  · simp only [lookup_eq_ok_iff]
    exact ⟨(lookup_eq_ok_iff _ op).mp (lookup_mnemonic op), names_mnemonic_toUpper op,
      names_byte_code op, names_byte_code_toUpper op⟩

end ByteMachine.Opcode
