import ByteMachine.Program
import ByteMachine.Proofs.Assembly.Layout
/-!
# Program text reads back

Reading a program's text gives the program back when every instruction has a byte, as every
assembled or read program does (`Reading.Sound`, `program_text_round_trip`).
-/

set_option autoImplicit false

namespace ByteMachine

/-! ## Characters and numbers -/

namespace Text

theorem isBlank_of_isDigit {c : Char} (digit : c.isDigit = true) : isBlank c = false := by
  have low : 48 ≤ c.toNat := (Bool.and_eq_true _ _ ▸ digit).1 |> of_decide_eq_true
  have high : c.toNat ≤ 57 := (Bool.and_eq_true _ _ ▸ digit).2 |> of_decide_eq_true
  simp only [isBlank, Bool.or_eq_false_iff, Bool.and_eq_false_imp, decide_eq_true_eq,
    decide_eq_false_iff_not, beq_eq_false_iff_ne, ne_eq]
  omega

theorem newline_not_mem {chars : List Char} (noBlank : ∀ c ∈ chars, isBlank c = false) :
    '\n' ∉ chars := fun within => absurd (noBlank '\n' within) (by decide)

theorem trimChars_blank_append {blanks chars : List Char} (blank : ∀ c ∈ blanks, isBlank c = true)
    (first : ∀ c ∈ chars.head?, isBlank c = false)
    (last : ∀ c ∈ chars.getLast?, isBlank c = false) :
    trimChars (blanks ++ chars) = chars := by
  unfold trimChars
  rw [List.dropWhile_append_of_pos blank]
  have front : chars.dropWhile isBlank = chars := by
    cases chars with
    | nil => rfl
    | cons c rest => exact List.dropWhile_cons_of_neg (by simp [first c rfl])
  rw [front]
  rcases List.eq_nil_or_concat chars with rfl | ⟨body, final, rfl⟩
  · rfl
  · have back : isBlank final = false := last final (by simp)
    rw [List.concat_eq_append, List.reverse_append, List.reverse_singleton, List.singleton_append,
      List.dropWhile_cons_of_neg (by simp [back]), List.reverse_cons, List.reverse_reverse]

theorem trimChars_of_ends {chars : List Char} (first : ∀ c ∈ chars.head?, isBlank c = false)
    (last : ∀ c ∈ chars.getLast?, isBlank c = false) : trimChars chars = chars :=
  trimChars_blank_append (List.forall_mem_nil _) first last

theorem trimChars_of_not_blank {chars : List Char} (noBlank : ∀ c ∈ chars, isBlank c = false) :
    trimChars chars = chars :=
  trimChars_of_ends (fun c within => noBlank c (List.mem_of_mem_head? within))
    (fun c within => noBlank c (List.mem_of_mem_getLast? within))

theorem digitsValue_eq_ofDigitChars (digits : List Char) :
    digitsValue digits = Nat.ofDigitChars 10 digits 0 := by
  unfold digitsValue Nat.ofDigitChars
  congr 1
  funext acc c
  rw [Nat.mul_comm]
  rfl

theorem readUnsigned?_ofList {bound : Nat} {digits : List Char} (nonempty : digits ≠ [])
    (all : ∀ c ∈ digits, c.isDigit = true) (below : digitsValue digits < bound) :
    readUnsigned? bound (String.ofList digits) = some (digitsValue digits) := by
  obtain ⟨first, rest, rfl⟩ := List.exists_cons_of_ne_nil nonempty
  have notSign : first ≠ '+' := by
    intro sign
    have := all first (by simp)
    rw [sign] at this
    contradiction
  have read : naturalOfDigits? (first :: rest) = some (digitsValue (first :: rest)) := by
    simp [naturalOfDigits?, List.all_eq_true.mpr all]
  simp only [readUnsigned?, String.toList_ofList]
  split <;> rename_i parsed <;> split at parsed
  · exact absurd (List.cons.inj ‹first :: rest = '+' :: _›).1 notSign
  · rw [read] at parsed
    cases parsed
    rw [if_pos below]
  · exact absurd (List.cons.inj ‹first :: rest = '+' :: _›).1 notSign
  · rw [read] at parsed
    cases parsed

theorem isDigit_of_mem_toDigits {value : Nat} {c : Char} (within : c ∈ Nat.toDigits 10 value) :
    c.isDigit = true :=
  Nat.isDigit_of_mem_toDigits (by decide) (by decide) within

theorem readUnsigned?_toString {bound value : Nat} (below : value < bound) :
    readUnsigned? bound (toString value) = some value := by
  have exact : digitsValue (Nat.toDigits 10 value) = value := by
    rw [digitsValue_eq_ofDigitChars, Nat.ofDigitChars_ten_toDigits]
  have read := readUnsigned?_ofList Nat.toDigits_ne_nil (fun _ => isDigit_of_mem_toDigits)
    (exact ▸ below)
  rwa [exact, ← Nat.toString_eq_ofList_toDigits] at read

theorem lt_of_readUnsigned? {bound value : Nat} {text : String}
    (read : readUnsigned? bound text = some value) : value < bound := by
  unfold readUnsigned? at read
  split at read <;> dsimp only at read <;> split at read <;>
    simp only [Option.ite_none_right_eq_some, Option.some.injEq, reduceCtorEq] at read <;>
    exact read.2 ▸ read.1

end Text

namespace Hex

theorem isBlank_digit : ∀ value < 16, Text.isBlank (digit value) = false := by decide

theorem isBlank_of_mem_encode {bytes : List UInt8} {c : Char}
    (within : c ∈ (encode bytes).toList) : Text.isBlank c = false := by
  simp only [encode, String.toList_ofList] at within
  obtain ⟨byte, -, inByte⟩ := List.mem_flatMap.mp within
  simp only [byteChars, List.mem_cons, List.not_mem_nil, or_false] at inByte
  have := byte.toNat_lt
  rcases inByte with rfl | rfl
  · exact isBlank_digit _ (by omega)
  · exact isBlank_digit _ (Nat.mod_lt _ (by decide))

theorem decodeChars_ne_nil {chars : List Char} {bytes : List UInt8}
    (decoded : decodeChars chars = some bytes) (nonempty : chars ≠ []) : bytes ≠ [] := by
  rcases chars with _ | ⟨high, _ | ⟨low, rest⟩⟩
  · exact absurd rfl nonempty
  · simp [decodeChars] at decoded
  · simp only [decodeChars, Option.pure_def, Option.bind_eq_bind, Option.bind_eq_some_iff,
      Option.some.injEq] at decoded
    obtain ⟨_, _, _, _, _, _, rfl⟩ := decoded
    exact List.cons_ne_nil _ _

theorem encode_eq_empty_iff (bytes : List UInt8) : (encode bytes).toList = [] ↔ bytes = [] := by
  cases bytes <;> simp [encode, byteChars]

end Hex

namespace Program

/-! ## The lines of a written program -/

theorem splitOn_flatMap_newline {pieces : List (List Char)}
    (clean : ∀ piece ∈ pieces, '\n' ∉ piece) :
    (pieces.flatMap (· ++ ['\n'])).splitOn '\n' = pieces ++ [[]] := by
  induction pieces with
  | nil => rfl
  | cons piece rest ih =>
    rw [List.flatMap_cons, List.append_assoc, List.singleton_append,
      List.splitOn_append_cons_self_of_not_mem (clean piece (by simp)),
      ih fun other within => clean other (by simp [within]), List.cons_append]

theorem newline_not_mem_toString (value : Nat) : '\n' ∉ (toString value).toList := by
  intro within
  have := Text.isDigit_of_mem_toDigits (by simpa using within)
  contradiction

/-- The data section's lines of a program's text. -/
def header (program : Program) : List String :=
  [".DATA", "START: " ++ toString program.start.toNat, "LENGTH: " ++ toString program.length, "",
    ".CODE"]

theorem render_eq_join (program : Program) :
    program.render =
      String.join ((program.header ++ program.instructions.map Hex.encode).map (· ++ "\n")) := by
  have dataKeys : ".DATA\nSTART: " = ".DATA" ++ "\n" ++ "START: " := by decide
  have lengthKey : "\nLENGTH: " = "\n" ++ "LENGTH: " := by decide
  have codeKey : "\n\n.CODE\n" = "\n" ++ "" ++ "\n" ++ ".CODE" ++ "\n" := by decide
  unfold render header
  simp only [dataKeys, lengthKey, codeKey, List.cons_append, List.map_cons, String.join_cons,
    List.nil_append, String.append_assoc, List.map_map]
  rfl

theorem lines_render (program : Program) :
    lines program.render = program.header ++ program.instructions.map Hex.encode ++ [""] := by
  have pieces : program.render.toList =
      ((program.header ++ program.instructions.map Hex.encode).map String.toList).flatMap
        (· ++ ['\n']) := by
    rw [render_eq_join, String.toList_join, List.flatMap_map, List.flatMap_map]
    simp only [String.toList_append]
    rfl
  have clean : ∀ piece ∈ (program.header ++ program.instructions.map Hex.encode).map
      String.toList, '\n' ∉ piece := by
    intro piece within
    simp only [header, List.map_append, List.map_cons, List.map_nil, List.map_map,
      List.mem_append, List.mem_cons, List.mem_map, Function.comp_apply] at within
    rcases within with ((rfl | rfl | rfl | rfl | rfl | within) | ⟨bytes, -, rfl⟩)
    · decide
    · simp only [String.toList_append, List.mem_append, not_or]
      exact ⟨by decide, newline_not_mem_toString _⟩
    · simp only [String.toList_append, List.mem_append, not_or]
      exact ⟨by decide, newline_not_mem_toString _⟩
    · decide
    · decide
    · cases within
    · exact Text.newline_not_mem fun c => Hex.isBlank_of_mem_encode
  rw [lines, pieces, splitOn_flatMap_newline clean]
  simp

/-! ## Reading line by line -/

theorem readLines_append (reading : Reading) (number : Nat) (first rest : List String) :
    readLines reading number (first ++ rest) =
      readLines reading number first >>= fun read => readLines read (number + first.length) rest := by
  induction first generalizing reading number with
  | nil => rfl
  | cons line more ih =>
    simp only [List.cons_append, readLines, ih, bind_assoc, List.length_cons, Nat.add_assoc,
      Nat.add_comm 1 more.length]

theorem line_of_blank {reading : Reading} {number : Nat} {text : String}
    (blank : Text.trimChars text.toList = []) : reading.line number text = .ok reading := by
  simp [Reading.line, blank]

theorem line_of_digits {start : Option UInt8} {length : Option Nat}
    {instructions : List (List UInt8)} (number : Nat) (bytes : List UInt8) (nonempty : bytes ≠ []) :
    Reading.line ⟨start, length, some instructions⟩ number (Hex.encode bytes) =
      .ok ⟨start, length, some (instructions ++ [bytes])⟩ := by
  have trimmed : Text.trimChars (Hex.encode bytes).toList = (Hex.encode bytes).toList :=
    Text.trimChars_of_not_blank fun _ => Hex.isBlank_of_mem_encode
  have decoded : Hex.decodeChars (Hex.encode bytes).toList = some bytes := Hex.decode?_encode bytes
  have filled : (Hex.encode bytes).toList ≠ [] := by rwa [ne_eq, Hex.encode_eq_empty_iff]
  simp [Reading.line, trimmed, decoded, filled]

theorem readLines_code (start : Option UInt8) (length : Option Nat)
    (instructions : List (List UInt8)) (number : Nat) (program : List (List UInt8)) :
    readLines ⟨start, length, some instructions⟩ number (program.map Hex.encode) =
      .ok ⟨start, length, some (instructions ++ program.filter (· ≠ []))⟩ := by
  induction program generalizing instructions number with
  | nil => simp [readLines]
  | cons bytes rest ih =>
    simp only [List.map_cons, readLines]
    by_cases empty : bytes = []
    · subst empty
      rw [line_of_blank (by simp [Hex.encode, Text.trimChars])]
      simp [bind, Except.bind, ih]
    · rw [line_of_digits number bytes empty]
      simp [bind, Except.bind, ih, empty]

theorem line_empty (reading : Reading) (number : Nat) : reading.line number "" = .ok reading :=
  line_of_blank (by decide)

theorem trimChars_header (key : List Char) (keyStart : ∀ c ∈ key.head?, Text.isBlank c = false)
    (named : key ≠ []) (value : Nat) :
    Text.trimChars (key ++ ' ' :: Nat.toDigits 10 value) = key ++ ' ' :: Nat.toDigits 10 value := by
  have shape : key ++ ' ' :: Nat.toDigits 10 value = (key ++ [' ']) ++ Nat.toDigits 10 value := by
    simp
  rw [shape]
  apply Text.trimChars_of_ends
  · obtain ⟨first, rest, rfl⟩ := List.exists_cons_of_ne_nil named
    simpa using keyStart
  · intro c within
    rw [List.getLast?_append_of_ne_nil _ Nat.toDigits_ne_nil] at within
    exact Text.isBlank_of_isDigit (Text.isDigit_of_mem_toDigits (List.mem_of_mem_getLast? within))

theorem headerValue?_header (key : String) (value : Nat) :
    headerValue? key (key.toList ++ ' ' :: Nat.toDigits 10 value) = some (toString value) := by
  have digits : ∀ c ∈ Nat.toDigits 10 value, Text.isBlank c = false := fun _ within =>
    Text.isBlank_of_isDigit (Text.isDigit_of_mem_toDigits within)
  have trimmed : Text.trimChars ([' '] ++ Nat.toDigits 10 value) = Nat.toDigits 10 value :=
    Text.trimChars_blank_append (by simp [Text.isBlank])
      (fun c within => digits c (List.mem_of_mem_head? within))
      (fun c within => digits c (List.mem_of_mem_getLast? within))
  unfold headerValue?
  rw [if_pos (List.isPrefixOf_iff_prefix.mpr (List.prefix_append _ _)),
    show key.length = key.toList.length from (String.length_toList).symm, List.drop_left,
    Text.trim, String.toList_ofList, ← List.singleton_append, trimmed,
    Nat.toString_eq_ofList_toDigits]

theorem line_data (start : Option UInt8) (length : Option Nat) (number : Nat) :
    Reading.line ⟨start, length, none⟩ number ".DATA" = .ok ⟨start, length, none⟩ := by
  simp [Reading.line,
    show Text.trimChars ['.', 'D', 'A', 'T', 'A'] = ['.', 'D', 'A', 'T', 'A'] by decide]

theorem line_section (start : Option UInt8) (length : Option Nat) (number : Nat) :
    Reading.line ⟨start, length, none⟩ number ".CODE" = .ok ⟨start, length, some []⟩ := by
  simp [Reading.line,
    show Text.trimChars ['.', 'C', 'O', 'D', 'E'] = ['.', 'C', 'O', 'D', 'E'] by decide]

theorem line_start (start : Option UInt8) (length : Option Nat) (number : Nat) (value : UInt8) :
    Reading.line ⟨start, length, none⟩ number ("START: " ++ toString value.toNat) =
      .ok ⟨some value, length, none⟩ := by
  have chars : ("START: " ++ toString value.toNat).toList =
      "START:".toList ++ ' ' :: Nat.toDigits 10 value.toNat := by simp
  have trimmed := trimChars_header "START:".toList (by simp [Text.isBlank]) (by simp)
    value.toNat
  simp only [Reading.line]
  rw [chars, trimmed, headerValue?_header]
  simp only [Text.readUnsigned?_toString (show value.toNat < 256 from value.toNat_lt)]
  simp

theorem line_length (start : Option UInt8) (length : Option Nat) (number : Nat) {declared : Nat}
    (fits : declared < Text.wordBound) :
    Reading.line ⟨start, length, none⟩ number ("LENGTH: " ++ toString declared) =
      .ok ⟨start, some declared, none⟩ := by
  have chars : ("LENGTH: " ++ toString declared).toList =
      "LENGTH:".toList ++ ' ' :: Nat.toDigits 10 declared := by simp
  have trimmed := trimChars_header "LENGTH:".toList (by simp [Text.isBlank]) (by simp)
    declared
  simp only [Reading.line]
  rw [chars, trimmed, headerValue?_header]
  simp only [Text.readUnsigned?_toString fits]
  simp [headerValue?]

theorem readLines_header (program : Program) (fits : program.length < Text.wordBound) :
    readLines {} 1 program.header = .ok ⟨some program.start, some program.length, some []⟩ := by
  show readLines ⟨none, none, none⟩ 1 program.header = _
  simp only [header, readLines, line_data, line_start, line_length _ _ _ fits, line_empty,
    line_section, bind, Except.bind]

theorem parse_render (program : Program) (fits : program.length < Text.wordBound) :
    parse program.render =
      if ∀ bytes ∈ program.instructions, bytes ≠ [] then .ok program
      else .error (.lengthMismatch program.length (program.instructions.countP (· ≠ []))) := by
  have read : readLines {} 1 (lines program.render) =
      .ok ⟨some program.start, some program.length,
        some (program.instructions.filter (· ≠ []))⟩ := by
    rw [lines_render, readLines_append, readLines_append, readLines_header program fits]
    simp only [bind, Except.bind, readLines_code, List.nil_append, readLines, line_empty]
  simp only [parse, read, bind, Except.bind, List.countP_eq_length_filter]
  by_cases all : ∀ bytes ∈ program.instructions, bytes ≠ []
  · have kept : program.instructions.filter (· ≠ []) = program.instructions :=
      List.filter_eq_self.mpr (by simpa using all)
    have counted : program.length = program.instructions.length := rfl
    rw [kept, if_pos counted, if_pos all]
    rfl
  · have shorter : program.length ≠ (program.instructions.filter (· ≠ [])).length := by
      intro same
      apply all
      have := List.countP_eq_length.mp (List.countP_eq_length_filter.trans same.symm)
      simpa using this
    rw [if_neg shorter, if_neg all]
    rfl

/-! ## What reading any text keeps -/

/-- What every reading keeps: each instruction read has a byte, and a declared length is below
2^64. -/
structure Reading.Sound (reading : Reading) : Prop where
  code : ∀ instructions, reading.code = some instructions → ∀ bytes ∈ instructions, bytes ≠ []
  length : ∀ declared, reading.length = some declared → declared < Text.wordBound

theorem Reading.sound_empty : ({} : Reading).Sound where
  code _ coded := by cases coded
  length _ declared := by cases declared

theorem Reading.line_cases {reading next : Reading} {number : Nat} {text : String}
    (read : reading.line number text = .ok next) :
    next = reading ∨
      (∃ instructions bytes, reading.code = some instructions ∧ bytes ≠ [] ∧
        next = { reading with code := some (instructions ++ [bytes]) }) ∨
      next = { reading with code := some [] } ∨
      (∃ start, next = { reading with start := some start }) ∨
      ∃ length, length < Text.wordBound ∧ next = { reading with length := some length } := by
  unfold Reading.line at read
  dsimp only at read
  split at read
  · cases read
    exact .inl rfl
  rename_i nonblank
  split at read
  · rename_i instructions coding
    split at read
    · rename_i bytes decoded
      cases read
      exact .inr (.inl ⟨instructions, bytes, coding,
        Hex.decodeChars_ne_nil decoded (by simpa using nonblank), rfl⟩)
    · cases read
  split at read
  · cases read
    exact .inr (.inr (.inl rfl))
  split at read
  · cases read
    exact .inl rfl
  split at read
  · split at read
    · cases read
      exact .inr (.inr (.inr (.inl ⟨_, rfl⟩)))
    · cases read
  split at read
  · split at read
    · rename_i declared readOk
      cases read
      exact .inr (.inr (.inr (.inr ⟨declared, Text.lt_of_readUnsigned? readOk, rfl⟩)))
    · cases read
  · cases read

theorem Reading.Sound.line {reading next : Reading} {number : Nat} {text : String}
    (sound : reading.Sound) (read : reading.line number text = .ok next) : next.Sound := by
  rcases Reading.line_cases read with rfl | ⟨instructions, bytes, coding, filled, rfl⟩ | rfl |
    ⟨start, rfl⟩ | ⟨length, fits, rfl⟩
  · exact sound
  · refine ⟨fun all added => ?_, sound.length⟩
    cases added
    intro other within
    rcases List.mem_append.mp within with old | new
    · exact sound.code instructions coding other old
    · rw [List.mem_singleton.mp new]
      exact filled
  · exact ⟨fun all opened => by cases opened; simp, sound.length⟩
  · exact ⟨sound.code, sound.length⟩
  · refine ⟨sound.code, fun declared declaredAs => ?_⟩
    cases declaredAs
    exact fits

theorem Reading.Sound.readLines {reading next : Reading} {number : Nat} {lines : List String}
    (sound : reading.Sound) (read : Program.readLines reading number lines = .ok next) :
    next.Sound := by
  induction lines generalizing reading number with
  | nil =>
    cases read
    exact sound
  | cons line rest ih =>
    simp only [Program.readLines, bind_eq_ok] at read
    obtain ⟨afterLine, lineOk, restOk⟩ := read
    exact ih (sound.line lineOk) restOk

theorem sound_of_parse {text : String} {program : Program} (parsed : parse text = .ok program) :
    (∀ bytes ∈ program.instructions, bytes ≠ []) ∧ program.length < Text.wordBound := by
  simp only [parse, bind_eq_ok] at parsed
  obtain ⟨reading, readOk, rest⟩ := parsed
  have sound := Reading.sound_empty.readLines readOk
  split at rest
  · rename_i start started
    split at rest
    · rename_i declared declaredAs
      split at rest
      · rename_i instructions coding
        split at rest
        · rename_i same
          cases rest
          refine ⟨sound.code instructions coding, ?_⟩
          rw [length, ← same]
          exact sound.length declared declaredAs
        · cases rest
      · cases rest
    · cases rest
  · cases rest

end Program

theorem instructions_ne_nil_of_assemble {source : String} {program : Program}
    (assembled : assemble source = .ok program) : ∀ bytes ∈ program.instructions, bytes ≠ [] := by
  obtain ⟨listing, -, emitted⟩ := parse_emit_of_assemble assembled
  have emits := Listing.emits_of_emit emitted
  intro bytes within
  obtain ⟨index, found⟩ := List.mem_iff_getElem?.mp within
  have inside : index < listing.statements.length := by
    rw [← emits.length]
    exact (List.getElem?_eq_some_iff.mp found).1
  obtain ⟨instruction, -, emittedAt⟩ :=
    emits.instructions index _ (List.getElem?_eq_getElem inside)
  rw [found] at emittedAt
  cases emittedAt
  exact List.cons_ne_nil _ _

/-- The program text round-trips. Writing a program and reading the text back gives the program
if every instruction has a byte, and otherwise fails with the declared length and the number of
instructions that have bytes, the empty ones being written as empty lines that reading skips;
a program's instruction count is a 64-bit count, as the count of every program in memory is.
Every program the assembler produces or reading a text gives has a byte in every instruction,
and a program read from a text reads back from its own text. -/
theorem program_text_round_trip :
    (∀ program : Program, program.length < Text.wordBound →
      Program.parse program.render =
        if ∀ bytes ∈ program.instructions, bytes ≠ [] then .ok program
        else .error (.lengthMismatch program.length (program.instructions.countP (· ≠ [])))) ∧
    (∀ source program, assemble source = .ok program →
      ∀ bytes ∈ program.instructions, bytes ≠ []) ∧
    (∀ text program, Program.parse text = .ok program →
      (∀ bytes ∈ program.instructions, bytes ≠ []) ∧ Program.parse program.render = .ok program) := by
  refine ⟨Program.parse_render, fun _ _ assembled => instructions_ne_nil_of_assemble assembled,
    fun text program parsed => ?_⟩
  obtain ⟨filled, fits⟩ := Program.sound_of_parse parsed
  refine ⟨filled, ?_⟩
  rw [Program.parse_render program fits, if_pos filled]

theorem program_text_round_trip_on_samples :
    (⟨5, [[0x06], [], [0x0d]]⟩ : Program).length < Text.wordBound ∧
    Program.parse (⟨5, [[0x06], [], [0x0d]]⟩ : Program).render =
      .error (.lengthMismatch 3 2) ∧
    assemble "start: halt" = .ok ⟨0, [[0x0d]]⟩ ∧
    (∀ bytes ∈ (⟨0, [[0x0d]]⟩ : Program).instructions, bytes ≠ []) ∧
    Program.parse "LENGTH: 1\r\n.DATA\n  START:   0 \n\n\n.CODE\n\n0D\n\n" = .ok ⟨0, [[0x0d]]⟩ ∧
    Program.parse (⟨0, [[0x0d]]⟩ : Program).render = .ok ⟨0, [[0x0d]]⟩ := by
  have fits : (⟨5, [[0x06], [], [0x0d]]⟩ : Program).length < Text.wordBound := by decide
  have assembled : assemble "start: halt" = .ok ⟨0, [[0x0d]]⟩ := eq_ok_of_toOption (by decide +kernel)
  have parsed : Program.parse "LENGTH: 1\r\n.DATA\n  START:   0 \n\n\n.CODE\n\n0D\n\n" =
      .ok ⟨0, [[0x0d]]⟩ := eq_ok_of_toOption (by decide +kernel)
  obtain ⟨written, fromSource, fromText⟩ := program_text_round_trip
  refine ⟨fits, ?_, assembled, fromSource _ _ assembled, parsed, (fromText _ _ parsed).2⟩
  rw [written _ fits]
  decide

end ByteMachine
