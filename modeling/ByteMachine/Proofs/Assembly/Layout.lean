import Mathlib
import ByteMachine.Assembly.Emit
import ByteMachine.Proofs.Isa.Codec
/-!
# The layout of an assembled program

Each statement stands at the sum of the lengths before it and each label marks the next
statement. The first pass keeps the invariant `Placed`; the relation `Emits` says what `emit`
produces, in which the bytes of instruction `k` decode to statement `k`.
-/

set_option autoImplicit false

namespace ByteMachine

theorem bind_eq_ok {ε α β : Type} {first : Except ε α} {next : α → Except ε β} {result : β} :
    first >>= next = .ok result ↔ ∃ value, first = .ok value ∧ next value = .ok result := by
  cases first <;> simp [bind, Except.bind]

theorem pure_eq_ok {ε α : Type} {value result : α} :
    (pure value : Except ε α) = .ok result ↔ value = result := by
  simp [pure, Except.pure]

theorem eq_ok_of_toOption {ε α : Type} {result : Except ε α} {value : α}
    (succeeded : result.toOption = some value) : result = .ok value := by
  cases result <;> simp_all [Except.toOption]

theorem getElem?_of_mapM_eq_ok {α β ε : Type} {f : α → Except ε β} {xs : List α}
    {ys : List β} (mapped : xs.mapM f = .ok ys) :
    ys.length = xs.length ∧
      ∀ (index : Nat) (x : α), xs[index]? = some x → ∃ y, ys[index]? = some y ∧ f x = .ok y := by
  induction xs generalizing ys with
  | nil =>
    cases mapped
    exact ⟨rfl, fun index x found => by simp at found⟩
  | cons x rest ih =>
    simp only [List.mapM_cons, bind_eq_ok, pure_eq_ok] at mapped
    obtain ⟨y, first, others, rested, rfl⟩ := mapped
    obtain ⟨sameLength, elements⟩ := ih rested
    refine ⟨by simp [sameLength], ?_⟩
    intro index z found
    cases index with
    | zero =>
      cases found
      exact ⟨y, rfl, first⟩
    | succ index => exact elements index z found

theorem drop_flatten {α : Type} {lists : List (List α)} {index : Nat} {list : List α}
    (found : lists[index]? = some list) :
    ∃ rest, lists.flatten.drop ((lists.map List.length).take index).sum = list ++ rest := by
  obtain ⟨within, rfl⟩ := List.getElem?_eq_some_iff.mp found
  have whole : lists.flatten = (lists.take index).flatten ++ (lists.drop index).flatten := by
    rw [← List.flatten_append, List.take_append_drop]
  have before : (lists.take index).flatten.length = ((lists.map List.length).take index).sum := by
    rw [List.length_flatten, List.map_take]
  refine ⟨(lists.drop (index + 1)).flatten, ?_⟩
  rw [whole, ← before, List.drop_left, List.drop_eq_getElem_cons within, List.flatten_cons]

theorem decode_of_drop {image rest : List UInt8} {offset : Nat} {instruction : Instruction}
    (placed : image.drop offset = instruction.bytes ++ rest) :
    image[offset]? = some instruction.opcode.code ∧
      instruction.opcode.decode (image.drop (offset + 1)) = .ok instruction := by
  constructor
  · have first := congrArg (·[0]?) placed
    simpa [List.getElem?_drop, Instruction.bytes] using first
  · rw [← List.drop_drop, placed]
    simpa [Instruction.bytes] using Opcode.decode_operands_bytes instruction rest

/-- Whether a body names its branch target by a label, as the parser writes every branch. -/
def Body.branchesByLabel : Body → Bool
  | .instruction (.branch _ _) => false
  | _ => true

theorem ofCode_code (op : Opcode) : Opcode.ofCode op.code = .ok op := by
  simp [Opcode.ofCode, Opcode.ofCode?_code]

namespace Listing

/-! ## The first pass -/

/-- The offset of the statement at `index`: the lengths of the statements before it. At the
number of statements it is the offset just past the last one. -/
def offsetOf (listing : Listing) (index : Nat) : Nat :=
  ((listing.statements.map Statement.length).take index).sum

theorem offsetOf_addStatement (listing : Listing) (statement : Statement) {index : Nat}
    (within : index ≤ listing.statements.length) :
    (listing.addStatement statement).offsetOf index = listing.offsetOf index := by
  simp [offsetOf, addStatement, List.take_append_of_le_length, within]

theorem offsetOf_length_addStatement (listing : Listing) (statement : Statement) :
    (listing.addStatement statement).offsetOf (listing.statements.length + 1) =
      listing.offsetOf listing.statements.length + statement.length := by
  simp only [offsetOf, addStatement, List.map_append, List.map_singleton]
  rw [List.take_of_length_le (by simp), List.take_of_length_le (by simp), List.sum_append,
    List.sum_singleton]

theorem body_cases {line : Nat} {opcode : Opcode} {span : Span} {operands : List Token}
    {built : Body} (read : body line opcode span operands = .ok built) :
    built.opcode = opcode ∧ built.branchesByLabel = true ∧
      ∀ condition label target, built = .jump condition label target →
        ∃ token ∈ operands, target = token.span := by
  unfold body at read
  split at read
  case h_5 condition target =>
    simp only [bind_eq_ok, pure_eq_ok] at read
    obtain ⟨label, -, rfl⟩ := read
    refine ⟨rfl, rfl, fun _ _ _ jump => ?_⟩
    cases jump
    exact ⟨target, List.mem_singleton_self _, rfl⟩
  case h_8 => cases read
  all_goals
    simp only [bind_eq_ok, pure_eq_ok] at read
  case h_1 | h_4 | h_7 =>
    obtain ⟨src, -, dest, -, rfl⟩ := read
    exact ⟨rfl, rfl, fun _ _ _ jump => by cases jump⟩
  case h_2 =>
    obtain ⟨dest, -, rfl⟩ := read
    exact ⟨rfl, rfl, fun _ _ _ jump => by cases jump⟩
  case h_3 | h_6 =>
    subst read
    exact ⟨rfl, rfl, fun _ _ _ jump => by cases jump⟩

theorem statement_eq_ok {line : Nat} {mnemonic : Token} {rest : List Token} {read : Statement}
    (readOk : statement line mnemonic rest = .ok read) :
    ∃ opcode operands built, mnemonic.kind = .ident ∧ Opcode.lookup mnemonic.text = .ok opcode ∧
      operandTokens line rest = .ok operands ∧
      body line opcode (mnemonic.span.cover (operands.getLast?.getD mnemonic).span) operands =
        .ok built ∧
      read = ⟨line, mnemonic.span.cover (operands.getLast?.getD mnemonic).span, built⟩ := by
  unfold statement at readOk
  by_cases ident : mnemonic.kind = .ident
  · cases found : Opcode.lookup mnemonic.text with
    | error e =>
      simp [ident, found, throw, throwThe, MonadExceptOf.throw, bind, Except.bind] at readOk
    | ok opcode =>
      simp only [ident, found, ne_eq, not_true_eq_false, if_false, bind_eq_ok, pure_eq_ok] at readOk
      obtain ⟨_, rfl, operands, operandsOk, built, builtOk, rfl⟩ := readOk
      refine ⟨opcode, operands, built, ident, rfl, operandsOk, ?_⟩
      revert builtOk
      cases operands.getLast? with
      | none =>
        rw [Option.getD_none, Span.cover_self]
        exact fun builtOk => ⟨builtOk, rfl⟩
      | some last => exact fun builtOk => ⟨builtOk, rfl⟩
  · simp [ident, throw, throwThe, MonadExceptOf.throw, bind, Except.bind] at readOk

theorem statement_branchesByLabel {line : Nat} {mnemonic : Token} {rest : List Token}
    {read : Statement} (readOk : statement line mnemonic rest = .ok read) :
    read.body.branchesByLabel = true := by
  obtain ⟨opcode, operands, built, -, -, -, builtOk, rfl⟩ := statement_eq_ok readOk
  exact (body_cases builtOk).2.1

/-- What the first pass keeps: the offset of the next statement is the length of the
statements read, every label marks the offset of a statement or the end, and every branch
names its target by a label. -/
structure Placed (listing : Listing) : Prop where
  offset : listing.offset = listing.offsetOf listing.statements.length
  labels : ∀ definition ∈ listing.labels,
    ∃ index ≤ listing.statements.length, definition.offset = listing.offsetOf index
  bodies : ∀ statement ∈ listing.statements, statement.body.branchesByLabel = true

theorem placed_empty : ({} : Listing).Placed where
  offset := rfl
  labels definition defined := by cases defined
  bodies statement stated := by cases stated

theorem Placed.addStatement {listing : Listing} (placed : listing.Placed)
    {statement : Statement} (labelled : statement.body.branchesByLabel = true) :
    (listing.addStatement statement).Placed where
  offset := by
    have grown : (listing.addStatement statement).statements.length =
        listing.statements.length + 1 := by simp [Listing.addStatement]
    rw [grown, offsetOf_length_addStatement, ← placed.offset]
    rfl
  labels definition defined := by
    obtain ⟨index, within, marks⟩ := placed.labels definition defined
    refine ⟨index, ?_, ?_⟩
    · simp only [Listing.addStatement, List.length_append, List.length_singleton]
      omega
    · rw [offsetOf_addStatement listing statement within]
      exact marks
  bodies stated added := by
    rcases List.mem_append.mp added with old | new
    · exact placed.bodies stated old
    · rw [List.mem_singleton.mp new]
      exact labelled

theorem eq_of_defineLabel {listing next : Listing} {line : Nat} {token : Token}
    (defined : listing.defineLabel line token = .ok next) :
    next = { listing with labels := listing.labels ++ [⟨String.ofList token.text.toList.dropLast,
      listing.offset, line, ⟨token.span.offset, token.span.length - 1⟩⟩] } := by
  unfold defineLabel at defined
  dsimp only at defined
  split at defined
  · cases defined
  · split at defined
    · cases defined
    · cases defined
      rfl

theorem Placed.defineLabel {listing next : Listing} {line : Nat} {token : Token}
    (placed : listing.Placed) (defined : listing.defineLabel line token = .ok next) :
    next.Placed := by
  obtain rfl := eq_of_defineLabel defined
  refine ⟨placed.offset, fun definition defined => ?_, placed.bodies⟩
  rcases List.mem_append.mp defined with old | new
  · exact placed.labels definition old
  · rw [List.mem_singleton.mp new]
    exact ⟨listing.statements.length, Nat.le_refl _, placed.offset⟩

theorem addLine_cases {listing next : Listing} {line : Nat} {tokens : List Token}
    (added : listing.addLine line tokens = .ok next) :
    ∃ labelled, (labelled = listing ∨
        ∃ token ∈ tokens, token.kind = .label ∧ listing.defineLabel line token = .ok labelled) ∧
      (next = labelled ∨ ∃ earlier mnemonic operands read, tokens = earlier ++ mnemonic :: operands ∧
        statement line mnemonic operands = .ok read ∧ next = labelled.addStatement read) := by
  unfold addLine at added
  cases tokens with
  | nil =>
    cases added
    exact ⟨listing, .inl rfl, .inl rfl⟩
  | cons first more =>
    by_cases label : first.kind = .label
    · simp only [label, if_true, bind_eq_ok, pure_eq_ok] at added
      obtain ⟨labelled, defined, _, rfl, added⟩ := added
      refine ⟨labelled, .inr ⟨first, List.mem_cons_self, label, defined⟩, ?_⟩
      cases more with
      | nil =>
        cases added
        exact .inl rfl
      | cons mnemonic operands =>
        simp only [bind_eq_ok, pure_eq_ok] at added
        obtain ⟨read, readOk, rfl⟩ := added
        exact .inr ⟨[first], mnemonic, operands, read, rfl, readOk, rfl⟩
    · simp only [label, if_false, bind_eq_ok, pure_eq_ok] at added
      obtain ⟨_, rfl, added⟩ := added
      simp only [bind_eq_ok, pure_eq_ok] at added
      obtain ⟨read, readOk, rfl⟩ := added
      exact ⟨listing, .inl rfl, .inr ⟨[], first, more, read, rfl, readOk, rfl⟩⟩

theorem Placed.addLine {listing next : Listing} {line : Nat} {tokens : List Token}
    (placed : listing.Placed) (added : listing.addLine line tokens = .ok next) : next.Placed := by
  obtain ⟨labelled, labelling, stating⟩ := addLine_cases added
  have placedLabelled : labelled.Placed := by
    rcases labelling with rfl | ⟨token, -, -, defined⟩
    · exact placed
    · exact placed.defineLabel defined
  rcases stating with rfl | ⟨-, mnemonic, operands, read, -, readOk, rfl⟩
  · exact placedLabelled
  · exact placedLabelled.addStatement (statement_branchesByLabel readOk)

theorem Placed.addLines {listing next : Listing} {line : Nat} {lines : List (List Token)}
    (placed : listing.Placed) (added : listing.addLines line lines = .ok next) : next.Placed := by
  induction lines generalizing listing line with
  | nil =>
    cases added
    exact placed
  | cons tokens rest ih =>
    simp only [Listing.addLines, bind_eq_ok] at added
    obtain ⟨afterFirst, first, rest⟩ := added
    exact ih (placed.addLine first) rest

theorem placed_of_parse {source : String} {listing : Listing}
    (parsed : parse source = .ok listing) : listing.Placed := by
  simp only [parse, bind_eq_ok] at parsed
  obtain ⟨read, readOk, checked⟩ := parsed
  split at checked
  · cases checked
  · cases checked
    exact placed_empty.addLines readOk

theorem find?_mem {listing : Listing} {name : String} {definition : LabelDef}
    (found : listing.find? name = some definition) : definition ∈ listing.labels :=
  List.mem_of_find?_eq_some found

/-! ## The second pass -/

/-- The instruction a statement body stands for once its branch label is replaced by the
offset the label marks: a complete instruction stands for itself, and a branch to a label
for the branch to a byte whose value is the label's offset. -/
inductive Resolves (listing : Listing) : Body → Instruction → Prop
  | instruction (complete : Instruction) : Resolves listing (.instruction complete) complete
  | jump {condition : Condition} {label : String} {span : Span} {definition : LabelDef}
      {target : UInt8} (found : listing.find? label = some definition)
      (marks : target.toNat = definition.offset) :
      Resolves listing (.jump condition label span) (.branch condition target)

theorem Resolves.opcode {listing : Listing} {body : Body} {instruction : Instruction}
    (resolves : listing.Resolves body instruction) : instruction.opcode = body.opcode := by
  cases resolves <;> rfl

theorem Resolves.length {listing : Listing} {statement : Statement} {instruction : Instruction}
    (resolves : listing.Resolves statement.body instruction) :
    instruction.bytes.length = statement.length := by
  rw [Instruction.length_bytes, Instruction.length, resolves.opcode, Statement.length]

theorem Resolves.target {listing : Listing} {body : Body} {condition : Condition}
    {target : UInt8} (labelled : body.branchesByLabel = true)
    (resolves : listing.Resolves body (.branch condition target)) :
    ∃ definition ∈ listing.labels, target.toNat = definition.offset := by
  cases resolves with
  | instruction => cases labelled
  | jump found marks => exact ⟨_, find?_mem found, marks⟩

theorem toNat_of_target {label : String} {offset line : Nat} {span : Span} {byte : UInt8}
    (targeted : target label offset line span = .ok byte) : byte.toNat = offset := by
  unfold target at targeted
  split at targeted
  · cases targeted
    rw [Nat.toUInt8_eq, UInt8.toNat_ofNat']
    omega
  · cases targeted

theorem resolve_resolves {listing : Listing} {statement : Statement} {instruction : Instruction}
    (resolved : listing.resolve statement = .ok instruction) :
    listing.Resolves statement.body instruction := by
  unfold resolve at resolved
  split at resolved
  · rename_i complete body
    cases resolved
    rw [body]
    exact .instruction instruction
  · rename_i condition label span body
    rw [body]
    split at resolved
    · rename_i definition found
      cases targeted : target label definition.offset statement.line span with
      | error e => simp [targeted, Functor.map, Except.map] at resolved
      | ok byte =>
        simp only [targeted, Functor.map, Except.map, Except.ok.injEq] at resolved
        subst resolved
        exact .jump found (toNat_of_target targeted)
    · cases resolved

theorem encode_instruction (instruction : Instruction) :
    instruction.opcode.encode instruction.operands = .ok instruction.bytes :=
  Opcode.encode_of_layout_eq (Instruction.operands_layout instruction)

theorem encodeStatement_eq (listing : Listing) (statement : Statement) :
    listing.encodeStatement statement = Instruction.bytes <$> listing.resolve statement := by
  unfold encodeStatement
  cases listing.resolve statement with
  | error error => rfl
  | ok instruction => simp only [bind, Except.bind, encode_instruction]; rfl

theorem mapM_encodeStatement (listing : Listing) (statements : List Statement) :
    statements.mapM listing.encodeStatement =
      List.map Instruction.bytes <$> statements.mapM listing.resolve := by
  induction statements with
  | nil => rfl
  | cons statement rest ih =>
    simp only [List.mapM_cons, encodeStatement_eq, ih]
    cases listing.resolve statement <;> cases rest.mapM listing.resolve <;> rfl

theorem emit_of_no_entry {listing : Listing} (missing : listing.entry? = none) :
    listing.emit = .error .missingEntryPoint := by
  simp [emit, missing, throw, throwThe, MonadExceptOf.throw]

theorem emit_of_entry {listing : Listing} {entry : LabelDef} (found : listing.entry? = some entry) :
    listing.emit = (do
      let start ← target entryLabel entry.offset entry.line entry.span
      let instructions ← listing.statements.mapM listing.resolve
      pure ⟨start, instructions.map Instruction.bytes⟩) := by
  simp only [emit, found, mapM_encodeStatement, bind_map_left]

/-- What the second pass produces from a listing: the entry label's offset as the start, and
one instruction per statement, the bytes of the instruction the statement resolves to. -/
structure Emits (listing : Listing) (program : Program) : Prop where
  start : ∃ entry, listing.entry? = some entry ∧ program.start.toNat = entry.offset
  length : program.instructions.length = listing.statements.length
  instructions : ∀ (index : Nat) (statement : Statement),
    listing.statements[index]? = some statement →
    ∃ instruction, listing.Resolves statement.body instruction ∧
      program.instructions[index]? = some instruction.bytes

theorem emits_of_emit {listing : Listing} {program : Program}
    (emitted : listing.emit = .ok program) : listing.Emits program := by
  cases found : listing.entry? with
  | none =>
    rw [emit_of_no_entry found] at emitted
    cases emitted
  | some entry =>
    rw [emit_of_entry found] at emitted
    simp only [bind_eq_ok, pure_eq_ok] at emitted
    obtain ⟨start, started, instructions, mapped, rfl⟩ := emitted
    obtain ⟨sameLength, elements⟩ := getElem?_of_mapM_eq_ok mapped
    refine ⟨⟨entry, found, toNat_of_target started⟩, by simp [sameLength], ?_⟩
    intro index statement stated
    obtain ⟨instruction, emittedAt, resolved⟩ := elements index statement stated
    exact ⟨instruction, resolve_resolves resolved, by simp [emittedAt]⟩

theorem find?_name {listing : Listing} {name : String} {definition : LabelDef}
    (found : listing.find? name = some definition) : definition.name = name := by
  simpa using List.find?_some found

/-! ## The program's layout -/

theorem offsetOf_succ {listing : Listing} {index : Nat} {statement : Statement}
    (stated : listing.statements[index]? = some statement) :
    listing.offsetOf (index + 1) = listing.offsetOf index + statement.length := by
  simp [offsetOf, List.take_add_one, List.getElem?_map, stated]

theorem offsetOf_length (listing : Listing) :
    listing.offsetOf listing.statements.length = (listing.statements.map Statement.length).sum := by
  rw [offsetOf, List.take_of_length_le (by simp)]

namespace Emits

variable {listing : Listing} {program : Program}

theorem map_length (emits : listing.Emits program) :
    program.instructions.map List.length = listing.statements.map Statement.length := by
  apply List.ext_getElem?
  intro index
  simp only [List.getElem?_map]
  cases stated : listing.statements[index]? with
  | none =>
    have beyond : program.instructions[index]? = none := by
      rw [List.getElem?_eq_none_iff, emits.length]
      exact List.getElem?_eq_none_iff.mp stated
    simp [beyond]
  | some statement =>
    obtain ⟨instruction, resolves, emittedAt⟩ := emits.instructions index statement stated
    simp [emittedAt, resolves.length]

theorem bytes_length (emits : listing.Emits program) :
    program.bytes.length = listing.offsetOf listing.statements.length := by
  rw [Program.bytes, List.length_flatten, emits.map_length, offsetOf_length]

theorem drop_offsetOf (emits : listing.Emits program) {index : Nat} {statement : Statement}
    (stated : listing.statements[index]? = some statement) :
    ∃ instruction rest, listing.Resolves statement.body instruction ∧
      program.instructions[index]? = some instruction.bytes ∧
      program.bytes.drop (listing.offsetOf index) = instruction.bytes ++ rest := by
  obtain ⟨instruction, resolves, emittedAt⟩ := emits.instructions index statement stated
  obtain ⟨rest, placed⟩ := drop_flatten emittedAt
  refine ⟨instruction, rest, resolves, emittedAt, ?_⟩
  rw [offsetOf, ← emits.map_length]
  exact placed

end Emits

/-! ## What an assembled program is -/

/-- Statement `index` of a listing stands in a program as `instruction`: the instruction is the
statement's, its label resolved, encoded by the statement's opcode as the program's instruction
`index`, as long as the statement; a branch target it has is a label's offset; and in the
memory image its bytes start at the statement's offset, where the code byte names the
statement's opcode and the bytes after it decode to the instruction. -/
structure Stands (listing : Listing) (program : Program) (index : Nat) (statement : Statement)
    (instruction : Instruction) : Prop where
  stated : listing.statements[index]? = some statement
  resolves : listing.Resolves statement.body instruction
  encoded : statement.body.opcode.encode instruction.operands = .ok instruction.bytes
  emitted : program.instructions[index]? = some instruction.bytes
  length : instruction.bytes.length = statement.length
  targets : ∀ condition target, instruction = .branch condition target →
    ∃ definition ∈ listing.labels, target.toNat = definition.offset
  image : ∃ rest, program.bytes.drop (listing.offsetOf index) = instruction.bytes ++ rest
  code : ∃ code, program.bytes[listing.offsetOf index]? = some code ∧
    Opcode.ofCode code = .ok statement.body.opcode
  decoded :
    statement.body.opcode.decode (program.bytes.drop (listing.offsetOf index + 1)) = .ok instruction

/-- How an assembled program lays out its listing: one instruction per statement, each where
the statement stands, an image as long as the listing, the entry label's offset as the start,
and every label at the offset of a statement or at the end. -/
structure LaysOut (listing : Listing) (program : Program) : Prop where
  count : program.instructions.length = listing.statements.length
  size : program.bytes.length = listing.offset
  offset : listing.offset = listing.offsetOf listing.statements.length
  statements : ∀ (index : Nat) (statement : Statement),
    listing.statements[index]? = some statement →
      ∃ instruction, listing.Stands program index statement instruction
  entry : ∃ entry ∈ listing.labels, entry.name = entryLabel ∧ program.start.toNat = entry.offset
  labels : ∀ definition ∈ listing.labels,
    ∃ index ≤ listing.statements.length, definition.offset = listing.offsetOf index

theorem Placed.stands {listing : Listing} {program : Program} (placed : listing.Placed)
    (emits : listing.Emits program) {index : Nat} {statement : Statement}
    (stated : listing.statements[index]? = some statement) :
    ∃ instruction, listing.Stands program index statement instruction := by
  obtain ⟨instruction, rest, resolves, emittedAt, image⟩ := emits.drop_offsetOf stated
  have sameOpcode := resolves.opcode
  obtain ⟨code, decoded⟩ := decode_of_drop image
  refine ⟨instruction, stated, resolves, ?_, emittedAt, resolves.length, ?_, ⟨rest, image⟩,
    ⟨_, code, by rw [sameOpcode, ofCode_code]⟩, by rw [← sameOpcode]; exact decoded⟩
  · rw [← sameOpcode]
    exact Opcode.encode_of_layout_eq (Instruction.operands_layout instruction)
  · intro condition target branch
    rw [branch] at resolves
    exact resolves.target (placed.bodies statement (List.mem_of_getElem? stated))

theorem Placed.laysOut {listing : Listing} {program : Program} (placed : listing.Placed)
    (emits : listing.Emits program) : listing.LaysOut program := by
  obtain ⟨entry, found, started⟩ := emits.start
  refine ⟨emits.length, ?_, placed.offset, fun index statement stated => placed.stands emits stated,
    ⟨entry, find?_mem found, find?_name found, started⟩, placed.labels⟩
  rw [emits.bytes_length, placed.offset]

end Listing

theorem parse_emit_of_assemble {source : String} {program : Program}
    (assembled : assemble source = .ok program) :
    ∃ listing, Listing.parse source = .ok listing ∧ listing.emit = .ok program := by
  simpa only [assemble, bind_eq_ok] using assembled

end ByteMachine
