import ByteMachine.Proofs.Assembly.Layout
/-!
# Offsets of the first pass

The statements are those of the lines that hold a name, and each label marks the sum of the
lengths of the statements on the lines before its own (`Counted`,
`pass_one_offsets_are_prefix_sums`).
-/

set_option autoImplicit false

namespace ByteMachine

namespace Listing

/-! ## Sums of statement lengths -/

theorem sum_filter_line_le (statements : List Statement) {line later : Nat} (le : line ≤ later) :
    ((statements.filter (·.line < line)).map Statement.length).sum ≤
      ((statements.filter (·.line < later)).map Statement.length).sum := by
  induction statements with
  | nil => simp
  | cons statement rest ih =>
    by_cases before : statement.line < line
    · have beforeLater : statement.line < later := by omega
      simp [before, beforeLater]
      omega
    · by_cases beforeLater : statement.line < later
      · simp [before, beforeLater]
        omega
      · simpa [before, beforeLater] using ih

theorem sum_filter_le_sum (statements : List Statement) (line : Nat) :
    ((statements.filter (·.line < line)).map Statement.length).sum ≤
      (statements.map Statement.length).sum := by
  have kept : (statements.filter (·.line < line)).Sublist statements := List.filter_sublist
  exact (kept.map Statement.length).sum_le_sum fun _ _ => Nat.zero_le _

theorem filter_line_of_lt {statements : List Statement} {line : Nat}
    (before : ∀ statement ∈ statements, statement.line < line) :
    statements.filter (·.line < line) = statements :=
  List.filter_eq_self.mpr fun statement within => by simpa using before statement within

/-! ## What the first pass keeps -/

/-- What holds of the listing read before line `line`: its offset is the length of its
statements; its statements and labels stand on earlier lines; the labels have distinct names,
come in the order of their lines, and each marks the length of the statements on the lines
before its own. -/
structure Counted (listing : Listing) (line : Nat) : Prop where
  offset : listing.offset = (listing.statements.map Statement.length).sum
  statements : ∀ statement ∈ listing.statements, statement.line < line
  labels : ∀ definition ∈ listing.labels, definition.line < line
  names : (listing.labels.map LabelDef.name).Nodup
  lines : (listing.labels.map LabelDef.line).Pairwise (· < ·)
  marks : ∀ definition ∈ listing.labels, definition.offset =
    ((listing.statements.filter (·.line < definition.line)).map Statement.length).sum

theorem counted_empty (line : Nat) : ({} : Listing).Counted line where
  offset := rfl
  statements _ stated := by cases stated
  labels _ defined := by cases defined
  names := List.nodup_nil
  lines := List.Pairwise.nil
  marks _ defined := by cases defined

theorem Counted.mono {listing : Listing} {line later : Nat} (counted : listing.Counted line)
    (le : line ≤ later) : listing.Counted later :=
  { counted with
    statements := fun statement stated => by have := counted.statements statement stated; omega
    labels := fun definition defined => by have := counted.labels definition defined; omega }

theorem find?_eq_none_of_defineLabel {listing next : Listing} {line : Nat} {token : Token}
    (defined : listing.defineLabel line token = .ok next) :
    listing.find? (String.ofList token.text.toList.dropLast) = none := by
  unfold defineLabel at defined
  dsimp only at defined
  split at defined
  · cases defined
  · split at defined
    · cases defined
    · rename_i fresh
      exact Option.not_isSome_iff_eq_none.mp fresh

theorem Counted.defineLabel {listing next : Listing} {line : Nat} {token : Token}
    (counted : listing.Counted line) (defined : listing.defineLabel line token = .ok next) :
    next.Counted (line + 1) := by
  have fresh := find?_eq_none_of_defineLabel defined
  obtain rfl := eq_of_defineLabel defined
  have freshName : ∀ definition ∈ listing.labels,
      definition.name ≠ String.ofList token.text.toList.dropLast := by
    intro definition defined named
    have := List.find?_eq_none.mp fresh definition defined
    simp [named] at this
  refine ⟨counted.offset, fun statement stated => ?_, fun definition defined => ?_, ?_, ?_, ?_⟩
  · have := counted.statements statement stated
    omega
  · rcases List.mem_append.mp defined with old | new
    · have := counted.labels definition old
      omega
    · rw [List.mem_singleton.mp new]
      exact Nat.lt_succ_self line
  · rw [List.map_append, List.nodup_append]
    refine ⟨counted.names, List.nodup_singleton _, ?_⟩
    intro name named other new
    obtain ⟨definition, defined, rfl⟩ := List.mem_map.mp named
    rw [List.map_singleton, List.mem_singleton] at new
    rw [new]
    exact freshName definition defined
  · rw [List.map_append, List.pairwise_append]
    refine ⟨counted.lines, List.pairwise_singleton _ _, ?_⟩
    intro earlier named later new
    obtain ⟨definition, defined, rfl⟩ := List.mem_map.mp named
    rw [List.map_singleton, List.mem_singleton] at new
    rw [new]
    exact counted.labels definition defined
  · intro definition defined
    rcases List.mem_append.mp defined with old | new
    · exact counted.marks definition old
    · rw [List.mem_singleton.mp new]
      simp only [filter_line_of_lt counted.statements]
      exact counted.offset

theorem Counted.addStatement {listing : Listing} {line : Nat} {statement : Statement}
    (counted : listing.Counted (line + 1)) (onLine : statement.line = line) :
    (listing.addStatement statement).Counted (line + 1) := by
  refine ⟨?_, fun other stated => ?_, counted.labels, counted.names, counted.lines,
    fun definition defined => ?_⟩
  · simp [Listing.addStatement, counted.offset]
  · rcases List.mem_append.mp stated with old | new
    · exact counted.statements other old
    · rw [List.mem_singleton.mp new]
      omega
  · have notBefore : ¬ statement.line < definition.line := by
      have := counted.labels definition defined
      omega
    simp [Listing.addStatement, List.filter_append, notBefore, counted.marks definition defined]

theorem Counted.addLine {listing next : Listing} {line : Nat} {tokens : List Token}
    (counted : listing.Counted line) (added : listing.addLine line tokens = .ok next) :
    next.Counted (line + 1) := by
  obtain ⟨labelled, labelling, stating⟩ := addLine_cases added
  have countedLabelled : labelled.Counted (line + 1) := by
    rcases labelling with rfl | ⟨token, -, -, defined⟩
    · exact counted.mono (Nat.le_succ line)
    · exact counted.defineLabel defined
  rcases stating with rfl | ⟨-, mnemonic, operands, read, -, readOk, rfl⟩
  · exact countedLabelled
  · obtain ⟨-, -, -, -, -, -, -, rfl⟩ := statement_eq_ok readOk
    exact countedLabelled.addStatement rfl

theorem Counted.addLines {listing next : Listing} {line : Nat} {lines : List (List Token)}
    (counted : listing.Counted line) (added : listing.addLines line lines = .ok next) :
    next.Counted (line + lines.length) := by
  induction lines generalizing listing line with
  | nil =>
    cases added
    exact counted
  | cons tokens rest ih =>
    simp only [Listing.addLines, bind_eq_ok] at added
    obtain ⟨afterFirst, first, others⟩ := added
    have next := ih (counted.addLine first) others
    rwa [List.length_cons, ← Nat.add_assoc, Nat.add_right_comm]

/-! ## Which lines hold statements -/

theorem addLine_statement_lines {listing next : Listing} {line : Nat} {tokens : List Token}
    (added : listing.addLine line tokens = .ok next) :
    next.statements.map Statement.line = listing.statements.map Statement.line ++
      if tokens.any (·.kind == .ident) then [line] else [] := by
  unfold addLine at added
  cases tokens with
  | nil =>
    cases added
    simp
  | cons first more =>
    by_cases label : first.kind = .label
    · simp only [label, if_true, bind_eq_ok, pure_eq_ok] at added
      obtain ⟨labelled, defined, _, rfl, added⟩ := added
      obtain rfl := eq_of_defineLabel defined
      cases more with
      | nil =>
        cases added
        simp [label]
      | cons mnemonic operands =>
        simp only [bind_eq_ok, pure_eq_ok] at added
        obtain ⟨read, readOk, rfl⟩ := added
        obtain ⟨-, -, -, ident, -, -, -, rfl⟩ := statement_eq_ok readOk
        have holds : (first :: mnemonic :: operands).any (·.kind == .ident) = true := by
          simp [ident]
        simp [Listing.addStatement, holds]
    · simp only [label, if_false, bind_eq_ok, pure_eq_ok] at added
      obtain ⟨_, rfl, added⟩ := added
      simp only [bind_eq_ok, pure_eq_ok] at added
      obtain ⟨read, readOk, rfl⟩ := added
      obtain ⟨-, -, -, ident, -, -, -, rfl⟩ := statement_eq_ok readOk
      have holds : (first :: more).any (·.kind == .ident) = true := by simp [ident]
      simp [Listing.addStatement, holds]

theorem addLines_statement_lines {listing next : Listing} {line : Nat}
    {lines : List (List Token)} (added : listing.addLines line lines = .ok next) :
    next.statements.map Statement.line = listing.statements.map Statement.line ++
      ((lines.zipIdx line).filter (·.1.any (·.kind == .ident))).map Prod.snd := by
  induction lines generalizing listing line with
  | nil =>
    cases added
    simp
  | cons tokens rest ih =>
    simp only [Listing.addLines, bind_eq_ok] at added
    obtain ⟨afterFirst, first, others⟩ := added
    rw [ih others, addLine_statement_lines first, List.zipIdx_cons, List.filter_cons]
    by_cases holds : tokens.any (·.kind == .ident) = true <;> simp [holds]

/-! ## The whole first pass -/

theorem addLines_of_parse {source : String} {listing : Listing}
    (parsed : parse source = .ok listing) :
    ({} : Listing).addLines 1 (sourceLines source) = .ok listing ∧
      ∃ entry, listing.entry? = some entry := by
  simp only [parse, bind_eq_ok] at parsed
  obtain ⟨read, readOk, checked⟩ := parsed
  split at checked
  · cases checked
  · rename_i defined
    cases checked
    exact ⟨readOk, Option.ne_none_iff_exists'.mp (by simpa using defined)⟩

end Listing

/-- The first pass computes offsets as sums of encoded lengths. Of a source it reads, the
statements are, in order, one for each line that holds a name, on that line; the offset reached
is the sum of the statements' lengths; the labels have distinct names and are listed in the
order of their lines; each label marks the sum of the lengths of the statements on the lines
before its own, so label offsets never decrease and never pass the end; and the entry is the
definition of `start`. -/
theorem pass_one_offsets_are_prefix_sums {source : String} {listing : Listing}
    (parsed : Listing.parse source = .ok listing) :
    listing.statements.map Statement.line =
      (((Listing.sourceLines source).zipIdx 1).filter (·.1.any (·.kind == .ident))).map
        Prod.snd ∧
    listing.offset = (listing.statements.map Statement.length).sum ∧
    (listing.labels.map LabelDef.name).Nodup ∧
    (listing.labels.map LabelDef.line).Pairwise (· < ·) ∧
    (∀ definition ∈ listing.labels, definition.offset =
      ((listing.statements.filter (·.line < definition.line)).map Statement.length).sum) ∧
    (listing.labels.map LabelDef.offset).Pairwise (· ≤ ·) ∧
    (∀ definition ∈ listing.labels, definition.offset ≤ listing.offset) ∧
    ∃ entry ∈ listing.labels, listing.entry? = some entry ∧ entry.name = entryLabel := by
  obtain ⟨readAll, entry, found⟩ := Listing.addLines_of_parse parsed
  have counted := (Listing.counted_empty 1).addLines readAll
  have ordered : listing.labels.Pairwise fun earlier later => earlier.line < later.line :=
    List.pairwise_map.mp counted.lines
  refine ⟨by simpa using Listing.addLines_statement_lines readAll, counted.offset, counted.names,
    counted.lines, counted.marks, ?_, fun definition defined => ?_,
    entry, Listing.find?_mem found, found, Listing.find?_name found⟩
  · refine List.pairwise_map.mpr (ordered.imp_of_mem fun earlierIn laterIn before => ?_)
    rw [counted.marks _ earlierIn, counted.marks _ laterIn]
    exact Listing.sum_filter_line_le _ (Nat.le_of_lt before)
  · rw [counted.marks definition defined, counted.offset]
    exact Listing.sum_filter_le_sum _ _

/-- A count-down loop with a comment line, an empty line, a label sharing its line with a
statement and a label alone on its line: the statements stand on lines 2, 4, 5 and 7, and the
labels mark offsets 0, 5 and 10 of 11. -/
theorem pass_one_offsets_are_prefix_sums_on_countdown :
    let text := "; counts down\nstart: move.b #$5, d0\n\nloop: dec d0 ; body\njne loop\nend:\nhalt"
    ∃ listing, Listing.parse text = .ok listing ∧
      listing.labels.map (fun definition => (definition.name, definition.offset)) =
        [("start", 0), ("loop", 5), ("end", 10)] ∧
      listing.statements.map Statement.line =
        (((Listing.sourceLines text).zipIdx 1).filter (·.1.any (·.kind == .ident))).map
          Prod.snd ∧
      listing.offset = (listing.statements.map Statement.length).sum ∧
      (listing.labels.map LabelDef.name).Nodup ∧
      (listing.labels.map LabelDef.line).Pairwise (· < ·) ∧
      (∀ definition ∈ listing.labels, definition.offset =
        ((listing.statements.filter (·.line < definition.line)).map Statement.length).sum) ∧
      (listing.labels.map LabelDef.offset).Pairwise (· ≤ ·) ∧
      (∀ definition ∈ listing.labels, definition.offset ≤ listing.offset) ∧
      ∃ entry ∈ listing.labels, listing.entry? = some entry ∧ entry.name = entryLabel := by
  intro text
  have parsed : Listing.parse text = .ok
      ⟨[⟨2, ⟨21, 14⟩, .instruction (.move ⟨.number, 5⟩ ⟨.data, 0⟩)⟩,
        ⟨4, ⟨43, 6⟩, .instruction (.adjust .dec ⟨.data, 0⟩)⟩,
        ⟨5, ⟨57, 8⟩, .jump .notEqual "loop" ⟨61, 4⟩⟩,
        ⟨7, ⟨71, 4⟩, .instruction .halt⟩],
        [⟨"start", 0, 2, ⟨14, 5⟩⟩, ⟨"loop", 5, 4, ⟨37, 4⟩⟩, ⟨"end", 10, 6, ⟨66, 3⟩⟩], 11⟩ := by
    decide +kernel
  exact ⟨_, parsed, rfl, pass_one_offsets_are_prefix_sums parsed⟩

end ByteMachine
