import ByteMachine.Proofs.Assembly.SourceLines
import ByteMachine.Proofs.Assembly.Layout
/-!
# Where statements, labels and errors stand

Every statement, label and reported error has a span on the line the pass numbers: whole
characters, no line feed, and as many line feeds before it as its line less one
(`Listing.Spanned`, `reported_lines_match_spans`).
-/

set_option autoImplicit false

namespace ByteMachine

/-! ## Positions in a source -/

/-- A statement's span runs from its mnemonic through its last operand: it covers a run of the
source's tokens that starts with a name of the statement's operation and ends with an operand
token, or is the mnemonic alone, and after the run the line holds only blanks and comments. -/
def Statement.Runs (source : String) (statement : Statement) : Prop :=
  ∃ before mnemonic middle after, Token.scan source = before ++ mnemonic :: middle ++ after ∧
    statement.span = ⟨mnemonic.span.offset, byteLength (Token.chars (mnemonic :: middle))⟩ ∧
    mnemonic.kind = .ident ∧ Opcode.lookup mnemonic.text = .ok statement.body.opcode ∧
    (∀ last ∈ middle.getLast?, last.isOperand = true) ∧
    ∀ token ∈ after.takeWhile (·.kind != .newline), token.isSignificant = false

/-- A label's span covers its name, which stands in the source right before a colon. -/
def LabelDef.Names (source : String) (definition : LabelDef) : Prop :=
  ∃ before after, source.toList = before ++ definition.name.toList ++ ':' :: after ∧
    byteLength before = definition.span.offset ∧
    byteLength definition.name.toList = definition.span.length

/-- An error's span lies on its line, when it has both. -/
def AsmError.OnLine (source : String) (error : AsmError) : Prop :=
  ∀ line ∈ error.line?, ∀ span ∈ error.span?, span.OnLine source line

theorem AsmError.onLine_of {source : String} {error : AsmError} {line : Nat} {span : Span}
    (named : error.line? = some line) (spanned : error.span? = some span)
    (onLine : span.OnLine source line) : error.OnLine source := by
  intro reported hasLine covered hasSpan
  rw [named, Option.mem_some_iff] at hasLine
  rw [spanned, Option.mem_some_iff] at hasSpan
  rw [← hasLine, ← hasSpan]
  exact onLine

/-! ## Where a computation fails -/

theorem map_eq_ok {ε α β : Type} {f : α → β} {result : Except ε α} {value : β} :
    f <$> result = .ok value ↔ ∃ inner, result = .ok inner ∧ f inner = value := by
  cases result <;> simp [Functor.map, Except.map]

theorem map_eq_error {ε α β : Type} {f : α → β} {result : Except ε α} {error : ε} :
    f <$> result = .error error ↔ result = .error error := by
  cases result <;> simp [Functor.map, Except.map]

theorem bind_eq_error {ε α β : Type} {first : Except ε α} {next : α → Except ε β} {error : ε} :
    first >>= next = .error error ↔
      first = .error error ∨ ∃ value, first = .ok value ∧ next value = .error error := by
  cases first <;> simp [bind, Except.bind]

theorem mapM_eq_error {α β ε : Type} {f : α → Except ε β} {xs : List α} {error : ε}
    (failed : xs.mapM f = .error error) : ∃ x ∈ xs, f x = .error error := by
  induction xs with
  | nil => cases failed
  | cons x rest ih =>
    simp only [List.mapM_cons, bind_eq_error] at failed
    rcases failed with first | ⟨y, -, failed⟩
    · exact ⟨x, List.mem_cons_self, first⟩
    · rcases failed with others | ⟨ys, -, failed⟩
      · obtain ⟨other, within, otherFailed⟩ := ih others
        exact ⟨other, List.mem_cons_of_mem _ within, otherFailed⟩
      · cases failed

/-! ## Errors at a token -/

namespace Token

theorem toOperand_error {token : Token} {line : Nat} {error : AsmError}
    (failed : token.toOperand line = .error error) :
    error.line? = some line ∧ error.span? = some token.span := by
  unfold toOperand at failed
  split at failed
  · split at failed
    · cases failed
    · cases failed
      exact ⟨rfl, rfl⟩
  · split at failed
    · split at failed
      · cases failed
      · cases failed
        exact ⟨rfl, rfl⟩
    · cases failed
      exact ⟨rfl, rfl⟩
  · split at failed
    · cases failed
    · cases failed
      exact ⟨rfl, rfl⟩
  · cases failed
    exact ⟨rfl, rfl⟩

theorem toLabel_error {token : Token} {line : Nat} {error : AsmError}
    (failed : token.toLabel line = .error error) :
    error.line? = some line ∧ error.span? = some token.span := by
  unfold toLabel at failed
  split at failed
  · cases failed
  · cases failed
    exact ⟨rfl, rfl⟩

end Token

/-! ## Reading a line -/

theorem operandTokens_ok {line : Nat} {rest operands : List Token}
    (read : operandTokens line rest = .ok operands) :
    operands.getLast? = rest.getLast? ∧
      ∀ operand ∈ operands, operand ∈ rest ∧ operand.isOperand = true := by
  fun_induction operandTokens line rest generalizing operands with
  | case1 =>
    cases read
    exact ⟨rfl, by simp⟩
  | case2 token isOperand =>
    cases read
    exact ⟨rfl, by simp [isOperand]⟩
  | case4 token isOperand separator comma next more ih =>
    obtain ⟨tail, tailOk, rfl⟩ := map_eq_ok.mp read
    obtain ⟨last, within⟩ := ih tailOk
    refine ⟨by simp [List.getLast?_cons, last], fun operand inside => ?_⟩
    rcases List.mem_cons.mp inside with rfl | later
    · exact ⟨List.mem_cons_self, isOperand⟩
    · obtain ⟨inRest, operandKind⟩ := within operand later
      exact ⟨List.mem_cons_of_mem _ (List.mem_cons_of_mem _ inRest), operandKind⟩
  | case3 | case5 | case6 => cases read

theorem operandTokens_error {line : Nat} {rest : List Token} {error : AsmError}
    (failed : operandTokens line rest = .error error) :
    ∃ token ∈ rest, error = token.unexpected line := by
  fun_induction operandTokens line rest with
  | case1 | case2 => cases failed
  | case3 token isOperand separator comma =>
    cases failed
    exact ⟨separator, by simp, rfl⟩
  | case4 token isOperand separator comma next more ih =>
    obtain ⟨culprit, within, rfl⟩ := ih (map_eq_error.mp failed)
    exact ⟨culprit, List.mem_cons_of_mem _ (List.mem_cons_of_mem _ within), rfl⟩
  | case5 token isOperand separator more notComma =>
    cases failed
    exact ⟨separator, by simp, rfl⟩
  | case6 token more notOperand =>
    cases failed
    exact ⟨token, List.mem_cons_self, rfl⟩

namespace Listing

theorem body_error {line : Nat} {opcode : Opcode} {span : Span} {operands : List Token}
    {error : AsmError} (failed : body line opcode span operands = .error error) :
    error.line? = some line ∧
      (error.span? = some span ∨ ∃ token ∈ operands, error.span? = some token.span) := by
  unfold body at failed
  split at failed
  case h_8 =>
    cases failed
    exact ⟨rfl, .inl rfl⟩
  all_goals
    simp only [bind_eq_error, pure, Except.pure, reduceCtorEq, and_false, exists_false,
      or_false] at failed
  case h_1 src dest | h_4 src dest | h_7 src dest =>
    rcases failed with srcFailed | ⟨-, -, destFailed⟩
    · obtain ⟨named, spanned⟩ := Token.toOperand_error srcFailed
      exact ⟨named, .inr ⟨src, by simp, spanned⟩⟩
    · obtain ⟨named, spanned⟩ := Token.toOperand_error destFailed
      exact ⟨named, .inr ⟨dest, by simp, spanned⟩⟩
  case h_2 dest =>
    obtain ⟨named, spanned⟩ := Token.toOperand_error failed
    exact ⟨named, .inr ⟨dest, by simp, spanned⟩⟩
  case h_5 target =>
    obtain ⟨named, spanned⟩ := Token.toLabel_error failed
    exact ⟨named, .inr ⟨target, by simp, spanned⟩⟩

theorem statement_cases {line : Nat} {mnemonic : Token} {rest : List Token} {read : Statement}
    (readOk : statement line mnemonic rest = .ok read) :
    read.line = line ∧ mnemonic.kind = .ident ∧
      Opcode.lookup mnemonic.text = .ok read.body.opcode ∧
      read.span = mnemonic.span.cover (rest.getLast?.getD mnemonic).span ∧
      (∀ last ∈ rest.getLast?, last.isOperand = true) ∧
      ∀ condition label target, read.body = .jump condition label target →
        ∃ token ∈ rest, target = token.span := by
  obtain ⟨opcode, operands, built, ident, found, operandsOk, builtOk, rfl⟩ := statement_eq_ok readOk
  obtain ⟨lastOf, operandsIn⟩ := operandTokens_ok operandsOk
  obtain ⟨opcodeOf, -, jumps⟩ := body_cases builtOk
  refine ⟨rfl, ident, by rw [opcodeOf, found], by rw [lastOf], fun last isLast => ?_,
    fun condition label target jump => ?_⟩
  · rw [← lastOf] at isLast
    exact (operandsIn last (List.mem_of_getLast? isLast)).2
  · obtain ⟨token, within, rfl⟩ := jumps condition label target jump
    exact ⟨token, (operandsIn token within).1, rfl⟩

theorem statement_error {line : Nat} {mnemonic : Token} {rest : List Token} {error : AsmError}
    (failed : statement line mnemonic rest = .error error) :
    error.line? = some line ∧ (error.span? = some mnemonic.span ∨
      (∃ token ∈ rest, error.span? = some token.span) ∨
      ∃ last ∈ rest.getLast?, error.span? = some (mnemonic.span.cover last.span)) := by
  unfold statement at failed
  by_cases ident : mnemonic.kind = .ident
  · cases found : Opcode.lookup mnemonic.text with
    | error e =>
      simp [ident, found, throw, throwThe, MonadExceptOf.throw, bind, Except.bind] at failed
      subst failed
      exact ⟨rfl, .inl rfl⟩
    | ok opcode =>
      simp only [ident, found, ne_eq, not_true_eq_false, if_false, bind_eq_error, pure,
        Except.pure, reduceCtorEq, and_false, exists_false, or_false, false_or,
        Except.ok.injEq, exists_eq_left'] at failed
      rcases failed with operandsFailed | ⟨operands, operandsOk, bodyFailed⟩
      · obtain ⟨token, within, rfl⟩ := operandTokens_error operandsFailed
        exact ⟨rfl, .inr (.inl ⟨token, within, rfl⟩)⟩
      · obtain ⟨lastOf, operandsIn⟩ := operandTokens_ok operandsOk
        obtain ⟨named, spanned⟩ := body_error bodyFailed
        refine ⟨named, ?_⟩
        rcases spanned with whole | ⟨token, within, spanned⟩
        · rw [lastOf] at whole
          cases lastRest : rest.getLast? with
          | none =>
            rw [lastRest] at whole
            exact .inl whole
          | some last =>
            rw [lastRest] at whole
            exact .inr (.inr ⟨last, rfl, whole⟩)
        · exact .inr (.inl ⟨token, (operandsIn token within).1, spanned⟩)
  · simp [ident, throw, throwThe, MonadExceptOf.throw, bind, Except.bind] at failed
    subst failed
    exact ⟨rfl, .inl rfl⟩

theorem defineLabel_error {listing : Listing} {line : Nat} {token : Token} {error : AsmError}
    (failed : listing.defineLabel line token = .error error) :
    error.line? = some line ∧ error.span? = some ⟨token.span.offset, token.span.length - 1⟩ := by
  unfold defineLabel at failed
  dsimp only at failed
  split at failed
  · cases failed
    exact ⟨rfl, rfl⟩
  · split at failed
    · cases failed
      exact ⟨rfl, rfl⟩
    · cases failed

theorem addLine_error {listing : Listing} {line : Nat} {tokens : List Token} {error : AsmError}
    (failed : listing.addLine line tokens = .error error) :
    (∃ token ∈ tokens, token.kind = .label ∧ listing.defineLabel line token = .error error) ∨
      ∃ earlier mnemonic rest, tokens = earlier ++ mnemonic :: rest ∧
        statement line mnemonic rest = .error error := by
  unfold addLine at failed
  cases tokens with
  | nil => cases failed
  | cons first more =>
    by_cases label : first.kind = .label
    · simp only [label, if_true, bind_eq_error, pure, Except.pure, reduceCtorEq, false_or,
        Except.ok.injEq, exists_eq_left'] at failed
      rcases failed with labelFailed | ⟨labelled, -, stated⟩
      · exact .inl ⟨first, List.mem_cons_self, label, labelFailed⟩
      · cases more with
        | nil => cases stated
        | cons mnemonic operands =>
          simp only [bind_eq_error, reduceCtorEq, and_false, exists_false, or_false] at stated
          exact .inr ⟨[first], mnemonic, operands, rfl, stated⟩
    · simp only [label, if_false, bind_eq_error, pure, Except.pure, reduceCtorEq, false_or,
        Except.ok.injEq, exists_eq_left', and_false, exists_false, or_false] at failed
      exact .inr ⟨[], first, more, rfl, failed⟩

/-! ## The first pass keeps every position on its line -/

/-- What the first pass keeps of a source: every statement lies on its line and runs from its
mnemonic through its last operand, the label a branch names lies on the branch's line, and every
label definition lies on its line and covers its name. -/
structure Spanned (source : String) (listing : Listing) : Prop where
  statements : ∀ statement ∈ listing.statements,
    statement.span.OnLine source statement.line ∧ statement.Runs source
  jumps : ∀ statement ∈ listing.statements, ∀ condition label span,
    statement.body = .jump condition label span → span.OnLine source statement.line
  labels : ∀ definition ∈ listing.labels,
    definition.span.OnLine source definition.line ∧ definition.Names source

section Spanned

variable {source : String}

theorem spanned_empty : ({} : Listing).Spanned source where
  statements _ stated := by cases stated
  jumps _ stated := by cases stated
  labels _ defined := by cases defined

theorem Spanned.defineLabel {listing next : Listing} {line : Nat} {tokens : List Token}
    {token : Token} (spanned : listing.Spanned source) (lined : LineTokens source line tokens)
    (within : token ∈ tokens) (labelled : token.kind = .label)
    (defined : listing.defineLabel line token = .ok next) : next.Spanned source := by
  obtain rfl := eq_of_defineLabel defined
  obtain ⟨before, after, chars, offset, length, onLine⟩ := lined.label within labelled
  refine ⟨spanned.statements, spanned.jumps, fun definition added => ?_⟩
  rcases List.mem_append.mp added with old | new
  · exact spanned.labels definition old
  · rw [List.mem_singleton.mp new]
    exact ⟨onLine, before, after, by simpa using chars, offset, by simpa using length⟩

theorem Spanned.addStatement {listing : Listing} {line : Nat} {earlier rest : List Token}
    {mnemonic : Token} {read : Statement} (spanned : listing.Spanned source)
    (lined : LineTokens source line (earlier ++ mnemonic :: rest))
    (readOk : statement line mnemonic rest = .ok read) :
    (listing.addStatement read).Spanned source := by
  obtain ⟨lineOf, ident, opcodeOf, spanOf, operandLast, jumps⟩ := statement_cases readOk
  obtain ⟨before, middle, after, scanned, lastOf, blank, coverOf, onLine⟩ := lined.through
  have readSpan : read.span =
      ⟨mnemonic.span.offset, byteLength (Token.chars (mnemonic :: middle))⟩ :=
    spanOf.trans coverOf
  refine ⟨fun statement stated => ?_, fun statement stated condition label span jump => ?_,
    spanned.labels⟩
  · rcases List.mem_append.mp stated with old | new
    · exact spanned.statements statement old
    · rw [List.mem_singleton.mp new]
      refine ⟨by rw [readSpan, lineOf]; exact onLine, before, mnemonic, middle, after, scanned,
        readSpan, ident, opcodeOf, by rw [lastOf]; exact operandLast, blank⟩
  · rcases List.mem_append.mp stated with old | new
    · exact spanned.jumps statement old condition label span jump
    · rw [List.mem_singleton.mp new] at jump ⊢
      obtain ⟨token, within, rfl⟩ := jumps condition label span jump
      rw [lineOf]
      exact lined.onLine_token (List.mem_append_right _ (List.mem_cons_of_mem _ within))

theorem Spanned.addLine {listing next : Listing} {line : Nat} {tokens : List Token}
    (spanned : listing.Spanned source) (lined : LineTokens source line tokens)
    (added : listing.addLine line tokens = .ok next) : next.Spanned source := by
  obtain ⟨labelled, labelling, stating⟩ := addLine_cases added
  have spannedLabelled : labelled.Spanned source := by
    rcases labelling with rfl | ⟨token, within, label, defined⟩
    · exact spanned
    · exact spanned.defineLabel lined within label defined
  rcases stating with rfl | ⟨earlier, mnemonic, operands, read, rfl, readOk, rfl⟩
  · exact spannedLabelled
  · exact spannedLabelled.addStatement lined readOk

theorem addLine_error_onLine {listing : Listing} {line : Nat} {tokens : List Token}
    {error : AsmError} (lined : LineTokens source line tokens)
    (failed : listing.addLine line tokens = .error error) : error.OnLine source := by
  rcases addLine_error failed with ⟨token, within, labelled, labelFailed⟩ |
    ⟨earlier, mnemonic, rest, rfl, statementFailed⟩
  · obtain ⟨named, spanned⟩ := defineLabel_error labelFailed
    obtain ⟨-, -, -, -, -, onLine⟩ := lined.label within labelled
    exact AsmError.onLine_of named spanned onLine
  · obtain ⟨named, spanned⟩ := statement_error statementFailed
    rcases spanned with atMnemonic | ⟨token, within, atToken⟩ | ⟨last, isLast, atCover⟩
    · exact AsmError.onLine_of named atMnemonic (lined.onLine_token (by simp))
    · exact AsmError.onLine_of named atToken
        (lined.onLine_token (List.mem_append_right _ (List.mem_cons_of_mem _ within)))
    · exact AsmError.onLine_of named atCover (lined.onLine_cover (List.mem_of_getLast? isLast))

/-- Lines numbered from `line` on, each lying where its number says. -/
def Numbered (source : String) (line : Nat) (lines : List (List Token)) : Prop :=
  ∀ index tokens, lines[index]? = some tokens → LineTokens source (line + index) tokens

theorem Numbered.tail {line : Nat} {tokens : List Token} {rest : List (List Token)}
    (numbered : Numbered source line (tokens :: rest)) : Numbered source (line + 1) rest := by
  intro index others found
  have shifted : line + 1 + index = line + (index + 1) := by omega
  rw [shifted]
  exact numbered (index + 1) others found

theorem Spanned.addLines {listing next : Listing} {line : Nat} {lines : List (List Token)}
    (spanned : listing.Spanned source) (numbered : Numbered source line lines)
    (added : listing.addLines line lines = .ok next) : next.Spanned source := by
  induction lines generalizing listing line with
  | nil =>
    cases added
    exact spanned
  | cons tokens rest ih =>
    simp only [Listing.addLines, bind_eq_ok] at added
    obtain ⟨afterFirst, first, others⟩ := added
    exact ih (spanned.addLine (numbered 0 tokens rfl) first) numbered.tail others

theorem addLines_error_onLine {listing : Listing} {line : Nat} {lines : List (List Token)}
    {error : AsmError} (numbered : Numbered source line lines)
    (failed : listing.addLines line lines = .error error) : error.OnLine source := by
  induction lines generalizing listing line with
  | nil => cases failed
  | cons tokens rest ih =>
    simp only [Listing.addLines, bind_eq_error] at failed
    rcases failed with first | ⟨afterFirst, -, others⟩
    · exact addLine_error_onLine (numbered 0 tokens rfl) first
    · exact ih numbered.tail others

theorem numbered_sourceLines (source : String) : Numbered source 1 (sourceLines source) := by
  intro index tokens found
  rw [Nat.add_comm]
  exact lineTokens_sourceLines found

theorem spanned_of_parse {listing : Listing} (parsed : parse source = .ok listing) :
    listing.Spanned source := by
  simp only [parse, bind_eq_ok] at parsed
  obtain ⟨read, readOk, checked⟩ := parsed
  split at checked
  · cases checked
  · cases checked
    exact spanned_empty.addLines (numbered_sourceLines source) readOk

theorem parse_error_onLine {error : AsmError} (failed : parse source = .error error) :
    error.OnLine source := by
  simp only [parse, bind_eq_error] at failed
  rcases failed with linesFailed | ⟨read, -, checked⟩
  · exact addLines_error_onLine (numbered_sourceLines source) linesFailed
  · split at checked
    · cases checked
      intro line hasLine
      cases hasLine
    · cases checked

end Spanned

/-! ## The second pass reports errors where the first pass put things -/

theorem target_error {label : String} {offset line : Nat} {span : Span} {error : AsmError}
    (failed : target label offset line span = .error error) :
    error.line? = some line ∧ error.span? = some span := by
  unfold target at failed
  split at failed
  · cases failed
  · cases failed
    exact ⟨rfl, rfl⟩

theorem resolve_error {listing : Listing} {statement : Statement} {error : AsmError}
    (failed : listing.resolve statement = .error error) :
    ∃ condition label span, statement.body = .jump condition label span ∧
      error.line? = some statement.line ∧ error.span? = some span := by
  unfold resolve at failed
  split at failed
  · cases failed
  · rename_i condition label span jump
    split at failed
    · exact ⟨condition, label, span, jump, target_error (map_eq_error.mp failed)⟩
    · cases failed
      exact ⟨condition, label, span, jump, rfl, rfl⟩

theorem Spanned.emit_error_onLine {source : String} {listing : Listing} {error : AsmError}
    (spanned : listing.Spanned source) (failed : listing.emit = .error error) :
    error.OnLine source := by
  cases found : listing.entry? with
  | none =>
    rw [emit_of_no_entry found] at failed
    cases failed
    intro line hasLine
    cases hasLine
  | some entry =>
    rw [emit_of_entry found] at failed
    simp only [bind_eq_error] at failed
    rcases failed with startFailed | ⟨start, -, rest⟩
    · obtain ⟨named, atEntry⟩ := target_error startFailed
      exact AsmError.onLine_of named atEntry (spanned.labels entry (find?_mem found)).1
    · simp only [pure, Except.pure, reduceCtorEq, and_false, exists_false, or_false] at rest
      obtain ⟨statement, within, resolveFailed⟩ := mapM_eq_error rest
      obtain ⟨condition, label, span, jump, named, atLabel⟩ := resolve_error resolveFailed
      exact AsmError.onLine_of named atLabel
        (spanned.jumps statement within condition label span jump)

end Listing

/-- Reported lines agree with reported spans. Every statement and label definition that the
first pass reads from a source, and every error that the first or the second pass reports with a
line and a span, has a span lying on its line: the span covers whole characters of the source,
none of them a line feed, and as many line feeds stand before it as its line number less one. A
statement's span runs from its mnemonic through its last operand, and a label's span covers its
name without the colon. -/
theorem reported_lines_match_spans (source : String) :
    (∀ listing, Listing.parse source = .ok listing →
      (∀ statement ∈ listing.statements,
        statement.span.OnLine source statement.line ∧ statement.Runs source) ∧
      ∀ definition ∈ listing.labels,
        definition.span.OnLine source definition.line ∧ definition.Names source) ∧
    ∀ error, (Listing.parse source = .error error ∨
        ∃ listing, Listing.parse source = .ok listing ∧ listing.emit = .error error) →
      ∀ line ∈ error.line?, ∀ span ∈ error.span?, span.OnLine source line := by
  refine ⟨fun listing parsed => ?_, fun error reported => ?_⟩
  · have spanned := Listing.spanned_of_parse parsed
    exact ⟨spanned.statements, spanned.labels⟩
  · rcases reported with parseFailed | ⟨listing, parsed, emitFailed⟩
    · exact Listing.parse_error_onLine parseFailed
    · exact (Listing.spanned_of_parse parsed).emit_error_onLine emitFailed

/-- A source with a label, a comment, a carriage return and an empty line, whose branch names a
label that is never defined: its statements stand on lines one and three, and the second pass
reports the missing label on line three. -/
theorem reported_lines_match_spans_on_sample :
    let text := "start: move.b #$1, d0 ; one\r\n\n  jmp done"
    ∃ listing, Listing.parse text = .ok listing ∧
      listing.statements.map (fun statement => (statement.line, statement.span)) =
        [(1, ⟨7, 14⟩), (3, ⟨32, 8⟩)] ∧
      (∀ statement ∈ listing.statements,
        statement.span.OnLine text statement.line ∧ statement.Runs text) ∧
      (∀ definition ∈ listing.labels,
        definition.span.OnLine text definition.line ∧ definition.Names text) ∧
      listing.emit = .error (.undefinedLabel 3 "done" ⟨36, 4⟩) ∧
      ∀ line ∈ (AsmError.undefinedLabel 3 "done" ⟨36, 4⟩).line?,
        ∀ span ∈ (AsmError.undefinedLabel 3 "done" ⟨36, 4⟩).span?, span.OnLine text line := by
  intro text
  have parsed : Listing.parse text = .ok
      ⟨[⟨1, ⟨7, 14⟩, .instruction (.move ⟨.number, 1⟩ ⟨.data, 0⟩)⟩,
        ⟨3, ⟨32, 8⟩, .jump .always "done" ⟨36, 4⟩⟩],
        [⟨"start", 0, 1, ⟨0, 5⟩⟩], 7⟩ := by
    decide +kernel
  have emitted : Listing.emit ⟨[⟨1, ⟨7, 14⟩, .instruction (.move ⟨.number, 1⟩ ⟨.data, 0⟩)⟩,
        ⟨3, ⟨32, 8⟩, .jump .always "done" ⟨36, 4⟩⟩],
        [⟨"start", 0, 1, ⟨0, 5⟩⟩], 7⟩ = .error (.undefinedLabel 3 "done" ⟨36, 4⟩) := by
    decide +kernel
  obtain ⟨read, reported⟩ := reported_lines_match_spans text
  exact ⟨_, parsed, rfl, (read _ parsed).1, (read _ parsed).2, emitted,
    reported _ (.inr ⟨_, parsed, emitted⟩)⟩

end ByteMachine
