import ByteMachine.Proofs.Assembly.Layout
/-!
# Spans are only reported

The assembler never compares or measures a span, so forgetting spans before it runs gives what
it gives with spans forgotten afterwards (`mapError_assemble`). Each step of the two passes
commutes with forgetting.
-/

set_option autoImplicit false

namespace ByteMachine

/-! ## Forgetting spans -/

/-- A token with its place in the source forgotten. -/
def Token.eraseSpan (token : Token) : Token := { token with span := ⟨0, 0⟩ }

/-- An error with its span forgotten; every other field is kept. -/
def AsmError.eraseSpan : AsmError → AsmError
  | .unknownOpcode line mnemonic _ => .unknownOpcode line mnemonic ⟨0, 0⟩
  | .undefinedLabel line label _ => .undefinedLabel line label ⟨0, 0⟩
  | .missingEntryPoint => .missingEntryPoint
  | .duplicateLabel line label _ => .duplicateLabel line label ⟨0, 0⟩
  | .registerLabel line label _ => .registerLabel line label ⟨0, 0⟩
  | .operandCount line opcode expected found _ => .operandCount line opcode expected found ⟨0, 0⟩
  | .invalidOperand line operand reason _ => .invalidOperand line operand reason ⟨0, 0⟩
  | .targetOutOfRange line label offset _ => .targetOutOfRange line label offset ⟨0, 0⟩
  | .unexpectedToken line found _ => .unexpectedToken line found ⟨0, 0⟩
  | .encode line error => .encode line error

/-- A statement body with the span of a branch's label forgotten. -/
def Body.eraseSpan : Body → Body
  | .instruction complete => .instruction complete
  | .jump condition label _ => .jump condition label ⟨0, 0⟩

/-- A statement with its spans forgotten. -/
def Statement.eraseSpan (statement : Statement) : Statement :=
  ⟨statement.line, ⟨0, 0⟩, statement.body.eraseSpan⟩

/-- A label definition with the span of its name forgotten. -/
def LabelDef.eraseSpan (definition : LabelDef) : LabelDef := { definition with span := ⟨0, 0⟩ }

/-- A listing with every span in it forgotten. -/
def Listing.eraseSpan (listing : Listing) : Listing :=
  ⟨listing.statements.map Statement.eraseSpan, listing.labels.map LabelDef.eraseSpan,
    listing.offset⟩

namespace Token

@[simp] theorem kind_eraseSpan (token : Token) : token.eraseSpan.kind = token.kind := rfl

@[simp] theorem text_eraseSpan (token : Token) : token.eraseSpan.text = token.text := rfl

@[simp] theorem span_eraseSpan (token : Token) : token.eraseSpan.span = ⟨0, 0⟩ := rfl

@[simp] theorem isOperand_eraseSpan (token : Token) : token.eraseSpan.isOperand = token.isOperand :=
  rfl

@[simp] theorem isSignificant_eraseSpan (token : Token) :
    token.eraseSpan.isSignificant = token.isSignificant := rfl

@[simp] theorem unexpected_eraseSpan (token : Token) (line : Nat) :
    token.eraseSpan.unexpected line = (token.unexpected line).eraseSpan := rfl

@[simp] theorem invalid_eraseSpan (token : Token) (line : Nat) (reason : InvalidReason) :
    token.eraseSpan.invalid line reason = (token.invalid line reason).eraseSpan := rfl

@[simp] theorem eraseSpan_eraseSpan (token : Token) : token.eraseSpan.eraseSpan = token.eraseSpan :=
  rfl

end Token

@[simp] theorem Body.opcode_eraseSpan (body : Body) : body.eraseSpan.opcode = body.opcode := by
  cases body <;> rfl

@[simp] theorem Statement.length_eraseSpan (statement : Statement) :
    statement.eraseSpan.length = statement.length := by
  simp [Statement.eraseSpan, Statement.length]

@[simp] theorem LabelDef.name_eraseSpan (definition : LabelDef) :
    definition.eraseSpan.name = definition.name := rfl

@[simp] theorem LabelDef.offset_eraseSpan (definition : LabelDef) :
    definition.eraseSpan.offset = definition.offset := rfl

@[simp] theorem LabelDef.line_eraseSpan (definition : LabelDef) :
    definition.eraseSpan.line = definition.line := rfl

/-! ## Results with spans forgotten -/

section Results

variable {ε ε' α β : Type}

@[simp] theorem mapError_ok (forget : ε → ε') (value : α) :
    (Except.ok value : Except ε α).mapError forget = .ok value := rfl

@[simp] theorem mapError_error (forget : ε → ε') (error : ε) :
    (Except.error error : Except ε α).mapError forget = .error (forget error) := rfl

@[simp] theorem map_ok (erase : α → β) (value : α) :
    (Except.ok value : Except ε α).map erase = .ok (erase value) := rfl

@[simp] theorem map_error (erase : α → β) (error : ε) :
    (Except.error error : Except ε α).map erase = .error error := rfl

end Results

theorem mapError_bind_eq {ε ε' α β : Type} (forget : ε → ε') (first : Except ε α)
    (next : α → Except ε β) :
    (first >>= next).mapError forget = first.mapError forget >>= fun value => (next value).mapError forget := by
  cases first <;> rfl

theorem map_bind_eq {ε α β γ : Type} (erase : β → γ) (first : Except ε α) (next : α → Except ε β) :
    (first >>= next).map erase = first >>= fun value => (next value).map erase := by
  cases first <;> rfl

/-! ## Operands -/

namespace Token

theorem toOperand_eraseSpan (token : Token) (line : Nat) :
    token.eraseSpan.toOperand line = (token.toOperand line).mapError AsmError.eraseSpan := by
  unfold toOperand
  simp only [kind_eraseSpan, text_eraseSpan, afterPrefix, unexpected_eraseSpan,
    invalid_eraseSpan]
  split <;> (try split) <;> (try split) <;> rfl

theorem toLabel_eraseSpan (token : Token) (line : Nat) :
    token.eraseSpan.toLabel line = (token.toLabel line).mapError AsmError.eraseSpan := by
  unfold toLabel
  by_cases named : token.kind = .ident ∧ Register.parse? token.text = none
  · simp [named]
  · simp [named]

end Token

theorem operandTokens_eraseSpan (line : Nat) (tokens : List Token) :
    operandTokens line (tokens.map Token.eraseSpan) =
      ((operandTokens line tokens).map (·.map Token.eraseSpan)).mapError AsmError.eraseSpan := by
  fun_induction operandTokens line tokens with
  | case1 => rfl
  | case2 token operand => simp [operandTokens, operand]
  | case3 token operand separator comma => simp [operandTokens, operand, comma]
  | case4 token operand separator comma next more ih =>
    simp only [List.map_cons, operandTokens, Token.isOperand_eraseSpan, operand, if_true,
      Token.kind_eraseSpan, comma]
    rw [← List.map_cons, ih]
    cases operandTokens line (next :: more) <;> rfl
  | case5 token operand separator more notComma => simp [operandTokens, operand, notComma]
  | case6 token rest notOperand =>
    rw [List.map_cons, operandTokens.eq_def]
    simp [notOperand]

namespace Listing

theorem body_eraseSpan (line : Nat) (opcode : Opcode) (span : Span) (operands : List Token) :
    body line opcode ⟨0, 0⟩ (operands.map Token.eraseSpan) =
      ((body line opcode span operands).map Body.eraseSpan).mapError AsmError.eraseSpan := by
  rcases operands with _ | ⟨first, _ | ⟨second, _ | ⟨third, rest⟩⟩⟩ <;> cases opcode <;>
    simp [body, Token.toOperand_eraseSpan, Token.toLabel_eraseSpan, mapError_bind_eq, map_bind_eq,
      pure, Except.pure, AsmError.eraseSpan, Body.eraseSpan]

theorem statement_eraseSpan (line : Nat) (mnemonic : Token) (rest : List Token) :
    statement line mnemonic.eraseSpan (rest.map Token.eraseSpan) =
      ((statement line mnemonic rest).map Statement.eraseSpan).mapError AsmError.eraseSpan := by
  unfold statement
  by_cases ident : mnemonic.kind = .ident
  · cases found : Opcode.lookup mnemonic.text with
    | error e =>
      simp [ident, found, throw, throwThe, MonadExceptOf.throw, bind, Except.bind,
        AsmError.eraseSpan]
    | ok opcode =>
      simp only [Token.kind_eraseSpan, Token.text_eraseSpan, ident, found, ne_eq,
        not_true_eq_false, if_false, operandTokens_eraseSpan]
      cases read : operandTokens line rest with
      | error e => simp [bind, Except.bind, pure, Except.pure]
      | ok operands =>
        simp only [bind, Except.bind, pure, Except.pure, map_ok, mapError_ok, List.getLast?_map]
        cases operands.getLast? with
        | none =>
          simp only [Option.map_none, Token.span_eraseSpan]
          rw [body_eraseSpan line opcode mnemonic.span operands]
          cases body line opcode mnemonic.span operands <;> rfl
        | some last =>
          simp only [Option.map_some, Token.span_eraseSpan]
          rw [show (⟨0, 0⟩ : Span).cover ⟨0, 0⟩ = ⟨0, 0⟩ from rfl,
            body_eraseSpan line opcode (mnemonic.span.cover last.span) operands]
          cases body line opcode (mnemonic.span.cover last.span) operands <;> rfl
  · simp [ident, throw, throwThe, MonadExceptOf.throw, bind, Except.bind]

/-! ## The first pass -/

@[simp] theorem statements_eraseSpan (listing : Listing) :
    listing.eraseSpan.statements = listing.statements.map Statement.eraseSpan := rfl

theorem find?_eraseSpan (listing : Listing) (name : String) :
    listing.eraseSpan.find? name = (listing.find? name).map LabelDef.eraseSpan := by
  simp [find?, eraseSpan, List.find?_map, Function.comp_def]

theorem entry?_eraseSpan (listing : Listing) :
    listing.eraseSpan.entry? = listing.entry?.map LabelDef.eraseSpan :=
  find?_eraseSpan listing entryLabel

theorem addStatement_eraseSpan (listing : Listing) (statement : Statement) :
    listing.eraseSpan.addStatement statement.eraseSpan = (listing.addStatement statement).eraseSpan := by
  simp [addStatement, eraseSpan]

theorem defineLabel_eraseSpan (listing : Listing) (line : Nat) (token : Token) :
    listing.eraseSpan.defineLabel line token.eraseSpan =
      ((listing.defineLabel line token).map eraseSpan).mapError AsmError.eraseSpan := by
  unfold defineLabel
  simp only [Token.text_eraseSpan, find?_eraseSpan, Option.isSome_map]
  split_ifs <;> simp [AsmError.eraseSpan, eraseSpan, LabelDef.eraseSpan]

theorem addLine_eraseSpan (listing : Listing) (line : Nat) (tokens : List Token) :
    listing.eraseSpan.addLine line (tokens.map Token.eraseSpan) =
      ((listing.addLine line tokens).map eraseSpan).mapError AsmError.eraseSpan := by
  cases tokens with
  | nil => rfl
  | cons first more =>
    by_cases label : first.kind = .label
    · simp only [List.map_cons, addLine, Token.kind_eraseSpan, label, if_true,
        defineLabel_eraseSpan]
      cases listing.defineLabel line first with
      | error e => rfl
      | ok defined =>
        cases more with
        | nil => rfl
        | cons mnemonic operands =>
          simp only [bind, Except.bind, pure, Except.pure, List.map_cons, map_ok, mapError_ok,
            statement_eraseSpan]
          cases statement line mnemonic operands with
          | error e => rfl
          | ok read => simp [addStatement_eraseSpan]
    · simp only [List.map_cons, addLine, Token.kind_eraseSpan, label, if_false, bind,
        Except.bind, pure, Except.pure, statement_eraseSpan]
      cases statement line first more with
      | error e => rfl
      | ok read => simp [addStatement_eraseSpan]

theorem addLines_eraseSpan (listing : Listing) (line : Nat) (lines : List (List Token)) :
    listing.eraseSpan.addLines line (lines.map (·.map Token.eraseSpan)) =
      ((listing.addLines line lines).map eraseSpan).mapError AsmError.eraseSpan := by
  induction lines generalizing listing line with
  | nil => rfl
  | cons tokens rest ih =>
    simp only [List.map_cons, addLines, addLine_eraseSpan]
    cases listing.addLine line tokens with
    | error e => rfl
    | ok next => exact ih next (line + 1)

/-! ## The second pass -/

theorem target_eraseSpan (label : String) (offset line : Nat) (span : Span) :
    target label offset line ⟨0, 0⟩ = (target label offset line span).mapError AsmError.eraseSpan := by
  unfold target
  split_ifs <;> rfl

theorem resolve_eraseSpan (listing : Listing) (statement : Statement) :
    listing.eraseSpan.resolve statement.eraseSpan =
      (listing.resolve statement).mapError AsmError.eraseSpan := by
  rcases statement with ⟨line, span, _ | ⟨condition, label, labelSpan⟩⟩
  · rfl
  · simp only [resolve, Statement.eraseSpan, Body.eraseSpan, find?_eraseSpan]
    cases listing.find? label with
    | none => rfl
    | some definition =>
      simp only [Option.map_some, LabelDef.offset_eraseSpan, target_eraseSpan label _ line labelSpan]
      cases target label definition.offset line labelSpan <;> rfl

theorem mapM_resolve_eraseSpan (listing : Listing) (statements : List Statement) :
    (statements.map Statement.eraseSpan).mapM listing.eraseSpan.resolve =
      (statements.mapM listing.resolve).mapError AsmError.eraseSpan := by
  induction statements with
  | nil => rfl
  | cons statement rest ih =>
    simp only [List.map_cons, List.mapM_cons, resolve_eraseSpan, ih]
    cases listing.resolve statement with
    | error e => rfl
    | ok instruction => cases rest.mapM listing.resolve <;> rfl

theorem emit_eraseSpan (listing : Listing) :
    listing.eraseSpan.emit = listing.emit.mapError AsmError.eraseSpan := by
  cases found : listing.entry? with
  | none =>
    have missing : listing.eraseSpan.entry? = none := by rw [entry?_eraseSpan, found]; rfl
    rw [emit_of_no_entry missing, emit_of_no_entry found]
    rfl
  | some entry =>
    have erased : listing.eraseSpan.entry? = some entry.eraseSpan := by
      rw [entry?_eraseSpan, found]
      rfl
    rw [emit_of_entry erased, emit_of_entry found]
    simp only [LabelDef.offset_eraseSpan, LabelDef.line_eraseSpan]
    rw [show (entry.eraseSpan).span = ⟨0, 0⟩ from rfl, target_eraseSpan _ _ _ entry.span]
    cases target entryLabel entry.offset entry.line entry.span with
    | error e => rfl
    | ok start =>
      simp only [mapError_ok, statements_eraseSpan, mapM_resolve_eraseSpan]
      cases listing.statements.mapM listing.resolve <;> rfl

end Listing

theorem mapError_assemble (source : String) :
    (assemble source).mapError AsmError.eraseSpan =
      (({} : Listing).addLines 1 ((Listing.sourceLines source).map (·.map Token.eraseSpan)) >>=
        fun listing => if listing.entry?.isNone then .error .missingEntryPoint else listing.emit) := by
  rw [show ({} : Listing) = ({} : Listing).eraseSpan from rfl, Listing.addLines_eraseSpan]
  simp only [assemble, Listing.parse]
  cases ({} : Listing).addLines 1 (Listing.sourceLines source) with
  | error e => rfl
  | ok listing =>
    have sameEntry : listing.eraseSpan.entry?.isNone = listing.entry?.isNone := by
      rw [Listing.entry?_eraseSpan, Option.isNone_map]
    simp only [bind, Except.bind, map_ok, mapError_ok, sameEntry]
    by_cases missing : listing.entry?.isNone = true
    · simp [missing, throw, throwThe, MonadExceptOf.throw, AsmError.eraseSpan]
    · simp [missing, pure, Except.pure, Listing.emit_eraseSpan]

end ByteMachine
