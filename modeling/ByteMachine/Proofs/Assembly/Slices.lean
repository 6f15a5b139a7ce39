import ByteMachine.Proofs.Assembly.Positions
/-!
# The assembler cuts only whole characters out of its source

Every text the first pass reads is cut out of the source between characters (`Span.Cuts`),
and a statement reads its operands only when its layout's count is there
(`assembler_cuts_whole_characters`).
-/

set_option autoImplicit false

namespace ByteMachine

/-- Cutting the bytes of a span out of a text gives `part`: the span lies inside the text,
starts and ends between two of its characters, and covers the characters of `part`. -/
def Span.Cuts (span : Span) (text part : List Char) : Prop :=
  ∃ before after, text = before ++ part ++ after ∧ byteLength before = span.offset ∧
    byteLength part = span.length

namespace Token

/-! ## A memory cell starts with `0x` -/

theorem extent_memory {first : Char} {rest : List Char} (memory : (extent first rest).1 = .memory) :
    first = '0' ∧ ∃ marker more, rest = marker :: more ∧ (marker = 'x' ∨ marker = 'X') ∧
      (extent first rest).2 = 1 + (more.takeWhile Hex.isDigit).length := by
  have shape := kind_cases first rest
  simp only [memory, reduceCtorEq, false_and, false_or, or_false, true_and] at shape
  obtain ⟨rfl, marker, more, rfl, isMarker⟩ := shape
  exact ⟨rfl, marker, more, rfl, isMarker, by rw [extent_marker more isMarker]⟩

theorem memory_text_of_mem_scanFrom {input : List Char} {offset : Nat} {token : Token}
    (scanned : token ∈ scanFrom input offset) (memory : token.kind = .memory) :
    ∃ marker, (marker = 'x' ∨ marker = 'X') ∧
      token.text.toList = '0' :: marker :: token.afterPrefix := by
  fun_induction scanFrom input offset with
  | case1 => cases scanned
  | case2 offset first rest kind count extended text size ih =>
    rcases List.mem_cons.mp scanned with rfl | later
    · obtain ⟨rfl, marker, more, rfl, isMarker, counted⟩ :=
        extent_memory (show (extent first rest).1 = .memory by rw [extended]; exact memory)
      rw [extended] at counted
      obtain ⟨digits, rfl⟩ : ∃ digits, count = digits + 1 :=
        ⟨(more.takeWhile Hex.isDigit).length, by simp only at counted; omega⟩
      exact ⟨marker, isMarker, by simp [text, afterPrefix]⟩
    · exact ih later

/-! ## What the first pass cuts out of a token -/

variable {source : String} {token : Token}

theorem cuts_of_mem_scan (scanned : token ∈ scan source) :
    token.span.Cuts source.toList token.text.toList := by
  obtain ⟨before, after, split⟩ := List.append_of_mem scanned
  have placed := span_of_scan split
  refine ⟨chars before, chars after, ?_, by rw [placed], by rw [placed]⟩
  rw [← chars_scan, split, chars_append, chars_cons, List.append_assoc]

theorem label_cuts_of_mem_scan (scanned : token ∈ scan source) (labelled : token.kind = .label) :
    1 ≤ token.span.length ∧
      (⟨token.span.offset, token.span.length - 1⟩ : Span).Cuts source.toList
        token.text.toList.dropLast := by
  obtain ⟨before, after, split⟩ := List.append_of_mem scanned
  obtain ⟨name, named⟩ := (sound_of_mem_scan scanned).label labelled
  have placed := span_of_scan split
  have length : token.span.length = byteLength name + 1 := by
    rw [placed, named, byteLength_append]
    rfl
  refine ⟨by omega, chars before, ':' :: chars after, ?_, by rw [placed], ?_⟩
  · rw [← chars_scan, split, chars_append, chars_cons, named, List.dropLast_concat]
    simp
  · rw [named, List.dropLast_concat, length, Nat.add_sub_cancel]

theorem memory_cuts_of_mem_scan (scanned : token ∈ scan source) (memory : token.kind = .memory) :
    2 ≤ token.span.length ∧
      (⟨2, token.span.length - 2⟩ : Span).Cuts token.text.toList token.afterPrefix := by
  obtain ⟨marker, isMarker, text⟩ := memory_text_of_mem_scanFrom scanned memory
  obtain ⟨before, after, split⟩ := List.append_of_mem scanned
  have prefixBytes : byteLength ['0', marker] = 2 := by
    rcases isMarker with rfl | rfl <;> decide
  have length : token.span.length = 2 + byteLength token.afterPrefix := by
    rw [span_of_scan split, text, ← prefixBytes, ← byteLength_append]
    rfl
  refine ⟨by omega, ['0', marker], [], by rw [text]; simp, prefixBytes, by dsimp only; omega⟩

/-! ## What the first pass reads of an operand list -/

theorem toOperand_ne_operandCount (token : Token) (line reported : Nat) (opcode : Opcode)
    (expected found : Nat) (span : Span) :
    token.toOperand line ≠ .error (.operandCount reported opcode expected found span) := by
  unfold toOperand
  split
  · split <;> simp [invalid]
  · split
    · split <;> simp [invalid]
    · simp [invalid]
  · split <;> simp [invalid]
  · simp [unexpected]

theorem toLabel_ne_operandCount (token : Token) (line reported : Nat) (opcode : Opcode)
    (expected found : Nat) (span : Span) :
    token.toLabel line ≠ .error (.operandCount reported opcode expected found span) := by
  unfold toLabel
  split <;> simp [invalid]

end Token

namespace Listing

theorem body_operandCount_iff {line : Nat} {opcode : Opcode} {span : Span}
    {operands : List Token} :
    body line opcode span operands =
        .error (.operandCount line opcode opcode.layout.operandCount operands.length span) ↔
      operands.length ≠ opcode.layout.operandCount := by
  cases opcode <;> rcases operands with _ | ⟨first, _ | ⟨second, _ | ⟨third, rest⟩⟩⟩ <;>
    simp [body, Opcode.layout, Layout.operandCount, bind_eq_error,
      Token.toOperand_ne_operandCount, Token.toLabel_ne_operandCount, pure, Except.pure]

theorem mem_scan_of_mem_sourceLines {source : String} {tokens : List Token} {token : Token}
    (line : tokens ∈ sourceLines source) (within : token ∈ tokens) : token ∈ Token.scan source := by
  obtain ⟨index, found⟩ := List.mem_iff_getElem?.mp line
  obtain ⟨before, after, whole, -, -, -, -⟩ := exists_of_splitOnP found
  have kept : token ∈ (Token.scan source).filter Token.isSignificant := by
    rw [whole]
    simp [within]
  exact (List.mem_filter.mp kept).1

end Listing

/-- The assembler is total on every source: every token the first pass reads is cut out of the
source by its span, which lies inside the source and starts and ends between characters; a
label's span has its colon to drop, and without it cuts out the label's name; a memory cell's
text has its two-byte prefix, and after it cuts out the cell's digits; and a statement reads
operands by position only when it has as many as its layout asks for. -/
theorem assembler_cuts_whole_characters (source : String) :
    (∀ tokens ∈ Listing.sourceLines source, ∀ token ∈ tokens,
      token.span.Cuts source.toList token.text.toList ∧
      (token.kind = .label → 1 ≤ token.span.length ∧
        (⟨token.span.offset, token.span.length - 1⟩ : Span).Cuts source.toList
          token.text.toList.dropLast) ∧
      (token.kind = .memory → 2 ≤ token.span.length ∧
        (⟨2, token.span.length - 2⟩ : Span).Cuts token.text.toList token.afterPrefix)) ∧
    (∀ line opcode span operands,
      Listing.body line opcode span operands =
          .error (.operandCount line opcode opcode.layout.operandCount operands.length span) ↔
        operands.length ≠ opcode.layout.operandCount) := by
  refine ⟨fun tokens line token within => ?_, fun _ _ _ _ => Listing.body_operandCount_iff⟩
  have scanned := Listing.mem_scan_of_mem_sourceLines line within
  exact ⟨Token.cuts_of_mem_scan scanned, Token.label_cuts_of_mem_scan scanned,
    Token.memory_cuts_of_mem_scan scanned⟩

end ByteMachine
