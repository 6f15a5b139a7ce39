import ByteMachine.Isa.Instruction
/-!
# Encoding and decoding are inverse

Encoding accepts exactly the operand shapes that fit the layout, and decoding reads them back;
decoding refuses too few bytes, then the first bad tag, and otherwise encodes back to what it
read (`encode_decode_inverse`).
-/

set_option autoImplicit false

namespace ByteMachine

namespace OperandKind

theorem ofTag?_eq_none_iff (tag : UInt8) : ofTag? tag = none ↔ 3 < tag := by
  unfold ofTag?
  split
  all_goals simp
  next notData notAddress notMemory notNumber =>
    simp only [UInt8.lt_iff_toNat_lt, ← UInt8.toNat_inj] at *
    simp at *
    omega

theorem tag_of_ofTag? {tag : UInt8} {kind : OperandKind} (found : ofTag? tag = some kind) :
    kind.tag = tag := by
  unfold ofTag? at found
  split at found <;> cases found <;> rfl

end OperandKind

theorem Operand.ofBytes_of_lt {tag value : UInt8} (bad : 3 < tag) :
    Operand.ofBytes tag value = .error (.invalidOperandTag tag) := by
  simp [Operand.ofBytes, (OperandKind.ofTag?_eq_none_iff tag).mpr bad]

theorem Operand.ofBytes_of_le {tag : UInt8} (value : UInt8) (good : ¬ 3 < tag) :
    ∃ kind, Operand.ofBytes tag value = .ok ⟨kind, value⟩ ∧ kind.tag = tag := by
  cases named : OperandKind.ofTag? tag with
  | none => exact absurd ((OperandKind.ofTag?_eq_none_iff tag).mp named) good
  | some kind => exact ⟨kind, by simp [Operand.ofBytes, named], OperandKind.tag_of_ofTag? named⟩

/-- The positions of the tag bytes among an instruction's operand bytes, in the order they are
read: the source's tag before the destination's. -/
def Layout.tagOffsets : Layout → List Nat
  | .unary => [0]
  | .binary => [0, 2]
  | .nullary | .branch => []

/-- The first tag byte, in reading order, that names no operand kind. -/
def Layout.badTag? (layout : Layout) (bytes : List UInt8) : Option UInt8 :=
  (layout.tagOffsets.filterMap (bytes[·]?)).find? (3 < ·)

namespace Operands

/-- The operands of a layout read from the bytes after a code: nothing, a tagged destination, a
tagged source and destination, or a branch's target byte. -/
def read : Layout → List UInt8 → Except IsaError Operands
  | .nullary, _ => .ok .none
  | .unary, bytes => .unary <$> readUnary bytes
  | .binary, bytes => (fun (src, dest) => .binary src dest) <$> readBinary bytes
  | .branch, bytes => .target <$> readTarget bytes

theorem readUnary_of_lt {bytes : List UInt8} (short : bytes.length < 2) :
    readUnary bytes = .error (.truncated 2 bytes.length) := by
  rcases bytes with _ | ⟨_, _ | ⟨_, rest⟩⟩
  · rfl
  · rfl
  · simp only [List.length_cons] at short
    omega

theorem readBinary_of_lt {bytes : List UInt8} (short : bytes.length < 4) :
    readBinary bytes = .error (.truncated 4 bytes.length) := by
  rcases bytes with _ | ⟨_, _ | ⟨_, _ | ⟨_, _ | ⟨_, rest⟩⟩⟩⟩
  · rfl
  · rfl
  · rfl
  · rfl
  · simp only [List.length_cons] at short
    omega

theorem exists_two_of_le {bytes : List UInt8} (long : 2 ≤ bytes.length) :
    ∃ first second rest, bytes = first :: second :: rest := by
  rcases bytes with _ | ⟨first, _ | ⟨second, rest⟩⟩ <;> simp_all

theorem exists_four_of_le {bytes : List UInt8} (long : 4 ≤ bytes.length) :
    ∃ first second third fourth rest, bytes = first :: second :: third :: fourth :: rest := by
  rcases bytes with _ | ⟨first, _ | ⟨second, _ | ⟨third, _ | ⟨fourth, rest⟩⟩⟩⟩ <;> simp_all

theorem read_bytes (operands : Operands) (rest : List UInt8) :
    read operands.layout (operands.bytes ++ rest) = .ok operands := by
  cases operands <;>
    simp [read, Operands.layout, Operands.bytes, readUnary, readBinary, readTarget,
      Operand.ofBytes, OperandKind.ofTag?_tag, Functor.map, Except.map, bind, Except.bind, pure,
      Except.pure]

theorem read_of_badTag {layout : Layout} {bytes : List UInt8} {tag : UInt8}
    (long : layout.length - 1 ≤ bytes.length) (bad : layout.badTag? bytes = some tag) :
    read layout bytes = .error (.invalidOperandTag tag) := by
  cases layout with
  | nullary | branch => simp [Layout.badTag?, Layout.tagOffsets] at bad
  | unary =>
    obtain ⟨first, value, rest, rfl⟩ := exists_two_of_le long
    simp only [Layout.badTag?, Layout.tagOffsets, List.filterMap_cons, List.getElem?_cons_zero,
      List.filterMap_nil, List.find?_cons, List.find?_nil] at bad
    by_cases badFirst : 3 < first
    · simp only [badFirst, decide_true, Option.some.injEq] at bad
      subst bad
      simp [read, readUnary, Functor.map, Except.map, Operand.ofBytes_of_lt badFirst]
    · simp [badFirst] at bad
  | binary =>
    obtain ⟨srcTag, srcValue, destTag, destValue, rest, rfl⟩ := exists_four_of_le long
    simp only [Layout.badTag?, Layout.tagOffsets, List.filterMap_cons, List.getElem?_cons_zero,
      List.getElem?_cons_succ, List.filterMap_nil, List.find?_cons, List.find?_nil] at bad
    by_cases badSrc : 3 < srcTag
    · simp only [badSrc, decide_true, Option.some.injEq] at bad
      subst bad
      simp [read, readBinary, Functor.map, Except.map, bind, Except.bind,
        Operand.ofBytes_of_lt badSrc]
    obtain ⟨src, readSrc, -⟩ := Operand.ofBytes_of_le srcValue badSrc
    by_cases badDest : 3 < destTag
    · simp only [badSrc, badDest, decide_true, decide_false, Option.some.injEq] at bad
      subst bad
      simp [read, readBinary, Functor.map, Except.map, bind, Except.bind, readSrc,
        Operand.ofBytes_of_lt badDest]
    · simp [badSrc, badDest] at bad

theorem read_of_goodTags {layout : Layout} {bytes : List UInt8}
    (long : layout.length - 1 ≤ bytes.length) (good : layout.badTag? bytes = .none) :
    ∃ operands, read layout bytes = .ok operands ∧ operands.layout = layout ∧
      operands.bytes = bytes.take (layout.length - 1) := by
  cases layout with
  | nullary => exact ⟨.none, rfl, rfl, rfl⟩
  | branch =>
    obtain ⟨byte, rest, rfl⟩ :=
      List.exists_cons_of_length_pos (show 0 < bytes.length by simp [Layout.length] at long; omega)
    exact ⟨.target byte, rfl, rfl, rfl⟩
  | unary =>
    obtain ⟨first, value, rest, rfl⟩ := exists_two_of_le long
    have goodFirst : ¬ 3 < first := by simpa [Layout.badTag?, Layout.tagOffsets] using good
    obtain ⟨kind, readFirst, tagged⟩ := Operand.ofBytes_of_le value goodFirst
    refine ⟨.unary ⟨kind, value⟩, ?_, rfl, ?_⟩
    · simp [read, readUnary, Functor.map, Except.map, readFirst]
    · simp [Operands.bytes, Layout.length, tagged]
  | binary =>
    obtain ⟨srcTag, srcValue, destTag, destValue, rest, rfl⟩ := exists_four_of_le long
    have goodTags : ¬ 3 < srcTag ∧ ¬ 3 < destTag := by
      simpa [Layout.badTag?, Layout.tagOffsets] using good
    obtain ⟨src, readSrc, srcTagged⟩ := Operand.ofBytes_of_le srcValue goodTags.1
    obtain ⟨dest, readDest, destTagged⟩ := Operand.ofBytes_of_le destValue goodTags.2
    refine ⟨.binary ⟨src, srcValue⟩ ⟨dest, destValue⟩, ?_, rfl, ?_⟩
    · simp [read, readBinary, Functor.map, Except.map, bind, Except.bind, pure, Except.pure,
        readSrc, readDest]
    · simp [Operands.bytes, Layout.length, srcTagged, destTagged]

theorem read_eq_truncated_iff (layout : Layout) (bytes : List UInt8) :
    read layout bytes = .error (.truncated (layout.length - 1) bytes.length) ↔
      bytes.length < layout.length - 1 := by
  by_cases short : bytes.length < layout.length - 1
  · simp only [short, iff_true]
    cases layout with
    | nullary => simp [Layout.length] at short
    | unary => simp [read, readUnary_of_lt short, Functor.map, Except.map, Layout.length]
    | binary => simp [read, readBinary_of_lt short, Functor.map, Except.map, Layout.length]
    | branch =>
      have empty : bytes = [] := List.length_eq_zero_iff.mp (by simpa [Layout.length] using short)
      subst empty
      rfl
  · simp only [short, iff_false]
    have long : layout.length - 1 ≤ bytes.length := Nat.le_of_not_lt short
    cases found : layout.badTag? bytes with
    | some tag => simp [read_of_badTag long found]
    | none =>
      obtain ⟨operands, read, -⟩ := read_of_goodTags long found
      simp [read]

end Operands

namespace Opcode

theorem map_operands_decode (op : Opcode) (bytes : List UInt8) :
    (op.decode bytes).map Instruction.operands = Operands.read op.layout bytes := by
  cases op with
  | arithmetic | move | compare =>
    cases read : Operands.readBinary bytes <;>
      simp [decode, layout, Operands.read, read, Functor.map, Except.map, Instruction.operands]
  | adjust =>
    cases read : Operands.readUnary bytes <;>
      simp [decode, layout, Operands.read, read, Functor.map, Except.map, Instruction.operands]
  | branch =>
    cases read : Operands.readTarget bytes <;>
      simp [decode, layout, Operands.read, read, Functor.map, Except.map, Instruction.operands]
  | noop | halt => rfl

theorem opcode_of_decode {op : Opcode} {bytes : List UInt8} {instruction : Instruction}
    (decoded : op.decode bytes = .ok instruction) : instruction.opcode = op := by
  cases op with
  | arithmetic | move | compare =>
    cases read : Operands.readBinary bytes <;>
      simp [decode, read, Functor.map, Except.map] at decoded
    subst decoded
    rfl
  | adjust =>
    cases read : Operands.readUnary bytes <;>
      simp [decode, read, Functor.map, Except.map] at decoded
    subst decoded
    rfl
  | branch =>
    cases read : Operands.readTarget bytes <;>
      simp [decode, read, Functor.map, Except.map] at decoded
    subst decoded
    rfl
  | noop | halt =>
    simp [decode] at decoded
    subst decoded
    rfl

theorem decode_eq_error_iff (op : Opcode) (bytes : List UInt8) (error : IsaError) :
    op.decode bytes = .error error ↔ Operands.read op.layout bytes = .error error := by
  rw [← map_operands_decode]
  cases op.decode bytes <;> simp [Except.map]

theorem withOperands?_isSome_iff (op : Opcode) (operands : Operands) :
    (op.withOperands? operands).isSome ↔ operands.layout = op.layout := by
  cases op <;> cases operands <;> simp [withOperands?, Operands.layout, layout]

theorem encode_of_layout_ne {op : Opcode} {operands : Operands}
    (mismatch : operands.layout ≠ op.layout) :
    op.encode operands = .error (.layoutMismatch op) := by
  have refused : op.withOperands? operands = none :=
    Option.not_isSome_iff_eq_none.mp (mt (withOperands?_isSome_iff op operands).mp mismatch)
  simp [encode, refused]

theorem encode_of_layout_eq {op : Opcode} {operands : Operands}
    (fits : operands.layout = op.layout) :
    op.encode operands = .ok (op.code :: operands.bytes) := by
  obtain ⟨instruction, found⟩ :=
    Option.isSome_iff_exists.mp ((withOperands?_isSome_iff op operands).mpr fits)
  obtain ⟨sameOpcode, sameOperands⟩ := (withOperands?_eq_some_iff op operands instruction).mp found
  simp [encode, found, Instruction.bytes, sameOpcode, sameOperands]

theorem encode_eq_ok_iff (op : Opcode) (operands : Operands) (bytes : List UInt8) :
    op.encode operands = .ok bytes ↔
      operands.layout = op.layout ∧ bytes = op.code :: operands.bytes := by
  by_cases fits : operands.layout = op.layout
  · simp [encode_of_layout_eq fits, fits, eq_comm]
  · simp [encode_of_layout_ne fits, fits]

/-- Encoding and decoding are mutually inverse over the whole instruction format. Encoding
accepts exactly the operand shapes of the layout, refusing the others in the opcode's name, and
writes the code and then bytes that decode back to the operands whatever follows them.
Decoding refuses too few bytes, then the first bad tag in reading order, and otherwise reads
operands that encode back to the code and the bytes it read. -/
theorem encode_decode_inverse (op : Opcode) :
    (∀ operands, (∃ bytes, op.encode operands = .ok bytes) ↔ operands.layout = op.layout) ∧
    (∀ operands, operands.layout ≠ op.layout →
      op.encode operands = .error (.layoutMismatch op)) ∧
    (∀ operands bytes, op.encode operands = .ok bytes →
      bytes.length = op.length ∧ bytes.head? = some op.code ∧
        ∀ rest, (op.decode (bytes.tail ++ rest)).map Instruction.operands = .ok operands) ∧
    (∀ bytes, op.decode bytes = .error (.truncated (op.length - 1) bytes.length) ↔
      bytes.length < op.length - 1) ∧
    (∀ bytes tag, op.length - 1 ≤ bytes.length → op.layout.badTag? bytes = some tag →
      op.decode bytes = .error (.invalidOperandTag tag)) ∧
    (∀ bytes, op.length - 1 ≤ bytes.length → op.layout.badTag? bytes = none →
      ∃ operands, (op.decode bytes).map Instruction.operands = .ok operands ∧
        op.encode operands = .ok (op.code :: bytes.take (op.length - 1))) := by
  refine ⟨fun operands => ?_, fun operands => encode_of_layout_ne, ?_, fun bytes => ?_,
    fun bytes tag long bad => ?_, fun bytes long good => ?_⟩
  · simp [encode_eq_ok_iff]
  · intro operands bytes encoded
    obtain ⟨fits, rfl⟩ := (encode_eq_ok_iff op operands bytes).mp encoded
    have written : (op.code :: operands.bytes).length = op.length := by
      rw [List.length_cons, Operands.length_bytes, fits, length]
    refine ⟨written, rfl, fun rest => ?_⟩
    rw [List.tail_cons, map_operands_decode, ← fits]
    exact Operands.read_bytes operands rest
  · rw [decode_eq_error_iff]
    exact Operands.read_eq_truncated_iff op.layout bytes
  · rw [decode_eq_error_iff]
    exact Operands.read_of_badTag long bad
  · obtain ⟨operands, read, fits, written⟩ := Operands.read_of_goodTags long good
    refine ⟨operands, by rw [map_operands_decode, read], ?_⟩
    rw [encode_of_layout_eq fits, written, length]

example : Layout.binary.badTag? [0x09, 0x01, 0x07, 0x00] = some 0x09 ∧
    (Opcode.arithmetic .add).decode [0x09, 0x01, 0x07, 0x00] = .error (.invalidOperandTag 0x09) :=
  ⟨by decide, rfl⟩

end Opcode

end ByteMachine
