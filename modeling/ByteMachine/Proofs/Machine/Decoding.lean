import ByteMachine.Proofs.Machine.Reachable
/-!
# Reading an instruction out of any memory image

Where the program counter stands against the end of memory decides whether a fetch is out of
bounds, unknown, refuses a tag, or reads the instruction whose bytes lie there
(`fetch_eq_ok_iff`, `fetch_outcome_by_position`).
-/

set_option autoImplicit false

namespace ByteMachine

theorem Opcode.one_le_length (op : Opcode) : 1 ≤ op.length := by
  unfold Opcode.length
  cases op.layout <;> decide

theorem Opcode.layout_of_family (op : Opcode) :
    (op.family = .move ∨ op.family = .arithmetic ∨ op.family = .compare → op.layout = .binary) ∧
    (op.family = .step → op.layout = .unary) ∧
    (op.family = .branch → op.layout = .branch) ∧
    (op.family = .noop ∨ op.family = .halt → op.layout = .nullary) := by
  cases op <;> simp [family, layout]

namespace Memory

theorem length_of_slice? {memory : Memory} {address length : Nat} {bytes : List UInt8}
    (sliced : memory.slice? address length = some bytes) : bytes.length = length := by
  unfold slice? at sliced
  split at sliced
  · cases sliced
    rename_i fits
    simp only [Memory.capacity] at fits
    simp only [Array.length_toList, Array.size_extract]
    omega
  · cases sliced

theorem slice?_succ_of_get? {memory : Memory} {address length : Nat} {byte : UInt8}
    {bytes : List UInt8} (cell : memory.get? address = some byte)
    (after : memory.slice? (address + 1) length = some bytes) :
    memory.slice? address (length + 1) = some (byte :: bytes) := by
  have fits := (slice?_isSome_iff memory (address + 1) length).mp (by simp [after])
  have counted : (byte :: bytes).length = length + 1 := by
    rw [List.length_cons, length_of_slice? after]
  rw [← counted]
  refine slice?_of_get? (by omega) fun index within => ?_
  cases index with
  | zero => simpa using cell
  | succ index =>
    rw [List.getElem?_cons_succ, getElem?_slice? after, if_pos (by omega)]
    congr 1
    omega

theorem get?_of_slice?_succ {memory : Memory} {address length : Nat} {byte : UInt8}
    {bytes : List UInt8} (sliced : memory.slice? address (length + 1) = some (byte :: bytes)) :
    memory.get? address = some byte ∧ memory.slice? (address + 1) length = some bytes := by
  have fits := (slice?_isSome_iff memory address (length + 1)).mp (by simp [sliced])
  have counted : bytes.length = length := by simpa using length_of_slice? sliced
  constructor
  · simpa using (getElem?_slice? sliced 0).symm
  · rw [← counted]
    refine slice?_of_get? (by omega) fun index within => ?_
    have shifted := getElem?_slice? sliced (index + 1)
    rw [if_pos (by omega), List.getElem?_cons_succ] at shifted
    rw [shifted]
    congr 1
    omega

end Memory

namespace Machine

variable {machine : Machine} {code : UInt8} {op : Opcode}

/-! ## One lemma per cause -/

theorem fetch_of_capacity_le (past : machine.memory.capacity ≤ machine.pc) :
    machine.fetch = .error (.outOfBounds machine.pc (.memory machine.pc)) := by
  have missing : machine.memory.get? machine.pc = none := by
    rw [← Option.not_isSome_iff_eq_none, Memory.get?_isSome_iff]
    omega
  simp [fetch, missing]

theorem fetch_of_unknown (cell : machine.memory.get? machine.pc = some code)
    (unknown : Opcode.ofCode? code = none) :
    machine.fetch = .error (.unknownOpcode machine.pc code) := by
  simp [fetch, cell, unknown]

theorem fetch_of_past_end (cell : machine.memory.get? machine.pc = some code)
    (named : Opcode.ofCode? code = some op)
    (past : machine.memory.capacity < machine.pc + op.length) :
    machine.fetch = .error (.outOfBounds machine.pc (.memory machine.memory.capacity)) := by
  have missing : machine.memory.slice? (machine.pc + 1) (op.length - 1) = none := by
    rw [← Option.not_isSome_iff_eq_none, Memory.slice?_isSome_iff]
    have := op.one_le_length
    omega
  simp [fetch, cell, named, missing]

theorem fetch_of_slice? {operandBytes : List UInt8} (cell : machine.memory.get? machine.pc = some code)
    (named : Opcode.ofCode? code = some op)
    (sliced : machine.memory.slice? (machine.pc + 1) (op.length - 1) = some operandBytes) :
    (∀ instruction, op.decode operandBytes = .ok instruction →
      machine.fetch = .ok instruction) ∧
    (∀ tag, op.decode operandBytes = .error (.invalidOperandTag tag) →
      machine.fetch = .error (.invalidOperandTag machine.pc tag)) := by
  constructor
  · intro instruction decoded
    simp [fetch, cell, named, sliced, decoded]
  · intro tag refused
    simp [fetch, cell, named, sliced, refused]

theorem fetch_of_badTag {operandBytes : List UInt8} {tag : UInt8}
    (cell : machine.memory.get? machine.pc = some code) (named : Opcode.ofCode? code = some op)
    (sliced : machine.memory.slice? (machine.pc + 1) (op.length - 1) = some operandBytes)
    (bad : op.layout.badTag? operandBytes = some tag) :
    machine.fetch = .error (.invalidOperandTag machine.pc tag) := by
  have long : op.layout.length - 1 ≤ operandBytes.length :=
    Nat.le_of_eq (Memory.length_of_slice? sliced).symm
  have refused := (Opcode.decode_eq_error_iff op operandBytes _).mpr
    (Operands.read_of_badTag long bad)
  exact (fetch_of_slice? cell named sliced).2 tag refused

theorem fetch_of_goodTags {operandBytes : List UInt8}
    (cell : machine.memory.get? machine.pc = some code) (named : Opcode.ofCode? code = some op)
    (sliced : machine.memory.slice? (machine.pc + 1) (op.length - 1) = some operandBytes)
    (good : op.layout.badTag? operandBytes = none) :
    ∃ instruction, machine.fetch = .ok instruction ∧ instruction.opcode = op ∧
      machine.memory.slice? machine.pc op.length = some instruction.bytes := by
  have counted := Memory.length_of_slice? sliced
  obtain ⟨operands, read, -, written⟩ :=
    Operands.read_of_goodTags (Nat.le_of_eq counted.symm) good
  have mapped := Opcode.map_operands_decode op operandBytes
  rw [read] at mapped
  cases decoded : op.decode operandBytes with
  | error e => simp [decoded, Except.map] at mapped
  | ok instruction =>
    simp only [decoded, Except.map, Except.ok.injEq] at mapped
    have sameOpcode := Opcode.opcode_of_decode decoded
    have whole : instruction.bytes = code :: operandBytes := by
      rw [Instruction.bytes, mapped, written, ← Opcode.length, ← counted, List.take_length,
        sameOpcode, Opcode.code_ofCode? named]
    refine ⟨instruction, (fetch_of_slice? cell named sliced).1 instruction decoded, sameOpcode, ?_⟩
    rw [whole, ← Nat.sub_add_cancel op.one_le_length]
    exact Memory.slice?_succ_of_get? cell sliced

theorem fetch_of_inside (cell : machine.memory.get? machine.pc = some code)
    (named : Opcode.ofCode? code = some op)
    (inside : machine.pc + op.length ≤ machine.memory.capacity) :
    ∃ operandBytes,
      machine.memory.slice? (machine.pc + 1) (op.length - 1) = some operandBytes ∧
      ((∃ tag, op.layout.badTag? operandBytes = some tag ∧
          machine.fetch = .error (.invalidOperandTag machine.pc tag)) ∨
        op.layout.badTag? operandBytes = none ∧ ∃ instruction, machine.fetch = .ok instruction ∧
          instruction.opcode = op ∧
          machine.memory.slice? machine.pc op.length = some instruction.bytes) := by
  have present : (machine.memory.slice? (machine.pc + 1) (op.length - 1)).isSome := by
    rw [Memory.slice?_isSome_iff]
    have := op.one_le_length
    omega
  obtain ⟨operandBytes, sliced⟩ := Option.isSome_iff_exists.mp present
  refine ⟨operandBytes, sliced, ?_⟩
  cases found : op.layout.badTag? operandBytes with
  | some tag => exact .inl ⟨tag, rfl, fetch_of_badTag cell named sliced found⟩
  | none => exact .inr ⟨rfl, fetch_of_goodTags cell named sliced found⟩

/-! ## What a fetch reads -/

theorem fetch_eq_ok_iff (instruction : Instruction) :
    machine.fetch = .ok instruction ↔
      machine.memory.slice? machine.pc instruction.length = some instruction.bytes := by
  constructor
  · intro fetched
    obtain ⟨cell, inside⟩ := fetch_within fetched
    obtain ⟨operandBytes, -, outcome⟩ :=
      fetch_of_inside cell (Opcode.ofCode?_code instruction.opcode) inside
    rcases outcome with ⟨tag, -, refused⟩ | ⟨-, read, readOk, -, sliced⟩
    · rw [fetched] at refused
      cases refused
    · rw [fetched, Except.ok.injEq] at readOk
      subst readOk
      exact sliced
  · intro sliced
    have operandCount : instruction.length - 1 + 1 = instruction.length :=
      Nat.sub_add_cancel instruction.opcode.one_le_length
    rw [← operandCount, Instruction.bytes] at sliced
    obtain ⟨cell, operands⟩ := Memory.get?_of_slice?_succ sliced
    exact (fetch_of_slice? cell (Opcode.ofCode?_code _) operands).1 instruction
      (by simpa using Opcode.decode_operands_bytes instruction [])

/-- Reading the instruction at the program counter never falls through, whatever memory holds:
where the program counter stands against the end of memory decides the outcome. At or past the
end the code byte is out of bounds; a code byte that names no operation is unknown; an operation
whose bytes run past the end is out of bounds at the capacity; otherwise its operand bytes, as
many as the layout asks for, give either their first bad tag or an instruction of that operation
whose bytes are the cells from the program counter on, and only such an instruction is read.
An operation's family fixes the shape of its operands. -/
theorem fetch_outcome_by_position (machine : Machine) :
    (machine.memory.capacity ≤ machine.pc →
      machine.fetch = .error (.outOfBounds machine.pc (.memory machine.pc))) ∧
    (∀ code, machine.memory.get? machine.pc = some code → Opcode.ofCode? code = none →
      machine.fetch = .error (.unknownOpcode machine.pc code)) ∧
    (∀ code op, machine.memory.get? machine.pc = some code → Opcode.ofCode? code = some op →
      (machine.memory.capacity < machine.pc + op.length →
        machine.fetch = .error (.outOfBounds machine.pc (.memory machine.memory.capacity))) ∧
      (machine.pc + op.length ≤ machine.memory.capacity →
        ∃ operandBytes,
          machine.memory.slice? (machine.pc + 1) (op.length - 1) = some operandBytes ∧
          ((∃ tag, op.layout.badTag? operandBytes = some tag ∧
              machine.fetch = .error (.invalidOperandTag machine.pc tag)) ∨
            op.layout.badTag? operandBytes = none ∧ ∃ instruction,
              machine.fetch = .ok instruction ∧ instruction.opcode = op ∧
              machine.memory.slice? machine.pc op.length = some instruction.bytes))) ∧
    (∀ instruction, machine.fetch = .ok instruction ↔
      machine.memory.slice? machine.pc instruction.length = some instruction.bytes) ∧
    (∀ op : Opcode,
      (op.family = .move ∨ op.family = .arithmetic ∨ op.family = .compare →
        op.layout = .binary) ∧
      (op.family = .step → op.layout = .unary) ∧
      (op.family = .branch → op.layout = .branch) ∧
      (op.family = .noop ∨ op.family = .halt → op.layout = .nullary)) :=
  ⟨fetch_of_capacity_le, fun _ cell unknown => fetch_of_unknown cell unknown,
    fun _ _ cell named => ⟨fetch_of_past_end cell named, fetch_of_inside cell named⟩,
    fetch_eq_ok_iff, Opcode.layout_of_family⟩

end Machine

end ByteMachine
