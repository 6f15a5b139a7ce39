import ByteMachine.Proofs.Machine.Embedding
/-!
# Where a step sends the program counter

A step leaves the program counter in place, moves it past the instruction, or sends it to the
instruction's target. `Ensures` bounds what a computation returns and raises, proved once per
primitive.
-/

set_option autoImplicit false

namespace ByteMachine

/-- Whether a fault is one of reading an instruction: a code byte that names no operation, or
an operand tag that names no operand kind. -/
def Fault.undecodable : Fault → Bool
  | .unknownOpcode _ _ | .invalidOperandTag _ _ => true
  | .outOfBounds _ _ | .divisionByZero _ | .unsupportedAddressingMode _ _ _ => false

/-- The flows an instruction allows: only a branch jumps, and only to its own target. -/
def Instruction.Allows (instruction : Instruction) : Flow → Prop
  | .jump target => ∃ condition byte, instruction = .branch condition byte ∧ target = byte.toNat
  | .next | .halt => True

namespace Memory

theorem slice?_of_get? {memory : Memory} {address : Nat} {bytes : List UInt8}
    (fits : address + bytes.length ≤ memory.capacity)
    (cells : ∀ i < bytes.length, memory.get? (address + i) = bytes[i]?) :
    memory.slice? address bytes.length = some bytes := by
  obtain ⟨sliced, slicedOk⟩ :=
    Option.isSome_iff_exists.mp ((slice?_isSome_iff memory address bytes.length).mpr fits)
  rw [slicedOk, Option.some.injEq]
  apply List.ext_getElem?
  intro i
  rw [getElem?_slice? slicedOk]
  split
  · exact cells i ‹_›
  · exact (List.getElem?_eq_none_iff.mpr (by omega)).symm

end Memory

namespace Exec

variable {α β : Type}

/-- Every value a computation returns satisfies `returns`, and every fault it raises satisfies
`raises`. -/
structure Ensures (returns : α → Prop) (raises : Fault → Prop) (computation : Exec α) :
    Prop where
  ok : ∀ machine value after, computation.run machine = .ok value after → returns value
  error : ∀ machine fault stopped, computation.run machine = .error fault stopped → raises fault

variable {returns : β → Prop} {raises : Fault → Prop}

theorem Ensures.bind {first : Exec α} {next : α → Exec β}
    (firstEnsures : Ensures (fun _ => True) raises first)
    (nextEnsures : ∀ value, Ensures returns raises (next value)) :
    Ensures returns raises (first >>= next) where
  ok machine value after finished := by
    cases ran : first.run machine with
    | ok middle between =>
      rw [run_bind_of_ok ran] at finished
      exact (nextEnsures middle).ok between value after finished
    | error fault stopped =>
      rw [run_bind_of_error ran] at finished
      cases finished
  error machine fault stopped faulted := by
    cases ran : first.run machine with
    | ok middle between =>
      rw [run_bind_of_ok ran] at faulted
      exact (nextEnsures middle).error between fault stopped faulted
    | error raised halted =>
      rw [run_bind_of_error ran] at faulted
      cases faulted
      exact firstEnsures.error machine _ _ ran

theorem ensures_pure {value : β} (returned : returns value) :
    Ensures returns raises (pure value : Exec β) where
  ok machine result after finished := by
    cases finished
    exact returned
  error machine fault stopped faulted := by cases faulted

theorem ensures_query {ask : Machine → Except Fault β}
    (returned : ∀ machine value, ask machine = .ok value → returns value)
    (raised : ∀ machine fault, ask machine = .error fault → raises fault) :
    Ensures returns raises (query ask) where
  ok machine value after finished := by
    cases asked : ask machine with
    | ok answer =>
      rw [run_query_of_ok asked] at finished
      cases finished
      exact returned machine value asked
    | error fault =>
      rw [run_query_of_error asked] at finished
      cases finished
  error machine fault stopped faulted := by
    cases asked : ask machine with
    | ok answer =>
      rw [run_query_of_ok asked] at faulted
      cases faulted
    | error refused =>
      rw [run_query_of_error asked] at faulted
      cases faulted
      exact raised machine fault asked

theorem ensures_update {change : Machine → Except Fault (Machine × α)}
    (raised : ∀ machine fault, change machine = .error fault → raises fault) :
    Ensures (fun _ => True) raises (update change) where
  ok _ _ _ _ := trivial
  error machine fault stopped faulted := by
    cases changed : change machine with
    | ok result =>
      rw [run_update_of_ok changed] at faulted
      cases faulted
    | error refused =>
      rw [run_update_of_error changed] at faulted
      cases faulted
      exact raised machine fault changed

theorem ensures_raise {fault : Nat → Fault} (raised : ∀ pc, raises (fault pc)) :
    Ensures returns raises (raise fault : Exec β) where
  ok machine value after finished := by cases finished
  error machine refused stopped faulted := by
    rw [run_raise] at faulted
    cases faulted
    exact raised machine.pc

theorem ensures_setFlags (change : Flags → Flags) :
    Ensures (fun _ => True) raises (setFlags change) where
  ok _ _ _ _ := trivial
  error machine fault stopped faulted := by cases faulted

theorem Ensures.guard {condition : Prop} [Decidable condition] {fault : Nat → Fault}
    {next : PUnit → Exec β} (raised : ∀ pc, raises (fault pc))
    (nextEnsures : Ensures returns raises (next ())) :
    Ensures returns raises (if condition then raise fault >>= next else next ()) := by
  split
  · exact (ensures_raise raised).bind fun _ => nextEnsures
  · exact nextEnsures

end Exec

namespace Machine

/-! ## Executing an instruction -/

theorem ensures_read (operand : Operand) :
    Exec.Ensures (fun _ => True) (·.undecodable = false) (Exec.query (·.read operand)) :=
  Exec.ensures_query (fun _ _ _ => trivial) fun _ _ refused => by
    obtain ⟨location, rfl⟩ := read_fault refused
    rfl

theorem ensures_write (opcode : Opcode) (operand : Operand) (value : Int32) :
    Exec.Ensures (fun _ => True) (·.undecodable = false)
      (Exec.update (·.write opcode operand value)) :=
  Exec.ensures_update fun _ _ refused => by
    rcases write_fault refused with ⟨location, rfl⟩ | rfl
    · rfl
    · rfl

theorem execute_ensures (instruction : Instruction) :
    Exec.Ensures instruction.Allows (·.undecodable = false) (execute instruction) := by
  cases instruction with
  | noop => exact Exec.ensures_pure trivial
  | halt => exact Exec.ensures_pure trivial
  | move src dest =>
    refine (ensures_read src).bind fun value => (ensures_read dest).bind fun old => ?_
    exact (ensures_write _ dest value).bind fun stored =>
      (Exec.ensures_setFlags _).bind fun _ => Exec.ensures_pure trivial
  | arithmetic op src dest =>
    refine (ensures_read src).bind fun rhs => ?_
    refine Exec.Ensures.guard (fun _ => rfl) ?_
    refine Exec.Ensures.guard (fun _ => rfl) ?_
    refine (ensures_read dest).bind fun lhs => ?_
    exact (ensures_write _ dest _).bind fun _ =>
      (Exec.ensures_setFlags _).bind fun _ => Exec.ensures_pure trivial
  | adjust direction dest =>
    refine (ensures_read dest).bind fun old => ?_
    dsimp only
    split
    · exact (Exec.ensures_pure trivial).bind fun stored =>
        (Exec.ensures_setFlags _).bind fun _ => Exec.ensures_pure trivial
    · exact (ensures_write _ dest _).bind fun stored =>
        (Exec.ensures_setFlags _).bind fun _ => Exec.ensures_pure trivial
  | compare src dest =>
    refine (ensures_read src).bind fun rhs => (ensures_read dest).bind fun lhs => ?_
    exact (Exec.ensures_setFlags _).bind fun _ => Exec.ensures_pure trivial
  | branch condition target =>
    rw [execute]
    refine Exec.ensures_query ?_ fun machine fault refused => by cases refused
    intro machine flow decided
    cases decided
    split
    · exact ⟨condition, target, rfl, rfl⟩
    · trivial

/-! ## One step -/

theorem step_of_fetch {machine : Machine} {instruction : Instruction}
    (fetched : machine.fetch = .ok instruction) :
    (machine.step.pc = machine.pc ∨ machine.step.pc = machine.pc + instruction.length ∨
      ∃ condition target, instruction = .branch condition target ∧
        machine.step.pc = target.toNat) ∧
    ∀ fault, machine.step.status = .faulted fault →
      machine.status = .faulted fault ∨ fault.undecodable = false := by
  by_cases running : machine.status = .running
  · have cycled : cycle.run machine =
        ((execute instruction) >>= fun flow => modify (·.advance instruction.length flow)).run
          machine := by
      rw [cycle, Exec.run_bind_of_ok (Exec.run_query_of_ok fetched)]
    cases executed : (execute instruction).run machine with
    | error fault stopped =>
      rw [Exec.run_bind_of_error executed] at cycled
      have unchanged := ((execute_contained instruction).faults machine fault stopped executed).1
      have clean := (execute_ensures instruction).error machine fault stopped executed
      rw [step_of_cycle_error running cycled, unchanged]
      refine ⟨.inl rfl, fun recorded faulted => ?_⟩
      cases faulted
      exact .inr clean
    | ok flow after =>
      rw [Exec.run_bind_of_ok executed, Exec.run_modify] at cycled
      have stepped : machine.step = after.advance instruction.length flow := by
        simp [step, running, cycled]
      have kept := (execute_contained instruction).control machine flow after executed
      have allowed := (execute_ensures instruction).ok machine flow after executed
      rw [stepped]
      constructor
      · cases flow with
        | next => exact .inr (.inl (by simp [advance, kept.pc]))
        | halt => exact .inl (by simp [advance, kept.pc])
        | jump target =>
          obtain ⟨condition, byte, rfl, rfl⟩ := allowed
          exact .inr (.inr ⟨condition, byte, rfl, rfl⟩)
      · intro fault faulted
        rcases advance_status after instruction.length flow with same | halted
        · rw [same, kept.status, running] at faulted
          cases faulted
        · rw [halted] at faulted
          cases faulted
  · rw [step_of_not_running (by simp [isRunning, running])]
    exact ⟨.inl rfl, fun fault faulted => .inl faulted⟩

theorem fetch_of_image {machine : Machine} {image rest : List UInt8} {instruction : Instruction}
    (holds : ∀ address < image.length, machine.memory.get? address = image[address]?)
    (placed : image.drop machine.pc = instruction.bytes ++ rest) :
    machine.fetch = .ok instruction := by
  have operandCount : instruction.operands.bytes.length + 1 = instruction.opcode.length := by
    simpa [Instruction.bytes, Instruction.length] using instruction.length_bytes
  have inside : machine.pc + instruction.opcode.length ≤ image.length := by
    have lengths := congrArg List.length placed
    simp only [List.length_drop, List.length_append, Instruction.bytes, List.length_cons] at lengths
    omega
  have cell : ∀ i < instruction.opcode.length,
      machine.memory.get? (machine.pc + i) = instruction.bytes[i]? := by
    intro i within
    rw [holds _ (by omega), ← List.getElem?_drop, placed,
      List.getElem?_append_left (by simp [Instruction.bytes]; omega)]
  have code : machine.memory.get? machine.pc = some instruction.opcode.code := by
    simpa [Instruction.bytes] using cell 0 (by omega)
  have capacity : machine.pc + instruction.opcode.length ≤ machine.memory.capacity := by
    have last := cell (instruction.opcode.length - 1) (by omega)
    have present : (machine.memory.get? (machine.pc + (instruction.opcode.length - 1))).isSome := by
      rw [last, isSome_getElem?, Instruction.length_bytes, Instruction.length]
      omega
    rw [Memory.get?_isSome_iff] at present
    omega
  have operands : machine.memory.slice? (machine.pc + 1) (instruction.opcode.length - 1) =
      some instruction.operands.bytes := by
    rw [← operandCount, Nat.add_sub_cancel]
    refine Memory.slice?_of_get? (by omega) fun i within => ?_
    rw [Nat.add_assoc, Nat.add_comm 1 i, cell (i + 1) (by omega)]
    simp [Instruction.bytes]
  unfold fetch
  simp [code, Opcode.ofCode?_code, operands,
    by simpa using Opcode.decode_operands_bytes instruction []]

end Machine

end ByteMachine
