import ByteMachine.Proofs.Machine.Reachable
/-!
# What a finished instruction has done

One lemma per instruction (`run_move_eq_ok` and its siblings) says what it read, wrote and set,
so later statements never unfold an instruction.
-/

set_option autoImplicit false

namespace ByteMachine

/-- The place an operand names: a register or a memory cell. An immediate names no place. -/
def Operand.place? (operand : Operand) : Option Location :=
  match operand.kind with
  | .data => some (.register ⟨.data, operand.value⟩)
  | .address => some (.register ⟨.address, operand.value⟩)
  | .memory => some (.memory operand.value.toNat)
  | .number => none

/-- Whether a machine has a place: a register of its banks, or a cell of its memory. -/
def Machine.Has (machine : Machine) : Location → Prop
  | .memory address => address < machine.memory.capacity
  | .register register => register.index.toNat < machine.registers.count

namespace Exec

variable {α β : Type} {machine after : Machine}

/-! ## Taking a finished computation apart -/

theorem run_bind_eq_ok {first : Exec α} {next : α → Exec β} {value : β} :
    (first >>= next).run machine = .ok value after ↔
      ∃ middle between, first.run machine = .ok middle between ∧
        (next middle).run between = .ok value after := by
  constructor
  · intro finished
    cases ran : first.run machine with
    | ok middle between => exact ⟨middle, between, rfl, by rwa [run_bind_of_ok ran] at finished⟩
    | error fault stopped =>
      rw [run_bind_of_error ran] at finished
      cases finished
  · rintro ⟨middle, between, ran, finished⟩
    rw [run_bind_of_ok ran, finished]

theorem run_query_eq_ok {ask : Machine → Except Fault α} {value : α} :
    (query ask).run machine = .ok value after ↔ ask machine = .ok value ∧ after = machine := by
  cases asked : ask machine with
  | ok answer => simp [run_query_of_ok asked, eq_comm]
  | error fault => simp [run_query_of_error asked]

theorem run_update_eq_ok {change : Machine → Except Fault (Machine × α)} {value : α} :
    (update change).run machine = .ok value after ↔ change machine = .ok (after, value) := by
  cases changed : change machine with
  | ok result =>
    rcases result with ⟨changedMachine, answer⟩
    simp [run_update_of_ok changed, and_comm, eq_comm]
  | error fault => simp [run_update_of_error changed]

theorem run_pure_eq_ok {result value : α} :
    (pure result : Exec α).run machine = .ok value after ↔ value = result ∧ after = machine := by
  simp [EStateM.run, pure, EStateM.pure, eq_comm]

theorem run_setFlags_eq_ok {change : Flags → Flags} {value : Unit} :
    (setFlags change).run machine = .ok value after ↔
      after = { machine with flags := change machine.flags } := by
  simp [run_setFlags, eq_comm]

theorem run_guard_eq_ok {condition : Prop} [Decidable condition] {fault : Nat → Fault}
    {next : PUnit → Exec β} {value : β} :
    (if condition then raise fault >>= next else next ()).run machine = .ok value after ↔
      ¬ condition ∧ (next ()).run machine = .ok value after := by
  split
  · rename_i holds
    rw [run_bind_of_error (run_raise fault machine)]
    simp [holds]
  · rename_i fails
    simp [fails]

end Exec

namespace Machine

/-! ## Reads and writes -/

theorem readRegister_eq_error_iff {machine : Machine} {register : Register} {fault : Fault} :
    machine.readRegister register = .error fault ↔
      ¬ machine.Has (.register register) ∧ fault = .outOfBounds machine.pc (.register register) := by
  have present := machine.registers.get?_isSome_iff register
  unfold readRegister
  cases found : machine.registers.get? register with
  | some value =>
    simp only [found, Option.isSome_some, true_iff] at present
    simp [Has, present]
  | none =>
    simp only [found, Option.isSome_none, Bool.false_eq_true, false_iff] at present
    simp [Has, present, outOfBounds, eq_comm]

theorem read_eq_error_iff {machine : Machine} {operand : Operand} {fault : Fault} :
    machine.read operand = .error fault ↔
      ∃ location, operand.place? = some location ∧ ¬ machine.Has location ∧
        fault = .outOfBounds machine.pc location := by
  rcases operand with ⟨kind, byte⟩
  cases kind with
  | number => simp [read, Operand.place?]
  | data | address => simp [read, Operand.place?, readRegister_eq_error_iff]
  | memory =>
    have present := machine.memory.get?_isSome_iff byte.toNat
    simp only [read, Operand.place?, Option.some.injEq, exists_eq_left', Has]
    cases found : machine.memory.get? byte.toNat with
    | some cell =>
      simp only [found, Option.isSome_some, true_iff] at present
      simp [present]
    | none =>
      simp only [found, Option.isSome_none, Bool.false_eq_true, false_iff] at present
      simp [present, outOfBounds, eq_comm]

theorem read_of_same_places {machine other : Machine} {operand : Operand} {value : Int32}
    (readOk : machine.read operand = .ok value) (registers : other.registers = machine.registers)
    (memory : other.memory = machine.memory) : other.read operand = .ok value := by
  rcases operand with ⟨kind, byte⟩
  cases kind <;> simp only [read, readRegister, registers, memory] at readOk ⊢ <;>
    first | exact readOk | (split at readOk <;> simp_all)

theorem read_register {machine : Machine} {operand : Operand} {register : Register}
    (named : operand.place? = some (.register register)) :
    machine.read operand = machine.readRegister register := by
  rcases operand with ⟨kind, byte⟩
  cases kind <;> simp only [Operand.place?, Option.some.injEq, reduceCtorEq,
    Location.register.injEq] at named <;> subst named <;> rfl

theorem read_memory {machine : Machine} {operand : Operand} {cell : UInt8}
    (inMemory : operand.kind = .memory) (found : machine.memory.get? operand.value.toNat = some cell) :
    machine.read operand = .ok (signExtend cell) := by
  simp [read, inMemory, found]

theorem read_memory_cases {machine : Machine} {operand : Operand} {value : Int32}
    (inMemory : operand.kind = .memory) (readOk : machine.read operand = .ok value) :
    ∃ cell, machine.memory.get? operand.value.toNat = some cell ∧ value = signExtend cell := by
  cases found : machine.memory.get? operand.value.toNat with
  | some cell =>
    rw [read_memory inMemory found] at readOk
    cases readOk
    exact ⟨cell, rfl, rfl⟩
  | none =>
    simp [read, inMemory, found] at readOk

theorem write_cases {machine written : Machine} {opcode : Opcode} {operand : Operand}
    {value stored : Int32} (wrote : machine.write opcode operand value = .ok (written, stored)) :
    (∃ register registers, operand.place? = some (.register register) ∧
      machine.registers.set? register value = some registers ∧
      written = { machine with registers } ∧ stored = value) ∨
    (∃ memory, operand.kind = .memory ∧
      machine.memory.set? operand.value.toNat (lowByte value) = some memory ∧
      written = { machine with memory } ∧ stored = signExtend (lowByte value)) := by
  rcases operand with ⟨kind, byte⟩
  cases kind with
  | number => cases wrote
  | memory =>
    simp only [write] at wrote
    split at wrote
    · rename_i memory updated
      cases wrote
      exact .inr ⟨memory, rfl, updated, rfl, rfl⟩
    · cases wrote
  | data | address =>
    simp only [write, writeRegister] at wrote
    split at wrote
    · rename_i registers updated
      cases wrote
      exact .inl ⟨_, registers, rfl, updated, rfl, rfl⟩
    · cases wrote

section Write

variable {machine written : Machine} {opcode : Opcode} {operand : Operand} {value stored : Int32}

theorem write_flags (wrote : machine.write opcode operand value = .ok (written, stored)) :
    written.flags = machine.flags := by
  rcases write_cases wrote with ⟨_, _, _, _, rfl, -⟩ | ⟨_, _, _, rfl, -⟩ <;> rfl

theorem write_kind (wrote : machine.write opcode operand value = .ok (written, stored)) :
    operand.kind ≠ .number := by
  intro immediate
  simp [write, immediate] at wrote

theorem write_registers_of_ne (wrote : machine.write opcode operand value = .ok (written, stored))
    {register : Register} (elsewhere : operand.place? ≠ some (.register register)) :
    written.registers.get? register = machine.registers.get? register := by
  rcases write_cases wrote with ⟨named, registers, place, updated, rfl, -⟩ | ⟨_, _, _, rfl, -⟩
  · exact Registers.get?_set?_ne updated fun same => elsewhere (by rw [place, same])
  · rfl

theorem write_memory_of_ne (wrote : machine.write opcode operand value = .ok (written, stored))
    {address : Nat} (elsewhere : operand.place? ≠ some (.memory address)) :
    written.memory.get? address = machine.memory.get? address := by
  rcases write_cases wrote with ⟨_, _, _, _, rfl, -⟩ | ⟨memory, inMemory, updated, rfl, -⟩
  · rfl
  · refine Memory.get?_set?_ne updated fun same => elsewhere ?_
    simp [Operand.place?, inMemory, same]

theorem read_write (wrote : machine.write opcode operand value = .ok (written, stored)) :
    written.read operand = .ok stored := by
  rcases write_cases wrote with ⟨register, registers, place, updated, rfl, rfl⟩ |
    ⟨memory, inMemory, updated, rfl, rfl⟩
  · rw [read_register place]
    simp [readRegister, Registers.get?_set?_same updated]
  · exact read_memory inMemory (Memory.get?_set?_same updated)

theorem write_memory (wrote : machine.write opcode operand value = .ok (written, stored))
    (inMemory : operand.kind = .memory) :
    written.memory.get? operand.value.toNat = some (lowByte value) ∧
      stored = signExtend (lowByte value) := by
  rcases write_cases wrote with ⟨register, registers, place, updated, rfl, rfl⟩ |
    ⟨memory, -, updated, rfl, rfl⟩
  · simp [Operand.place?, inMemory] at place
  · exact ⟨Memory.get?_set?_same updated, rfl⟩

theorem write_register (wrote : machine.write opcode operand value = .ok (written, stored))
    (notMemory : operand.kind ≠ .memory) : stored = value := by
  rcases write_cases wrote with ⟨_, _, _, _, _, rfl⟩ | ⟨_, inMemory, _, _, _⟩
  · rfl
  · exact absurd inMemory notMemory

end Write

/-! ## Each instruction that finishes -/

section Execute

variable {machine after : Machine} {flow : Flow}

theorem run_noop : (execute .noop).run machine = .ok .next machine := rfl

theorem run_halt : (execute .halt).run machine = .ok .halt machine := rfl

theorem run_branch (condition : Condition) (target : UInt8) :
    (execute (.branch condition target)).run machine =
      .ok (if condition.holds machine.flags then .jump target.toNat else .next) machine := rfl

theorem run_move_eq_ok {src dest : Operand}
    (finished : (execute (.move src dest)).run machine = .ok flow after) :
    ∃ value old written stored, machine.read src = .ok value ∧ machine.read dest = .ok old ∧
      machine.write .move dest value = .ok (written, stored) ∧ flow = .next ∧
      after = { written with flags :=
        ((machine.flags.withEqual (old == stored)).setResult stored).clearCarryOverflow } := by
  simp only [execute, Exec.run_bind_eq_ok, Exec.run_query_eq_ok, Exec.run_update_eq_ok,
    Exec.run_setFlags_eq_ok, Exec.run_pure_eq_ok] at finished
  obtain ⟨value, _, ⟨readSrc, rfl⟩, old, _, ⟨readDest, rfl⟩, stored, written, wrote, -, -, rfl,
    rfl, rfl⟩ := finished
  exact ⟨value, old, written, stored, readSrc, readDest, wrote, rfl, by rw [write_flags wrote]⟩

theorem run_arithmetic_eq_ok {op : ArithOp} {src dest : Operand}
    (finished : (execute (.arithmetic op src dest)).run machine = .ok flow after) :
    ∃ rhs lhs written stored, machine.read src = .ok rhs ∧ ¬ (op = .div ∧ rhs = 0) ∧
      dest.kind = .data ∧ machine.read dest = .ok lhs ∧
      machine.write (.arithmetic op) dest (op.apply lhs rhs) = .ok (written, stored) ∧
      flow = .next ∧
      after = { written with flags :=
        ((machine.flags.withEqual (lhs == rhs)).setResult (op.apply lhs rhs)).clearCarryOverflow } := by
  simp only [execute, Exec.run_bind_eq_ok, Exec.run_query_eq_ok, Exec.run_update_eq_ok,
    Exec.run_setFlags_eq_ok, Exec.run_pure_eq_ok, Exec.run_guard_eq_ok, ne_eq,
    Classical.not_not] at finished
  obtain ⟨rhs, _, ⟨readSrc, rfl⟩, divisor, toData, lhs, _, ⟨readDest, rfl⟩, stored, written,
    wrote, -, -, rfl, rfl, rfl⟩ := finished
  exact ⟨rhs, lhs, written, stored, readSrc, divisor, toData, readDest, wrote, rfl,
    by rw [write_flags wrote]⟩

theorem run_adjust_eq_ok {direction : Adjust} {dest : Operand}
    (finished : (execute (.adjust direction dest)).run machine = .ok flow after) :
    ∃ old written stored, machine.read dest = .ok old ∧ flow = .next ∧
      (dest.kind = .number ∧ written = machine ∧ stored = direction.apply old ∨
        machine.write (.adjust direction) dest (direction.apply old) = .ok (written, stored)) ∧
      after = { written with flags := (machine.flags.withEqual (old == stored)).setResult stored } := by
  simp only [execute, Exec.run_bind_eq_ok, Exec.run_query_eq_ok] at finished
  obtain ⟨old, _, ⟨readDest, rfl⟩, finished⟩ := finished
  by_cases immediate : dest.kind = .number
  · rw [if_pos immediate] at finished
    simp only [Exec.run_bind_eq_ok, Exec.run_pure_eq_ok, Exec.run_setFlags_eq_ok] at finished
    obtain ⟨stored, _, ⟨rfl, rfl⟩, -, _, rfl, rfl, rfl⟩ := finished
    exact ⟨old, _, _, readDest, rfl, .inl ⟨immediate, rfl, rfl⟩, rfl⟩
  · rw [if_neg immediate] at finished
    simp only [Exec.run_bind_eq_ok, Exec.run_update_eq_ok, Exec.run_pure_eq_ok,
      Exec.run_setFlags_eq_ok] at finished
    obtain ⟨stored, written, wrote, -, _, rfl, rfl, rfl⟩ := finished
    exact ⟨old, written, stored, readDest, rfl, .inr wrote, by rw [write_flags wrote]⟩

theorem run_compare_eq_ok {src dest : Operand}
    (finished : (execute (.compare src dest)).run machine = .ok flow after) :
    ∃ rhs lhs, machine.read src = .ok rhs ∧ machine.read dest = .ok lhs ∧ flow = .next ∧
      after = { machine with flags :=
        ((machine.flags.withEqual (lhs == rhs)).setResult (lhs - rhs)).clearCarryOverflow } := by
  simp only [execute, Exec.run_bind_eq_ok, Exec.run_query_eq_ok, Exec.run_setFlags_eq_ok,
    Exec.run_pure_eq_ok] at finished
  obtain ⟨rhs, _, ⟨readSrc, rfl⟩, lhs, _, ⟨readDest, rfl⟩, -, _, rfl, rfl, rfl⟩ := finished
  exact ⟨rhs, lhs, readSrc, readDest, rfl, rfl⟩

end Execute

/-! ## A step that finishes -/

theorem advance_flags (machine : Machine) (length : Nat) (flow : Flow) :
    (machine.advance length flow).flags = machine.flags := by
  cases flow <;> rfl

theorem read_advance {machine : Machine} {operand : Operand} {value : Int32} (length : Nat)
    (flow : Flow) (readOk : machine.read operand = .ok value) :
    (machine.advance length flow).read operand = .ok value :=
  read_of_same_places readOk (advance_registers machine length flow)
    (advance_memory machine length flow)

theorem read_advance_write {machine written : Machine} {opcode : Opcode} {operand : Operand}
    {value stored : Int32} {flags : Flags} (length : Nat) (flow : Flow)
    (wrote : machine.write opcode operand value = .ok (written, stored)) :
    ({ written with flags := flags }.advance length flow).read operand = .ok stored :=
  read_advance length flow (read_of_same_places (read_write wrote) rfl rfl)

theorem step_finished {machine : Machine} (running : machine.status = .running)
    (finished : machine.step.outcome = .ok ()) :
    ∃ instruction flow executed, machine.fetch = .ok instruction ∧
      (execute instruction).run machine = .ok flow executed ∧
      machine.step = executed.advance instruction.length flow := by
  cases ran : cycle.run machine with
  | ok _ after =>
    obtain ⟨instruction, flow, executed, fetched, executedOk, rfl⟩ := cycle_finished ran
    exact ⟨instruction, flow, executed, fetched, executedOk, by simp [step, running, ran]⟩
  | error fault stopped =>
    rw [step_of_cycle_error running ran] at finished
    cases finished

theorem step_of_fetch_finished {machine : Machine} {instruction : Instruction}
    (running : machine.status = .running) (finished : machine.step.outcome = .ok ())
    (fetched : machine.fetch = .ok instruction) :
    ∃ flow executed, (execute instruction).run machine = .ok flow executed ∧
      machine.step = executed.advance instruction.length flow := by
  obtain ⟨read, flow, executed, fetchedRead, executedOk, stepped⟩ := step_finished running finished
  rw [fetched] at fetchedRead
  cases fetchedRead
  exact ⟨flow, executed, executedOk, stepped⟩

theorem step_outcome_of_execute_error {machine stopped : Machine} {instruction : Instruction}
    {fault : Fault} (running : machine.status = .running) (fetched : machine.fetch = .ok instruction)
    (faulted : (execute instruction).run machine = .error fault stopped) :
    machine.step.outcome = .error fault := by
  have cycled : cycle.run machine = .error fault stopped := by
    rw [cycle, Exec.run_bind_of_ok (Exec.run_query_of_ok fetched), Exec.run_bind_of_error faulted]
  rw [step_of_cycle_error running cycled]
  rfl

theorem step_of_execute_ok {machine after : Machine} {instruction : Instruction} {flow : Flow}
    (running : machine.status = .running) (fetched : machine.fetch = .ok instruction)
    (finished : (execute instruction).run machine = .ok flow after) :
    machine.step = after.advance instruction.length flow := by
  have cycled : cycle.run machine = .ok () (after.advance instruction.length flow) := by
    rw [cycle, Exec.run_bind_of_ok (Exec.run_query_of_ok fetched), Exec.run_bind_of_ok finished,
      Exec.run_modify]
  simp [step, running, cycled]

end Machine

end ByteMachine
