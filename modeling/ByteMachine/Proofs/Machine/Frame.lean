import ByteMachine.Proofs.Machine.Finished
/-!
# A step touches only its destination

A finished step changes at most its destination register or cell, and moves the program
counter as its flow says (`Machine.ChangesOnly`, `step_changes_only_destination`).
-/

set_option autoImplicit false

namespace ByteMachine

/-- The place an instruction writes: the destination of a move, an arithmetic operation or an
adjustment, when it is a register or a memory cell. The other instructions write nowhere. -/
def Instruction.writes? : Instruction → Option Location
  | .move _ dest | .arithmetic _ _ dest | .adjust _ dest => dest.place?
  | .noop | .halt | .branch _ _ | .compare _ _ => none

theorem Instruction.writes?_memory_lt {instruction : Instruction} {address : Nat}
    (writes : instruction.writes? = some (.memory address)) : address < 256 := by
  have named : ∃ dest : Operand, dest.place? = some (.memory address) := by
    cases instruction <;> simp only [writes?, reduceCtorEq] at writes <;> exact ⟨_, writes⟩
  obtain ⟨⟨kind, byte⟩, named⟩ := named
  cases kind <;> simp only [Operand.place?, Option.some.injEq, reduceCtorEq,
    Location.memory.injEq] at named
  rw [← named]
  exact byte.toNat_lt

theorem Instruction.Yields.next {instruction : Instruction} {flow : Flow}
    (yields : instruction.Yields flow) (notHalt : instruction ≠ .halt)
    (notBranch : ∀ condition target, instruction ≠ .branch condition target) : flow = .next := by
  cases instruction <;> simp_all [Yields]

/-- A machine after another that has the same value in every register and memory cell but, at
most, the one at `place`. -/
structure Machine.ChangesOnly (machine after : Machine) (place : Option Location) : Prop where
  registers : ∀ register, place ≠ some (.register register) →
    after.registers.get? register = machine.registers.get? register
  memory : ∀ address, place ≠ some (.memory address) →
    after.memory.get? address = machine.memory.get? address

namespace Machine

variable {machine after : Machine} {place : Option Location}

theorem ChangesOnly.of_places (registers : after.registers = machine.registers)
    (memory : after.memory = machine.memory) : machine.ChangesOnly after place :=
  ⟨fun _ _ => by rw [registers], fun _ _ => by rw [memory]⟩

theorem ChangesOnly.advance (changes : machine.ChangesOnly after place) (length : Nat) (flow : Flow) :
    machine.ChangesOnly (after.advance length flow) place := by
  refine ⟨fun register elsewhere => ?_, fun address elsewhere => ?_⟩
  · rw [advance_registers]
    exact changes.registers register elsewhere
  · rw [advance_memory]
    exact changes.memory address elsewhere

theorem ChangesOnly.withFlags (changes : machine.ChangesOnly after place) (flags : Flags) :
    machine.ChangesOnly { after with flags := flags } place :=
  ⟨changes.registers, changes.memory⟩

theorem write_changesOnly {written : Machine} {opcode : Opcode} {operand : Operand}
    {value stored : Int32} (wrote : machine.write opcode operand value = .ok (written, stored)) :
    machine.ChangesOnly written operand.place? :=
  ⟨fun _ elsewhere => write_registers_of_ne wrote elsewhere,
    fun _ elsewhere => write_memory_of_ne wrote elsewhere⟩

theorem execute_unchanged {instruction : Instruction} {flow : Flow}
    (finished : (execute instruction).run machine = .ok flow after)
    (inert : instruction = .noop ∨ instruction = .halt ∨
      ∃ condition target, instruction = .branch condition target) : after = machine := by
  rcases inert with rfl | rfl | ⟨condition, target, rfl⟩
  · rw [run_noop] at finished
    cases finished
    rfl
  · rw [run_halt] at finished
    cases finished
    rfl
  · rw [run_branch] at finished
    cases finished
    rfl

theorem execute_changesOnly {instruction : Instruction} {flow : Flow}
    (finished : (execute instruction).run machine = .ok flow after) :
    machine.ChangesOnly after instruction.writes? := by
  cases instruction with
  | noop | halt | branch =>
    rw [execute_unchanged finished (by simp)]
    exact .of_places rfl rfl
  | compare src dest =>
    obtain ⟨rhs, lhs, -, -, -, rfl⟩ := run_compare_eq_ok finished
    exact .of_places rfl rfl
  | move src dest =>
    obtain ⟨value, old, written, stored, -, -, wrote, -, rfl⟩ := run_move_eq_ok finished
    exact (write_changesOnly wrote).withFlags _
  | arithmetic op src dest =>
    obtain ⟨rhs, lhs, written, stored, -, -, -, -, wrote, -, rfl⟩ := run_arithmetic_eq_ok finished
    exact (write_changesOnly wrote).withFlags _
  | adjust direction dest =>
    obtain ⟨old, written, stored, -, -, kept | wrote, rfl⟩ := run_adjust_eq_ok finished
    · obtain ⟨-, rfl, -⟩ := kept
      exact .of_places rfl rfl
    · exact (write_changesOnly wrote).withFlags _

/-- Each step touches only its destination and moves the program counter by the table. A
running machine whose step finishes has read an instruction at its program counter, and after
the step every register and memory cell but the one the instruction writes holds what it held,
in particular every cell from address 256 on; `noop`, `halt` and the branches keep the flags;
the entry offset stays; `halt` keeps the program counter and halts; a branch goes to its target
byte when its condition holds of the flags and past itself when it does not; and every other
instruction goes past itself and keeps the machine running. -/
theorem step_changes_only_destination (machine : Machine) (running : machine.status = .running)
    (finished : machine.step.outcome = .ok ()) :
    ∃ instruction, machine.fetch = .ok instruction ∧
      (∀ register, instruction.writes? ≠ some (.register register) →
        machine.step.registers.get? register = machine.registers.get? register) ∧
      (∀ address, instruction.writes? ≠ some (.memory address) →
        machine.step.memory.get? address = machine.memory.get? address) ∧
      (∀ address, 256 ≤ address → machine.step.memory.get? address = machine.memory.get? address) ∧
      ((instruction = .noop ∨ instruction = .halt ∨
        ∃ condition target, instruction = .branch condition target) →
        machine.step.flags = machine.flags) ∧
      machine.step.start = machine.start ∧
      (instruction = .halt → machine.step.pc = machine.pc ∧ machine.step.status = .halted) ∧
      (∀ condition target, instruction = .branch condition target →
        machine.step.pc =
          if condition.holds machine.flags then target.toNat else machine.pc + instruction.length) ∧
      (instruction ≠ .halt → (∀ condition target, instruction ≠ .branch condition target) →
        machine.step.pc = machine.pc + instruction.length ∧ machine.step.status = .running) := by
  obtain ⟨instruction, flow, executed, fetched, executedOk, stepped⟩ := step_finished running finished
  have control := (execute_contained instruction).control machine flow executed executedOk
  have yields := ((execute_keepsSize instruction) machine flow executed executedOk).1
  have changes := (execute_changesOnly executedOk).advance instruction.length flow
  rw [← stepped] at changes
  refine ⟨instruction, fetched, changes.registers, changes.memory, fun address high => ?_,
    fun inert => ?_, ?_, ?_, ?_, ?_⟩
  · refine changes.memory address fun writes => ?_
    have := Instruction.writes?_memory_lt writes
    omega
  · rw [stepped, advance_flags, execute_unchanged executedOk inert]
  · rw [stepped, advance_start, control.start]
  · rintro rfl
    rw [run_halt] at executedOk
    cases executedOk
    simp [stepped, advance]
  · rintro condition target rfl
    rw [run_branch] at executedOk
    cases executedOk
    rw [stepped]
    split <;> simp [advance]
  · intro notHalt notBranch
    rw [stepped, yields.next notHalt notBranch]
    simp [advance, control.pc, control.status, running]

/-- A running machine whose first instruction is `move.b #$5, d0`. -/
def moveFive : Machine where
  memory := ⟨#[0x07, 0x03, 0x05, 0x00, 0x00, 0x0d]⟩
  registers := Registers.new 1
  flags := {}
  pc := 0
  start := 0
  status := .running

theorem step_changes_only_destination_on_move :
    moveFive.status = .running ∧ moveFive.step.outcome = .ok () ∧
      ∃ instruction, moveFive.fetch = .ok instruction ∧
        (∀ register, instruction.writes? ≠ some (.register register) →
          moveFive.step.registers.get? register = moveFive.registers.get? register) ∧
        (∀ address, instruction.writes? ≠ some (.memory address) →
          moveFive.step.memory.get? address = moveFive.memory.get? address) ∧
        (∀ address, 256 ≤ address →
          moveFive.step.memory.get? address = moveFive.memory.get? address) ∧
        ((instruction = .noop ∨ instruction = .halt ∨
          ∃ condition target, instruction = .branch condition target) →
          moveFive.step.flags = moveFive.flags) ∧
        moveFive.step.start = moveFive.start ∧
        (instruction = .halt → moveFive.step.pc = moveFive.pc ∧ moveFive.step.status = .halted) ∧
        (∀ condition target, instruction = .branch condition target →
          moveFive.step.pc =
            if condition.holds moveFive.flags then target.toNat else moveFive.pc + instruction.length) ∧
        (instruction ≠ .halt → (∀ condition target, instruction ≠ .branch condition target) →
          moveFive.step.pc = moveFive.pc + instruction.length ∧ moveFive.step.status = .running) :=
  ⟨rfl, rfl, step_changes_only_destination moveFive rfl rfl⟩

end Machine

end ByteMachine
