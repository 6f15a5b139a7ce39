import ByteMachine.Machine.Step
/-!
# Faults leave the machine as it was

Every instruction does what can fail before its first write, so a faulting step changes only
the status (`step_fault_restores`). The argument is a small logic of effects of `Exec`:
inspections, settled and contained computations, closed under sequencing.
-/

set_option autoImplicit false

namespace ByteMachine

/-- Two machines at the same program counter and entry offset, in the same status: what the
execution of an instruction keeps. -/
structure Machine.SameControl (before after : Machine) : Prop where
  pc : after.pc = before.pc
  start : after.start = before.start
  status : after.status = before.status

theorem Machine.SameControl.refl (machine : Machine) : machine.SameControl machine :=
  ⟨rfl, rfl, rfl⟩

theorem Machine.SameControl.trans {first second third : Machine}
    (earlier : first.SameControl second) (later : second.SameControl third) :
    first.SameControl third :=
  ⟨later.pc.trans earlier.pc, later.start.trans earlier.start, later.status.trans earlier.status⟩

namespace Exec

variable {α β : Type}

theorem run_bind_of_ok {first : Exec α} {next : α → Exec β} {machine after : Machine}
    {value : α} (ran : first.run machine = .ok value after) :
    (first >>= next).run machine = (next value).run after := by
  simp only [EStateM.run] at ran ⊢
  show EStateM.bind first next machine = _
  simp only [EStateM.bind, ran]

theorem run_bind_of_error {first : Exec α} {next : α → Exec β} {machine stopped : Machine}
    {fault : Fault} (ran : first.run machine = .error fault stopped) :
    (first >>= next).run machine = .error fault stopped := by
  simp only [EStateM.run] at ran ⊢
  show EStateM.bind first next machine = _
  simp only [EStateM.bind, ran]

theorem run_query_of_ok {ask : Machine → Except Fault α} {machine : Machine} {value : α}
    (asked : ask machine = .ok value) : (query ask).run machine = .ok value machine := by
  simp [EStateM.run, query, asked]

theorem run_query_of_error {ask : Machine → Except Fault α} {machine : Machine} {fault : Fault}
    (asked : ask machine = .error fault) : (query ask).run machine = .error fault machine := by
  simp [EStateM.run, query, asked]

theorem run_update_of_ok {change : Machine → Except Fault (Machine × α)} {machine after : Machine}
    {value : α} (changed : change machine = .ok (after, value)) :
    (update change).run machine = .ok value after := by
  simp [EStateM.run, update, changed]

theorem run_update_of_error {change : Machine → Except Fault (Machine × α)} {machine : Machine}
    {fault : Fault} (refused : change machine = .error fault) :
    (update change).run machine = .error fault machine := by
  simp [EStateM.run, update, refused]

theorem run_raise (fault : Nat → Fault) (machine : Machine) :
    (raise fault : Exec α).run machine = .error (fault machine.pc) machine := rfl

theorem run_setFlags (change : Flags → Flags) (machine : Machine) :
    (setFlags change).run machine = .ok () { machine with flags := change machine.flags } := rfl

/-- A computation that faults, if it does, before it changes anything, and names the
instruction the program counter is on. -/
def FaultsCleanly (computation : Exec α) : Prop :=
  ∀ machine fault stopped, computation.run machine = .error fault stopped →
    stopped = machine ∧ fault.pc = machine.pc

/-- A computation that never faults. -/
def Total (computation : Exec α) : Prop :=
  ∀ machine fault stopped, computation.run machine ≠ .error fault stopped

/-- A computation that changes nothing, and faults cleanly. -/
structure Inspects (computation : Exec α) : Prop where
  faults : FaultsCleanly computation
  keeps : ∀ machine value after, computation.run machine = .ok value after → after = machine

/-- A computation that never faults and keeps the program counter, the entry offset and the
status. -/
structure Settles (computation : Exec α) : Prop where
  total : Total computation
  control : ∀ machine value after, computation.run machine = .ok value after →
    machine.SameControl after

/-- A computation that faults cleanly and otherwise keeps the program counter, the entry
offset and the status. -/
structure Contained (computation : Exec α) : Prop where
  faults : FaultsCleanly computation
  control : ∀ machine value after, computation.run machine = .ok value after →
    machine.SameControl after

theorem Inspects.contained {computation : Exec α} (inspects : Inspects computation) :
    Contained computation where
  faults := inspects.faults
  control machine value after ran := by
    rw [inspects.keeps machine value after ran]
    exact Machine.SameControl.refl machine

theorem Settles.contained {computation : Exec α} (settles : Settles computation) :
    Contained computation where
  faults machine fault stopped faulted := absurd faulted (settles.total machine fault stopped)
  control := settles.control

/-! ## Sequencing -/

theorem FaultsCleanly.bind_total {first : Exec α} {next : α → Exec β}
    (clean : FaultsCleanly first) (total : ∀ value, Total (next value)) :
    FaultsCleanly (first >>= next) := by
  intro machine fault stopped faulted
  cases ran : first.run machine with
  | ok value after =>
    rw [run_bind_of_ok ran] at faulted
    exact absurd faulted (total value after fault stopped)
  | error firstFault firstStopped =>
    rw [run_bind_of_error ran] at faulted
    cases faulted
    exact clean machine _ _ ran

theorem Inspects.bind_faultsCleanly {first : Exec α} {next : α → Exec β}
    (inspects : Inspects first) (clean : ∀ value, FaultsCleanly (next value)) :
    FaultsCleanly (first >>= next) := by
  intro machine fault stopped faulted
  cases ran : first.run machine with
  | ok value after =>
    rw [run_bind_of_ok ran, inspects.keeps machine value after ran] at faulted
    exact clean value machine fault stopped faulted
  | error firstFault firstStopped =>
    rw [run_bind_of_error ran] at faulted
    cases faulted
    exact inspects.faults machine _ _ ran

theorem Inspects.bind {first : Exec α} {next : α → Exec β}
    (inspects : Inspects first) (contained : ∀ value, Contained (next value)) :
    Contained (first >>= next) := by
  constructor
  · exact inspects.bind_faultsCleanly fun value => (contained value).faults
  · intro machine value after finished
    cases ran : first.run machine with
    | ok firstValue middle =>
      rw [run_bind_of_ok ran, inspects.keeps machine firstValue middle ran] at finished
      exact (contained firstValue).control machine value after finished
    | error firstFault firstStopped =>
      rw [run_bind_of_error ran] at finished
      cases finished

theorem Contained.bind {first : Exec α} {next : α → Exec β}
    (contained : Contained first) (settles : ∀ value, Settles (next value)) :
    Contained (first >>= next) := by
  constructor
  · exact contained.faults.bind_total fun value => (settles value).total
  · intro machine value after finished
    cases ran : first.run machine with
    | ok firstValue middle =>
      rw [run_bind_of_ok ran] at finished
      exact (contained.control machine firstValue middle ran).trans
        ((settles firstValue).control middle value after finished)
    | error firstFault firstStopped =>
      rw [run_bind_of_error ran] at finished
      cases finished

theorem Settles.bind {first : Exec α} {next : α → Exec β}
    (settles : Settles first) (following : ∀ value, Settles (next value)) :
    Settles (first >>= next) := by
  constructor
  · intro machine fault stopped faulted
    cases ran : first.run machine with
    | ok value after =>
      rw [run_bind_of_ok ran] at faulted
      exact (following value).total after fault stopped faulted
    | error firstFault firstStopped =>
      exact settles.total machine firstFault firstStopped ran
  · intro machine value after finished
    cases ran : first.run machine with
    | ok firstValue middle =>
      rw [run_bind_of_ok ran] at finished
      exact (settles.control machine firstValue middle ran).trans
        ((following firstValue).control middle value after finished)
    | error firstFault firstStopped =>
      exact absurd ran (settles.total machine firstFault firstStopped)

/-! ## The primitives -/

theorem inspects_pure (value : α) : Inspects (pure value : Exec α) where
  faults machine fault stopped faulted := by cases faulted
  keeps machine result after finished := by
    cases finished
    rfl

theorem settles_pure (value : α) : Settles (pure value : Exec α) where
  total machine fault stopped faulted := by cases faulted
  control machine result after finished := by
    cases finished
    exact Machine.SameControl.refl machine

theorem inspects_query {ask : Machine → Except Fault α}
    (atPc : ∀ machine fault, ask machine = .error fault → fault.pc = machine.pc) :
    Inspects (query ask) where
  faults machine fault stopped faulted := by
    simp only [EStateM.run, query] at faulted
    split at faulted
    · cases faulted
    · rename_i raised asked
      cases faulted
      exact ⟨rfl, atPc machine _ asked⟩
  keeps machine value after finished := by
    simp only [EStateM.run, query] at finished
    split at finished
    · cases finished
      rfl
    · cases finished

theorem inspects_raise {fault : Nat → Fault} (named : ∀ pc, (fault pc).pc = pc) :
    Inspects (raise fault : Exec α) where
  faults machine raised stopped faulted := by
    simp only [EStateM.run, raise] at faulted
    cases faulted
    exact ⟨rfl, named machine.pc⟩
  keeps machine value after finished := by cases finished

theorem contained_update {change : Machine → Except Fault (Machine × α)}
    (atPc : ∀ machine fault, change machine = .error fault → fault.pc = machine.pc)
    (control : ∀ machine changed value, change machine = .ok (changed, value) →
      machine.SameControl changed) :
    Contained (update change) where
  faults machine fault stopped faulted := by
    simp only [EStateM.run, update] at faulted
    split at faulted
    · cases faulted
    · rename_i raised refused
      cases faulted
      exact ⟨rfl, atPc machine _ refused⟩
  control machine value after finished := by
    simp only [EStateM.run, update] at finished
    split at finished
    · rename_i changed result written
      cases finished
      exact control machine _ _ written
    · cases finished

theorem Contained.guard {condition : Prop} [Decidable condition] {fault : Nat → Fault}
    {next : PUnit → Exec α} (named : ∀ pc, (fault pc).pc = pc) (contained : Contained (next ())) :
    Contained (if condition then raise fault >>= next else next ()) := by
  split
  · exact (inspects_raise named).bind fun _ => contained
  · exact contained

theorem run_modify (change : Machine → Machine) (machine : Machine) :
    (modify change : Exec PUnit).run machine = .ok () (change machine) := rfl

theorem total_modify (change : Machine → Machine) : Total (modify change : Exec PUnit) := by
  intro machine fault stopped faulted
  rw [run_modify] at faulted
  cases faulted

theorem settles_setFlags (change : Flags → Flags) : Settles (setFlags change) where
  total machine fault stopped faulted := by cases faulted
  control machine value after finished := by
    cases finished
    exact ⟨rfl, rfl, rfl⟩

end Exec

namespace Machine

/-! ## Reads, writes and fetches -/

theorem readRegister_fault {machine : Machine} {register : Register} {fault : Fault}
    (refused : machine.readRegister register = .error fault) :
    fault = .outOfBounds machine.pc (.register register) := by
  unfold readRegister at refused
  split at refused
  · cases refused
  · cases refused
    rfl

theorem read_fault {machine : Machine} {operand : Operand} {fault : Fault}
    (refused : machine.read operand = .error fault) :
    ∃ location, fault = .outOfBounds machine.pc location := by
  unfold read at refused
  split at refused
  · exact ⟨_, readRegister_fault refused⟩
  · exact ⟨_, readRegister_fault refused⟩
  · split at refused
    · cases refused
    · cases refused
      exact ⟨_, rfl⟩
  · cases refused

theorem writeRegister_fault {machine : Machine} {register : Register} {value : Int32}
    {fault : Fault} (refused : machine.writeRegister register value = .error fault) :
    fault = .outOfBounds machine.pc (.register register) := by
  unfold writeRegister at refused
  split at refused
  · cases refused
  · cases refused
    rfl

theorem write_fault {machine : Machine} {opcode : Opcode} {operand : Operand} {value : Int32}
    {fault : Fault} (refused : machine.write opcode operand value = .error fault) :
    (∃ location, fault = .outOfBounds machine.pc location) ∨
      fault = .unsupportedAddressingMode machine.pc opcode .number := by
  unfold write at refused
  split at refused
  · exact .inl ⟨_, writeRegister_fault refused⟩
  · exact .inl ⟨_, writeRegister_fault refused⟩
  · split at refused
    · cases refused
    · cases refused
      exact .inl ⟨_, rfl⟩
  · cases refused
    exact .inr rfl

theorem read_fault_pc {machine : Machine} {operand : Operand} {fault : Fault}
    (refused : machine.read operand = .error fault) : fault.pc = machine.pc := by
  obtain ⟨location, rfl⟩ := read_fault refused
  rfl

theorem write_fault_pc {machine : Machine} {opcode : Opcode} {operand : Operand}
    {value : Int32} {fault : Fault} (refused : machine.write opcode operand value = .error fault) :
    fault.pc = machine.pc := by
  rcases write_fault refused with ⟨location, rfl⟩ | rfl
  · rfl
  · rfl

theorem writeRegister_control {machine written : Machine} {register : Register}
    {value stored : Int32} (wrote : machine.writeRegister register value = .ok (written, stored)) :
    machine.SameControl written := by
  unfold writeRegister at wrote
  split at wrote
  · cases wrote
    exact ⟨rfl, rfl, rfl⟩
  · cases wrote

theorem write_control {machine written : Machine} {opcode : Opcode} {operand : Operand}
    {value stored : Int32} (wrote : machine.write opcode operand value = .ok (written, stored)) :
    machine.SameControl written := by
  unfold write at wrote
  split at wrote
  · exact writeRegister_control wrote
  · exact writeRegister_control wrote
  · split at wrote
    · cases wrote
      exact ⟨rfl, rfl, rfl⟩
    · cases wrote
  · cases wrote

theorem fetch_fault_pc {machine : Machine} {fault : Fault}
    (refused : machine.fetch = .error fault) : fault.pc = machine.pc := by
  unfold fetch at refused
  dsimp only at refused
  split at refused
  · cases refused
    rfl
  · split at refused
    · cases refused
      rfl
    · split at refused
      · cases refused
        rfl
      · split at refused
        · cases refused
        · cases refused
          rfl
        · cases refused
          rfl

/-! ## Every instruction is contained -/

theorem inspects_read (operand : Operand) : Exec.Inspects (Exec.query (·.read operand)) :=
  Exec.inspects_query fun _ _ refused => read_fault_pc refused

theorem contained_write (opcode : Opcode) (operand : Operand) (value : Int32) :
    Exec.Contained (Exec.update (·.write opcode operand value)) :=
  Exec.contained_update (fun _ _ refused => write_fault_pc refused)
    (fun _ _ _ wrote => write_control wrote)

theorem execute_contained (instruction : Instruction) : Exec.Contained (execute instruction) := by
  cases instruction with
  | noop => exact (Exec.inspects_pure _).contained
  | halt => exact (Exec.inspects_pure _).contained
  | move src dest =>
    refine (inspects_read src).bind fun value => (inspects_read dest).bind fun old => ?_
    exact (contained_write _ dest value).bind fun stored =>
      (Exec.settles_setFlags _).bind fun _ => Exec.settles_pure _
  | arithmetic op src dest =>
    refine (inspects_read src).bind fun rhs => ?_
    refine Exec.Contained.guard (fun _ => rfl) ?_
    refine Exec.Contained.guard (fun _ => rfl) ?_
    refine (inspects_read dest).bind fun lhs => ?_
    exact (contained_write _ dest _).bind fun _ =>
      (Exec.settles_setFlags _).bind fun _ => Exec.settles_pure _
  | adjust direction dest =>
    refine (inspects_read dest).bind fun old => ?_
    dsimp only
    split
    · exact (Exec.inspects_pure _).bind fun stored =>
        ((Exec.settles_setFlags _).bind fun _ => Exec.settles_pure _).contained
    · exact (contained_write _ dest _).bind fun stored =>
        (Exec.settles_setFlags _).bind fun _ => Exec.settles_pure _
  | compare src dest =>
    refine (inspects_read src).bind fun rhs => (inspects_read dest).bind fun lhs => ?_
    exact ((Exec.settles_setFlags _).bind fun _ => Exec.settles_pure _).contained
  | branch condition target =>
    rw [execute]
    refine (Exec.inspects_query ?_).contained
    intro machine fault refused
    cases refused

/-! ## A faulting step changes only the status -/

theorem inspects_fetch : Exec.Inspects (Exec.query fetch) :=
  Exec.inspects_query fun _ _ refused => fetch_fault_pc refused

theorem cycle_faultsCleanly : Exec.FaultsCleanly cycle :=
  inspects_fetch.bind_faultsCleanly fun instruction =>
    (execute_contained instruction).faults.bind_total fun _ => Exec.total_modify _

theorem advance_status (machine : Machine) (length : Nat) (flow : Flow) :
    (machine.advance length flow).status = machine.status ∨
      (machine.advance length flow).status = .halted := by
  cases flow <;> simp [advance]

theorem advance_memory (machine : Machine) (length : Nat) (flow : Flow) :
    (machine.advance length flow).memory = machine.memory := by
  cases flow <;> rfl

theorem advance_registers (machine : Machine) (length : Nat) (flow : Flow) :
    (machine.advance length flow).registers = machine.registers := by
  cases flow <;> rfl

theorem advance_start (machine : Machine) (length : Nat) (flow : Flow) :
    (machine.advance length flow).start = machine.start := by
  cases flow <;> rfl

theorem cycle_status {machine after : Machine} (finished : cycle.run machine = .ok () after) :
    after.status = machine.status ∨ after.status = .halted := by
  cases fetched : (Exec.query fetch).run machine with
  | error fault stopped =>
    rw [cycle, Exec.run_bind_of_error fetched] at finished
    cases finished
  | ok instruction fetchedMachine =>
    rw [cycle, Exec.run_bind_of_ok fetched] at finished
    rw [inspects_fetch.keeps machine instruction fetchedMachine fetched] at finished
    cases executed : (execute instruction).run machine with
    | error fault stopped =>
      rw [Exec.run_bind_of_error executed] at finished
      cases finished
    | ok flow executedMachine =>
      rw [Exec.run_bind_of_ok executed, Exec.run_modify] at finished
      cases finished
      have kept := ((execute_contained instruction).control machine flow executedMachine executed).status
      rw [← kept]
      exact advance_status executedMachine instruction.length flow

theorem step_outcome_of_cycle_ok {machine after : Machine} (running : machine.status = .running)
    (finished : cycle.run machine = .ok () after) : machine.step.outcome = .ok () := by
  have stepped : machine.step = after := by simp [step, running, finished]
  rw [stepped]
  rcases cycle_status finished with same | halted
  · simp [outcome, same, running]
  · simp [outcome, halted]

/-- A fault leaves the machine as it was. When a step of a running machine reports a fault,
the fault names the program counter the step started at, and the machine after the step is
the one before it with the fault as its status: program counter, entry offset, registers,
flags and memory are untouched. -/
theorem step_fault_restores (machine : Machine) (fault : Fault)
    (running : machine.status = .running) (reported : machine.step.outcome = .error fault) :
    fault.pc = machine.pc ∧ machine.step = { machine with status := .faulted fault } := by
  cases ran : cycle.run machine with
  | ok _ after =>
    rw [step_outcome_of_cycle_ok running ran] at reported
    cases reported
  | error raised stopped =>
    obtain ⟨rfl, named⟩ := cycle_faultsCleanly machine raised stopped ran
    have stepped := step_of_cycle_error running ran
    rw [stepped] at reported
    simp only [outcome, Except.error.injEq] at reported
    subst reported
    exact ⟨named, stepped⟩

/-- A running machine whose first instruction is `div.b #$0, d0`. -/
def zeroDivisor : Machine where
  memory := ⟨#[0x03, 0x03, 0x00, 0x00, 0x00]⟩
  registers := Registers.new 1
  flags := {}
  pc := 0
  start := 0
  status := .running

theorem step_fault_restores_on_zero_divisor :
    zeroDivisor.status = .running ∧ zeroDivisor.step.outcome = .error (.divisionByZero 0) ∧
      (Fault.divisionByZero 0).pc = zeroDivisor.pc ∧
      zeroDivisor.step = { zeroDivisor with status := .faulted (.divisionByZero 0) } :=
  ⟨rfl, rfl, step_fault_restores zeroDivisor _ rfl rfl⟩

end Machine

end ByteMachine
