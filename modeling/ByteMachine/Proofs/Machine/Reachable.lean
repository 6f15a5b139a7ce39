import ByteMachine.Proofs.Isa.Codec
import ByteMachine.Proofs.Machine.Control
import ByteMachine.Proofs.Machine.Load
import ByteMachine.Proofs.Machine.Stopping
/-!
# What every reachable machine satisfies

Machines reached by loads, steps and runs keep their size, an entry byte, a program counter in
range, a fault at it, and a halt code where they halted (`reachable_invariant`).
-/

set_option autoImplicit false

namespace ByteMachine

/-- The flows an instruction gives: a halt halts, a branch jumps to its own target or falls
through, and every other instruction goes on to the next. -/
def Instruction.Yields : Instruction → Flow → Prop
  | .halt, flow => flow = .halt
  | .branch _ target, flow => flow = .jump target.toNat ∨ flow = .next
  | _, flow => flow = .next

theorem Instruction.Yields.target_le {instruction : Instruction} {target : Nat}
    (yields : instruction.Yields (.jump target)) : target ≤ 255 := by
  cases instruction <;> simp [Yields] at yields
  rename_i byte
  rw [yields]
  exact Nat.le_of_lt_succ byte.toNat_lt

theorem Instruction.Yields.halt {instruction : Instruction} (yields : instruction.Yields .halt) :
    instruction = .halt := by
  cases instruction <;> simp_all [Yields]

/-- Two machines of the same size: memory of the same capacity and banks of the same size. -/
structure Machine.SameSize (before after : Machine) : Prop where
  capacity : after.memory.capacity = before.memory.capacity
  count : after.registers.count = before.registers.count

theorem Machine.SameSize.refl (machine : Machine) : machine.SameSize machine := ⟨rfl, rfl⟩

theorem Machine.SameSize.trans {first second third : Machine} (earlier : first.SameSize second)
    (later : second.SameSize third) : first.SameSize third :=
  ⟨later.capacity.trans earlier.capacity, later.count.trans earlier.count⟩

theorem Registers.count_set? {registers updated : Registers} {register : Register} {value : Int32}
    (h : registers.set? register value = some updated) : updated.count = registers.count := by
  unfold set? at h
  rcases register with ⟨bank, index⟩
  cases bank <;> dsimp only at h <;> split at h <;> simp only [Option.some.injEq,
    reduceCtorEq] at h <;> subst h <;> simp [Registers.count]

namespace Exec

variable {α β : Type}

/-- Every time the computation finishes, it returns a value that satisfies `returns` and leaves
a machine of the size it found. -/
def KeepsSize (returns : α → Prop) (computation : Exec α) : Prop :=
  ∀ machine value after, computation.run machine = .ok value after →
    returns value ∧ machine.SameSize after

variable {returns : β → Prop}

theorem KeepsSize.bind {first : Exec α} {next : α → Exec β}
    (firstKeeps : KeepsSize (fun _ => True) first)
    (nextKeeps : ∀ value, KeepsSize returns (next value)) :
    KeepsSize returns (first >>= next) := by
  intro machine value after finished
  cases ran : first.run machine with
  | ok middle between =>
    rw [run_bind_of_ok ran] at finished
    obtain ⟨returned, later⟩ := nextKeeps middle between value after finished
    exact ⟨returned, (firstKeeps machine middle between ran).2.trans later⟩
  | error fault stopped =>
    rw [run_bind_of_error ran] at finished
    cases finished

theorem keepsSize_pure {value : β} (returned : returns value) :
    KeepsSize returns (pure value : Exec β) := by
  intro machine result after finished
  cases finished
  exact ⟨returned, .refl machine⟩

theorem keepsSize_query {ask : Machine → Except Fault β}
    (returned : ∀ machine value, ask machine = .ok value → returns value) :
    KeepsSize returns (query ask) := by
  intro machine value after finished
  cases asked : ask machine with
  | ok answer =>
    rw [run_query_of_ok asked] at finished
    cases finished
    exact ⟨returned machine value asked, .refl machine⟩
  | error fault =>
    rw [run_query_of_error asked] at finished
    cases finished

theorem keepsSize_update {change : Machine → Except Fault (Machine × α)}
    (sized : ∀ machine changed value, change machine = .ok (changed, value) →
      machine.SameSize changed) :
    KeepsSize (fun _ => True) (update change) := by
  intro machine value after finished
  cases changed : change machine with
  | ok result =>
    obtain ⟨changedMachine, returned⟩ := result
    rw [run_update_of_ok changed] at finished
    cases finished
    exact ⟨trivial, sized machine _ _ changed⟩
  | error fault =>
    rw [run_update_of_error changed] at finished
    cases finished

theorem keepsSize_raise (fault : Nat → Fault) : KeepsSize returns (raise fault : Exec β) := by
  intro machine value after finished
  cases finished

theorem keepsSize_setFlags (change : Flags → Flags) :
    KeepsSize (fun _ => True) (setFlags change) := by
  intro machine value after finished
  cases finished
  exact ⟨trivial, rfl, rfl⟩

theorem KeepsSize.guard {condition : Prop} [Decidable condition] {fault : Nat → Fault}
    {next : PUnit → Exec β} (nextKeeps : KeepsSize returns (next ())) :
    KeepsSize returns (if condition then raise fault >>= next else next ()) := by
  split
  · exact (keepsSize_raise fault).bind fun _ => nextKeeps
  · exact nextKeeps

end Exec

namespace Machine

/-! ## What an instruction keeps and gives -/

theorem writeRegister_sameSize {machine written : Machine} {register : Register}
    {value stored : Int32} (wrote : machine.writeRegister register value = .ok (written, stored)) :
    machine.SameSize written := by
  unfold writeRegister at wrote
  split at wrote
  · rename_i registers updated
    cases wrote
    exact ⟨rfl, Registers.count_set? updated⟩
  · cases wrote

theorem write_sameSize {machine written : Machine} {opcode : Opcode} {operand : Operand}
    {value stored : Int32} (wrote : machine.write opcode operand value = .ok (written, stored)) :
    machine.SameSize written := by
  unfold write at wrote
  split at wrote
  · exact writeRegister_sameSize wrote
  · exact writeRegister_sameSize wrote
  · split at wrote
    · rename_i memory updated
      cases wrote
      exact ⟨Memory.capacity_set? updated, rfl⟩
    · cases wrote
  · cases wrote

theorem keepsSize_read (operand : Operand) :
    Exec.KeepsSize (fun _ => True) (Exec.query (·.read operand)) :=
  Exec.keepsSize_query fun _ _ _ => trivial

theorem keepsSize_write (opcode : Opcode) (operand : Operand) (value : Int32) :
    Exec.KeepsSize (fun _ => True) (Exec.update (·.write opcode operand value)) :=
  Exec.keepsSize_update fun _ _ _ wrote => write_sameSize wrote

theorem execute_keepsSize (instruction : Instruction) :
    Exec.KeepsSize instruction.Yields (execute instruction) := by
  cases instruction with
  | noop => exact Exec.keepsSize_pure rfl
  | halt => exact Exec.keepsSize_pure rfl
  | move src dest =>
    refine (keepsSize_read src).bind fun value => (keepsSize_read dest).bind fun old => ?_
    exact (keepsSize_write _ dest value).bind fun stored =>
      (Exec.keepsSize_setFlags _).bind fun _ => Exec.keepsSize_pure rfl
  | arithmetic op src dest =>
    refine (keepsSize_read src).bind fun rhs => ?_
    refine Exec.KeepsSize.guard ?_
    refine Exec.KeepsSize.guard ?_
    refine (keepsSize_read dest).bind fun lhs => ?_
    exact (keepsSize_write _ dest _).bind fun _ =>
      (Exec.keepsSize_setFlags _).bind fun _ => Exec.keepsSize_pure rfl
  | adjust direction dest =>
    refine (keepsSize_read dest).bind fun old => ?_
    dsimp only
    split
    · exact (Exec.keepsSize_pure trivial).bind fun stored =>
        (Exec.keepsSize_setFlags _).bind fun _ => Exec.keepsSize_pure rfl
    · exact (keepsSize_write _ dest _).bind fun stored =>
        (Exec.keepsSize_setFlags _).bind fun _ => Exec.keepsSize_pure rfl
  | compare src dest =>
    refine (keepsSize_read src).bind fun rhs => (keepsSize_read dest).bind fun lhs => ?_
    exact (Exec.keepsSize_setFlags _).bind fun _ => Exec.keepsSize_pure rfl
  | branch condition target =>
    rw [execute]
    refine Exec.keepsSize_query fun machine flow decided => ?_
    cases decided
    split
    · exact .inl rfl
    · exact .inr rfl

/-! ## What a cycle reads and does -/

theorem fetch_within {machine : Machine} {instruction : Instruction}
    (fetched : machine.fetch = .ok instruction) :
    machine.memory.get? machine.pc = some instruction.opcode.code ∧
      machine.pc + instruction.length ≤ machine.memory.capacity := by
  unfold fetch at fetched
  dsimp only at fetched
  split at fetched
  · cases fetched
  · rename_i code cell
    split at fetched
    · cases fetched
    · rename_i opcode named
      split at fetched
      · cases fetched
      · rename_i operandBytes sliced
        split at fetched
        · rename_i decoded
          cases fetched
          have sameOpcode := Opcode.opcode_of_decode decoded
          have fits := (Memory.slice?_isSome_iff _ _ _).mp (Option.isSome_of_eq_some sliced)
          have positive : 1 ≤ opcode.length := by
            unfold Opcode.length
            cases opcode.layout <;> decide
          refine ⟨by rw [cell, sameOpcode, Opcode.code_ofCode? named], ?_⟩
          rw [Instruction.length, sameOpcode]
          omega
        · cases fetched
        · cases fetched

theorem cycle_finished {machine after : Machine} (finished : cycle.run machine = .ok () after) :
    ∃ instruction flow executed, machine.fetch = .ok instruction ∧
      (execute instruction).run machine = .ok flow executed ∧
      after = executed.advance instruction.length flow := by
  cases fetched : machine.fetch with
  | error fault =>
    rw [cycle, Exec.run_bind_of_error (Exec.run_query_of_error fetched)] at finished
    cases finished
  | ok instruction =>
    rw [cycle, Exec.run_bind_of_ok (Exec.run_query_of_ok fetched)] at finished
    cases executedOk : (execute instruction).run machine with
    | error fault stopped =>
      rw [Exec.run_bind_of_error executedOk] at finished
      cases finished
    | ok flow executed =>
      rw [Exec.run_bind_of_ok executedOk, Exec.run_modify] at finished
      cases finished
      exact ⟨instruction, flow, executed, rfl, executedOk, rfl⟩

/-! ## The invariant -/

/-- What holds of every machine reached from a new machine of size `config`: memory of the
configured capacity and banks of the configured size cut to the limit, an entry offset that is
a byte, a program counter within memory or within a byte, a fault that names the program
counter, and, when halted, the halt code at the program counter unless the machine is the new
one. -/
structure Invariant (config : Config) (machine : Machine) : Prop where
  capacity : machine.memory.capacity = config.memory
  banks : ∀ bank, (machine.registers.bank bank).size = min config.registers Registers.limit
  start : machine.start ≤ 255
  pc : machine.pc ≤ max machine.memory.capacity 255
  faulted : ∀ fault, machine.status = .faulted fault → fault.pc = machine.pc
  halted : machine.status = .halted →
    machine.memory.get? machine.pc = some 0x0d ∨ machine = Machine.new config

variable {config : Config}

theorem invariant_new (config : Config) : (Machine.new config).Invariant config where
  capacity := Memory.capacity_new config.memory
  banks bank := by rw [Registers.bank_size]; exact Registers.count_new config.registers
  start := Nat.zero_le _
  pc := Nat.zero_le _
  faulted fault halted := by cases halted
  halted _ := .inr rfl

theorem Invariant.count {machine : Machine} (invariant : machine.Invariant config) :
    machine.registers.count = min config.registers Registers.limit := by
  rw [← Registers.bank_size machine.registers .data]
  exact invariant.banks .data

theorem Invariant.load {machine loaded : Machine} {program : Program}
    (invariant : machine.Invariant config) (loadedOk : machine.load program = .ok loaded) :
    loaded.Invariant config := by
  obtain ⟨memory, loadedMemory, rfl⟩ := eq_of_load loadedOk
  have capacity := Memory.capacity_load loadedMemory
  rw [Memory.capacity_new] at capacity
  have entry : program.start.toNat ≤ 255 := Nat.le_of_lt_succ program.start.toNat_lt
  refine ⟨capacity.trans invariant.capacity, fun bank => ?_, entry, ?_, ?_, ?_⟩
  · rw [Registers.bank_size, count_new_count]
    exact invariant.count
  · exact Nat.le_trans entry (Nat.le_max_right _ _)
  · intro fault faulted
    cases faulted
  · intro halted
    cases halted

theorem Invariant.advance {machine executed : Machine} {instruction : Instruction} {flow : Flow}
    (invariant : machine.Invariant config) (fetched : machine.fetch = .ok instruction)
    (sized : machine.SameSize executed) (kept : machine.SameControl executed)
    (yields : instruction.Yields flow) :
    (executed.advance instruction.length flow).pc ≤
      max (executed.advance instruction.length flow).memory.capacity 255 := by
  have within := (fetch_within fetched).2
  have bounded := invariant.pc
  cases flow with
  | next =>
    simp only [Machine.advance, kept.pc, sized.capacity]
    omega
  | jump target =>
    have := yields.target_le
    simp only [Machine.advance]
    omega
  | halt =>
    simp only [Machine.advance, kept.pc, sized.capacity]
    exact bounded

theorem Invariant.step {machine : Machine} (invariant : machine.Invariant config) :
    machine.step.Invariant config := by
  by_cases running : machine.status = .running
  · cases ran : cycle.run machine with
    | error fault stopped =>
      obtain ⟨rfl, named⟩ := cycle_faultsCleanly machine fault stopped ran
      rw [step_of_cycle_error running ran]
      refine ⟨invariant.capacity, invariant.banks, invariant.start, invariant.pc, ?_, ?_⟩
      · intro recorded faulted
        cases faulted
        exact named
      · intro halted
        cases halted
    | ok _ after =>
      obtain ⟨instruction, flow, executed, fetched, executedOk, rfl⟩ := cycle_finished ran
      have stepped : machine.step = executed.advance instruction.length flow := by
        simp [Machine.step, running, ran]
      obtain ⟨yields, sized⟩ := execute_keepsSize instruction machine flow executed executedOk
      have kept := (execute_contained instruction).control machine flow executed executedOk
      rw [stepped]
      refine ⟨?_, fun bank => ?_, ?_, invariant.advance fetched sized kept yields, ?_, ?_⟩
      · rw [advance_memory, sized.capacity, invariant.capacity]
      · rw [advance_registers, Registers.bank_size, sized.count, ← invariant.count]
      · rw [advance_start, kept.start]
        exact invariant.start
      · intro fault faulted
        rcases advance_status executed instruction.length flow with same | halted
        · rw [same, kept.status, running] at faulted
          cases faulted
        · rw [halted] at faulted
          cases faulted
      · intro halted
        cases flow with
        | halt =>
          obtain rfl := yields.halt
          have unchanged := (Exec.inspects_pure Flow.halt).keeps machine .halt executed executedOk
          subst unchanged
          exact .inl (fetch_within fetched).1
        | next => simp [Machine.advance, kept.status, running] at halted
        | jump target => simp [Machine.advance, kept.status, running] at halted
  · rw [step_of_not_running (by simp [isRunning, running])]
    exact invariant

theorem Invariant.repeat_step {machine : Machine} (invariant : machine.Invariant config)
    (steps : Nat) : (Nat.repeat Machine.step steps machine).Invariant config := by
  induction steps with
  | zero => exact invariant
  | succ steps ih => exact ih.step

/-- The machines reached from a new machine of size `config` by the operations of a machine,
in any order: a load that succeeds (one that fails leaves the machine as it was), a step, and a
run to a stop or a paced run that returns. -/
inductive Reachable (config : Config) : Machine → Prop
  | new : Reachable config (Machine.new config)
  | load {machine loaded : Machine} {program : Program} :
      Reachable config machine → machine.load program = .ok loaded → Reachable config loaded
  | step {machine : Machine} : Reachable config machine → Reachable config machine.step
  | run {machine stopped : Machine} {budget : Nat} {outcome : Except Fault Unit} :
      Reachable config machine → finish budget machine = some (outcome, stopped) →
      Reachable config stopped
  | runPaced {machine stopped : Machine} {clock : Clock} {budget : Nat}
      {outcome : Except Fault Unit} {waits : List Nat} :
      Reachable config machine →
      finishPaced clock budget machine = some (outcome, stopped, waits) →
      Reachable config stopped

theorem Invariant.finish {machine stopped : Machine} {budget : Nat} {outcome : Except Fault Unit}
    (invariant : machine.Invariant config)
    (finished : Machine.finish budget machine = some (outcome, stopped)) :
    stopped.Invariant config := by
  obtain ⟨steps, rfl⟩ := exists_repeat_of_finish finished
  exact invariant.repeat_step steps

/-- Reachable-state invariant of the machine. Every machine reached from a new machine of size
`config` by loads, steps, runs and paced runs has memory of `config.memory` cells and two banks
of `min config.registers 256` registers, an entry offset of at most 255 and a program counter of
at most the larger of the capacity and 255; if it is faulted, the fault names its program
counter; and if it is halted, the cell at its program counter holds the halt code `0x0d`, or it
is the new machine, never loaded. -/
theorem reachable_invariant (config : Config) (machine : Machine)
    (reachable : machine.Reachable config) : machine.Invariant config := by
  induction reachable with
  | new => exact invariant_new config
  | load _ loadedOk invariant => exact invariant.load loadedOk
  | step _ invariant => exact invariant.step
  | run _ finished invariant => exact invariant.finish finished
  | @runPaced before stopped clock budget outcome waits _ paced invariant =>
    have finished := finishPaced_forget_waits clock budget before
    rw [paced] at finished
    exact invariant.finish finished.symm

theorem reachable_invariant_after_one_step :
    (Machine.new ⟨1, 2⟩).load ⟨0, [[0x06], [0x0d]]⟩ = .ok noopThenHalt ∧
      noopThenHalt.step.Reachable ⟨1, 2⟩ ∧ noopThenHalt.step.Invariant ⟨1, 2⟩ := by
  have loaded : (Machine.new ⟨1, 2⟩).load ⟨0, [[0x06], [0x0d]]⟩ = .ok noopThenHalt := rfl
  have reachable : noopThenHalt.step.Reachable ⟨1, 2⟩ := (Reachable.new.load loaded).step
  exact ⟨loaded, reachable, reachable_invariant _ _ reachable⟩

end Machine

end ByteMachine
