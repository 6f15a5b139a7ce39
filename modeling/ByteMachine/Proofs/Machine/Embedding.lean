import ByteMachine.Proofs.Machine.Effects
import ByteMachine.Proofs.Machine.Load
/-!
# A larger machine simulates a smaller one

Machines loaded with the same program, one at least as large, run in lockstep while the smaller
does not fault (`Machine.Embeds`, `Exec.Lockstep`, `larger_machine_simulates`).
-/

set_option autoImplicit false

namespace ByteMachine

namespace Machine

/-- A machine inside a larger one: the same program counter, entry offset, flags and status;
every register and memory cell of the smaller machine holds the same value in the larger one,
and the larger one's other registers and cells hold zero. -/
structure Embeds (small large : Machine) : Prop where
  pc : large.pc = small.pc
  start : large.start = small.start
  flags : large.flags = small.flags
  status : large.status = small.status
  registers : ∀ register value, small.registers.get? register = some value →
    large.registers.get? register = some value
  extraRegisters : ∀ register, small.registers.get? register = none →
    large.registers.get? register = none ∨ large.registers.get? register = some 0
  memory : ∀ address value, small.memory.get? address = some value →
    large.memory.get? address = some value
  extraMemory : ∀ address, small.memory.get? address = none →
    large.memory.get? address = none ∨ large.memory.get? address = some 0

namespace Embeds

variable {small large : Machine}

theorem capacity_le (embeds : small.Embeds large) :
    small.memory.capacity ≤ large.memory.capacity := by
  rcases Nat.eq_zero_or_pos small.memory.capacity with empty | nonempty
  · omega
  · have last : (small.memory.get? (small.memory.capacity - 1)).isSome :=
      (small.memory.get?_isSome_iff _).mpr (by omega)
    obtain ⟨value, found⟩ := Option.isSome_iff_exists.mp last
    have inLarge : (large.memory.get? (small.memory.capacity - 1)).isSome := by
      simp [embeds.memory _ _ found]
    have below := (large.memory.get?_isSome_iff _).mp inLarge
    omega

theorem slice? (embeds : small.Embeds large) {address length : Nat} {bytes : List UInt8}
    (sliced : small.memory.slice? address length = some bytes) :
    large.memory.slice? address length = some bytes := by
  have fits := (small.memory.slice?_isSome_iff address length).mp (by simp [sliced])
  obtain ⟨larger, slicedLarge⟩ := Option.isSome_iff_exists.mp
    ((large.memory.slice?_isSome_iff address length).mpr (Nat.le_trans fits embeds.capacity_le))
  rw [slicedLarge]
  congr 1
  apply List.ext_getElem?
  intro index
  rw [Memory.getElem?_slice? slicedLarge, Memory.getElem?_slice? sliced]
  split
  · have inside : (small.memory.get? (address + index)).isSome :=
      (small.memory.get?_isSome_iff _).mpr (by omega)
    obtain ⟨value, found⟩ := Option.isSome_iff_exists.mp inside
    rw [found, embeds.memory _ _ found]
  · rfl

theorem readRegister (embeds : small.Embeds large) {register : Register} {value : Int32}
    (read : small.readRegister register = .ok value) :
    large.readRegister register = .ok value := by
  unfold Machine.readRegister at read ⊢
  cases found : small.registers.get? register with
  | none =>
    rw [found] at read
    cases read
  | some stored =>
    rw [found] at read
    cases read
    rw [embeds.registers _ _ found]

theorem read (embeds : small.Embeds large) {operand : Operand} {value : Int32}
    (read : small.read operand = .ok value) : large.read operand = .ok value := by
  rcases operand with ⟨kind, byte⟩
  cases kind with
  | data => exact embeds.readRegister read
  | address => exact embeds.readRegister read
  | memory =>
    simp only [Machine.read] at read ⊢
    cases found : small.memory.get? byte.toNat with
    | none =>
      rw [found] at read
      cases read
    | some cell =>
      rw [found] at read
      rw [embeds.memory _ _ found]
      exact read
  | number => exact read

theorem setRegister (embeds : small.Embeds large) {register : Register} {value : Int32}
    {smallBanks largeBanks : Registers}
    (setSmall : small.registers.set? register value = some smallBanks)
    (setLarge : large.registers.set? register value = some largeBanks) :
    Embeds { small with registers := smallBanks } { large with registers := largeBanks } where
  pc := embeds.pc
  start := embeds.start
  flags := embeds.flags
  status := embeds.status
  registers other stored found := by
    by_cases same : other = register
    · subst same
      rw [Registers.get?_set?_same setSmall] at found
      rw [Registers.get?_set?_same setLarge, found]
    · rw [Registers.get?_set?_ne setSmall same] at found
      rw [Registers.get?_set?_ne setLarge same]
      exact embeds.registers other stored found
  extraRegisters other missing := by
    by_cases same : other = register
    · subst same
      rw [Registers.get?_set?_same setSmall] at missing
      cases missing
    · rw [Registers.get?_set?_ne setSmall same] at missing
      rw [Registers.get?_set?_ne setLarge same]
      exact embeds.extraRegisters other missing
  memory := embeds.memory
  extraMemory := embeds.extraMemory

theorem setCell (embeds : small.Embeds large) {address : Nat} {value : UInt8}
    {smallCells largeCells : Memory}
    (setSmall : small.memory.set? address value = some smallCells)
    (setLarge : large.memory.set? address value = some largeCells) :
    Embeds { small with memory := smallCells } { large with memory := largeCells } where
  pc := embeds.pc
  start := embeds.start
  flags := embeds.flags
  status := embeds.status
  registers := embeds.registers
  extraRegisters := embeds.extraRegisters
  memory other stored found := by
    by_cases same : other = address
    · subst same
      rw [Memory.get?_set?_same setSmall] at found
      rw [Memory.get?_set?_same setLarge, found]
    · rw [Memory.get?_set?_ne setSmall same] at found
      rw [Memory.get?_set?_ne setLarge same]
      exact embeds.memory other stored found
  extraMemory other missing := by
    by_cases same : other = address
    · subst same
      rw [Memory.get?_set?_same setSmall] at missing
      cases missing
    · rw [Memory.get?_set?_ne setSmall same] at missing
      rw [Memory.get?_set?_ne setLarge same]
      exact embeds.extraMemory other missing

theorem writeRegister (embeds : small.Embeds large) {register : Register} {value stored : Int32}
    {written : Machine} (wrote : small.writeRegister register value = .ok (written, stored)) :
    ∃ larger, large.writeRegister register value = .ok (larger, stored) ∧ written.Embeds larger := by
  unfold Machine.writeRegister at wrote
  cases setSmall : small.registers.set? register value with
  | none =>
    rw [setSmall] at wrote
    cases wrote
  | some smallBanks =>
    rw [setSmall] at wrote
    cases wrote
    have inSmall := (small.registers.set?_isSome_iff register value).mp (by simp [setSmall])
    obtain ⟨old, found⟩ :=
      Option.isSome_iff_exists.mp ((small.registers.get?_isSome_iff register).mpr inSmall)
    have inLarge := (large.registers.get?_isSome_iff register).mp
      (by simp [embeds.registers _ _ found])
    obtain ⟨largeBanks, setLarge⟩ :=
      Option.isSome_iff_exists.mp ((large.registers.set?_isSome_iff register value).mpr inLarge)
    refine ⟨{ large with registers := largeBanks }, ?_, embeds.setRegister setSmall setLarge⟩
    simp [Machine.writeRegister, setLarge]

theorem write (embeds : small.Embeds large) {opcode : Opcode} {operand : Operand}
    {value stored : Int32} {written : Machine}
    (wrote : small.write opcode operand value = .ok (written, stored)) :
    ∃ larger, large.write opcode operand value = .ok (larger, stored) ∧ written.Embeds larger := by
  rcases operand with ⟨kind, byte⟩
  cases kind with
  | data => exact embeds.writeRegister wrote
  | address => exact embeds.writeRegister wrote
  | memory =>
    simp only [Machine.write] at wrote ⊢
    cases setSmall : small.memory.set? byte.toNat (lowByte value) with
    | none =>
      rw [setSmall] at wrote
      cases wrote
    | some smallCells =>
      rw [setSmall] at wrote
      cases wrote
      have inSmall :=
        (small.memory.set?_isSome_iff byte.toNat (lowByte value)).mp (by simp [setSmall])
      obtain ⟨old, found⟩ :=
        Option.isSome_iff_exists.mp ((small.memory.get?_isSome_iff byte.toNat).mpr inSmall)
      have inLarge :=
        (large.memory.get?_isSome_iff byte.toNat).mp (by simp [embeds.memory _ _ found])
      obtain ⟨largeCells, setLarge⟩ := Option.isSome_iff_exists.mp
        ((large.memory.set?_isSome_iff byte.toNat (lowByte value)).mpr inLarge)
      rw [setLarge]
      exact ⟨_, rfl, embeds.setCell setSmall setLarge⟩
  | number => cases wrote

theorem write_error (embeds : small.Embeds large) {opcode : Opcode} {operand : Operand}
    {value : Int32} {fault : Fault} (refused : small.write opcode operand value = .error fault)
    (inside : ∀ pc location, fault ≠ .outOfBounds pc location) :
    large.write opcode operand value = .error fault := by
  rcases operand with ⟨kind, byte⟩
  cases kind with
  | data | address =>
    simp only [Machine.write, Machine.writeRegister] at refused
    split at refused
    · cases refused
    · cases refused
      exact absurd rfl (inside _ _)
  | memory =>
    simp only [Machine.write] at refused
    split at refused
    · cases refused
    · cases refused
      exact absurd rfl (inside _ _)
  | number =>
    simp only [Machine.write] at refused ⊢
    cases refused
    rw [embeds.pc]

theorem setFlags (embeds : small.Embeds large) (change : Flags → Flags) :
    Embeds { small with flags := change small.flags } { large with flags := change large.flags } :=
  { embeds with flags := by simp only [embeds.flags] }

theorem advance (embeds : small.Embeds large) (length : Nat) (flow : Flow) :
    (small.advance length flow).Embeds (large.advance length flow) := by
  cases flow with
  | next => exact { embeds with pc := by simp only [Machine.advance, embeds.pc] }
  | jump target => exact { embeds with pc := rfl }
  | halt => exact { embeds with status := rfl }

theorem fetch (embeds : small.Embeds large)
    (inside : ∀ pc location, small.fetch ≠ .error (.outOfBounds pc location)) :
    large.fetch = small.fetch := by
  unfold Machine.fetch at inside ⊢
  dsimp only at inside ⊢
  rw [embeds.pc]
  cases found : small.memory.get? small.pc with
  | none =>
    rw [found] at inside
    exact absurd rfl (inside _ _)
  | some code =>
    rw [found] at inside
    rw [embeds.memory _ _ found]
    cases named : Opcode.ofCode? code with
    | none => simp only [named]
    | some opcode =>
      simp only [named] at inside ⊢
      cases sliced : small.memory.slice? (small.pc + 1) (opcode.length - 1) with
      | none =>
        rw [sliced] at inside
        exact absurd rfl (inside _ _)
      | some operandBytes =>
        rw [sliced] at inside
        rw [embeds.slice? sliced]
        cases decoded : opcode.decode operandBytes with
        | ok instruction => simp only [decoded]
        | error problem =>
          cases problem with
          | invalidOperandTag tag => simp only [decoded]
          | _ =>
            simp only [decoded] at inside
            exact absurd rfl (inside _ _)

end Embeds

end Machine

namespace Exec

variable {α β : Type}

/-- A computation that keeps a machine and a larger one embedding it in step: a success on the
smaller machine is a success on the larger one with the same value and embedded results, and a
fault of the smaller machine that is not an access out of bounds is the same fault on the
larger one. -/
structure Lockstep (computation : Exec α) : Prop where
  ok : ∀ small large value finished, small.Embeds large →
    computation.run small = .ok value finished →
    ∃ larger, computation.run large = .ok value larger ∧ finished.Embeds larger
  error : ∀ small large fault stopped, small.Embeds large →
    computation.run small = .error fault stopped →
    (∀ pc location, fault ≠ .outOfBounds pc location) →
    ∃ largeStopped, computation.run large = .error fault largeStopped

theorem Lockstep.bind {first : Exec α} {next : α → Exec β}
    (lockstep : Lockstep first) (following : ∀ value, Lockstep (next value)) :
    Lockstep (first >>= next) := by
  constructor
  · intro small large value finished embeds ran
    cases firstRan : first.run small with
    | ok firstValue middle =>
      rw [run_bind_of_ok firstRan] at ran
      obtain ⟨largeMiddle, largeRan, middleEmbeds⟩ :=
        lockstep.ok small large firstValue middle embeds firstRan
      obtain ⟨larger, largeNext, finishedEmbeds⟩ :=
        (following firstValue).ok middle largeMiddle value finished middleEmbeds ran
      exact ⟨larger, by rw [run_bind_of_ok largeRan, largeNext], finishedEmbeds⟩
    | error fault stopped =>
      rw [run_bind_of_error firstRan] at ran
      cases ran
  · intro small large fault stopped embeds ran inside
    cases firstRan : first.run small with
    | ok firstValue middle =>
      rw [run_bind_of_ok firstRan] at ran
      obtain ⟨largeMiddle, largeRan, middleEmbeds⟩ :=
        lockstep.ok small large firstValue middle embeds firstRan
      obtain ⟨largeStopped, largeNext⟩ :=
        (following firstValue).error middle largeMiddle fault stopped middleEmbeds ran inside
      exact ⟨largeStopped, by rw [run_bind_of_ok largeRan, largeNext]⟩
    | error firstFault firstStopped =>
      rw [run_bind_of_error firstRan] at ran
      cases ran
      obtain ⟨largeStopped, largeRan⟩ := lockstep.error small large _ _ embeds firstRan inside
      exact ⟨largeStopped, run_bind_of_error largeRan⟩

theorem lockstep_pure (value : α) : Lockstep (pure value : Exec α) where
  ok small large result finished embeds ran := by
    cases ran
    exact ⟨large, rfl, embeds⟩
  error small large fault stopped embeds ran := by cases ran

theorem lockstep_query {ask : Machine → Except Fault α}
    (agrees : ∀ small large value, small.Embeds large → ask small = .ok value →
      ask large = .ok value)
    (refuses : ∀ small large fault, small.Embeds large → ask small = .error fault →
      (∀ pc location, fault ≠ .outOfBounds pc location) → ask large = .error fault) :
    Lockstep (query ask) where
  ok small large value finished embeds ran := by
    cases asked : ask small with
    | ok found =>
      rw [run_query_of_ok asked] at ran
      cases ran
      exact ⟨large, run_query_of_ok (agrees small large _ embeds asked), embeds⟩
    | error fault =>
      rw [run_query_of_error asked] at ran
      cases ran
  error small large fault stopped embeds ran inside := by
    cases asked : ask small with
    | ok found =>
      rw [run_query_of_ok asked] at ran
      cases ran
    | error raised =>
      rw [run_query_of_error asked] at ran
      cases ran
      exact ⟨large, run_query_of_error (refuses small large _ embeds asked inside)⟩

theorem lockstep_update {change : Machine → Except Fault (Machine × α)}
    (agrees : ∀ small large changed value, small.Embeds large →
      change small = .ok (changed, value) →
      ∃ larger, change large = .ok (larger, value) ∧ changed.Embeds larger)
    (refuses : ∀ small large fault, small.Embeds large → change small = .error fault →
      (∀ pc location, fault ≠ .outOfBounds pc location) → change large = .error fault) :
    Lockstep (update change) where
  ok small large value finished embeds ran := by
    cases changed : change small with
    | ok result =>
      obtain ⟨changedSmall, changedValue⟩ := result
      rw [run_update_of_ok changed] at ran
      cases ran
      obtain ⟨larger, changedLarge, finishedEmbeds⟩ := agrees small large _ _ embeds changed
      exact ⟨larger, run_update_of_ok changedLarge, finishedEmbeds⟩
    | error fault =>
      rw [run_update_of_error changed] at ran
      cases ran
  error small large fault stopped embeds ran inside := by
    cases changed : change small with
    | ok result =>
      obtain ⟨changedSmall, changedValue⟩ := result
      rw [run_update_of_ok changed] at ran
      cases ran
    | error raised =>
      rw [run_update_of_error changed] at ran
      cases ran
      exact ⟨large, run_update_of_error (refuses small large _ embeds changed inside)⟩

theorem lockstep_raise (fault : Nat → Fault) : Lockstep (raise fault : Exec α) where
  ok small large value finished embeds ran := by
    rw [run_raise] at ran
    cases ran
  error small large raised stopped embeds ran inside := by
    rw [run_raise] at ran
    cases ran
    exact ⟨large, by rw [run_raise, embeds.pc]⟩

theorem lockstep_setFlags (change : Flags → Flags) : Lockstep (setFlags change) where
  ok small large value finished embeds ran := by
    rw [run_setFlags] at ran
    cases ran
    exact ⟨_, run_setFlags change large, embeds.setFlags change⟩
  error small large fault stopped embeds ran := by
    rw [run_setFlags] at ran
    cases ran

theorem lockstep_advance (length : Nat) (flow : Flow) :
    Lockstep (modify (·.advance length flow) : Exec PUnit) where
  ok small large value finished embeds ran := by
    rw [run_modify] at ran
    cases ran
    exact ⟨_, run_modify _ large, embeds.advance length flow⟩
  error small large fault stopped embeds ran := by
    rw [run_modify] at ran
    cases ran

theorem Lockstep.guard {condition : Prop} [Decidable condition] {fault : Nat → Fault}
    {next : PUnit → Exec α} (lockstep : Lockstep (next ())) :
    Lockstep (if condition then raise fault >>= next else next ()) := by
  split
  · exact (lockstep_raise fault).bind fun _ => lockstep
  · exact lockstep

end Exec

namespace Machine

/-! ## Every instruction runs in lockstep -/

theorem lockstep_read (operand : Operand) : Exec.Lockstep (Exec.query (·.read operand)) := by
  refine Exec.lockstep_query (fun _ _ _ embeds read => embeds.read read) ?_
  intro small large fault embeds refused inside
  obtain ⟨location, rfl⟩ := read_fault refused
  exact absurd rfl (inside _ location)

theorem lockstep_write (opcode : Opcode) (operand : Operand) (value : Int32) :
    Exec.Lockstep (Exec.update (·.write opcode operand value)) :=
  Exec.lockstep_update (fun _ _ _ _ embeds wrote => embeds.write wrote)
    (fun _ _ _ embeds refused inside => embeds.write_error refused inside)

theorem lockstep_fetch : Exec.Lockstep (Exec.query fetch) := by
  refine Exec.lockstep_query ?_ ?_
  · intro small large instruction embeds fetched
    have inside : ∀ pc location, small.fetch ≠ .error (.outOfBounds pc location) := by
      intro pc location refused
      rw [fetched] at refused
      cases refused
    rw [embeds.fetch inside, fetched]
  · intro small large fault embeds refused faultInside
    have inside : ∀ pc location, small.fetch ≠ .error (.outOfBounds pc location) := by
      intro pc location outside
      rw [refused] at outside
      cases outside
      exact faultInside pc location rfl
    rw [embeds.fetch inside, refused]

theorem execute_lockstep (instruction : Instruction) : Exec.Lockstep (execute instruction) := by
  cases instruction with
  | noop => exact Exec.lockstep_pure _
  | halt => exact Exec.lockstep_pure _
  | move src dest =>
    exact (lockstep_read src).bind fun value => (lockstep_read dest).bind fun old =>
      (lockstep_write _ dest value).bind fun stored =>
        (Exec.lockstep_setFlags _).bind fun _ => Exec.lockstep_pure _
  | arithmetic op src dest =>
    refine (lockstep_read src).bind fun rhs => ?_
    refine Exec.Lockstep.guard ?_
    refine Exec.Lockstep.guard ?_
    exact (lockstep_read dest).bind fun lhs => (lockstep_write _ dest _).bind fun _ =>
      (Exec.lockstep_setFlags _).bind fun _ => Exec.lockstep_pure _
  | adjust direction dest =>
    refine (lockstep_read dest).bind fun old => ?_
    dsimp only
    split
    · exact (Exec.lockstep_pure _).bind fun stored =>
        (Exec.lockstep_setFlags _).bind fun _ => Exec.lockstep_pure _
    · exact (lockstep_write _ dest _).bind fun stored =>
        (Exec.lockstep_setFlags _).bind fun _ => Exec.lockstep_pure _
  | compare src dest =>
    exact (lockstep_read src).bind fun rhs => (lockstep_read dest).bind fun lhs =>
      (Exec.lockstep_setFlags _).bind fun _ => Exec.lockstep_pure _
  | branch condition target =>
    rw [execute]
    refine Exec.lockstep_query ?_ ?_
    · intro small large flow embeds found
      cases found
      rw [embeds.flags]
    · intro small large fault embeds refused
      cases refused

theorem cycle_lockstep : Exec.Lockstep cycle :=
  lockstep_fetch.bind fun instruction => (execute_lockstep instruction).bind fun flow =>
    Exec.lockstep_advance instruction.length flow

/-! ## Steps and runs -/

theorem Embeds.outcome_eq {small large : Machine} (embeds : small.Embeds large) :
    large.outcome = small.outcome := by
  simp only [outcome, embeds.status]

theorem Embeds.step {small large : Machine} (embeds : small.Embeds large)
    (reported : small.step.outcome = .ok ()) : small.step.Embeds large.step := by
  cases status : small.status with
  | running =>
    have largeRunning : large.status = .running := embeds.status.trans status
    cases ran : cycle.run small with
    | ok _ finished =>
      obtain ⟨larger, largeRan, finishedEmbeds⟩ := cycle_lockstep.ok small large _ finished embeds ran
      have smallStepped : small.step = finished := by simp [Machine.step, status, ran]
      have largeStepped : large.step = larger := by simp [Machine.step, largeRunning, largeRan]
      rw [smallStepped, largeStepped]
      exact finishedEmbeds
    | error fault stopped =>
      rw [step_of_cycle_error status ran] at reported
      cases reported
  | halted =>
    have largeHalted : large.status = .halted := embeds.status.trans status
    rw [step_of_not_running (by simp [isRunning, status]),
      step_of_not_running (by simp [isRunning, largeHalted])]
    exact embeds
  | faulted fault =>
    rw [step_of_not_running (by simp [isRunning, status])] at reported
    simp [outcome, status] at reported

theorem Embeds.step_fault {small large : Machine} (embeds : small.Embeds large) {fault : Fault}
    (reported : small.step.outcome = .error fault)
    (inside : ∀ pc location, fault ≠ .outOfBounds pc location) :
    large.step.outcome = .error fault := by
  cases status : small.status with
  | running =>
    have largeRunning : large.status = .running := embeds.status.trans status
    cases ran : cycle.run small with
    | ok _ finished =>
      rw [step_outcome_of_cycle_ok status ran] at reported
      cases reported
    | error raised stopped =>
      rw [step_of_cycle_error status ran] at reported
      simp only [outcome, Except.error.injEq] at reported
      subst reported
      obtain ⟨largeStopped, largeRan⟩ := cycle_lockstep.error small large _ stopped embeds ran inside
      rw [step_of_cycle_error largeRunning largeRan]
      rfl
  | halted =>
    rw [step_of_not_running (by simp [isRunning, status])] at reported
    simp [outcome, status] at reported
  | faulted raised =>
    have largeFaulted : large.status = .faulted raised := embeds.status.trans status
    rw [step_of_not_running (by simp [isRunning, status])] at reported
    rw [step_of_not_running (by simp [isRunning, largeFaulted])]
    simp only [outcome, status, largeFaulted] at reported ⊢
    exact reported

theorem Embeds.repeat_step {small large : Machine} (embeds : small.Embeds large) (steps : Nat)
    (reported : ∀ k < steps, (Nat.repeat Machine.step (k + 1) small).outcome = .ok ()) :
    (Nat.repeat Machine.step steps small).Embeds (Nat.repeat Machine.step steps large) := by
  induction steps with
  | zero => exact embeds
  | succ steps ih =>
    have before := ih fun k within => reported k (by omega)
    exact before.step (reported steps (by omega))

theorem embeds_load {program : Program} {small large : Config}
    (moreRegisters : small.registers ≤ large.registers) (moreMemory : small.memory ≤ large.memory)
    {smaller larger : Machine} (loadedSmall : (Machine.new small).load program = .ok smaller)
    (loadedLarge : (Machine.new large).load program = .ok larger) : smaller.Embeds larger := by
  obtain ⟨smallMemory, -, smallEq⟩ := eq_of_load loadedSmall
  obtain ⟨largeMemory, -, largeEq⟩ := eq_of_load loadedLarge
  have smallCells := get?_memory_load loadedSmall
  have largeCells := get?_memory_load loadedLarge
  have smallBanks := get?_registers_load loadedSmall
  have largeBanks := get?_registers_load loadedLarge
  simp only [Machine.new, Memory.capacity_new] at smallCells largeCells
  simp only [Machine.new, Registers.count_new] at smallBanks largeBanks
  constructor
  · rw [smallEq, largeEq]
  · rw [smallEq, largeEq]
  · rw [smallEq, largeEq]
  · rw [smallEq, largeEq]
  · intro register value found
    rw [smallBanks] at found
    rw [largeBanks]
    split at found
    · cases found
      rw [if_pos (by omega)]
    · cases found
  · intro register missing
    rw [largeBanks]
    split <;> simp
  · intro address value found
    rw [smallCells] at found
    rw [largeCells]
    split at found
    · rw [if_pos ‹_›]
      exact found
    · split at found
      · cases found
        rw [if_neg ‹_›, if_pos (by omega)]
      · cases found
  · intro address missing
    rw [smallCells] at missing
    rw [largeCells]
    split
    · rename_i inImage
      simp [inImage] at missing
    · split <;> simp

/-- A larger machine simulates a smaller one. Two new machines, the second with at least as
many registers and as much memory as the first, are loaded with a program that fits the first,
and both loads succeed. For as long as the steps of the smaller machine report no fault, the
steps of the larger one report none either, and after each step the smaller machine is embedded
in the larger one: same program counter, entry offset, flags and status, the same value in every
register and cell the smaller machine has, and zero in the others. The next step's fault on the
smaller machine, unless it is an access out of its bounds, is the next step's fault on the
larger one. -/
theorem larger_machine_simulates (program : Program) (small large : Config)
    (moreRegisters : small.registers ≤ large.registers) (moreMemory : small.memory ≤ large.memory)
    (fits : program.bytes.length ≤ small.memory) :
    ∃ smaller larger, (Machine.new small).load program = .ok smaller ∧
      (Machine.new large).load program = .ok larger ∧
      ∀ steps, (∀ k < steps, (Nat.repeat step (k + 1) smaller).outcome = .ok ()) →
        (∀ k ≤ steps, (Nat.repeat step k smaller).Embeds (Nat.repeat step k larger) ∧
          (0 < k → (Nat.repeat step k larger).outcome = .ok ())) ∧
        ∀ fault, (Nat.repeat step (steps + 1) smaller).outcome = .error fault →
          (∀ pc location, fault ≠ .outOfBounds pc location) →
          (Nat.repeat step (steps + 1) larger).outcome = .error fault := by
  have fitsLarge : program.bytes.length ≤ (Machine.new large).memory.capacity := by
    simp only [Machine.new, Memory.capacity_new]
    omega
  obtain ⟨smaller, loadedSmall⟩ :=
    (load_isOk_iff (Machine.new small) program).mpr (by simpa [Machine.new] using fits)
  obtain ⟨larger, loadedLarge⟩ := (load_isOk_iff (Machine.new large) program).mpr fitsLarge
  have embeds := embeds_load moreRegisters moreMemory loadedSmall loadedLarge
  refine ⟨smaller, larger, loadedSmall, loadedLarge, fun steps reported => ⟨?_, ?_⟩⟩
  · intro k within
    have stepped := embeds.repeat_step k fun earlier below => reported earlier (by omega)
    refine ⟨stepped, fun positive => ?_⟩
    obtain ⟨previous, rfl⟩ : ∃ previous, k = previous + 1 := ⟨k - 1, by omega⟩
    rw [stepped.outcome_eq]
    exact reported previous (by omega)
  · intro fault faulted inside
    exact (embeds.repeat_step steps reported).step_fault faulted inside

/-- A program that halts at once, on a machine of one register and four cells and on one of eight
registers and sixteen cells. -/
theorem larger_machine_simulates_halting :
    (⟨1, 4⟩ : Config).registers ≤ (⟨8, 16⟩ : Config).registers ∧
      (⟨1, 4⟩ : Config).memory ≤ (⟨8, 16⟩ : Config).memory ∧
      (⟨0, [[0x0d]]⟩ : Program).bytes.length ≤ (⟨1, 4⟩ : Config).memory ∧
      ∃ smaller larger, (Machine.new ⟨1, 4⟩).load ⟨0, [[0x0d]]⟩ = .ok smaller ∧
        (Machine.new ⟨8, 16⟩).load ⟨0, [[0x0d]]⟩ = .ok larger ∧
        ∀ steps, (∀ k < steps, (Nat.repeat step (k + 1) smaller).outcome = .ok ()) →
          (∀ k ≤ steps, (Nat.repeat step k smaller).Embeds (Nat.repeat step k larger) ∧
            (0 < k → (Nat.repeat step k larger).outcome = .ok ())) ∧
          ∀ fault, (Nat.repeat step (steps + 1) smaller).outcome = .error fault →
            (∀ pc location, fault ≠ .outOfBounds pc location) →
            (Nat.repeat step (steps + 1) larger).outcome = .error fault :=
  ⟨by decide, by decide, by decide,
    larger_machine_simulates ⟨0, [[0x0d]]⟩ ⟨1, 4⟩ ⟨8, 16⟩ (by decide) (by decide) (by decide)⟩

end Machine

end ByteMachine
