import Mathlib
import ByteMachine.Proofs.Machine.Finished
/-!
# Arithmetic wraps, and faults in a fixed order

Arithmetic stores the exact result modulo `2^32`, read back signed, and checks source,
divisor, destination kind and destination register in that order before it writes
(`arithmetic_wraps_and_faults_in_order`).
-/

set_option autoImplicit false

namespace ByteMachine

/-- The arithmetic operations on unbounded integers, division truncating toward zero. -/
def ArithOp.exact : ArithOp → Int → Int → Int
  | .add, lhs, rhs => lhs + rhs
  | .sub, lhs, rhs => lhs - rhs
  | .mul, lhs, rhs => lhs * rhs
  | .div, lhs, rhs => lhs.tdiv rhs

namespace ArithOp

theorem toInt_apply (op : ArithOp) (lhs rhs : Int32) :
    (op.apply lhs rhs).toInt = (op.exact lhs.toInt rhs.toInt).bmod (2 ^ 32) := by
  cases op
  · exact Int32.toInt_add lhs rhs
  · exact Int32.toInt_sub lhs rhs
  · exact Int32.toInt_mul lhs rhs
  · exact Int32.toInt_div lhs rhs

theorem toInt_apply_div {lhs rhs : Int32} (fits : ¬ (lhs = Int32.minValue ∧ rhs = -1)) :
    (div.apply lhs rhs).toInt = lhs.toInt.tdiv rhs.toInt := by
  by_cases least : lhs = Int32.minValue
  · exact Int32.toInt_div_of_ne_right lhs rhs fun minusOne => fits ⟨least, minusOne⟩
  · exact Int32.toInt_div_of_ne_left lhs rhs least

theorem apply_div_minValue : div.apply Int32.minValue (-1) = Int32.minValue :=
  Int32.minValue_div_neg_one

end ArithOp

namespace Machine

variable {machine : Machine} {op : ArithOp} {src dest : Operand}

/-! ## Each check, in its turn -/

theorem run_arithmetic_of_source_error {fault : Fault} (refused : machine.read src = .error fault) :
    (execute (.arithmetic op src dest)).run machine = .error fault machine := by
  simp only [execute]
  rw [Exec.run_bind_of_error (Exec.run_query_of_error refused)]

theorem run_arithmetic_of_zero_divisor (zero : machine.read src = .ok 0) :
    (execute (.arithmetic .div src dest)).run machine =
      .error (.divisionByZero machine.pc) machine := by
  simp only [execute]
  rw [Exec.run_bind_of_ok (Exec.run_query_of_ok zero), if_pos ⟨trivial, rfl⟩,
    Exec.run_bind_of_error (Exec.run_raise _ machine)]

theorem run_arithmetic_of_unsupported {rhs : Int32} (readSrc : machine.read src = .ok rhs)
    (divisor : ¬ (op = .div ∧ rhs = 0)) (notData : dest.kind ≠ .data) :
    (execute (.arithmetic op src dest)).run machine =
      .error (.unsupportedAddressingMode machine.pc (.arithmetic op) dest.kind) machine := by
  simp only [execute]
  rw [Exec.run_bind_of_ok (Exec.run_query_of_ok readSrc), if_neg divisor, if_pos notData,
    Exec.run_bind_of_error (Exec.run_raise _ machine)]

theorem run_arithmetic_of_destination_error {rhs : Int32} {fault : Fault}
    (readSrc : machine.read src = .ok rhs) (divisor : ¬ (op = .div ∧ rhs = 0))
    (toData : dest.kind = .data) (refused : machine.read dest = .error fault) :
    (execute (.arithmetic op src dest)).run machine = .error fault machine := by
  simp only [execute]
  rw [Exec.run_bind_of_ok (Exec.run_query_of_ok readSrc), if_neg divisor,
    if_neg fun notData => notData toData, Exec.run_bind_of_error (Exec.run_query_of_error refused)]

theorem run_arithmetic_of_register {rhs lhs : Int32} {registers : Registers}
    (readSrc : machine.read src = .ok rhs) (divisor : ¬ (op = .div ∧ rhs = 0))
    (toData : dest.kind = .data) (held : machine.registers.get? ⟨.data, dest.value⟩ = some lhs)
    (updated : machine.registers.set? ⟨.data, dest.value⟩ (op.apply lhs rhs) = some registers) :
    (execute (.arithmetic op src dest)).run machine = .ok .next
      { machine with registers, flags :=
        ((machine.flags.withEqual (lhs == rhs)).setResult (op.apply lhs rhs)).clearCarryOverflow } := by
  have readDest : machine.read dest = .ok lhs := by
    rw [read_register (show dest.place? = some (.register ⟨.data, dest.value⟩) by
      simp [Operand.place?, toData])]
    simp [readRegister, held]
  have wrote : machine.write (.arithmetic op) dest (op.apply lhs rhs) =
      .ok ({ machine with registers }, op.apply lhs rhs) := by
    simp [write, toData, writeRegister, updated]
  simp only [execute]
  rw [Exec.run_bind_of_ok (Exec.run_query_of_ok readSrc), if_neg divisor,
    if_neg fun notData => notData toData, Exec.run_bind_of_ok (Exec.run_query_of_ok readDest),
    Exec.run_bind_of_ok (Exec.run_update_of_ok wrote), Exec.run_bind_of_ok (Exec.run_setFlags _ _)]
  rfl

/-- Arithmetic is total 32-bit two's-complement arithmetic with a fixed fault order. For a running
machine whose instruction at the program counter is an arithmetic one: a source register or
memory cell outside the machine faults first; then a zero divisor of a division faults, whatever
the destination; then a destination that is not a data register faults with its kind; then a data
register outside the bank faults. When all checks pass the step finishes, whatever the values,
and the destination holds the exact result modulo `2^32` read signed; a division truncates
toward zero, and the least word divided by `-1` gives the least word. -/
theorem arithmetic_wraps_and_faults_in_order (machine : Machine) (op : ArithOp) (src dest : Operand)
    (running : machine.status = .running) (fetched : machine.fetch = .ok (.arithmetic op src dest)) :
    (∀ location, src.place? = some location → ¬ machine.Has location →
      machine.step.outcome = .error (.outOfBounds machine.pc location)) ∧
    (op = .div → machine.read src = .ok 0 →
      machine.step.outcome = .error (.divisionByZero machine.pc)) ∧
    (∀ rhs, machine.read src = .ok rhs → ¬ (op = .div ∧ rhs = 0) → dest.kind ≠ .data →
      machine.step.outcome =
        .error (.unsupportedAddressingMode machine.pc (.arithmetic op) dest.kind)) ∧
    (∀ rhs, machine.read src = .ok rhs → ¬ (op = .div ∧ rhs = 0) → dest.kind = .data →
      ¬ machine.Has (.register ⟨.data, dest.value⟩) →
      machine.step.outcome = .error (.outOfBounds machine.pc (.register ⟨.data, dest.value⟩))) ∧
    (∀ rhs lhs, machine.read src = .ok rhs → ¬ (op = .div ∧ rhs = 0) → dest.kind = .data →
      machine.registers.get? ⟨.data, dest.value⟩ = some lhs →
      machine.step.outcome = .ok () ∧
      machine.step.registers.get? ⟨.data, dest.value⟩ = some (op.apply lhs rhs) ∧
      (op.apply lhs rhs).toInt = (op.exact lhs.toInt rhs.toInt).bmod (2 ^ 32) ∧
      (op = .div → ¬ (lhs = Int32.minValue ∧ rhs = -1) →
        (op.apply lhs rhs).toInt = lhs.toInt.tdiv rhs.toInt) ∧
      (op = .div → lhs = Int32.minValue → rhs = -1 → op.apply lhs rhs = Int32.minValue)) := by
  refine ⟨fun location named missing => ?_, fun division zero => ?_,
    fun rhs readSrc divisor notData => ?_, fun rhs readSrc divisor toData missing => ?_,
    fun rhs lhs readSrc divisor toData held => ?_⟩
  · have refused := read_eq_error_iff.mpr ⟨location, named, missing, rfl⟩
    exact step_outcome_of_execute_error running fetched (run_arithmetic_of_source_error refused)
  · subst division
    exact step_outcome_of_execute_error running fetched (run_arithmetic_of_zero_divisor zero)
  · exact step_outcome_of_execute_error running fetched
      (run_arithmetic_of_unsupported readSrc divisor notData)
  · have refused : machine.read dest = .error (.outOfBounds machine.pc (.register ⟨.data, dest.value⟩)) :=
      read_eq_error_iff.mpr ⟨_, by simp [Operand.place?, toData], missing, rfl⟩
    exact step_outcome_of_execute_error running fetched
      (run_arithmetic_of_destination_error readSrc divisor toData refused)
  · have inside : (⟨.data, dest.value⟩ : Register).index.toNat < machine.registers.count :=
      (Registers.get?_isSome_iff _ _).mp (by simp [held])
    obtain ⟨registers, updated⟩ := Option.isSome_iff_exists.mp
      ((Registers.set?_isSome_iff machine.registers _ (op.apply lhs rhs)).mpr inside)
    have stepped := step_of_execute_ok running fetched
      (run_arithmetic_of_register readSrc divisor toData held updated)
    refine ⟨by simp [stepped, advance, outcome, running], ?_, op.toInt_apply lhs rhs,
      fun division fits => ?_, fun division least minusOne => ?_⟩
    · rw [stepped, advance_registers]
      exact Registers.get?_set?_same updated
    · subst division
      exact ArithOp.toInt_apply_div fits
    · subst division least minusOne
      exact ArithOp.apply_div_minValue

/-- A running machine whose first instruction is `div.b #$-1, d0`, with the least word in `d0`. -/
def leastByMinusOne : Machine where
  memory := ⟨#[0x03, 0x03, 0xff, 0x00, 0x00, 0x0d]⟩
  registers := ⟨#[Int32.minValue], #[0], rfl, by decide⟩
  flags := {}
  pc := 0
  start := 0
  status := .running

theorem arithmetic_wraps_and_faults_in_order_on_least_by_minus_one :
    leastByMinusOne.status = .running ∧
    leastByMinusOne.fetch = .ok (.arithmetic .div ⟨.number, 0xff⟩ ⟨.data, 0⟩) ∧
    (∀ location, Operand.place? ⟨.number, 0xff⟩ = some location → ¬ leastByMinusOne.Has location →
      leastByMinusOne.step.outcome = .error (.outOfBounds leastByMinusOne.pc location)) ∧
    (ArithOp.div = .div → leastByMinusOne.read ⟨.number, 0xff⟩ = .ok 0 →
      leastByMinusOne.step.outcome = .error (.divisionByZero leastByMinusOne.pc)) ∧
    (∀ rhs, leastByMinusOne.read ⟨.number, 0xff⟩ = .ok rhs → ¬ (ArithOp.div = .div ∧ rhs = 0) →
      (⟨.data, 0⟩ : Operand).kind ≠ .data →
      leastByMinusOne.step.outcome = .error (.unsupportedAddressingMode leastByMinusOne.pc
        (.arithmetic .div) (⟨.data, 0⟩ : Operand).kind)) ∧
    (∀ rhs, leastByMinusOne.read ⟨.number, 0xff⟩ = .ok rhs → ¬ (ArithOp.div = .div ∧ rhs = 0) →
      (⟨.data, 0⟩ : Operand).kind = .data → ¬ leastByMinusOne.Has (.register ⟨.data, 0⟩) →
      leastByMinusOne.step.outcome = .error (.outOfBounds leastByMinusOne.pc (.register ⟨.data, 0⟩))) ∧
    (∀ rhs lhs, leastByMinusOne.read ⟨.number, 0xff⟩ = .ok rhs → ¬ (ArithOp.div = .div ∧ rhs = 0) →
      (⟨.data, 0⟩ : Operand).kind = .data → leastByMinusOne.registers.get? ⟨.data, 0⟩ = some lhs →
      leastByMinusOne.step.outcome = .ok () ∧
      leastByMinusOne.step.registers.get? ⟨.data, 0⟩ = some (ArithOp.div.apply lhs rhs) ∧
      (ArithOp.div.apply lhs rhs).toInt = (ArithOp.div.exact lhs.toInt rhs.toInt).bmod (2 ^ 32) ∧
      (ArithOp.div = .div → ¬ (lhs = Int32.minValue ∧ rhs = -1) →
        (ArithOp.div.apply lhs rhs).toInt = lhs.toInt.tdiv rhs.toInt) ∧
      (ArithOp.div = .div → lhs = Int32.minValue → rhs = -1 →
        ArithOp.div.apply lhs rhs = Int32.minValue)) :=
  ⟨rfl, rfl, arithmetic_wraps_and_faults_in_order leastByMinusOne .div _ _ rfl rfl⟩

end Machine

end ByteMachine
