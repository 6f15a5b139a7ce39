import ByteMachine.Proofs.Machine.Finished
/-!
# Condition flags follow the data path

The negative and zero flags describe the value an instruction produced, the equal flag the
values it compared, and moves, arithmetic and comparisons clear carry and overflow
(`flags_follow_data_path`).
-/

set_option autoImplicit false

namespace ByteMachine

/-- Flags that report a value: negative says whether it is below zero, zero whether it is zero,
and equal whether `equal` holds. -/
structure Flags.Reports (flags : Flags) (value : Int32) (equal : Prop) : Prop where
  negative : flags.negative = true ↔ value < 0
  zero : flags.zero = true ↔ value = 0
  equal : flags.equal = true ↔ equal

namespace Flags

theorem reports_setResult (flags : Flags) (value lhs rhs : Int32) :
    ((flags.withEqual (lhs == rhs)).setResult value).Reports value (lhs = rhs) where
  negative := by simp
  zero := by simp
  equal := by simp

theorem Reports.clearCarryOverflow {flags : Flags} {value : Int32} {equal : Prop}
    (reports : flags.Reports value equal) : flags.clearCarryOverflow.Reports value equal :=
  ⟨reports.negative, reports.zero, reports.equal⟩

theorem Reports.of_iff {flags : Flags} {value : Int32} {equal other : Prop}
    (reports : flags.Reports value equal) (same : equal ↔ other) : flags.Reports value other :=
  ⟨reports.negative, reports.zero, reports.equal.trans same⟩

end Flags

/-! ## Adjustments always change their value -/

theorem Adjust.apply_ne (direction : Adjust) (value : Int32) : direction.apply value ≠ value := by
  cases direction <;> simp only [Adjust.apply] <;> grind

theorem Adjust.lowByte_apply_ne (direction : Adjust) (cell : UInt8) :
    lowByte (direction.apply (signExtend cell)) ≠ cell := by
  have one : lowByte 1 = 1 := by decide
  cases direction <;> simp only [Adjust.apply, lowByte_add, lowByte_sub, lowByte_signExtend, one] <;>
    grind

example : lowByte (Adjust.inc.apply (signExtend 0x7f)) = 0x80 ∧ signExtend 0x80 = -128 ∧
    lowByte (Adjust.inc.apply (signExtend 0xff)) = 0x00 := by decide

namespace Machine

variable {machine : Machine}

theorem adjust_stored_ne {direction : Adjust} {dest : Operand} {old stored : Int32}
    {written : Machine} (readDest : machine.read dest = .ok old)
    (adjusted : dest.kind = .number ∧ written = machine ∧ stored = direction.apply old ∨
      machine.write (.adjust direction) dest (direction.apply old) = .ok (written, stored)) :
    old ≠ stored := by
  rcases adjusted with ⟨-, -, rfl⟩ | wrote
  · exact (direction.apply_ne old).symm
  · by_cases inMemory : dest.kind = .memory
    · obtain ⟨cell, -, rfl⟩ := read_memory_cases inMemory readDest
      rw [(write_memory wrote inMemory).2, Ne, signExtend_inj]
      exact (direction.lowByte_apply_ne cell).symm
    · rw [write_register wrote inMemory]
      exact (direction.apply_ne old).symm

/-! ## The flags after each kind of step -/

section Step

variable (running : machine.status = .running) (finished : machine.step.outcome = .ok ())
include running finished

theorem step_move_flags {src dest : Operand} (fetched : machine.fetch = .ok (.move src dest)) :
    ∃ s d r, machine.read src = .ok s ∧ machine.read dest = .ok d ∧
      machine.step.read dest = .ok r ∧ machine.step.flags.Reports r (d = r) ∧
      machine.step.flags.carry = false ∧ machine.step.flags.overflow = false ∧
      (dest.kind = .memory →
        machine.step.memory.get? dest.value.toNat = some (lowByte s) ∧
        r = signExtend (lowByte s) ∧
        (d = r ↔ machine.memory.get? dest.value.toNat = some (lowByte s))) := by
  obtain ⟨flow, executed, executedOk, stepped⟩ := step_of_fetch_finished running finished fetched
  obtain ⟨value, old, written, stored, readSrc, readDest, wrote, -, rfl⟩ := run_move_eq_ok executedOk
  rw [stepped, advance_flags, advance_memory]
  refine ⟨value, old, stored, readSrc, readDest, read_advance_write _ _ wrote,
    (Flags.reports_setResult machine.flags stored old stored).clearCarryOverflow, rfl, rfl,
    fun inMemory => ?_⟩
  obtain ⟨cellWritten, rfl⟩ := write_memory wrote inMemory
  obtain ⟨cell, found, rfl⟩ := read_memory_cases inMemory readDest
  refine ⟨cellWritten, rfl, ?_⟩
  rw [found, signExtend_inj, Option.some.injEq]

theorem step_arithmetic_flags {op : ArithOp} {src dest : Operand}
    (fetched : machine.fetch = .ok (.arithmetic op src dest)) :
    ∃ s d r, machine.read src = .ok s ∧ machine.read dest = .ok d ∧
      machine.step.read dest = .ok r ∧ machine.step.flags.Reports r (d = s) ∧
      machine.step.flags.carry = false ∧ machine.step.flags.overflow = false := by
  obtain ⟨flow, executed, executedOk, stepped⟩ := step_of_fetch_finished running finished fetched
  obtain ⟨rhs, lhs, written, stored, readSrc, -, toData, readDest, wrote, -, rfl⟩ :=
    run_arithmetic_eq_ok executedOk
  have whole := write_register wrote (by rw [toData]; decide)
  subst whole
  rw [stepped, advance_flags]
  exact ⟨rhs, lhs, op.apply lhs rhs, readSrc, readDest, read_advance_write _ _ wrote,
    (Flags.reports_setResult machine.flags (op.apply lhs rhs) lhs rhs).clearCarryOverflow, rfl, rfl⟩

theorem step_adjust_flags {direction : Adjust} {dest : Operand}
    (fetched : machine.fetch = .ok (.adjust direction dest)) :
    ∃ d r, machine.read dest = .ok d ∧
      (dest.kind = .number → r = direction.apply d) ∧
      (dest.kind ≠ .number → machine.step.read dest = .ok r) ∧
      machine.step.flags.Reports r False ∧
      machine.step.flags.carry = machine.flags.carry ∧
      machine.step.flags.overflow = machine.flags.overflow ∧
      (dest.kind = .memory →
        machine.step.memory.get? dest.value.toNat = some (lowByte (direction.apply d)) ∧
        r = signExtend (lowByte (direction.apply d))) := by
  obtain ⟨flow, executed, executedOk, stepped⟩ := step_of_fetch_finished running finished fetched
  obtain ⟨old, written, stored, readDest, -, adjusted, rfl⟩ := run_adjust_eq_ok executedOk
  have reports := (Flags.reports_setResult machine.flags stored old stored).of_iff
    (iff_false_intro (adjust_stored_ne readDest adjusted))
  rw [stepped, advance_flags, advance_memory]
  rcases adjusted with ⟨immediate, -, rfl⟩ | wrote
  · refine ⟨old, _, readDest, fun _ => rfl, fun notImmediate => absurd immediate notImmediate,
      reports, rfl, rfl, fun inMemory => ?_⟩
    rw [inMemory] at immediate
    cases immediate
  · refine ⟨old, stored, readDest, fun immediate => absurd immediate (write_kind wrote),
      fun _ => read_advance_write _ _ wrote, reports, rfl, rfl, fun inMemory => ?_⟩
    obtain ⟨cellWritten, rfl⟩ := write_memory wrote inMemory
    exact ⟨cellWritten, rfl⟩

theorem step_compare_flags {src dest : Operand} (fetched : machine.fetch = .ok (.compare src dest)) :
    ∃ s d, machine.read src = .ok s ∧ machine.read dest = .ok d ∧
      machine.step.flags.Reports (d - s) (d = s) ∧
      machine.step.flags.carry = false ∧ machine.step.flags.overflow = false := by
  obtain ⟨flow, executed, executedOk, stepped⟩ := step_of_fetch_finished running finished fetched
  obtain ⟨rhs, lhs, readSrc, readDest, -, rfl⟩ := run_compare_eq_ok executedOk
  rw [stepped, advance_flags]
  exact ⟨rhs, lhs, readSrc, readDest,
    (Flags.reports_setResult machine.flags (lhs - rhs) lhs rhs).clearCarryOverflow, rfl, rfl⟩

end Step


/-- Condition flags follow the data path. Take a running machine whose step finishes. For a
move, an arithmetic operation or a comparison with source value `s` and destination value `d`
before the step, and for an adjustment of a destination with value `d`, let `r` be the
destination's value read back after the step, the adjusted value for an immediate, and `d - s`
for a comparison. Then negative and zero describe `r`; equal says `d = r` for a move, `d = s`
for arithmetic and comparisons, and nothing for an adjustment; carry and overflow are cleared,
except by an adjustment, which keeps them. A memory destination holds the low byte of the
value and reads back sign-extended. -/
theorem flags_follow_data_path (machine : Machine) (running : machine.status = .running)
    (finished : machine.step.outcome = .ok ()) :
    (∀ src dest, machine.fetch = .ok (.move src dest) →
      ∃ s d r, machine.read src = .ok s ∧ machine.read dest = .ok d ∧
        machine.step.read dest = .ok r ∧ machine.step.flags.Reports r (d = r) ∧
        machine.step.flags.carry = false ∧ machine.step.flags.overflow = false ∧
        (dest.kind = .memory →
          machine.step.memory.get? dest.value.toNat = some (lowByte s) ∧
          r = signExtend (lowByte s) ∧
          (d = r ↔ machine.memory.get? dest.value.toNat = some (lowByte s)))) ∧
    (∀ op src dest, machine.fetch = .ok (.arithmetic op src dest) →
      ∃ s d r, machine.read src = .ok s ∧ machine.read dest = .ok d ∧
        machine.step.read dest = .ok r ∧ machine.step.flags.Reports r (d = s) ∧
        machine.step.flags.carry = false ∧ machine.step.flags.overflow = false) ∧
    (∀ direction dest, machine.fetch = .ok (.adjust direction dest) →
      ∃ d r, machine.read dest = .ok d ∧
        (dest.kind = .number → r = direction.apply d) ∧
        (dest.kind ≠ .number → machine.step.read dest = .ok r) ∧
        machine.step.flags.Reports r False ∧
        machine.step.flags.carry = machine.flags.carry ∧
        machine.step.flags.overflow = machine.flags.overflow ∧
        (dest.kind = .memory →
          machine.step.memory.get? dest.value.toNat = some (lowByte (direction.apply d)) ∧
          r = signExtend (lowByte (direction.apply d)))) ∧
    (∀ src dest, machine.fetch = .ok (.compare src dest) →
      ∃ s d, machine.read src = .ok s ∧ machine.read dest = .ok d ∧
        machine.step.flags.Reports (d - s) (d = s) ∧
        machine.step.flags.carry = false ∧ machine.step.flags.overflow = false) := by
  exact ⟨fun _ _ => step_move_flags running finished,
    fun _ _ _ => step_arithmetic_flags running finished,
    fun _ _ => step_adjust_flags running finished, fun _ _ => step_compare_flags running finished⟩

/-- A running machine whose first instruction is `inc 0x06`, with `0x7f` in cell 6. -/
def incrementCell : Machine where
  memory := ⟨#[0x04, 0x02, 0x06, 0x0d, 0x00, 0x00, 0x7f]⟩
  registers := Registers.new 1
  flags := {}
  pc := 0
  start := 0
  status := .running

theorem flags_follow_data_path_on_increment :
    incrementCell.status = .running ∧ incrementCell.step.outcome = .ok () ∧
    (∀ src dest, incrementCell.fetch = .ok (.move src dest) →
      ∃ s d r, incrementCell.read src = .ok s ∧ incrementCell.read dest = .ok d ∧
        incrementCell.step.read dest = .ok r ∧ incrementCell.step.flags.Reports r (d = r) ∧
        incrementCell.step.flags.carry = false ∧ incrementCell.step.flags.overflow = false ∧
        (dest.kind = .memory →
          incrementCell.step.memory.get? dest.value.toNat = some (lowByte s) ∧
          r = signExtend (lowByte s) ∧
          (d = r ↔ incrementCell.memory.get? dest.value.toNat = some (lowByte s)))) ∧
    (∀ op src dest, incrementCell.fetch = .ok (.arithmetic op src dest) →
      ∃ s d r, incrementCell.read src = .ok s ∧ incrementCell.read dest = .ok d ∧
        incrementCell.step.read dest = .ok r ∧ incrementCell.step.flags.Reports r (d = s) ∧
        incrementCell.step.flags.carry = false ∧ incrementCell.step.flags.overflow = false) ∧
    (∀ direction dest, incrementCell.fetch = .ok (.adjust direction dest) →
      ∃ d r, incrementCell.read dest = .ok d ∧
        (dest.kind = .number → r = direction.apply d) ∧
        (dest.kind ≠ .number → incrementCell.step.read dest = .ok r) ∧
        incrementCell.step.flags.Reports r False ∧
        incrementCell.step.flags.carry = incrementCell.flags.carry ∧
        incrementCell.step.flags.overflow = incrementCell.flags.overflow ∧
        (dest.kind = .memory →
          incrementCell.step.memory.get? dest.value.toNat = some (lowByte (direction.apply d)) ∧
          r = signExtend (lowByte (direction.apply d)))) ∧
    (∀ src dest, incrementCell.fetch = .ok (.compare src dest) →
      ∃ s d, incrementCell.read src = .ok s ∧ incrementCell.read dest = .ok d ∧
        incrementCell.step.flags.Reports (d - s) (d = s) ∧
        incrementCell.step.flags.carry = false ∧ incrementCell.step.flags.overflow = false) :=
  ⟨rfl, rfl, flags_follow_data_path incrementCell rfl rfl⟩

end Machine

end ByteMachine
