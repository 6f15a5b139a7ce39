import ByteMachine.Proofs.Assembly.Layout
import ByteMachine.Proofs.Machine.Control
import ByteMachine.Proofs.Machine.Load
/-!
# The assembler and the machine agree on the layout

A machine loaded with an assembled program is at a statement's offset at every step of a run
and reads the statement's instruction there (`Listing.Aligned`), so it never stops on an
unknown code or a bad tag.
-/

set_option autoImplicit false

namespace ByteMachine

namespace Listing

/-- A machine at the offset of a statement of the listing or at its end, not stopped on a
fault of reading an instruction. -/
structure Aligned (listing : Listing) (machine : Machine) : Prop where
  pc : ∃ index ≤ listing.statements.length, machine.pc = listing.offsetOf index
  readable : ∀ fault, machine.status = .faulted fault → fault.undecodable = false

variable {listing : Listing} {program : Program}

theorem aligned_load (placed : listing.Placed) (emits : listing.Emits program)
    {machine loaded : Machine} (loadedOk : machine.load program = .ok loaded) :
    listing.Aligned loaded := by
  obtain ⟨memory, -, rfl⟩ := Machine.eq_of_load loadedOk
  obtain ⟨entry, found, started⟩ := emits.start
  obtain ⟨index, within, marks⟩ := placed.labels entry (find?_mem found)
  exact ⟨⟨index, within, started.trans marks⟩, fun fault faulted => by cases faulted⟩

theorem Aligned.step (placed : listing.Placed) (emits : listing.Emits program)
    {machine : Machine} (aligned : listing.Aligned machine)
    (inside : machine.pc < program.bytes.length)
    (holds : ∀ address < program.bytes.length,
      machine.memory.get? address = program.bytes[address]?) :
    ∃ index statement instruction, listing.Stands program index statement instruction ∧
      machine.pc = listing.offsetOf index ∧ machine.fetch = .ok instruction ∧
      listing.Aligned machine.step := by
  obtain ⟨index, within, atOffset⟩ := aligned.pc
  have before : index < listing.statements.length := by
    rcases Nat.lt_or_eq_of_le within with before | atEnd
    · exact before
    · rw [atOffset, atEnd, ← emits.bytes_length] at inside
      omega
  obtain ⟨statement, stated⟩ : ∃ statement, listing.statements[index]? = some statement :=
    ⟨_, List.getElem?_eq_getElem before⟩
  obtain ⟨instruction, stands⟩ := placed.stands emits stated
  obtain ⟨rest, image⟩ := stands.image
  have fetched : machine.fetch = .ok instruction :=
    Machine.fetch_of_image holds (by rw [atOffset]; exact image)
  obtain ⟨moved, recorded⟩ := Machine.step_of_fetch fetched
  refine ⟨index, statement, instruction, stands, atOffset, fetched, ⟨?_, ?_⟩⟩
  · rcases moved with stayed | next | ⟨condition, target, branch, jumped⟩
    · exact ⟨index, within, stayed.trans atOffset⟩
    · refine ⟨index + 1, before, ?_⟩
      rw [next, atOffset, offsetOf_succ stated, ← stands.length, Instruction.length_bytes]
    · obtain ⟨definition, defined, marks⟩ := stands.targets condition target branch
      obtain ⟨label, labelWithin, labelMarks⟩ := placed.labels definition defined
      exact ⟨label, labelWithin, by rw [jumped, marks, labelMarks]⟩
  · intro fault faulted
    rcases recorded fault faulted with earlier | clean
    · exact aligned.readable fault earlier
    · exact clean

theorem Aligned.repeat_step (placed : listing.Placed) (emits : listing.Emits program)
    {machine : Machine} (aligned : listing.Aligned machine) (steps : Nat)
    (inside : ∀ earlier < steps,
      (Nat.repeat Machine.step earlier machine).pc < program.bytes.length ∧
        ∀ address < program.bytes.length,
          (Nat.repeat Machine.step earlier machine).memory.get? address = program.bytes[address]?) :
    listing.Aligned (Nat.repeat Machine.step steps machine) := by
  induction steps with
  | zero => exact aligned
  | succ steps ih =>
    have before := ih fun earlier below => inside earlier (by omega)
    obtain ⟨bounded, holds⟩ := inside steps (by omega)
    obtain ⟨_, _, _, _, _, _, after⟩ := before.step placed emits bounded holds
    exact after

end Listing

/-- The assembler and the machine agree on the layout of a program. An assembled program lays
out the listing its source parses to: one instruction per statement, each the statement's
instruction with its label resolved, encoded by the statement's opcode and as long as it; the
image as long as the listing; the start and every branch target at offsets of labels, and every
label at the offset of a statement or at the end; and at each statement's offset a code byte
naming its opcode, followed by bytes that decode to its instruction. A machine large enough for
the image loads it, and along any run that keeps the program counter inside the image and the
image in memory, the machine is at each step at the offset of a statement and reads the
statement's instruction there, and it never stops on an unknown code byte or a bad operand
tag. -/
theorem assembled_program_runs_aligned (source : String) (program : Program)
    (assembled : assemble source = .ok program) :
    ∃ listing, Listing.parse source = .ok listing ∧ listing.LaysOut program ∧
      ∀ machine : Machine, program.bytes.length ≤ machine.memory.capacity →
        ∃ loaded, machine.load program = .ok loaded ∧
          ∀ steps, (∀ earlier ≤ steps,
              (Nat.repeat Machine.step earlier loaded).pc < program.bytes.length ∧
                ∀ address < program.bytes.length,
                  (Nat.repeat Machine.step earlier loaded).memory.get? address =
                    program.bytes[address]?) →
            (∀ earlier ≤ steps, ∃ index statement instruction,
              listing.Stands program index statement instruction ∧
                (Nat.repeat Machine.step earlier loaded).pc = listing.offsetOf index ∧
                (Nat.repeat Machine.step earlier loaded).fetch = .ok instruction) ∧
            ∀ later ≤ steps + 1, ∀ pc code tag,
              (Nat.repeat Machine.step later loaded).status ≠ .faulted (.unknownOpcode pc code) ∧
                (Nat.repeat Machine.step later loaded).status ≠
                  .faulted (.invalidOperandTag pc tag) := by
  obtain ⟨listing, parsed, emitted⟩ := parse_emit_of_assemble assembled
  have placed := Listing.placed_of_parse parsed
  have emits := Listing.emits_of_emit emitted
  refine ⟨listing, parsed, placed.laysOut emits, fun machine fits => ?_⟩
  obtain ⟨loaded, loadedOk⟩ := (Machine.load_isOk_iff machine program).mpr fits
  have aligned := Listing.aligned_load placed emits loadedOk
  refine ⟨loaded, loadedOk, fun steps inside => ⟨fun earlier within => ?_, ?_⟩⟩
  · have reached := aligned.repeat_step placed emits earlier fun before below =>
      inside before (by omega)
    obtain ⟨bounded, holds⟩ := inside earlier within
    obtain ⟨index, statement, instruction, stands, atOffset, fetched, -⟩ :=
      reached.step placed emits bounded holds
    exact ⟨index, statement, instruction, stands, atOffset, fetched⟩
  · intro later within pc code tag
    have reached := aligned.repeat_step placed emits later fun before below =>
      inside before (by omega)
    refine ⟨fun faulted => ?_, fun faulted => ?_⟩
    · cases reached.readable _ faulted
    · cases reached.readable _ faulted

/-- A two-line program whose second line is a branch to its own label. -/
theorem assembled_program_runs_aligned_on_loop :
    assemble "start: noop\nloop: jmp loop\n" = .ok ⟨0, [[0x06], [0x08, 0x01]]⟩ ∧
      ∃ listing, Listing.parse "start: noop\nloop: jmp loop\n" = .ok listing ∧
        listing.LaysOut ⟨0, [[0x06], [0x08, 0x01]]⟩ ∧
        ∀ machine : Machine,
          (⟨0, [[0x06], [0x08, 0x01]]⟩ : Program).bytes.length ≤ machine.memory.capacity →
          ∃ loaded, machine.load ⟨0, [[0x06], [0x08, 0x01]]⟩ = .ok loaded ∧
            ∀ steps, (∀ earlier ≤ steps,
                (Nat.repeat Machine.step earlier loaded).pc <
                    (⟨0, [[0x06], [0x08, 0x01]]⟩ : Program).bytes.length ∧
                  ∀ address < (⟨0, [[0x06], [0x08, 0x01]]⟩ : Program).bytes.length,
                    (Nat.repeat Machine.step earlier loaded).memory.get? address =
                      (⟨0, [[0x06], [0x08, 0x01]]⟩ : Program).bytes[address]?) →
              (∀ earlier ≤ steps, ∃ index statement instruction,
                listing.Stands ⟨0, [[0x06], [0x08, 0x01]]⟩ index statement instruction ∧
                  (Nat.repeat Machine.step earlier loaded).pc = listing.offsetOf index ∧
                  (Nat.repeat Machine.step earlier loaded).fetch = .ok instruction) ∧
              ∀ later ≤ steps + 1, ∀ pc code tag,
                (Nat.repeat Machine.step later loaded).status ≠
                    .faulted (.unknownOpcode pc code) ∧
                  (Nat.repeat Machine.step later loaded).status ≠
                    .faulted (.invalidOperandTag pc tag) :=
  have assembled : assemble "start: noop\nloop: jmp loop\n" = .ok ⟨0, [[0x06], [0x08, 0x01]]⟩ :=
    eq_ok_of_toOption (by decide +kernel)
  ⟨assembled, assembled_program_runs_aligned _ _ assembled⟩

end ByteMachine
