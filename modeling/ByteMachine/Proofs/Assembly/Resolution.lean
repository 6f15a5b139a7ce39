import ByteMachine.Proofs.Assembly.Offsets
import ByteMachine.Proofs.Assembly.Positions
/-!
# When the second pass fails

The second pass fails exactly on an entry offset beyond a byte and on a branch target that is
missing or beyond a byte, and reports the first in that order
(`pass_two_fails_exactly_on_unresolvable_targets`).
-/

set_option autoImplicit false

namespace ByteMachine

/-! ## Traversals that stop at the first failure -/

section Traversal

variable {α β ε : Type} {f : α → Except ε β}

theorem mapM_isOk_of_forall {xs : List α} (each : ∀ x ∈ xs, ∃ y, f x = .ok y) :
    ∃ ys, xs.mapM f = .ok ys := by
  induction xs with
  | nil => exact ⟨[], rfl⟩
  | cons x rest ih =>
    obtain ⟨y, first⟩ := each x List.mem_cons_self
    obtain ⟨ys, others⟩ := ih fun other within => each other (List.mem_cons_of_mem x within)
    exact ⟨y :: ys, by simp [List.mapM_cons, first, others, bind, Except.bind, pure, Except.pure]⟩

theorem mapM_eq_error_of_getElem? {xs : List α} {index : Nat} {x : α} {error : ε}
    (found : xs[index]? = some x)
    (before : ∀ earlier < index, ∀ y, xs[earlier]? = some y → ∃ z, f y = .ok z)
    (failed : f x = .error error) : xs.mapM f = .error error := by
  induction xs generalizing index with
  | nil => simp at found
  | cons head rest ih =>
    cases index with
    | zero =>
      cases found
      simp [List.mapM_cons, failed, bind, Except.bind]
    | succ index =>
      obtain ⟨z, headOk⟩ := before 0 (Nat.zero_lt_succ index) head rfl
      have restFailed := ih found fun earlier below y located =>
        before (earlier + 1) (by omega) y located
      simp [List.mapM_cons, headOk, restFailed, bind, Except.bind]

end Traversal

namespace Listing

/-- A statement's branch, if it has one, names a label that the listing defines at an offset
that fits the target byte. -/
def Targets (listing : Listing) (statement : Statement) : Prop :=
  ∀ condition label span, statement.body = .jump condition label span →
    ∃ definition ∈ listing.labels, definition.name = label ∧ definition.offset ≤ 255

/-! ## Looking labels up -/

theorem find?_eq_none_iff (listing : Listing) (name : String) :
    listing.find? name = none ↔ ∀ definition ∈ listing.labels, definition.name ≠ name := by
  simp [find?, List.find?_eq_none]

theorem find?_of_mem {listing : Listing} {definition : LabelDef}
    (names : (listing.labels.map LabelDef.name).Nodup) (defined : definition ∈ listing.labels) :
    listing.find? definition.name = some definition := by
  cases found : listing.find? definition.name with
  | none =>
    exact absurd rfl ((find?_eq_none_iff listing definition.name).mp found definition defined)
  | some other =>
    have same := List.inj_on_of_nodup_map names (find?_mem found) defined (find?_name found)
    rw [same]

/-! ## Resolving one statement -/

theorem target_of_le (label : String) (line : Nat) (span : Span) {offset : Nat}
    (fits : offset ≤ 255) :
    ∃ byte, target label offset line span = .ok byte :=
  ⟨offset.toUInt8, by simp [target, show offset < 256 by omega]⟩

theorem target_of_lt {label : String} {offset line : Nat} {span : Span} (far : 255 < offset) :
    target label offset line span = .error (.targetOutOfRange line label offset span) := by
  simp [target, show ¬ offset < 256 by omega]

theorem target_error_cases {label : String} {offset line : Nat} {span : Span} {error : AsmError}
    (failed : target label offset line span = .error error) :
    error = .targetOutOfRange line label offset span ∧ 255 < offset := by
  unfold target at failed
  split at failed
  · cases failed
  · cases failed
    exact ⟨rfl, by omega⟩

variable {listing : Listing} {statement : Statement}

theorem resolve_of_targets (names : (listing.labels.map LabelDef.name).Nodup)
    (targets : listing.Targets statement) : ∃ instruction, listing.resolve statement = .ok instruction := by
  unfold resolve
  split
  · exact ⟨_, rfl⟩
  · rename_i condition label span jump
    obtain ⟨definition, defined, rfl, fits⟩ := targets condition label span jump
    obtain ⟨byte, targeted⟩ := target_of_le definition.name statement.line span fits
    simp [find?_of_mem names defined, targeted, Functor.map, Except.map]

theorem targets_of_resolve {instruction : Instruction}
    (resolved : listing.resolve statement = .ok instruction) : listing.Targets statement := by
  intro condition label span jump
  have resolves := resolve_resolves resolved
  rw [jump] at resolves
  cases resolves with
  | jump found marks =>
    refine ⟨_, find?_mem found, find?_name found, ?_⟩
    rw [← marks]
    exact Nat.le_of_lt_succ (UInt8.toNat_lt _)

theorem resolve_of_undefined {condition : Condition} {label : String} {span : Span}
    (jump : statement.body = .jump condition label span)
    (undefined : ∀ definition ∈ listing.labels, definition.name ≠ label) :
    listing.resolve statement = .error (.undefinedLabel statement.line label span) := by
  simp [resolve, jump, (find?_eq_none_iff listing label).mpr undefined]

theorem resolve_of_far {condition : Condition} {span : Span} {definition : LabelDef}
    (names : (listing.labels.map LabelDef.name).Nodup) (defined : definition ∈ listing.labels)
    (jump : statement.body = .jump condition definition.name span) (far : 255 < definition.offset) :
    listing.resolve statement =
      .error (.targetOutOfRange statement.line definition.name definition.offset span) := by
  simp [resolve, jump, find?_of_mem names defined, target_of_lt far, Functor.map, Except.map]

theorem resolve_error_cases {error : AsmError} (failed : listing.resolve statement = .error error) :
    (∃ line label offset span, error = .targetOutOfRange line label offset span ∧ 255 < offset) ∨
      ∃ line label span, error = .undefinedLabel line label span := by
  unfold resolve at failed
  split at failed
  · cases failed
  · split at failed
    · obtain ⟨rfl, far⟩ := target_error_cases (map_eq_error.mp failed)
      exact .inl ⟨_, _, _, _, rfl, far⟩
    · cases failed
      exact .inr ⟨_, _, _, rfl⟩

/-! ## The second pass -/

section Emit

variable {entry : LabelDef} (found : listing.entry? = some entry)
include found

theorem emit_of_first_unresolved (names : (listing.labels.map LabelDef.name).Nodup)
    (fits : entry.offset ≤ 255) {index : Nat} {error : AsmError}
    (stated : listing.statements[index]? = some statement)
    (before : ∀ earlier < index, ∀ other : Statement, listing.statements[earlier]? = some other →
      listing.Targets other)
    (failed : listing.resolve statement = .error error) : listing.emit = .error error := by
  obtain ⟨start, started⟩ := target_of_le entryLabel entry.line entry.span fits
  have traversal := mapM_eq_error_of_getElem? stated
    (fun earlier below other located => resolve_of_targets names (before earlier below other located))
    failed
  rw [emit_of_entry found, started]
  simp only [bind, Except.bind, traversal]

theorem emit_isOk_iff (names : (listing.labels.map LabelDef.name).Nodup) :
    (∃ program, listing.emit = .ok program) ↔
      entry.offset ≤ 255 ∧ ∀ statement ∈ listing.statements, listing.Targets statement := by
  rw [emit_of_entry found]
  constructor
  · rintro ⟨program, emitted⟩
    simp only [bind_eq_ok, pure_eq_ok] at emitted
    obtain ⟨start, started, instructions, mapped, -⟩ := emitted
    refine ⟨Nat.le_of_not_lt fun far => ?_, fun statement stated => ?_⟩
    · rw [target_of_lt far] at started
      cases started
    · obtain ⟨index, located⟩ := List.mem_iff_getElem?.mp stated
      obtain ⟨instruction, -, resolved⟩ :=
        (getElem?_of_mapM_eq_ok mapped).2 index statement located
      exact targets_of_resolve resolved
  · rintro ⟨fits, targets⟩
    obtain ⟨start, started⟩ := target_of_le entryLabel entry.line entry.span fits
    obtain ⟨instructions, mapped⟩ := mapM_isOk_of_forall fun statement stated =>
      resolve_of_targets names (targets statement stated)
    exact ⟨_, by rw [started, bind_eq_ok]; exact ⟨start, rfl, by rw [mapped]; rfl⟩⟩

theorem emit_error_cases {error : AsmError} (failed : listing.emit = .error error) :
    (∃ line label offset span, error = .targetOutOfRange line label offset span ∧ 255 < offset) ∨
      ∃ line label span, error = .undefinedLabel line label span := by
  rw [emit_of_entry found] at failed
  simp only [bind_eq_error] at failed
  rcases failed with startFailed | ⟨start, -, rest⟩
  · obtain ⟨rfl, far⟩ := target_error_cases startFailed
    exact .inl ⟨_, _, _, _, rfl, far⟩
  · simp only [pure, Except.pure, reduceCtorEq, and_false, exists_false, or_false] at rest
    obtain ⟨statement, -, resolveFailed⟩ := mapM_eq_error rest
    exact resolve_error_cases resolveFailed

end Emit

end Listing

open Listing in
/-- The second pass fails exactly on unresolvable or out-of-range targets. Of a listing the
first pass reads, the entry label is defined; an entry offset beyond a byte is reported first, at
the entry label; otherwise the first statement, in order, whose branch names a label that no
line defines, or a label beyond a byte, is reported at the branch; and otherwise the program is
written. A label that is neither the entry nor named by a branch is never refused, and no other
error is ever reported. -/
theorem pass_two_fails_exactly_on_unresolvable_targets {source : String} {listing : Listing}
    (parsed : Listing.parse source = .ok listing) :
    ∃ entry ∈ listing.labels, listing.entry? = some entry ∧ entry.name = entryLabel ∧
      (255 < entry.offset →
        listing.emit = .error (.targetOutOfRange entry.line entryLabel entry.offset entry.span)) ∧
      (entry.offset ≤ 255 → ∀ (index : Nat) (statement : Statement) condition label span,
        listing.statements[index]? = some statement →
        statement.body = .jump condition label span →
        (∀ earlier < index, ∀ other : Statement, listing.statements[earlier]? = some other →
          listing.Targets other) →
        ((∀ definition ∈ listing.labels, definition.name ≠ label) →
          listing.emit = .error (.undefinedLabel statement.line label span)) ∧
        (∀ definition ∈ listing.labels, definition.name = label → 255 < definition.offset →
          listing.emit = .error (.targetOutOfRange statement.line label definition.offset span))) ∧
      ((∃ program, listing.emit = .ok program) ↔
        entry.offset ≤ 255 ∧ ∀ statement ∈ listing.statements, listing.Targets statement) ∧
      ∀ error, listing.emit = .error error →
        (∃ line label offset span, error = .targetOutOfRange line label offset span ∧
          255 < offset) ∨
        ∃ line label span, error = .undefinedLabel line label span := by
  obtain ⟨readAll, entry, found⟩ := addLines_of_parse parsed
  have names := ((counted_empty 1).addLines readAll).names
  refine ⟨entry, find?_mem found, found, find?_name found, fun far => ?_, fun fits => ?_,
    emit_isOk_iff found names, fun error failed => emit_error_cases found failed⟩
  · rw [emit_of_entry found, target_of_lt far]
    rfl
  · intro index statement condition label span stated jump before
    refine ⟨fun undefined => emit_of_first_unresolved found names fits stated before
      (resolve_of_undefined jump undefined), fun definition defined named far => ?_⟩
    subst named
    exact emit_of_first_unresolved found names fits stated before
      (resolve_of_far names defined jump far)

/-- A branch to a label that no line defines, after a statement that needs no label: the second
pass reports the missing label at the branch, on line three. -/
theorem pass_two_fails_exactly_on_unresolvable_targets_on_missing_label :
    let text := "start: noop\n\njeq nowhere\nhalt"
    ∃ listing, Listing.parse text = .ok listing ∧
      listing.emit = .error (.undefinedLabel 3 "nowhere" ⟨17, 7⟩) ∧
      ∃ entry ∈ listing.labels, listing.entry? = some entry ∧ entry.name = entryLabel ∧
        (255 < entry.offset →
          listing.emit = .error (.targetOutOfRange entry.line entryLabel entry.offset entry.span)) ∧
        (entry.offset ≤ 255 → ∀ (index : Nat) (statement : Statement) condition label span,
          listing.statements[index]? = some statement →
          statement.body = .jump condition label span →
          (∀ earlier < index, ∀ other : Statement, listing.statements[earlier]? = some other →
            listing.Targets other) →
          ((∀ definition ∈ listing.labels, definition.name ≠ label) →
            listing.emit = .error (.undefinedLabel statement.line label span)) ∧
          (∀ definition ∈ listing.labels, definition.name = label → 255 < definition.offset →
            listing.emit =
              .error (.targetOutOfRange statement.line label definition.offset span))) ∧
        ((∃ program, listing.emit = .ok program) ↔
          entry.offset ≤ 255 ∧ ∀ statement ∈ listing.statements, listing.Targets statement) ∧
        ∀ error, listing.emit = .error error →
          (∃ line label offset span, error = .targetOutOfRange line label offset span ∧
            255 < offset) ∨
          ∃ line label span, error = .undefinedLabel line label span := by
  intro text
  have parsed : Listing.parse text = .ok
      ⟨[⟨1, ⟨7, 4⟩, .instruction .noop⟩, ⟨3, ⟨13, 11⟩, .jump .equal "nowhere" ⟨17, 7⟩⟩,
        ⟨4, ⟨25, 4⟩, .instruction .halt⟩], [⟨"start", 0, 1, ⟨0, 5⟩⟩], 4⟩ := by
    decide +kernel
  have emitted : Listing.emit
      ⟨[⟨1, ⟨7, 4⟩, .instruction .noop⟩, ⟨3, ⟨13, 11⟩, .jump .equal "nowhere" ⟨17, 7⟩⟩,
        ⟨4, ⟨25, 4⟩, .instruction .halt⟩], [⟨"start", 0, 1, ⟨0, 5⟩⟩], 4⟩ =
        .error (.undefinedLabel 3 "nowhere" ⟨17, 7⟩) := by
    decide +kernel
  exact ⟨_, parsed, emitted, pass_two_fails_exactly_on_unresolvable_targets parsed⟩

end ByteMachine
