/-!
# Source spans

A span is a run of bytes of the source, counted in UTF-8 so that it can be cut out of the
encoded text as it is.
-/

set_option autoImplicit false

namespace ByteMachine

/-- A run of bytes in the source. -/
structure Span where
  offset : Nat
  length : Nat
deriving DecidableEq, Repr

namespace Span

def stop (span : Span) : Nat := span.offset + span.length

/-- The smallest span that covers both. -/
def cover (span other : Span) : Span :=
  let start := min span.offset other.offset
  ⟨start, max span.stop other.stop - start⟩

theorem cover_offset (span other : Span) : (span.cover other).offset = min span.offset other.offset :=
  rfl

theorem cover_stop (span other : Span) : (span.cover other).stop = max span.stop other.stop := by
  simp only [cover, stop]
  omega

theorem cover_self (span : Span) : span.cover span = span := by
  simp [cover, stop]

end Span

/-- The number of bytes that characters take in UTF-8. -/
def byteLength (chars : List Char) : Nat := chars.foldr (fun c total => c.utf8Size + total) 0

theorem byteLength_append (first second : List Char) :
    byteLength (first ++ second) = byteLength first + byteLength second := by
  induction first with
  | nil => simp [byteLength]
  | cons c rest ih =>
    simp only [byteLength, List.cons_append, List.foldr_cons] at ih ⊢
    omega

example : byteLength "aé😀".toList = 7 := by decide

end ByteMachine
