/-!
# Byte ranges of a source text

Every position in this library is a byte offset into the UTF-8 form of the source. A `Span` is the
half-open range between two offsets. The span of a syntax node covers its tokens, so joining spans
is the only way in which they grow.
-/

namespace LockDiscipline

/-- A range of bytes, from `start` up to and not including `stop`. -/
structure Span where
  start : Nat
  stop : Nat
deriving DecidableEq, Repr, Inhabited

namespace Span

/-- The least span that covers both. -/
def join (first second : Span) : Span :=
  ⟨min first.start second.start, max first.stop second.stop⟩

/-- A span without a byte; a reversed range counts as one. -/
def isEmpty (span : Span) : Bool :=
  span.stop ≤ span.start

/-- One span lies inside another. -/
def Within (inner outer : Span) : Prop :=
  outer.start ≤ inner.start ∧ inner.stop ≤ outer.stop

instance (inner outer : Span) : Decidable (inner.Within outer) :=
  inferInstanceAs (Decidable (_ ∧ _))

end Span
end LockDiscipline
