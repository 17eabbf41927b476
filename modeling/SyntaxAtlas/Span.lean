/-!
Byte spans.

Positions are counted in bytes, from the start of one text or from the start of a whole package.
-/
namespace SyntaxAtlas

/-- The largest position. Positions are counted in 64 bits. -/
def maxPosition : Nat := 18446744073709551615

/-- A range of byte positions, the first included and the last excluded. Nothing here says that
the range starts before it ends: a snapshot may carry an inverted span, and its check reports it. -/
structure Span where
  /-- The first position. -/
  start : Nat
  /-- The position after the last one. -/
  stop : Nat
deriving DecidableEq, Repr, Inhabited

namespace Span

/-- The number of bytes in the span. -/
def length (span : Span) : Nat :=
  span.stop - span.start

/-- A span that starts where it ends. -/
def isEmpty (span : Span) : Bool :=
  span.start == span.stop

/-- The outer span covers the inner one. -/
def Encloses (outer inner : Span) : Prop :=
  outer.start ≤ inner.start ∧ inner.stop ≤ outer.stop

instance (outer inner : Span) : Decidable (outer.Encloses inner) :=
  inferInstanceAs (Decidable (_ ∧ _))

/-- A position in the span. -/
def Contains (span : Span) (pos : Nat) : Prop :=
  span.start ≤ pos ∧ pos < span.stop

instance (span : Span) (pos : Nat) : Decidable (span.Contains pos) :=
  inferInstanceAs (Decidable (_ ∧ _))

/-- The span moved up by a base. -/
def shift (span : Span) (base : Nat) : Span :=
  ⟨span.start + base, span.stop + base⟩

/-- The span moved down by a base, when both of its ends are at or above the base. -/
def localTo? (span : Span) (base : Nat) : Option Span :=
  if base ≤ span.start ∧ base ≤ span.stop then
    some ⟨span.start - base, span.stop - base⟩
  else
    none

/-- The two ends with two dots between them. -/
def render (span : Span) : String :=
  toString span.start ++ ".." ++ toString span.stop

@[simp] theorem localTo?_shift (span : Span) (base : Nat) :
    (span.shift base).localTo? base = some span := by
  simp [shift, localTo?]

theorem Encloses.trans {a b c : Span} (hab : a.Encloses b) (hbc : b.Encloses c) :
    a.Encloses c :=
  ⟨Nat.le_trans hab.1 hbc.1, Nat.le_trans hbc.2 hab.2⟩

end Span

end SyntaxAtlas
