import SyntaxAtlas.Span
import SyntaxAtlas.Text.Bytes
/-!
Source units and the positions of a package.

The units of a package share one line of positions. A unit starts at its base and covers the
positions from the base to the end of its text, both included, so that the place behind the last
character belongs to it as well. Units placed one after the other leave one position between
their texts, as if the texts were joined by line ends. A unit may also be put anywhere, and then it
may end at the largest position, with none left behind it.
-/
namespace SyntaxAtlas

/-- A named text placed at a base. -/
structure SourceUnit where
  /-- The name under which the unit is shown. -/
  name : String
  /-- The position of the first byte. -/
  base : Nat
  /-- The text itself. -/
  text : String
deriving DecidableEq, Repr, Inhabited

namespace SourceUnit

/-- The characters of the unit. -/
def chars (unit : SourceUnit) : List Char :=
  unit.text.toList

/-- The number of bytes in the unit. -/
def length (unit : SourceUnit) : Nat :=
  Text.byteLength unit.chars

/-- The span of the whole text. -/
def span (unit : SourceUnit) : Span :=
  ⟨unit.base, unit.base + unit.length⟩

/-- The base behind the unit, with one position left free. Behind the largest position the count
starts again. -/
def behind (unit : SourceUnit) : Nat :=
  (unit.base + unit.length + 1) % (maxPosition + 1)

/-- A position from the base to the end of the text, both included. -/
def Covers (unit : SourceUnit) (pos : Nat) : Prop :=
  unit.base ≤ pos ∧ pos ≤ unit.base + unit.length

instance (unit : SourceUnit) (pos : Nat) : Decidable (unit.Covers pos) :=
  inferInstanceAs (Decidable (_ ∧ _))

/-- The text under a span of package positions. -/
def slice? (unit : SourceUnit) (span : Span) : Option String := do
  let here ← span.localTo? unit.base
  let middle ← Text.slice? here.start here.stop unit.chars
  return String.ofList middle

/-- Line and column of a position. There is none outside the unit or inside a character. -/
def lineColumn? (unit : SourceUnit) (pos : Nat) : Option (Nat × Nat) :=
  if unit.Covers pos then
    (Text.splitBytes? (pos - unit.base) unit.chars).map fun (before, _) => Text.lineColumn before
  else
    none

end SourceUnit

/-- The number of a unit in its source map. -/
abbrev UnitId := Nat

/-- The units of a file or a package, in the order in which they were placed. -/
structure SourceMap where
  /-- The units. -/
  units : List SourceUnit
deriving DecidableEq, Repr, Inhabited

namespace SourceMap

/-- A source map without units. -/
def empty : SourceMap :=
  ⟨[]⟩

/-- The number of units. -/
def size (map : SourceMap) : Nat :=
  map.units.length

/-- The unit with a given number. -/
def get? (map : SourceMap) (id : UnitId) : Option SourceUnit :=
  map.units[id]?

/-- The highest base that is behind a unit. -/
def nextBase (map : SourceMap) : Nat :=
  map.units.foldl (fun base unit => max base unit.behind) 0

/-- A unit appended where its own base says. -/
def push (map : SourceMap) (unit : SourceUnit) : SourceMap :=
  ⟨map.units ++ [unit]⟩

/-- A text appended at the next base. -/
def add (map : SourceMap) (name text : String) : SourceMap :=
  map.push ⟨name, map.nextBase, text⟩

/-- Texts placed one behind the other from a base on. -/
def placeFrom (base : Nat) : List (String × String) → List SourceUnit
  | [] => []
  | (name, text) :: rest =>
    ⟨name, base, text⟩ :: placeFrom (base + Text.byteLength text.toList + 1) rest

/-- The source map of texts appended one after the other. Texts that are held together in memory do
not reach the largest position, so that their bases are plain sums. -/
def ofTexts (texts : List (String × String)) : SourceMap :=
  ⟨placeFrom 0 texts⟩

/-- The first unit that covers a position, with its number. -/
def unitAt? (map : SourceMap) (pos : Nat) : Option (UnitId × SourceUnit) :=
  (map.units.zipIdx.find? fun (unit, _) => decide (unit.Covers pos)).map fun (unit, id) =>
    (id, unit)

/-- The text under a span, which must lie in the first unit that covers its start. -/
def slice? (map : SourceMap) (span : Span) : Option String := do
  let (_, unit) ← map.unitAt? span.start
  unit.slice? span

/-- Unit name, line and column of a position. -/
def lineColumn? (map : SourceMap) (pos : Nat) : Option (String × Nat × Nat) := do
  let (_, unit) ← map.unitAt? pos
  let (line, column) ← unit.lineColumn? pos
  return (unit.name, line, column)

/-- The span from the lowest base to the highest end. -/
def span (map : SourceMap) : Span :=
  match map.units with
  | [] => ⟨0, 0⟩
  | first :: rest =>
    ⟨rest.foldl (fun low unit => min low unit.base) first.base,
      rest.foldl (fun high unit => max high unit.span.stop) first.span.stop⟩

/-- All texts, joined by line ends. -/
def joined (map : SourceMap) : String :=
  String.intercalate "\n" (map.units.map SourceUnit.text)

end SourceMap

end SyntaxAtlas
