import SyntaxAtlas.Kind
import SyntaxAtlas.Snapshot.Check
import SyntaxAtlas.Source
import SyntaxAtlas.SymbolTable.Basic
/-!
Forests of checked snapshots.

A forest holds the units of one file or one package with their snapshots, all of which passed the
check. It fixes the tree that nodes are numbered in: an *origin* says where a node comes from, and
the *sprouts* of an origin are its children before they get numbers. A declaration that binds
several names sprouts once for every name, so that each node declares one thing.
-/
namespace SyntaxAtlas

/-- Where a node comes from. -/
inductive Origin where
  /-- The package itself; below it are the roots of its units. -/
  | package
  /-- An element of a unit. -/
  | element (unit : UnitId) (element : ElementId)
  /-- One name of an element that declares several. -/
  | split (unit : UnitId) (element : ElementId) (name : ElementId)
deriving DecidableEq, Repr, Inhabited

namespace Origin

/-- The unit that an origin lies in. -/
def unit? : Origin → Option UnitId
  | .package => none
  | .element unit _ | .split unit _ _ => some unit

end Origin

/-- A child before it gets a number. -/
structure Sprout where
  /-- What the node is going to be. -/
  kind : Kind
  /-- The package positions it covers. -/
  span : Span
  /-- Where it comes from. -/
  origin : Origin
deriving DecidableEq, Repr, Inhabited

/-- A unit with its snapshot. -/
structure ParsedUnit where
  /-- The text and its place. -/
  source : SourceUnit
  /-- The syntax of the text. -/
  snapshot : Snapshot
deriving Repr, Inhabited

/-- Why units and snapshots do not make a forest. -/
inductive GraphError where
  /-- There are more units than snapshots, or fewer. -/
  | unitCountMismatch (sources snapshots : Nat)
  /-- A snapshot has no elements. -/
  | emptySnapshot (unit : String)
  /-- A snapshot has an element with a defect. -/
  | malformedSnapshot (unit : String) (element : ElementId) (defect : Defect)
deriving DecidableEq, Repr

/-- The report of an error. -/
def GraphError.message : GraphError → String
  | .unitCountMismatch sources snapshots =>
    toString sources ++ " source units but " ++ toString snapshots ++ " syntax trees"
  | .emptySnapshot unit => "syntax tree for " ++ unit ++ " has no root element"
  | .malformedSnapshot unit element defect =>
    "syntax tree for " ++ unit ++ " is malformed: element " ++ toString element ++ " " ++
      defect.message

/-- What keeps a unit out of a forest. -/
def ParsedUnit.problem? (unit : ParsedUnit) : Option GraphError :=
  if unit.snapshot.size = 0 then
    some (.emptySnapshot unit.source.name)
  else
    (unit.snapshot.firstDefect? unit.source.length).map fun (element, defect) =>
      .malformedSnapshot unit.source.name element defect

/-- A package: its name and what is known about its names. -/
structure Package where
  /-- The name in the package clauses. -/
  name : String
  /-- The symbols, at package positions. -/
  symbols : SymbolTable
deriving Repr, Inhabited

/-- The checked units of a package, or of one file that is looked at on its own. -/
structure Forest where
  /-- The units, known by their place. -/
  units : List ParsedUnit
  /-- The package; a file on its own has none. -/
  package : Option Package
  /-- Every unit passed the check. -/
  accepted : ∀ unit ∈ units, unit.problem? = none
  /-- Outside of a package there is exactly one unit. -/
  standalone : package = none → units.length = 1

namespace Forest

/-- The forest over every unit of a package. -/
def ofPackage (package : Package) (sources : SourceMap) (snapshots : List Snapshot) :
    Except GraphError Forest :=
  if sources.size ≠ snapshots.length then
    .error (.unitCountMismatch sources.size snapshots.length)
  else
    let units := List.zipWith ParsedUnit.mk sources.units snapshots
    match h : units.findSome? ParsedUnit.problem? with
    | some problem => .error problem
    | none =>
      .ok {
        units := units
        package := some package
        accepted := List.findSome?_eq_none_iff.1 h
        standalone := by simp }

/-- The forest over a file on its own. -/
def ofFile (source : SourceUnit) (snapshot : Snapshot) : Except GraphError Forest :=
  match h : (ParsedUnit.mk source snapshot).problem? with
  | some problem => .error problem
  | none =>
    .ok {
      units := [⟨source, snapshot⟩]
      package := none
      accepted := by simpa using h
      standalone := by simp }

/-- The positions of the units. -/
def sources (forest : Forest) : SourceMap :=
  ⟨forest.units.map ParsedUnit.source⟩

/-- The element that an origin stands for. -/
def elementOf? (forest : Forest) : Origin → Option Element
  | .package => none
  | .element unit element | .split unit element _ => do
    let parsed ← forest.units[unit]?
    parsed.snapshot.get? element

end Forest

namespace ParsedUnit

/-- An element in the role of a name. -/
def isName (unit : ParsedUnit) (id : ElementId) : Bool :=
  ((unit.snapshot.get? id).bind Element.field) == some "name"

/-- The names that an element declares. -/
def namesOf (unit : ParsedUnit) (element : Element) : List ElementId :=
  element.children.filter unit.isName

/-- The sprout for one name of a declaration: it starts at the name. -/
def splitSprout (unit : ParsedUnit) (number : UnitId) (id : ElementId) (element : Element)
    (name : ElementId) : Sprout where
  kind := .classify element.kind
  span := Span.shift
    ⟨((unit.snapshot.get? name).map fun e => e.span.start).getD element.span.start,
      element.span.stop⟩ unit.source.base
  origin := .split number id name

/-- What one element sprouts: one node, or one for each name of a declaration with several. -/
def sproutsOf (unit : ParsedUnit) (number : UnitId) (id : ElementId) : List Sprout :=
  match unit.snapshot.get? id with
  | none => []
  | some element =>
    let kind := Kind.classify element.kind
    let names := unit.namesOf element
    if kind.isSplittable ∧ 1 < names.length then
      names.map (unit.splitSprout number id element)
    else
      [⟨kind, element.span.shift unit.source.base, .element number id⟩]

/-- The root of a unit. It covers the whole text, whatever the span of its element. -/
def rootSprout (unit : ParsedUnit) (number : UnitId) : Sprout where
  kind := ((unit.snapshot.get? 0).map fun element => Kind.classify element.kind).getD .sourceFile
  span := unit.source.span
  origin := .element number 0

end ParsedUnit

namespace Forest

/-- The children of an origin, in order. Below one name of a declaration the other names are left
out. -/
def sprouts (forest : Forest) : Origin → List Sprout
  | .package => forest.units.zipIdx.map fun (unit, number) => unit.rootSprout number
  | .element number id =>
    match forest.units[number]? with
    | none => []
    | some unit => (unit.snapshot.children id).flatMap (unit.sproutsOf number)
  | .split number id name =>
    match forest.units[number]? with
    | none => []
    | some unit =>
      ((unit.snapshot.children id).filter fun child => child == name || !unit.isName child).flatMap
        (unit.sproutsOf number)

/-- The root of the tree: the package, or the root of the only unit. -/
def rootSprout (forest : Forest) : Sprout :=
  match forest.package, forest.units with
  | none, unit :: _ => unit.rootSprout 0
  | _, _ => ⟨.package, forest.sources.span, .package⟩

/-- More levels than the tree of the forest has: elements on a path have growing places. -/
def height (forest : Forest) : Nat :=
  (forest.units.map fun unit => unit.snapshot.size).foldl max 0 + 1

/-- The number of nodes from an origin down to a number of levels below it. -/
def extentWithin (forest : Forest) : Nat → Origin → Nat
  | 0, _ => 1
  | levels + 1, origin =>
    1 + ((forest.sprouts origin).map fun sprout =>
      forest.extentWithin levels sprout.origin).sum

/-- The number of nodes from an origin down. -/
def extent (forest : Forest) (origin : Origin) : Nat :=
  forest.extentWithin forest.height origin

end Forest

end SyntaxAtlas
