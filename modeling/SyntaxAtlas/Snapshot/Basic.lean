import SyntaxAtlas.Span
import SyntaxAtlas.Text.Bytes
/-!
Snapshots of syntax trees.

A snapshot is a flat list of elements. An element is known by its place in the list and names its
children by their places; the first element is the root. A snapshot that was built by appending
children is a tree, but one that was read from a document can link its elements in any way, so
nothing here relies on the shape of the links.
-/
namespace SyntaxAtlas

/-- The place of an element in its snapshot. -/
abbrev ElementId := Nat

/-- One element of syntax. -/
structure Element where
  /-- The name that the grammar gives to the element. -/
  kind : String
  /-- The bytes that the element covers in its unit. -/
  span : Span
  /-- The role of the element in its parent. -/
  field : Option String := none
  /-- The operator that the element carries. -/
  operator : Option String := none
  /-- The children, in order. -/
  children : List ElementId := []
deriving DecidableEq, Repr, Inhabited

/-- A flat list of elements. -/
structure Snapshot where
  /-- The elements, each at its place. -/
  elements : Array Element
deriving DecidableEq, Repr, Inhabited

namespace Snapshot

/-- The snapshot with a single element. -/
def ofRoot (root : Element) : Snapshot :=
  ⟨#[root]⟩

/-- The number of elements. -/
def size (snapshot : Snapshot) : Nat :=
  snapshot.elements.size

/-- The element at a place. -/
def get? (snapshot : Snapshot) (id : ElementId) : Option Element :=
  snapshot.elements[id]?

/-- The first element, when there is one. -/
def root? (snapshot : Snapshot) : Option ElementId :=
  if snapshot.size = 0 then none else some 0

/-- The children of an element; there are none at a place without an element. -/
def children (snapshot : Snapshot) (id : ElementId) : List ElementId :=
  ((snapshot.get? id).map Element.children).getD []

/-- The elements with their places. -/
def enumerate (snapshot : Snapshot) : List (ElementId × Element) :=
  snapshot.elements.toList.zipIdx.map fun (element, id) => (id, element)

/-- The element appended as the last child of a parent, with its place. Children that it lists
itself are dropped, so what is appended is always a leaf. -/
def pushChild (snapshot : Snapshot) (parent : ElementId) (element : Element) :
    Snapshot × ElementId :=
  let id := snapshot.size
  let elements := snapshot.elements.push { element with children := [] }
  (⟨elements.modify parent fun p => { p with children := p.children ++ [id] }⟩, id)

/-- The last element that lists a given one. -/
def lister? (snapshot : Snapshot) (child : ElementId) : Option ElementId :=
  (List.range snapshot.size).reverse.find? fun id => (snapshot.children id).contains child

/-- The lister of every element. There is no answer when a child does not exist. -/
def parents? (snapshot : Snapshot) : Option (List (Option ElementId)) :=
  if snapshot.elements.all fun element => element.children.all (· < snapshot.size) then
    some ((List.range snapshot.size).map snapshot.lister?)
  else
    none

/-- The first child of an element that has a given grammar kind. -/
def childOfKind? (snapshot : Snapshot) (id : ElementId) (kind : String) : Option ElementId :=
  (snapshot.children id).find? fun child =>
    ((snapshot.get? child).map Element.kind) == some kind

/-- The name in the package clause of a unit, read from its text. -/
def packageName? (snapshot : Snapshot) (text : List Char) : Option (List Char) := do
  let root ← snapshot.root?
  let clause ← snapshot.childOfKind? root "package_clause"
  let ident ← snapshot.childOfKind? clause "package_identifier"
  let element ← snapshot.get? ident
  Text.slice? element.span.start element.span.stop text

end Snapshot

end SyntaxAtlas
