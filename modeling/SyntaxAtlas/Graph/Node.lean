import SyntaxAtlas.Graph.Session
/-!
Nodes: what can be said about a node without asking for children.

These answers depend on numbered nodes only, so they are plain functions of the arena and, where
the syntax itself is needed, of the forest.
-/
namespace SyntaxAtlas

namespace Arena

/-- The nodes above a node, the nearest first. Parents have smaller numbers than their children, so
the climb ends. -/
def ancestors (arena : Arena) (id : NodeId) : List NodeId :=
  match arena.parent? id with
  | none => []
  | some parent => if parent < id then parent :: arena.ancestors parent else []
termination_by id

/-- Whether a node stands above another one. The climb ends early at the level of the upper node. -/
def contains (arena : Arena) (upper lower : NodeId) : Bool :=
  match arena.parent? lower with
  | none => false
  | some parent =>
    if parent = upper then
      true
    else if arena.level parent ≤ arena.level upper then
      false
    else if parent < lower then
      arena.contains upper parent
    else
      false
termination_by lower

/-- The nearest node of a kind above a node. -/
def nextAncestorOfKind? (arena : Arena) (id : NodeId) (kind : Kind) : Option NodeId :=
  (arena.ancestors id).find? fun ancestor => arena.kind ancestor == kind

/-- The nearest node above an identifier that is not a mere list of expressions: the syntax that
declares it. -/
def declarationSite? (arena : Arena) (id : NodeId) : Option NodeId :=
  (arena.ancestors id).find? fun ancestor => arena.kind ancestor != .expressionList

/-- The place of a node among the children of its parent. -/
def childIndex (arena : Arena) (id : NodeId) : Nat :=
  match arena.parent? id with
  | none => 0
  | some parent => ((arena.children? parent).getD []).idxOf id

/-- The way from the root to a node, as places among children. -/
def address (arena : Arena) (id : NodeId) : List Nat :=
  ((id :: arena.ancestors id).reverse.drop 1).map arena.childIndex

/-- A node with its kind, span and number. -/
def describe (arena : Arena) (id : NodeId) : String :=
  "Node(" ++ (arena.kind id).tag ++ " " ++ (arena.span id).render ++ " #" ++ toString id ++ ")"

end Arena

namespace Forest

/-- The syntax element of a node. -/
def element? (forest : Forest) (arena : Arena) (id : NodeId) : Option Element :=
  forest.elementOf? (arena.origin id)

/-- The name that the grammar gives to a node. -/
def grammarKind? (forest : Forest) (arena : Arena) (id : NodeId) : Option String :=
  (forest.element? arena id).map Element.kind

/-- The role of a node in its parent. A root has none. -/
def field? (forest : Forest) (arena : Arena) (id : NodeId) : Option String :=
  match arena.parent? id with
  | none => none
  | some _ => (forest.element? arena id).bind Element.field

/-- The unit that a node lies in. -/
def unit? (forest : Forest) (arena : Arena) (id : NodeId) : Option SourceUnit := do
  let number ← (arena.origin id).unit?
  let unit ← forest.units[number]?
  return unit.source

/-- The text that a node covers. It is empty when an end of the span is inside a character. -/
def sourceText (forest : Forest) (arena : Arena) (id : NodeId) : String :=
  match arena.origin id with
  | .package => forest.sources.joined
  | _ => ((forest.unit? arena id).bind fun unit => unit.slice? (arena.span id)).getD ""

/-- The other children of the parent of a node. -/
def siblings (forest : Forest) (id : NodeId) : Explore (List NodeId) := do
  match (← get).arena.parent? id with
  | none => return []
  | some parent => return (← forest.children parent).filter (· != id)

end Forest

end SyntaxAtlas
