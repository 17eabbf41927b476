import SyntaxAtlas.Graph.Naming
import SyntaxAtlas.Graph.Walk
/-!
Searches below a node.

A search goes through everything below a node, the node itself left out, and tests each node as it
is visited. A test may itself look at nodes. The search for one node stops testing at the first
hit.
-/
namespace SyntaxAtlas.Forest

/-- A test of nodes. -/
abbrev Test := NodeId → Explore Bool

/-- Every node below a node that passes a test, parents first. -/
def treeNodes (forest : Forest) (test : Test) (id : NodeId) : Explore (List NodeId) :=
  forest.walk id [] fun found node => do
    if node = id then
      return (.descend, found)
    else if ← test node then
      return (.descend, found ++ [node])
    else
      return (.descend, found)

/-- The first node below a node that passes a test. -/
def treeNode? (forest : Forest) (test : Test) (id : NodeId) : Explore (Option NodeId) :=
  forest.walk id none fun found node => do
    match found with
    | some hit => return (.skip, some hit)
    | none =>
      if node = id then
        return (.descend, none)
      else if ← test node then
        return (.skip, some node)
      else
        return (.descend, none)

/-- The nodes of a list that pass a test. -/
def filterNodes (test : Test) : List NodeId → Explore (List NodeId)
  | [] => return []
  | node :: rest => do
    if ← test node then
      return node :: (← filterNodes test rest)
    else
      filterNodes test rest

/-- The first node of a list that passes a test. -/
def findNode? (test : Test) : List NodeId → Explore (Option NodeId)
  | [] => return none
  | node :: rest => do
    if ← test node then
      return some node
    else
      findNode? test rest

/-- The children of a node that pass a test. -/
def childNodes (forest : Forest) (test : Test) (id : NodeId) : Explore (List NodeId) := do
  filterNodes test (← forest.children id)

/-- The first child of a node that passes a test. -/
def childNode? (forest : Forest) (test : Test) (id : NodeId) : Explore (Option NodeId) := do
  findNode? test (← forest.children id)

/-- Nodes of a kind. -/
def ofKind (kind : Kind) : Test := fun node =>
  return (← get).arena.kind node == kind

/-- Nodes with a name. -/
def ofName (forest : Forest) (name : String) : Test := fun node =>
  return (← forest.name? node) == some name

/-- Identifiers with a text. -/
def identOfText (forest : Forest) (text : String) : Test := fun node => do
  let arena := (← get).arena
  return (arena.kind node).isIdentifier && forest.sourceText arena node == text

/-- Nodes with a type. -/
def ofType (forest : Forest) (type : String) : Test := fun node =>
  return (← forest.valueType? node) == some type

/-- Nodes whose type is a map. -/
def ofMapType (forest : Forest) : Test := fun node =>
  return (← forest.valueType? node).any fun type => "map".toList.isPrefixOf type.toList

/-- Nodes that carry a token. -/
def ofToken (forest : Forest) (token : Token) : Test := fun node =>
  return forest.token? (← get).arena node == some token

end SyntaxAtlas.Forest
