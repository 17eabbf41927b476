import SyntaxAtlas.Graph.Forest
import SyntaxAtlas.SymbolTable.Basic
import SyntaxAtlas.Text.Characters
/-!
Sessions: the part of a forest that was looked at.

Nodes get numbers when they are first needed. At the start only the root has one; the first
question for the children of a node numbers all of its children, one after the other, and later
questions get the same numbers. So the numbers tell in which order things were looked at. A session
also keeps the indexes and answers that were computed once. A graph is a forest with its session;
for people who look for errors it has a short description.
-/
namespace SyntaxAtlas

/-- The number of a node in its session. -/
abbrev NodeId := Nat

/-- What is known about a numbered node. -/
structure NodeData where
  /-- What the node is. -/
  kind : Kind
  /-- The package positions it covers. -/
  span : Span
  /-- The node above it. -/
  parent : Option NodeId
  /-- The number of nodes above it. -/
  level : Nat
  /-- Where it comes from. -/
  origin : Origin
  /-- Its children, once they were asked for. -/
  children : Option (List NodeId) := none
deriving Repr, Inhabited

/-- The numbered nodes. -/
structure Arena where
  /-- The nodes, each at its number. -/
  nodes : Array NodeData
deriving Repr, Inhabited

namespace Arena

/-- The number of the root. -/
def root : NodeId := 0

/-- The arena that holds only the root. -/
def ofRoot (sprout : Sprout) : Arena :=
  ⟨#[{ sprout with parent := none, level := 0 }]⟩

/-- The number of nodes that have a number. -/
def size (arena : Arena) : Nat :=
  arena.nodes.size

/-- What is known about a node. Numbers that were never given out yield an arbitrary answer. -/
def data (arena : Arena) (id : NodeId) : NodeData :=
  arena.nodes.getD id default

/-- What a node is. -/
def kind (arena : Arena) (id : NodeId) : Kind :=
  (arena.data id).kind

/-- The package positions that a node covers. -/
def span (arena : Arena) (id : NodeId) : Span :=
  (arena.data id).span

/-- The node above a node. -/
def parent? (arena : Arena) (id : NodeId) : Option NodeId :=
  (arena.data id).parent

/-- The number of nodes above a node. -/
def level (arena : Arena) (id : NodeId) : Nat :=
  (arena.data id).level

/-- Where a node comes from. -/
def origin (arena : Arena) (id : NodeId) : Origin :=
  (arena.data id).origin

/-- The children of a node, once they were asked for. -/
def children? (arena : Arena) (id : NodeId) : Option (List NodeId) :=
  (arena.data id).children

/-- The arena in which sprouts are numbered as the children of a node, and their numbers. -/
def grow (arena : Arena) (id : NodeId) (sprouts : List Sprout) : Arena × List NodeId :=
  let level := arena.level id + 1
  let fresh := sprouts.map fun sprout =>
    { sprout with parent := some id, level := level : NodeData }
  let ids := List.range' arena.size sprouts.length
  (⟨(arena.nodes ++ fresh.toArray).modify id fun data => { data with children := some ids }⟩, ids)

end Arena

/-- What was numbered, indexed and resolved so far. -/
structure Session where
  /-- The numbered nodes. -/
  arena : Arena
  /-- All nodes but a package root with their spans, parents first. -/
  spanIndex : Option (List (Span × NodeId)) := none
  /-- All identifiers with their starts, parents first. -/
  identIndex : Option (List (Nat × NodeId)) := none
  /-- The declared functions by name; the first entry for a name counts. -/
  functionIndex : Option (List (String × NodeId)) := none
  /-- The types of the package by span. -/
  typeIndex : Option TypeIndex := none
  /-- The declarations that were resolved. -/
  declarations : List (NodeId × Option NodeId) := []
  /-- The usages that were resolved. -/
  usages : List (NodeId × List NodeId) := []
deriving Repr, Inhabited

/-- A question that may number nodes and fill indexes on the way to its answer. -/
abbrev Explore (α : Type) := StateM Session α

namespace Session

/-- The session in which nothing but the root was looked at. -/
def start (forest : Forest) : Session where
  arena := .ofRoot forest.rootSprout

end Session

/-- A forest with what was looked at in it. -/
structure Graph where
  /-- The units and their snapshots. -/
  forest : Forest
  /-- What was looked at. -/
  session : Session

namespace Graph

/-- A forest in which nothing but the root was looked at. -/
def ofForest (forest : Forest) : Graph :=
  ⟨forest, .start forest⟩

/-- The answer to a question, and the graph after it. -/
def ask {α : Type} (graph : Graph) (question : Forest → Explore α) : α × Graph :=
  let (answer, session) := (question graph.forest).run graph.session
  (answer, { graph with session := session })

/-- Whether the functions of the package have been indexed. -/
def isIndexed (graph : Graph) : Bool :=
  graph.session.functionIndex.isSome

/-- The name of the package, or the word that there is none. -/
def packageMention (graph : Graph) : String :=
  match graph.forest.package with
  | none => "None"
  | some package => "Some(" ++ Text.quoted package.name ++ ")"

/-- The number of units, the number of nodes that have a number, and the package. -/
def summary (graph : Graph) : String :=
  "Graph \x7b units: " ++ toString graph.forest.units.length ++ ", nodes: " ++
    toString graph.session.arena.size ++ ", package: " ++ graph.packageMention ++ " \x7d"

/-- The name of the package and whether its functions have been indexed. -/
def packageSummary? (graph : Graph) : Option String :=
  graph.forest.package.map fun package =>
    "Package \x7b name: " ++ Text.quoted package.name ++ ", indexed: " ++
      toString graph.isIndexed ++ " \x7d"

end Graph

namespace Forest

/-- The children of a node, numbered now unless they were asked for before. -/
def children (forest : Forest) (id : NodeId) : Explore (List NodeId) := do
  let session ← get
  match session.arena.children? id with
  | some ids => return ids
  | none =>
    let (arena, ids) := session.arena.grow id (forest.sprouts (session.arena.origin id))
    set { session with arena := arena }
    return ids

end Forest

end SyntaxAtlas
