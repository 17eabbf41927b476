import SyntaxAtlas.Graph.Session
/-!
Walks through the nodes below a node, and indexes over all nodes.

A walk visits a node before its children and children in order. The visitor decides, node by node,
whether the walk goes on below the node. The children of a node are asked for only after the visit,
so what a visitor looks at is numbered before them. An index is built by a walk through everything,
the first time it is needed, and kept.
-/
namespace SyntaxAtlas

/-- What a walk does after a node. -/
inductive Verdict where
  /-- Visit the children next. -/
  | descend
  /-- Leave out everything below the node. -/
  | skip
deriving DecidableEq, Repr, Inhabited

namespace Forest

variable {σ : Type}

/-- The walk through pending nodes, the first of them next. A step takes one node, so the budget
only has to count the nodes that are still to come. -/
def walkStack (forest : Forest) (visit : σ → NodeId → Explore (Verdict × σ)) :
    Nat → List NodeId → σ → Explore σ
  | 0, _, state => return state
  | _ + 1, [], state => return state
  | budget + 1, id :: pending, state => do
    let (verdict, state) ← visit state id
    match verdict with
    | .skip => forest.walkStack visit budget pending state
    | .descend =>
      let ids ← forest.children id
      forest.walkStack visit budget (ids ++ pending) state

/-- The walk from a node, the node itself included. -/
def walk (forest : Forest) (start : NodeId) (state : σ)
    (visit : σ → NodeId → Explore (Verdict × σ)) : Explore σ := do
  let origin := (← get).arena.origin start
  forest.walkStack visit (forest.extent origin) [start] state

/-- The nodes from a node down, parents first. -/
def preorder (forest : Forest) (start : NodeId) : Explore (List NodeId) :=
  forest.walk start [] fun seen id => return (.descend, seen ++ [id])

/-- The number of all nodes, every one of them numbered. -/
def materializeAll (forest : Forest) : Explore Nat := do
  forest.walk Arena.root () fun _ _ => return (.descend, ())
  return (← get).arena.size

/-- The nodes from several nodes down, one after the other. -/
def preorderAll (forest : Forest) : List NodeId → Explore (List NodeId)
  | [] => return []
  | start :: rest => do
    let ids ← forest.preorder start
    return ids ++ (← forest.preorderAll rest)

/-- The roots of the units. -/
def unitRoots (forest : Forest) : Explore (List NodeId) :=
  match forest.package with
  | some _ => forest.children Arena.root
  | none => return [Arena.root]

/-- All nodes but a package root, with their spans, parents first. -/
def spanIndex (forest : Forest) : Explore (List (Span × NodeId)) := do
  match (← get).spanIndex with
  | some index => return index
  | none =>
    let ids ← forest.preorderAll (← forest.unitRoots)
    let session ← get
    let index := ids.map fun id => (session.arena.span id, id)
    set { session with spanIndex := some index }
    return index

/-- The nodes with exactly a given span, parents first. -/
def nodesWithSpan (forest : Forest) (span : Span) : Explore (List NodeId) := do
  let index ← forest.spanIndex
  return (index.filter fun entry => entry.1 == span).map Prod.snd

/-- All identifiers with their starts, parents first. -/
def identIndex (forest : Forest) : Explore (List (Nat × NodeId)) := do
  match (← get).identIndex with
  | some index => return index
  | none =>
    let ids ← forest.preorder Arena.root
    let session ← get
    let idents := ids.filter fun id => (session.arena.kind id).isIdentifier
    let index := idents.map fun id => ((session.arena.span id).start, id)
    set { session with identIndex := some index }
    return index

/-- The first identifier that starts at a position. -/
def identAt? (forest : Forest) (pos : Nat) : Explore (Option NodeId) := do
  let index ← forest.identIndex
  return index.lookup pos

/-- The identifiers that start at some positions; positions without one are passed over. -/
def identsAt (forest : Forest) : List Nat → Explore (List NodeId)
  | [] => return []
  | pos :: rest => do
    let found ← forest.identAt? pos
    return found.toList ++ (← forest.identsAt rest)

end Forest

end SyntaxAtlas
