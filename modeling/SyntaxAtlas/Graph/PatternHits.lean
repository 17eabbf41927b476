import SyntaxAtlas.Graph.Walk
import SyntaxAtlas.Graph.Node
import SyntaxAtlas.Pattern
/-!
Nodes that match a pattern.

The engine reports matches in the texts of units. A match becomes a hit when a node with its span
can be found and lies below the node from which the search started.
-/
namespace SyntaxAtlas

/-- A node that matches a pattern. -/
structure PatternHit where
  /-- The node. -/
  node : NodeId
  /-- The texts captured by the variables of the pattern. -/
  captures : List (String × String)
deriving DecidableEq, Repr, Inhabited

/-- The answers of the engine about patterns in units. -/
abbrev PatternEngine := UnitId → String → PatternAnswer

namespace Forest

/-- The node for a match at package positions: of the nodes with its span the first one with its
grammar kind or, when none has it, the first one. -/
def nodeForMatch? (forest : Forest) (span : Span) (kind : String) : Explore (Option NodeId) := do
  let candidates ← forest.nodesWithSpan span
  let arena := (← get).arena
  let sameKind := candidates.find? fun node => forest.grammarKind? arena node == some kind
  return sameKind.or candidates.head?

/-- The hits for the matches in a unit with a given base. -/
def hitsOf (forest : Forest) (id : NodeId) (base : Nat) :
    List PatternMatch → Explore (List PatternHit)
  | [] => return []
  | found :: rest => do
    let node ← forest.nodeForMatch? (found.span.shift base) found.kind
    let arena := (← get).arena
    let hit := node.filter fun node => node != id && arena.contains id node
    let hits ← forest.hitsOf id base rest
    return (hit.map fun node => ⟨node, found.captures⟩).toList ++ hits

/-- The hits below a node in the part of a unit that a second node covers. -/
def hitsIn (forest : Forest) (engine : PatternEngine) (pattern : String) (id part : NodeId) :
    Explore (Except PatternError (List PatternHit)) := do
  let arena := (← get).arena
  let place := do
    let number ← (arena.origin part).unit?
    let unit ← forest.units[number]?
    let range ← (arena.span part).localTo? unit.source.base
    return (number, unit.source.base, range)
  match place with
  | none => return .ok []
  | some (number, base, range) =>
    match engine number pattern with
    | .error reason => return .error ⟨pattern, reason⟩
    | .ok found => return .ok (← forest.hitsOf id base (PatternMatch.inRange range found))

/-- The hits below a node in several parts, one after the other. The first refusal ends the
search. -/
def hitsInAll (forest : Forest) (engine : PatternEngine) (pattern : String) (id : NodeId) :
    List NodeId → Explore (Except PatternError (List PatternHit))
  | [] => return .ok []
  | part :: rest => do
    match ← forest.hitsIn engine pattern id part with
    | .error error => return .error error
    | .ok hits =>
      match ← forest.hitsInAll engine pattern id rest with
      | .error error => return .error error
      | .ok more => return .ok (hits ++ more)

/-- The nodes below a node that match a pattern. A package is searched unit by unit. -/
def findByPattern (forest : Forest) (engine : PatternEngine) (pattern : String) (id : NodeId) :
    Explore (Except PatternError (List PatternHit)) := do
  if (← get).arena.kind id = .package then
    forest.hitsInAll engine pattern id (← forest.children id)
  else
    forest.hitsInAll engine pattern id [id]

end Forest

end SyntaxAtlas
