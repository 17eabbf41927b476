import SyntaxAtlas.Graph.Node
import SyntaxAtlas.Graph.Walk
/-!
Scopes of nodes, nodes near a position, declarations of uses and uses of declarations.

An identifier is resolved by its text: candidates are the definitions recorded under that name. One
candidate is taken as it is; of several, the one whose scope contains the identifier and starts
last. Answers are kept, because the same identifiers are asked about again and again.
-/
namespace SyntaxAtlas.Forest

/-- The innermost scope at the start of a node. -/
def scope? (forest : Forest) (arena : Arena) (id : NodeId) : Option Scope := do
  let package ← forest.package
  package.symbols.innermostScope? (arena.span id).start

/-- The innermost scope at the start of a node, and the first node with the span of its owner. -/
def enclosingScope? (forest : Forest) (id : NodeId) : Explore (Option (NodeId × Scope)) := do
  match forest.scope? (← get).arena id with
  | none => return none
  | some scope =>
    let owners ← forest.nodesWithSpan scope.owner
    return owners.head?.map fun owner => (owner, scope)

/-- How far behind the start of a node a position may lie. -/
def positionWindow : Nat := 50

/-- What a search for a position has found: a node that starts there, or the nearest start before
it with its distance. -/
structure PositionSearch where
  /-- A node that starts at the position. -/
  exact : Option NodeId := none
  /-- The nearest start before the position. -/
  nearest : Option (Nat × NodeId) := none

/-- The search after one more node. It goes on below a node until an exact start is found. -/
def PositionSearch.step (search : PositionSearch) (pos start : Nat) (id : NodeId) :
    Verdict × PositionSearch :=
  if search.exact.isSome then
    (.skip, search)
  else if start = pos then
    (.skip, { search with exact := some id })
  else
    let distance := pos - start
    let closer := search.nearest.all fun held => distance < held.1
    if start < pos ∧ distance < positionWindow ∧ closer then
      (.descend, { search with nearest := some (distance, id) })
    else
      (.descend, search)

/-- The node, from a node down, that starts at a position or nearest before it. The position has to
lie in the scope of the node, and the start in the window before the position. -/
def findByPosition? (forest : Forest) (pos : Nat) (id : NodeId) : Explore (Option NodeId) := do
  match forest.scope? (← get).arena id with
  | none => return none
  | some scope =>
    if scope.Contains pos then
      let search ← forest.walk id {} fun (search : PositionSearch) node => do
        return search.step pos ((← get).arena.span node).start node
      return search.exact.or (search.nearest.map Prod.snd)
    else
      return none

/-- The name that declares nothing. -/
def blankName : String := "_"

/-- The declaring identifiers below a node, by position. -/
def findDeclarations (forest : Forest) (id : NodeId) : Explore (List NodeId) := do
  match forest.package with
  | none => return []
  | some package =>
    let span := (← get).arena.span id
    let entries := package.symbols.defs.entries.filter fun (pos, symbol) =>
      symbol.name != blankName && decide (span.Contains pos)
    let idents ← forest.identsAt (entries.map Prod.fst)
    let arena := (← get).arena
    return idents.filter (arena.contains id)

/-- The declaring identifiers below a node whose declaration is of one of some kinds. -/
def findDeclarationsOfKinds (forest : Forest) (kinds : List Kind) (id : NodeId) :
    Explore (List NodeId) := do
  let idents ← forest.findDeclarations id
  let arena := (← get).arena
  return idents.filter fun ident =>
    (arena.declarationSite? ident).any fun site => kinds.contains (arena.kind site)

/-- The declaring identifiers of variables and constants below a node. -/
def findVarDeclarations (forest : Forest) (id : NodeId) : Explore (List NodeId) :=
  forest.findDeclarationsOfKinds [.shortVarDecl, .varSpec, .constSpec] id

/-- The better of two candidates: the one whose scope starts later, the earlier one on a tie. -/
def laterScope (best : Option (Nat × NodeId)) (candidate : Nat × NodeId) :
    Option (Nat × NodeId) :=
  match best with
  | some held => if candidate.1 ≤ held.1 then some held else some candidate
  | none => some candidate

/-- Of the candidates whose scope contains a position, the one whose scope starts last. -/
def visibleCandidate? (forest : Forest) (arena : Arena) (pos : Nat) (candidates : List NodeId) :
    Option NodeId :=
  let visible := candidates.filterMap fun candidate => do
    let scope ← forest.scope? arena candidate
    if scope.Contains pos then some (scope.range.start, candidate) else none
  (visible.foldl laterScope none).map Prod.snd

/-- The declaration of an identifier, worked out from the symbol table. -/
def resolveDeclaration? (forest : Forest) (package : Package) (id : NodeId) :
    Explore (Option NodeId) := do
  let arena := (← get).arena
  let text := forest.sourceText arena id
  if text = blankName then
    return none
  else
    let entries := package.symbols.defs.entries.filter fun (_, symbol) => symbol.name == text
    match ← forest.identsAt (entries.map Prod.fst) with
    | [candidate] => return some candidate
    | candidates =>
      let arena := (← get).arena
      return forest.visibleCandidate? arena (arena.span id).start candidates

/-- The declaration of an identifier. -/
def declaration? (forest : Forest) (id : NodeId) : Explore (Option NodeId) := do
  let session ← get
  match forest.package with
  | none => return none
  | some package =>
    if (session.arena.kind id).isIdentifier then
      match session.declarations.lookup id with
      | some known => return known
      | none =>
        let found ← forest.resolveDeclaration? package id
        modify fun session =>
          { session with declarations := (id, found) :: session.declarations }
        return found
    else
      return none

/-- The positions at which a declaration is used: those of uses of its name in its scope that lie
in no scope of another declaration of that name inside the scope. -/
def usagePositions (table : SymbolTable) (scope : Scope) (name : String) (start : Nat) :
    List Nat :=
  let rivals := table.defs.entries.filter fun (pos, symbol) =>
    symbol.name == name && pos != start && decide (scope.Contains pos)
  let shadows := rivals.filterMap fun (pos, _) => table.innermostScope? pos
  let uses := table.uses.entries.filter fun (pos, symbol) =>
    symbol.name == name && decide (scope.Contains pos) &&
      !shadows.any fun shadow => decide (shadow.Contains pos)
  uses.map Prod.fst

/-- The uses of a declaring identifier, worked out from the symbol table. -/
def resolveUsages (forest : Forest) (package : Package) (id : NodeId) :
    Explore (List NodeId) := do
  let arena := (← get).arena
  match forest.scope? arena id with
  | none => return []
  | some scope =>
    let text := forest.sourceText arena id
    if text = blankName then
      return []
    else
      forest.identsAt (usagePositions package.symbols scope text (arena.span id).start)

/-- The uses of a declaring identifier. -/
def usages (forest : Forest) (id : NodeId) : Explore (List NodeId) := do
  let session ← get
  match forest.package with
  | none => return []
  | some package =>
    if (session.arena.kind id).isIdentifier then
      match session.usages.lookup id with
      | some known => return known
      | none =>
        let found ← forest.resolveUsages package id
        modify fun session => { session with usages := (id, found) :: session.usages }
        return found
    else
      return []

/-- The better of two nodes: the one that starts earlier, the first one on a tie. -/
def earlierStart (arena : Arena) (best : Option NodeId) (node : NodeId) : Option NodeId :=
  match best with
  | some held =>
    if (arena.span held).start ≤ (arena.span node).start then some held else some node
  | none => some node

/-- The use of a declaring identifier that starts first. -/
def firstUsage? (forest : Forest) (id : NodeId) : Explore (Option NodeId) := do
  let uses ← forest.usages id
  let arena := (← get).arena
  return uses.foldl (earlierStart arena) none

end SyntaxAtlas.Forest
