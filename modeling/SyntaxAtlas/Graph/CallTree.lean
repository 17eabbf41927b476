import SyntaxAtlas.Graph.Naming
import SyntaxAtlas.Graph.Query
import SyntaxAtlas.Graph.Walk
/-!
The functions that a package declares, and call trees: what is reached from a node through calls.

Functions and methods are found by a walk that does not look inside them. For each name the first
function counts, or the first method when there is no function of that name.

In a call tree the nodes below a node come in order, and behind each call follows the declaration
that it calls with everything below it, unless that declaration was entered before. A visitor can
end the tour.
-/
namespace SyntaxAtlas

namespace Forest

/-- The index after one more declaration. A later entry for a name is put in front. -/
def indexFunction (arena : Arena) (index : List (String × NodeId)) (name : String) (id : NodeId) :
    List (String × NodeId) :=
  match index.lookup name with
  | none => (name, id) :: index
  | some held =>
    if arena.kind id = .funcDecl ∧ arena.kind held = .methodDecl then
      (name, id) :: index
    else
      index

/-- The declared functions by name. -/
def functionIndex (forest : Forest) : Explore (List (String × NodeId)) := do
  match (← get).functionIndex with
  | some index => return index
  | none =>
    let index ← forest.walk Arena.root [] fun index node => do
      if ((← get).arena.kind node).isFuncDeclaration then
        match ← forest.name? node with
        | some name => return (.skip, indexFunction (← get).arena index name node)
        | none => return (.skip, index)
      else
        return (.descend, index)
    modify fun session => { session with functionIndex := some index }
    return index

/-- The function or method that a package declares under a name. -/
def declarationByName? (forest : Forest) (name : String) : Explore (Option NodeId) := do
  match forest.package with
  | none => return none
  | some _ =>
    let index ← forest.functionIndex
    return index.lookup name

/-- The declared function that a call calls, found by its name. -/
def callee? (forest : Forest) (id : NodeId) : Explore (Option NodeId) := do
  match ← forest.callTarget? id with
  | none => return none
  | some target =>
    match ← forest.targetIdent? target with
    | none => return none
    | some ident => forest.declarationByName? (forest.sourceText (← get).arena ident)

end Forest

/-- A tour through a call tree: the declarations already entered, what the visitor collected, and
whether it ended the tour. -/
structure CallTour (σ : Type) where
  /-- The nodes that no call enters again. -/
  entered : List NodeId
  /-- What the visitor collected. -/
  state : σ
  /-- The visitor ended the tour. -/
  ended : Bool := false

/-- A stage of a tour. -/
abbrev CallStage (σ : Type) := CallTour σ → Explore (CallTour σ)

/-- One stage after another, the second one only if the tour goes on. -/
def CallStage.andThen {σ : Type} (first second : CallStage σ) : CallStage σ := fun tour => do
  let tour ← first tour
  if tour.ended then return tour else second tour

namespace Forest

variable {σ : Type}

/-- One visit. The visitor says whether the tour goes on. -/
def visitStage (visit : σ → NodeId → Explore (Bool × σ)) (node : NodeId) : CallStage σ :=
  fun tour => do
    let (goesOn, state) ← visit tour.state node
    return { tour with state := state, ended := !goesOn }

/-- The declaration that a node calls: visited and entered, unless it was entered before. -/
def calleeStage (forest : Forest) (visit : σ → NodeId → Explore (Bool × σ))
    (enter : NodeId → CallStage σ) (node : NodeId) : CallStage σ :=
  fun tour => do
    match ← forest.callee? node with
    | none => return tour
    | some callee =>
      if tour.entered.contains callee then
        return tour
      else
        CallStage.andThen (visitStage visit callee) (enter callee)
          { tour with entered := callee :: tour.entered }

/-- Nodes in order, each followed by what it calls and by what is below it. -/
def nodesStage (forest : Forest) (visit : σ → NodeId → Explore (Bool × σ))
    (enter : NodeId → CallStage σ) : List NodeId → CallStage σ
  | [] => pure
  | node :: rest =>
    (visitStage visit node).andThen <|
      (forest.calleeStage visit enter node).andThen <|
        (enter node).andThen (forest.nodesStage visit enter rest)

/-- Everything below a node and everything that is called there. Each step goes one level down or
enters one more declaration, which bounds the depth. -/
def expand (forest : Forest) (visit : σ → NodeId → Explore (Bool × σ)) :
    Nat → NodeId → CallStage σ
  | 0, _ => pure
  | depth + 1, node => fun tour => do
    forest.nodesStage visit (forest.expand visit depth) (← forest.children node) tour

/-- A depth that no tour reaches: at most all nodes are entered, each for all levels. -/
def callDepth (forest : Forest) : Nat :=
  (forest.extent forest.rootSprout.origin + 1) * (forest.height + 1)

/-- The tour through the call tree of a node. Without a package there are no calls to follow, and
nothing is visited. -/
def callTour (forest : Forest) (id : NodeId) (state : σ)
    (visit : σ → NodeId → Explore (Bool × σ)) : Explore σ := do
  match forest.package with
  | none => return state
  | some _ =>
    let tour ← forest.expand visit forest.callDepth id ⟨[id], state, false⟩
    return tour.state

/-- Every node of the call tree of a node that passes a test. -/
def callTreeNodes (forest : Forest) (test : Test) (id : NodeId) : Explore (List NodeId) :=
  forest.callTour id [] fun found node => do
    if ← test node then
      return (true, found ++ [node])
    else
      return (true, found)

/-- The first node of the call tree of a node that passes a test. -/
def callTreeNode? (forest : Forest) (test : Test) (id : NodeId) : Explore (Option NodeId) :=
  forest.callTour id none fun _ node => do
    if ← test node then
      return (false, some node)
    else
      return (true, none)

end Forest

end SyntaxAtlas
