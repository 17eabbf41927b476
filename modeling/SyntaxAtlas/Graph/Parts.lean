import SyntaxAtlas.Graph.Naming
/-!
Parts of statements, expressions and functions.

Each part exists for certain kinds of nodes only; for other nodes there is none.
-/
namespace SyntaxAtlas.Forest

/-- A child in a role, for nodes of certain kinds. -/
def partOf? (forest : Forest) (kinds : List Kind) (field : String) (id : NodeId) :
    Explore (Option NodeId) := do
  if kinds.contains ((← get).arena.kind id) then
    forest.childInField? field id
  else
    return none

/-- A child in a role of a node that may be missing. -/
def partOfSome? (forest : Forest) (field : String) (id : Option NodeId) :
    Explore (Option NodeId) :=
  match id with
  | none => return none
  | some id => forest.childInField? field id

/-- The items of a list of expressions; anything else is its own only item. -/
def listItems (forest : Forest) : Option NodeId → Explore (List NodeId)
  | none => return []
  | some id => do
    if (← get).arena.kind id = .expressionList then
      forest.children id
    else
      return [id]

/-- The left operand of a binary expression. -/
def left? (forest : Forest) (id : NodeId) : Explore (Option NodeId) :=
  forest.partOf? [.binaryExpr] "left" id

/-- The right operand of a binary expression. -/
def right? (forest : Forest) (id : NodeId) : Explore (Option NodeId) :=
  forest.partOf? [.binaryExpr] "right" id

/-- What an assignment or a short declaration assigns to. -/
def lhs (forest : Forest) (id : NodeId) : Explore (List NodeId) := do
  forest.listItems (← forest.partOf? [.assignStmt, .shortVarDecl] "left" id)

/-- What an assignment or a short declaration assigns. -/
def rhs (forest : Forest) (id : NodeId) : Explore (List NodeId) := do
  forest.listItems (← forest.partOf? [.assignStmt, .shortVarDecl] "right" id)

/-- The node itself if it has a kind, or its first child of that kind if it is a loop. -/
def loopClause? (forest : Forest) (clause : Kind) (id : NodeId) : Explore (Option NodeId) := do
  let kind := (← get).arena.kind id
  if kind = clause then
    return some id
  else if kind = .forStmt then
    forest.childByKind? clause id
  else
    return none

/-- What a counting loop starts with. -/
def forInit? (forest : Forest) (id : NodeId) : Explore (Option NodeId) := do
  forest.partOfSome? "initializer" (← forest.loopClause? .forClause id)

/-- The condition of a loop: that of its clause or, in a loop without one, the first child that is
neither the body nor a range clause. -/
def forCond? (forest : Forest) (id : NodeId) : Explore (Option NodeId) := do
  match ← forest.loopClause? .forClause id with
  | some clause => forest.childInField? "condition" clause
  | none =>
    if (← get).arena.kind id = .forStmt then
      forest.findChild? id fun arena child =>
        forest.field? arena child != some "body" && arena.kind child != .rangeClause
    else
      return none

/-- What a counting loop does after each turn. -/
def forPost? (forest : Forest) (id : NodeId) : Explore (Option NodeId) := do
  forest.partOfSome? "update" (← forest.loopClause? .forClause id)

/-- The variables of a range loop. -/
def rangeVariables (forest : Forest) (id : NodeId) : Explore (List NodeId) := do
  let clause ← forest.loopClause? .rangeClause id
  forest.listItems (← forest.partOfSome? "left" clause)

/-- The first variable of a range loop. -/
def rangeKey? (forest : Forest) (id : NodeId) : Explore (Option NodeId) := do
  return (← forest.rangeVariables id)[0]?

/-- The second variable of a range loop. -/
def rangeValue? (forest : Forest) (id : NodeId) : Explore (Option NodeId) := do
  return (← forest.rangeVariables id)[1]?

/-- What a range loop goes through. -/
def rangeExpr? (forest : Forest) (id : NodeId) : Explore (Option NodeId) := do
  forest.partOfSome? "right" (← forest.loopClause? .rangeClause id)

/-- Kinds of nodes that have parameters and results. -/
def signatureKinds : List Kind :=
  [.funcDecl, .methodDecl, .funcLit, .funcType]

/-- The parameters of a function. -/
def params? (forest : Forest) (id : NodeId) : Explore (Option NodeId) :=
  forest.partOf? signatureKinds "parameters" id

/-- The results of a function. -/
def results? (forest : Forest) (id : NodeId) : Explore (Option NodeId) :=
  forest.partOf? signatureKinds "result" id

/-- The receiver of a method: the first child of its receiver list. -/
def receiver? (forest : Forest) (id : NodeId) : Explore (Option NodeId) := do
  match ← forest.partOf? [.methodDecl] "receiver" id with
  | none => return none
  | some list => return (← forest.children list).head?

/-- The operand of a selector, when it is a plain name. -/
def packageName? (forest : Forest) (id : NodeId) : Explore (Option NodeId) := do
  let operand ← forest.partOf? [.selectorExpr] "operand" id
  let arena := (← get).arena
  return operand.filter fun operand => arena.kind operand == .identifier

end SyntaxAtlas.Forest
