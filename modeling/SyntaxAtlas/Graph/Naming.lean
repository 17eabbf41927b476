import SyntaxAtlas.Graph.Node
import SyntaxAtlas.Token
/-!
Names, tokens and types of nodes.

Some kinds of nodes are named by an identifier below them, some carry a token, and some have a
type that the symbol table knows.
-/
namespace SyntaxAtlas.Forest

/-- The first child that passes a test. -/
def findChild? (forest : Forest) (id : NodeId) (test : Arena → NodeId → Bool) :
    Explore (Option NodeId) := do
  let ids ← forest.children id
  let arena := (← get).arena
  return ids.find? (test arena)

/-- The first child in a role. -/
def childInField? (forest : Forest) (field : String) (id : NodeId) : Explore (Option NodeId) :=
  forest.findChild? id fun arena child => forest.field? arena child == some field

/-- The first child of a kind. -/
def childByKind? (forest : Forest) (kind : Kind) (id : NodeId) : Explore (Option NodeId) :=
  forest.findChild? id fun arena child => arena.kind child == kind

/-- The element type of an array or slice type, when it is a plain name. -/
def elementIdent? (forest : Forest) (id : NodeId) : Explore (Option NodeId) := do
  let element ← forest.childInField? "element" id
  let arena := (← get).arena
  return element.filter fun ident => (arena.kind ident).isIdentifier

/-- What a call calls, or the type that a conversion converts to. -/
def callTarget? (forest : Forest) (id : NodeId) : Explore (Option NodeId) := do
  match (← get).arena.kind id with
  | .callExpr => forest.childInField? "function" id
  | .conversionExpr => forest.childInField? "type" id
  | _ => return none

/-- The identifier of a call target: the target itself, or the element type of an array or slice
type. -/
def targetIdent? (forest : Forest) (target : NodeId) : Explore (Option NodeId) := do
  match (← get).arena.kind target with
  | .identifier => return some target
  | .arrayType | .sliceType => forest.elementIdent? target
  | _ => return none

/-- The identifier that names a node. -/
def ident? (forest : Forest) (id : NodeId) : Explore (Option NodeId) := do
  match (← get).arena.kind id with
  | .identifier | .typeIdentifier | .fieldIdentifier | .packageIdentifier | .labelName =>
    return some id
  | .funcDecl | .methodDecl | .typeSpec | .typeAlias | .importSpec | .parameter
  | .variadicParameter | .typeParameter | .field | .methodElem =>
    forest.childInField? "name" id
  | .labeledStmt => forest.childInField? "label" id
  | .breakStmt | .continueStmt | .gotoStmt => forest.childByKind? .labelName id
  | .sourceFile =>
    match ← forest.childByKind? .packageClause id with
    | none => return none
    | some clause => forest.childByKind? .packageIdentifier clause
  | .selectorExpr => forest.childInField? "field" id
  | .callExpr | .conversionExpr =>
    match ← forest.callTarget? id with
    | none => return none
    | some target => forest.targetIdent? target
  | .arrayType | .sliceType => forest.elementIdent? id
  | _ => return none

/-- The text of a node that may be missing. -/
def textOf? (forest : Forest) (id : Option NodeId) : Explore (Option String) := do
  let arena := (← get).arena
  return id.map (forest.sourceText arena)

/-- The name of an array or slice type with a plain element type. -/
def elementName? (forest : Forest) (id : NodeId) : Explore (Option String) := do
  let text ← forest.textOf? (← forest.elementIdent? id)
  return text.map ("[]" ++ ·)

/-- The name of a node. A selector whose operand is a plain name is named by both of its parts. -/
def name? (forest : Forest) (id : NodeId) : Explore (Option String) := do
  match (← get).arena.kind id with
  | .selectorExpr =>
    match ← forest.textOf? (← forest.ident? id) with
    | none => return none
    | some field =>
      let operand ← forest.childInField? "operand" id
      let arena := (← get).arena
      match operand.filter fun operand => arena.kind operand == .identifier with
      | none => return some field
      | some operand => return some (forest.sourceText arena operand ++ "." ++ field)
  | .callExpr | .conversionExpr =>
    match ← forest.callTarget? id with
    | none => return none
    | some target =>
      match (← get).arena.kind target with
      | .arrayType | .sliceType => forest.elementName? target
      | _ => forest.textOf? (← forest.ident? id)
  | .arrayType | .sliceType => forest.elementName? id
  | _ => forest.textOf? (← forest.ident? id)

/-- A node with its kind and, when it has one, its name. -/
def display (forest : Forest) (id : NodeId) : Explore String := do
  let tag := ((← get).arena.kind id).tag
  match ← forest.name? id with
  | some name => return tag ++ " " ++ name
  | none => return tag

/-- The token that a node carries. -/
def token? (forest : Forest) (arena : Arena) (id : NodeId) : Option Token :=
  match arena.kind id with
  | .assignStmt | .binaryExpr | .unaryExpr | .rangeClause => do
    let element ← forest.element? arena id
    let operator ← element.operator
    Token.ofText? operator
  | .shortVarDecl => some .define
  | .incStmt => some .inc
  | .decStmt => some .dec
  | .sendStmt => some .arrow
  | .breakStmt => some .breakWord
  | .continueStmt => some .continueWord
  | .gotoStmt => some .gotoWord
  | .fallthroughStmt => some .fallthroughWord
  | .intLit => some .int
  | .floatLit => some .float
  | .imaginaryLit => some .imaginary
  | .runeLit => some .char
  | .stringLit => some .string
  | .varDecl => some .varWord
  | .constDecl => some .constWord
  | .typeDecl => some .typeWord
  | .importDecl => some .importWord
  | _ => none

/-- The object that an identifier declares or refers to. -/
def symbol? (forest : Forest) (arena : Arena) (id : NodeId) : Option Symbol := do
  let package ← forest.package
  if (arena.kind id).isIdentifier then
    package.symbols.objectAt? (arena.span id).start
  else
    none

/-- The recorded type of the expression with the span of a node. -/
def recordedType? (package : Package) (id : NodeId) : Explore (Option String) := do
  let session ← get
  let indexed : IndexedTable := ⟨package.symbols, session.typeIndex⟩
  let (type, indexed) := indexed.typeOf (session.arena.span id)
  set { session with typeIndex := indexed.typeIndex }
  return type

/-- The type of an identifier: the recorded one, or else that of its object. -/
def identType? (forest : Forest) (package : Package) (id : NodeId) : Explore (Option String) := do
  match ← recordedType? package id with
  | some type => return some type
  | none => return (forest.symbol? (← get).arena id).bind Symbol.type

/-- The type of a node: the recorded one, that of the object of an identifier, or that of the plain
name that a declaration gives as its type. -/
def valueType? (forest : Forest) (id : NodeId) : Explore (Option String) := do
  match forest.package with
  | none => return none
  | some package =>
    match ← recordedType? package id with
    | some type => return some type
    | none =>
      let arena := (← get).arena
      match arena.kind id with
      | .identifier | .typeIdentifier | .fieldIdentifier | .packageIdentifier | .labelName =>
        return (forest.symbol? arena id).bind Symbol.type
      | .parameter | .field | .varSpec | .constSpec | .typeSpec | .compositeLit
      | .typeAssertExpr =>
        match ← forest.childInField? "type" id with
        | none => return none
        | some type =>
          if ((← get).arena.kind type).isIdentifier then
            forest.identType? package type
          else
            return none
      | _ => return none

end SyntaxAtlas.Forest
