import SyntaxAtlas.Snapshot.Basic
/-!
Concrete syntax trees.

A concrete tree is what a parser delivers: every token has a node. Its snapshot keeps the root and
the nodes that are reached from it through named nodes that are not missing; of the tokens in
between, only the operator of a node is kept, as a property of its element.
-/
namespace SyntaxAtlas

/-- What a parser says about one node. -/
structure ConcreteLabel where
  /-- The grammar kind; for a token, its text. -/
  kind : String
  /-- The node has a rule of its own in the grammar. -/
  named : Bool
  /-- The node holds text that the grammar could not place. -/
  isError : Bool
  /-- The parser supposed the node, although the text does not have it. -/
  isMissing : Bool
  /-- The bytes that the node covers. -/
  span : Span
  /-- The role of the node in its parent. -/
  field : Option String
deriving DecidableEq, Repr, Inhabited

/-- A concrete syntax tree. -/
inductive ConcreteTree where
  | node (label : ConcreteLabel) (children : List ConcreteTree)
deriving Repr, Inhabited

/-- A place where the text does not follow the grammar. -/
structure SyntaxError where
  /-- The bytes at fault. -/
  span : Span
  /-- Row and column of the first byte. -/
  first : Nat × Nat
  /-- Row and column behind the last byte. -/
  last : Nat × Nat
deriving DecidableEq, Repr, Inhabited

/-- The report of a place where the text does not follow the grammar. -/
def SyntaxError.message (error : SyntaxError) : String :=
  "syntax error detected at byte " ++ error.span.render

namespace ConcreteTree

/-- The label of the top node. -/
def label : ConcreteTree → ConcreteLabel
  | .node label _ => label

/-- The trees below the top node. -/
def children : ConcreteTree → List ConcreteTree
  | .node _ children => children

/-- A row put on top of the trees that follow it: the deeper ones at the front become its
children. -/
def plant (row : Nat × ConcreteLabel) (trees : List (Nat × ConcreteTree)) :
    List (Nat × ConcreteTree) :=
  let deeper := fun tree : Nat × ConcreteTree => decide (row.1 < tree.1)
  (row.1, .node row.2 ((trees.takeWhile deeper).map Prod.snd)) :: trees.dropWhile deeper

/-- The tree that is listed by its nodes with their depths, parents before children. -/
def ofRows? (rows : List (Nat × ConcreteLabel)) : Option ConcreteTree :=
  match rows.foldr plant [] with
  | [(_, tree)] => some tree
  | _ => none

mutual

/-- The labels of a tree, parents before children. -/
def labels : ConcreteTree → List ConcreteLabel
  | .node label children => label :: labelsOfAll children

/-- The labels of several trees, one tree after the other. -/
def labelsOfAll : List ConcreteTree → List ConcreteLabel
  | [] => []
  | tree :: rest => tree.labels ++ labelsOfAll rest

end

/-- The operator of a node: its child in the role of an operator; in a range clause also the sign
between the two sides. -/
def operator? (tree : ConcreteTree) : Option String :=
  let labels := tree.children.map label
  match labels.find? (·.field == some "operator") with
  | some label => some label.kind
  | none =>
    if tree.label.kind = "range_clause" then
      (labels.find? fun label => !label.named && (label.kind == ":=" || label.kind == "=")).map
        ConcreteLabel.kind
    else
      none

/-- The element for a node in a given role. -/
def element (tree : ConcreteTree) (field : Option String) : Element where
  kind := tree.label.kind
  span := tree.label.span
  field := field
  operator := tree.operator?

/-- A node that a snapshot keeps. -/
def isKept (tree : ConcreteTree) : Bool :=
  tree.label.named && !tree.label.isMissing

mutual

/-- The snapshot with a tree appended below a parent. A tree whose top node is not kept is left
out with everything below it. -/
def append (parent : ElementId) (snapshot : Snapshot) : ConcreteTree → Snapshot
  | .node label children =>
    let tree := ConcreteTree.node label children
    if tree.isKept then
      let (snapshot, id) := snapshot.pushChild parent (tree.element label.field)
      appendAll id snapshot children
    else
      snapshot

/-- The snapshot with several trees appended below a parent. -/
def appendAll (parent : ElementId) (snapshot : Snapshot) : List ConcreteTree → Snapshot
  | [] => snapshot
  | tree :: rest => appendAll parent (append parent snapshot tree) rest

end

/-- The snapshot of a tree. -/
def toSnapshot (tree : ConcreteTree) : Snapshot :=
  appendAll 0 (.ofRoot (tree.element none)) tree.children

/-- The places where a text does not follow the grammar, parents before children. -/
def errors (tree : ConcreteTree) (text : List Char) : List SyntaxError :=
  (tree.labels.filter fun label => label.isError || label.isMissing).map fun label =>
    ⟨label.span, Text.point label.span.start text, Text.point label.span.stop text⟩

/-- The first named child of a given kind. -/
def namedChild? (tree : ConcreteTree) (kind : String) : Option ConcreteTree :=
  tree.children.find? fun child => child.label.named && child.label.kind == kind

/-- The name in the package clause of a unit, read from its text. -/
def packageName? (tree : ConcreteTree) (text : List Char) : Option (List Char) := do
  let clause ← tree.namedChild? "package_clause"
  let ident ← clause.namedChild? "package_identifier"
  Text.slice? ident.label.span.start ident.label.span.stop text

end ConcreteTree

end SyntaxAtlas
