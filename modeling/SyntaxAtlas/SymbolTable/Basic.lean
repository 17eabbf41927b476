import SyntaxAtlas.SortedMap
import SyntaxAtlas.Span
/-!
Symbol tables.

The symbol table of a package records, by position, which object an identifier declares and which
object it refers to, the scopes of the package, and the types of expressions. All positions are
package positions.

The first question about a type builds an index from spans to places in the list of types, and
later questions use it. Recording a type drops the index; the other changes leave it alone, because
they do not touch the types.
-/
namespace SyntaxAtlas

/-- What sort of object a name stands for. -/
inductive SymbolKind where
  | package
  | const
  | type
  | var
  | func
  | label
  | builtin
  | nil
deriving DecidableEq, Repr, Inhabited

/-- Every sort of object. -/
def SymbolKind.all : List SymbolKind :=
  [.package, .const, .type, .var, .func, .label, .builtin, .nil]

/-- The name of a sort of object. -/
def SymbolKind.name : SymbolKind → String
  | .package => "package"
  | .const => "const"
  | .type => "type"
  | .var => "var"
  | .func => "func"
  | .label => "label"
  | .builtin => "builtin"
  | .nil => "nil"

/-- The sort of object with a given name. -/
def SymbolKind.ofName? (name : String) : Option SymbolKind :=
  all.find? fun kind => kind.name == name

/-- An object that a name stands for. -/
structure Symbol where
  /-- The name. -/
  name : String
  /-- The sort of the object. -/
  kind : SymbolKind
  /-- The type of the object, when it is known. -/
  type : Option String := none
deriving DecidableEq, Repr, Inhabited

/-- A region in which names are visible. -/
structure Scope where
  /-- The span of the syntax that opens the scope. -/
  owner : Span
  /-- The positions at which names of the scope are visible. -/
  range : Span
  /-- The names that the scope declares. -/
  names : List String := []
  /-- The number of the scope around this one. -/
  parent : Option Nat := none
deriving DecidableEq, Repr, Inhabited

namespace Scope

/-- A position inside the scope. -/
def Contains (scope : Scope) (pos : Nat) : Prop :=
  scope.range.Contains pos

instance (scope : Scope) (pos : Nat) : Decidable (scope.Contains pos) :=
  inferInstanceAs (Decidable (scope.range.Contains pos))

/-- The scope declares a name. -/
def declares (scope : Scope) (name : String) : Bool :=
  scope.names.contains name

end Scope

/-- The type of the expression with a span. -/
structure TypedSpan where
  /-- The span of the expression. -/
  span : Span
  /-- Its type. -/
  type : String
deriving DecidableEq, Repr, Inhabited

/-- What is known about the names of one package. -/
structure SymbolTable where
  /-- The objects declared at a position. -/
  defs : SortedMap Nat Symbol := .empty
  /-- The objects referred to at a position. -/
  uses : SortedMap Nat Symbol := .empty
  /-- The scopes, known by their place. -/
  scopes : List Scope := []
  /-- The types of expressions, in the order in which they were recorded. -/
  types : List TypedSpan := []
deriving DecidableEq, Repr

namespace SymbolTable

/-- A table that knows nothing. -/
def empty : SymbolTable := {}

instance : Inhabited SymbolTable := ⟨empty⟩

/-- The table with an object declared at a position. -/
def define (table : SymbolTable) (pos : Nat) (symbol : Symbol) : SymbolTable :=
  { table with defs := table.defs.insert pos symbol }

/-- The table with an object referred to at a position. -/
def refer (table : SymbolTable) (pos : Nat) (symbol : Symbol) : SymbolTable :=
  { table with uses := table.uses.insert pos symbol }

/-- The table with one more scope. -/
def addScope (table : SymbolTable) (scope : Scope) : SymbolTable :=
  { table with scopes := table.scopes ++ [scope] }

/-- The table with the type of one more expression. -/
def recordType (table : SymbolTable) (span : Span) (type : String) : SymbolTable :=
  { table with types := table.types ++ [⟨span, type⟩] }

/-- The object that a position declares or, failing that, refers to. -/
def objectAt? (table : SymbolTable) (pos : Nat) : Option Symbol :=
  (table.defs.get? pos).or (table.uses.get? pos)

/-- The better of two scopes: the one that starts later, the earlier listed one on a tie. -/
def laterStart (best : Option Scope) (scope : Scope) : Option Scope :=
  match best with
  | some held => if scope.range.start ≤ held.range.start then some held else some scope
  | none => some scope

/-- Of the scopes that contain a position, the one that starts last; the first listed on a tie. -/
def innermostScope? (table : SymbolTable) (pos : Nat) : Option Scope :=
  (table.scopes.filter fun scope => decide (scope.Contains pos)).foldl laterStart none

/-- A table without declarations, uses and scopes. Types do not count. -/
def isEmpty (table : SymbolTable) : Bool :=
  table.defs.isEmpty && table.uses.isEmpty && table.scopes.isEmpty

end SymbolTable

/-- For every span with a recorded type, the place of its first entry. -/
abbrev TypeIndex := List (Span × Nat)

/-- The index with one more entry, unless its span is already there. -/
def TypeIndex.insertNew (index : TypeIndex) (span : Span) (place : Nat) : TypeIndex :=
  if (index.lookup span).isSome then index else index ++ [(span, place)]

/-- The index of a list of types. -/
def TypeIndex.build (types : List TypedSpan) : TypeIndex :=
  types.zipIdx.foldl (fun index (entry, place) => insertNew index entry.span place) []

/-- A symbol table together with its index of types, once that was built. -/
structure IndexedTable where
  /-- The table. -/
  table : SymbolTable := .empty
  /-- The index of its types. -/
  typeIndex : Option TypeIndex := none
deriving Repr, Inhabited

namespace IndexedTable

/-- The table with an object declared at a position. -/
def define (indexed : IndexedTable) (pos : Nat) (symbol : Symbol) : IndexedTable :=
  { indexed with table := indexed.table.define pos symbol }

/-- The table with an object referred to at a position. -/
def refer (indexed : IndexedTable) (pos : Nat) (symbol : Symbol) : IndexedTable :=
  { indexed with table := indexed.table.refer pos symbol }

/-- The table with one more scope. -/
def addScope (indexed : IndexedTable) (scope : Scope) : IndexedTable :=
  { indexed with table := indexed.table.addScope scope }

/-- The table with the type of one more expression, its index dropped. -/
def recordType (indexed : IndexedTable) (span : Span) (type : String) : IndexedTable :=
  { table := indexed.table.recordType span type, typeIndex := none }

/-- The index of the types, taken as it is or built. -/
def theIndex (indexed : IndexedTable) : TypeIndex :=
  indexed.typeIndex.getD (.build indexed.table.types)

/-- The type of the expression with exactly a given span, and the table with its index built. -/
def typeOf (indexed : IndexedTable) (span : Span) : Option String × IndexedTable :=
  let index := indexed.theIndex
  let type := do
    let place ← index.lookup span
    let entry ← indexed.table.types[place]?
    return entry.type
  (type, { indexed with typeIndex := some index })

end IndexedTable

end SyntaxAtlas
