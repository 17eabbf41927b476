import SyntaxAtlas.Json.Reader
import SyntaxAtlas.Json.Record
import SyntaxAtlas.SymbolTable.Basic
/-!
Symbol tables in JSON documents.

A table is written with all of its four members, and positions are keys in plain digits. A reader
accepts a table in which members are left out. The tables of several packages form one object with
a member for each package.
-/
namespace SyntaxAtlas

namespace SymbolKind

/-- A sort of object, given by its name alone or as the only member of an object. -/
def ofJson? : Json → Option SymbolKind
  | .obj [(key, .null)] => do ofName? (String.ofList (← Json.unescape? key))
  | value => do ofName? (← value.text?)

end SymbolKind

namespace Symbol

/-- A symbol as a record. -/
def toJson (symbol : Symbol) : Json :=
  .record <|
    [("name", .ofText symbol.name), ("kind", .ofText symbol.kind.name)] ++
    (symbol.type.toList.map fun type => ("type", .ofText type))

/-- The symbol that a record describes. -/
def ofJson? (value : Json) : Option Symbol := do
  match ← value.slots? ["name", "kind", "type"] with
  | [name, kind, type] =>
    return {
      name := ← Json.required? Json.text? name
      kind := ← Json.required? SymbolKind.ofJson? kind
      type := ← Json.optional? none (Json.nullable? Json.text?) type }
  | _ => none

end Symbol

namespace Scope

/-- A scope as a record. -/
def toJson (scope : Scope) : Json :=
  .record <|
    [("owner", scope.owner.toJson), ("range", scope.range.toJson)] ++
    (if scope.names.isEmpty then [] else [("names", .arr (scope.names.map .ofText))]) ++
    (scope.parent.toList.map fun parent => ("parent", .ofNat parent))

/-- The scope that a record describes. -/
def ofJson? (value : Json) : Option Scope := do
  match ← value.slots? ["owner", "range", "names", "parent"] with
  | [owner, range, names, parent] =>
    return {
      owner := ← Json.required? Span.ofJson? owner
      range := ← Json.required? Span.ofJson? range
      names := ← Json.optional? [] (Json.list? Json.text?) names
      parent := ← Json.optional? none (Json.nullable? (Json.nat? maxPosition)) parent }
  | _ => none

end Scope

namespace TypedSpan

/-- The type of an expression as a record. -/
def toJson (entry : TypedSpan) : Json :=
  .record [("span", entry.span.toJson), ("type", .ofText entry.type)]

/-- The type of an expression that a record describes. -/
def ofJson? (value : Json) : Option TypedSpan := do
  match ← value.slots? ["span", "type"] with
  | [span, type] =>
    return ⟨← Json.required? Span.ofJson? span, ← Json.required? Json.text? type⟩
  | _ => none

end TypedSpan

namespace SymbolTable

/-- Symbols by position as an object. -/
def symbolsToJson (symbols : SortedMap Nat Symbol) : Json :=
  .obj (symbols.entries.map fun (pos, symbol) => (Text.decimal pos, symbol.toJson))

/-- Symbols by position. A key is a position in plain digits; of equal keys the last one counts. -/
def symbolsOfJson? : Json → Option (SortedMap Nat Symbol)
  | .obj members => do
    let entries ← members.mapM fun (key, value) => do
      let pos ← (Text.ofDecimal? key).filter (· ≤ maxPosition)
      return (pos, ← Symbol.ofJson? value)
    return .ofEntries entries
  | _ => none

/-- A table as a record. -/
def toJson (table : SymbolTable) : Json :=
  .record [
    ("defs", symbolsToJson table.defs),
    ("uses", symbolsToJson table.uses),
    ("scopes", .arr (table.scopes.map Scope.toJson)),
    ("types", .arr (table.types.map TypedSpan.toJson))]

/-- The table that a record describes. -/
def ofJson? (value : Json) : Option SymbolTable := do
  match ← value.slots? ["defs", "uses", "scopes", "types"] with
  | [defs, uses, scopes, types] =>
    return {
      defs := ← Json.optional? .empty symbolsOfJson? defs
      uses := ← Json.optional? .empty symbolsOfJson? uses
      scopes := ← Json.optional? [] (Json.list? Scope.ofJson?) scopes
      types := ← Json.optional? [] (Json.list? TypedSpan.ofJson?) types }
  | _ => none

/-- The document of a table, a line for every item. -/
def write (table : SymbolTable) : List Char :=
  table.toJson.pretty

/-- The table in a document. -/
def read? (document : List Char) : Option SymbolTable :=
  (Json.read? document).bind ofJson?

end SymbolTable

/-- The symbol tables of several packages, by package name. -/
abbrev PackageTables := SortedMap String SymbolTable

namespace PackageTables

/-- The tables that an object describes. Of equal package names the last one counts. -/
def ofJson? (value : Json) : Option PackageTables := do
  let members ← value.textMembers?
  let entries ← members.mapM fun (name, value) => do
    return (name, ← SymbolTable.ofJson? value)
  return .ofEntries entries

/-- The tables in a document. -/
def read? (document : List Char) : Option PackageTables :=
  (Json.read? document).bind ofJson?

end PackageTables

end SyntaxAtlas
