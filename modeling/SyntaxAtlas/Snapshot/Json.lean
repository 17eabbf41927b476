import SyntaxAtlas.Json.Reader
import SyntaxAtlas.Json.Record
import SyntaxAtlas.Snapshot.Basic
/-!
Snapshots in JSON documents.

Members that are missing or empty are left out when a snapshot is written, and come back as
missing or empty when it is read.
-/
namespace SyntaxAtlas

namespace Element

/-- An element as a record. -/
def toJson (element : Element) : Json :=
  .record <|
    [("kind", .ofText element.kind), ("span", element.span.toJson)] ++
    (element.field.toList.map fun field => ("field", .ofText field)) ++
    (element.operator.toList.map fun operator => ("operator", .ofText operator)) ++
    (if element.children.isEmpty then []
      else [("children", .arr (element.children.map .ofNat))])

/-- The element that a record describes. -/
def ofJson? (value : Json) : Option Element := do
  match ← value.slots? ["kind", "span", "field", "operator", "children"] with
  | [kind, span, field, operator, children] =>
    return {
      kind := ← Json.required? Json.text? kind
      span := ← Json.required? Span.ofJson? span
      field := ← Json.optional? none (Json.nullable? Json.text?) field
      operator := ← Json.optional? none (Json.nullable? Json.text?) operator
      children := ← Json.optional? [] (Json.list? (Json.nat? Json.maxElement)) children }
  | _ => none

end Element

namespace Snapshot

/-- A snapshot as a record of its elements. -/
def toJson (snapshot : Snapshot) : Json :=
  .record [("elements", .arr (snapshot.elements.toList.map Element.toJson))]

/-- The snapshot that a record describes. -/
def ofJson? (value : Json) : Option Snapshot := do
  match ← value.slots? ["elements"] with
  | [elements] => return ⟨(← Json.required? (Json.list? Element.ofJson?) elements).toArray⟩
  | _ => none

/-- The document of a snapshot, without blanks. -/
def write (snapshot : Snapshot) : List Char :=
  snapshot.toJson.compact

/-- The snapshot in a document. -/
def read? (document : List Char) : Option Snapshot :=
  (Json.read? document).bind ofJson?

end Snapshot

end SyntaxAtlas
