import SyntaxAtlas.Json.Basic
import SyntaxAtlas.Json.Writer
import SyntaxAtlas.Span
import SyntaxAtlas.Text.Numbers
/-!
Taking records out of JSON values.

A record is an object with named members, or an array that lists its fields in order. In an object
a field is given at most once and unknown members are passed over; in an array trailing fields may
be left out, and nothing may follow the last one. A field that is left out has no slot value. Spans
are written and read as records.
-/
namespace SyntaxAtlas.Json

/-- The largest element number that a document may mention. -/
def maxElement : Nat := 4294967295

/-- A text value. -/
def text? : Json → Option String
  | .str lexeme => (unescape? lexeme).map String.ofList
  | _ => none

/-- A natural number up to a bound, written in plain digits. -/
def nat? (bound : Nat) : Json → Option Nat
  | .num lexeme => (Text.ofDecimal? lexeme).filter (· ≤ bound)
  | _ => none

/-- An array, each item decoded on its own. -/
def list? {α : Type} (item? : Json → Option α) : Json → Option (List α)
  | .arr items => items.mapM item?
  | _ => none

/-- A value that may be null instead. -/
def nullable? {α : Type} (value? : Json → Option α) : Json → Option (Option α)
  | .null => some none
  | value => (value? value).map some

/-- The members of an object with their keys as texts. Every key has to stand for a text. -/
def textMembers? : Json → Option (List (String × Json))
  | .obj members => members.mapM fun (key, value) =>
      (unescape? key).map fun name => (String.ofList name, value)
  | _ => none

/-- The slot of one field among named members. -/
def slot? (members : List (String × Json)) (name : String) : Option (Option Json) :=
  match members.filter (·.1 = name) with
  | [] => some none
  | [(_, value)] => some (some value)
  | _ => none

/-- The slots of a record, one for every field name. -/
def slots? (names : List String) : Json → Option (List (Option Json))
  | .arr items =>
    if items.length ≤ names.length then
      some (items.map some ++ List.replicate (names.length - items.length) none)
    else
      none
  | value => do
    let members ← textMembers? value
    names.mapM (slot? members)

/-- A field that has to be there. -/
def required? {α : Type} (value? : Json → Option α) (slot : Option Json) : Option α :=
  slot.bind value?

/-- A field with a value for the case that it is left out. -/
def optional? {α : Type} (fallback : α) (value? : Json → Option α) : Option Json → Option α
  | none => some fallback
  | some value => value? value

end SyntaxAtlas.Json

namespace SyntaxAtlas.Span

/-- A span as a record of its two ends. -/
def toJson (span : Span) : Json :=
  .record [("start", .ofNat span.start), ("end", .ofNat span.stop)]

/-- The span that a record describes. The order of its ends is not checked. -/
def ofJson? (value : Json) : Option Span := do
  match ← value.slots? ["start", "end"] with
  | [start, stop] =>
    return ⟨← Json.required? (Json.nat? maxPosition) start,
      ← Json.required? (Json.nat? maxPosition) stop⟩
  | _ => none

end SyntaxAtlas.Span
