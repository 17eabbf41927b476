import SyntaxAtlas.FileTree
import SyntaxAtlas.Json.Reader
import SyntaxAtlas.Json.Record
import SyntaxAtlas.Json.Writer
import SyntaxAtlas.Pattern
import SyntaxAtlas.Snapshot.Json
/-!
Trees of files in JSON documents, with matches of patterns.

A document lists files, each with its path and text and with what the parser and the pattern
engine say about the text. A path without a text is a directory. A match is an array of the two ends
of its span, its grammar kind and an object with its captures. The answer for a pattern is the array
of its matches, or an object with the reason why the engine refuses the pattern.
-/
namespace SyntaxAtlas

namespace PatternMatch

/-- The texts captured by variables, as an object. -/
def capturesToJson (captures : List (String × String)) : Json :=
  .record (captures.map fun (name, text) => (name, .ofText text))

/-- The texts captured by variables. -/
def capturesOfJson? (value : Json) : Option (List (String × String)) := do
  (← value.textMembers?).mapM fun (name, text) => do
    return (name, ← text.text?)

/-- The match that an array describes. -/
def ofJson? : Json → Option PatternMatch
  | .arr [start, stop, kind, captures] => do
    return {
      span := ⟨← start.nat? maxPosition, ← stop.nat? maxPosition⟩
      kind := ← kind.text?
      captures := ← capturesOfJson? captures }
  | _ => none

end PatternMatch

namespace PatternAnswer

/-- The answer that a document gives. -/
def ofJson? (value : Json) : Option PatternAnswer :=
  match value with
  | .arr items => (items.mapM PatternMatch.ofJson?).map Except.ok
  | value => do
    let members ← value.textMembers?
    let reason ← members.lookup "error"
    return .error (← reason.text?)

/-- The answers for several patterns, given as an object. -/
def allOfJson? (value : Json) : Option (List (String × PatternAnswer)) := do
  (← value.textMembers?).mapM fun (pattern, answer) => do
    return (pattern, ← ofJson? answer)

end PatternAnswer

namespace StoredFile

/-- The content of a file with a given text, the other parts taken from named members. -/
def ofMembers? (text : String) (members : List (String × Json)) : Option StoredFile := do
  return {
    text := text
    snapshot := ← Json.optional? ⟨#[]⟩ Snapshot.ofJson? (members.lookup "tree")
    answers := ← Json.optional? [] PatternAnswer.allOfJson? (members.lookup "matches") }

end StoredFile

namespace FileTree

/-- One file of a document with its path. -/
def entryOfJson? (value : Json) : Option (String × Option StoredFile) := do
  let members ← value.textMembers?
  let path ← (← members.lookup "path").text?
  match members.lookup "text" with
  | none => return (path, none)
  | some text => return (path, some (← StoredFile.ofMembers? (← text.text?) members))

/-- The tree of the files that an array lists. -/
def ofJson? (value : Json) : Option FileTree :=
  (Json.list? entryOfJson? value).map ofFiles

/-- The tree of the files in a document. -/
def ofDocument? (document : List Char) : Option FileTree :=
  (Json.read? document).bind ofJson?

end FileTree

end SyntaxAtlas
