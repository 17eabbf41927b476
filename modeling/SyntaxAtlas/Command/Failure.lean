import SyntaxAtlas.Loader
/-!
Failures of commands.

A failure is a message with its chain of causes. A single cause is indented; several causes are
numbered.
-/
namespace SyntaxAtlas.Command

/-- Why a command fails. -/
structure Failure where
  /-- What failed. -/
  message : String
  /-- Why, the nearest cause first. -/
  causes : List String := []
deriving DecidableEq, Repr, Inhabited

namespace Failure

/-- A failure seen as the cause of another one. -/
def within (failure : Failure) (message : String) : Failure :=
  ⟨message, failure.message :: failure.causes⟩

/-- A failure to load. -/
def ofLoad (error : LoadError) : Failure :=
  ⟨error.message, error.causes⟩

/-- What a reader of a document says is wrong. Its wording belongs to the reader and is left out. -/
def readerDetail : String := ""

/-- A failure of settings. -/
def ofSettings (error : SettingsError) : Failure :=
  match error with
  | .unreadable _ reason => ⟨error.message, [reason.message]⟩
  | .malformed _ => ⟨error.message, [readerDetail]⟩
  | .unusable _ issues => ⟨error.message, [SettingsError.issueLines issues]⟩

/-- A failure of symbol tables. -/
def ofTables (error : TablesError) : Failure :=
  match error with
  | .unreadable _ reason => ⟨error.message, [reason.message]⟩
  | .malformed => ⟨error.message, [readerDetail]⟩

/-- A text with an indentation at the start of each line but the first. -/
def indentTail (indent : String) (text : String) : String :=
  String.ofList (text.toList.flatMap fun c => if c = '\n' then c :: indent.toList else [c])

/-- A number with blanks before it up to a width of five. -/
def padNumber (n : Nat) : String :=
  let digits := toString n
  String.ofList (List.replicate (5 - digits.length) ' ') ++ digits

/-- The causes, one below the other. -/
def causeLines : List String → List String
  | [cause] => ["    " ++ indentTail "    " cause]
  | causes => causes.zipIdx.map fun (cause, n) =>
      padNumber n ++ ": " ++ indentTail "       " cause

/-- The report of a failure. -/
def report (failure : Failure) : String :=
  let lines :=
    match failure.causes with
    | [] => []
    | causes => ["", "Caused by:"] ++ causeLines causes
  String.intercalate "\n" (("Error: " ++ failure.message) :: lines) ++ "\n"

end Failure

end SyntaxAtlas.Command
