import SyntaxAtlas.Graph.PatternHits
import SyntaxAtlas.Settings
import SyntaxAtlas.SymbolTable.Json
/-!
Loading files and directories.

A file is loaded on its own, without a package. The files of a directory are grouped by the names
in their package clauses, and every package becomes a graph with the symbol table registered for
it.
-/
namespace SyntaxAtlas

/-- A unit that is ready to be placed. -/
structure LoadedUnit where
  /-- The name under which it is shown. -/
  name : String
  /-- Its text and syntax. -/
  content : StoredFile
deriving Inhabited

/-- A graph with the answers of the pattern engine for its units. -/
structure LoadedGraph where
  /-- The graph. -/
  graph : Graph
  /-- The answers of the pattern engine. -/
  engine : PatternEngine

/-- Why something cannot be loaded. -/
inductive LoadError where
  /-- A file cannot be read. -/
  | unreadable (path : String) (reason : FileError)
  /-- A directory cannot be listed. -/
  | unlistable (path : String) (error : ListingError)
  /-- A file has no package clause. -/
  | missingPackageClause (name : String)
  /-- The units do not make a forest. -/
  | graph (error : GraphError)
deriving DecidableEq, Repr

namespace LoadError

/-- The report of an error. -/
def message : LoadError → String
  | .unreadable path reason => "I/O error reading " ++ path ++ ": " ++ reason.message
  | .unlistable path error => "failed to walk " ++ path ++ ": " ++ error.message
  | .missingPackageClause name => name ++ " has no package clause"
  | .graph error => error.message

/-- What caused the error, the nearest cause first. -/
def causes : LoadError → List String
  | .unreadable _ reason => [reason.message]
  | .unlistable _ error => [error.message, error.reason.message]
  | .missingPackageClause _ | .graph _ => []

end LoadError

/-- Why symbol tables cannot be read. -/
inductive TablesError where
  /-- The file cannot be read. -/
  | unreadable (path : String) (reason : FileError)
  /-- The document is not what it should be. -/
  | malformed
deriving DecidableEq, Repr

namespace TablesError

/-- The report of an error. What the reader found wrong in a malformed document is not part of
it. -/
def message : TablesError → String
  | .unreadable path reason => "failed to read symbol table " ++ path ++ ": " ++ reason.message
  | .malformed => "invalid symbol table JSON: "

end TablesError

/-- The document in a file, decoded. -/
def readTables {α : Type} (files : FileTree) (path : String) (decode? : List Char → Option α) :
    Except TablesError α :=
  match files.read path with
  | .error reason => .error (.unreadable path reason)
  | .ok content =>
    match decode? content.text.toList with
    | none => .error .malformed
    | some tables => .ok tables

/-- How files are chosen, and the symbol tables of packages. -/
structure Loader where
  /-- Which files are loaded. -/
  settings : LoadSettings := {}
  /-- The symbol tables by package name. -/
  tables : PackageTables := .empty

namespace Loader

/-- The answers of the pattern engine for units in order. A pattern without an answer matches
nowhere. -/
def engineOf (units : List LoadedUnit) : PatternEngine := fun number pattern =>
  match units[number]? with
  | none => .ok []
  | some unit => (unit.content.answers.lookup pattern).getD (.ok [])

/-- The graph of a unit on its own. -/
def loadUnit (unit : LoadedUnit) : Except LoadError LoadedGraph :=
  match Forest.ofFile ⟨unit.name, 0, unit.content.text⟩ unit.content.snapshot with
  | .error error => .error (.graph error)
  | .ok forest => .ok ⟨.ofForest forest, engineOf [unit]⟩

/-- The symbol table registered for a package, or the empty one. -/
def tableFor (loader : Loader) (package : String) : SymbolTable :=
  (loader.tables.get? package).getD .empty

/-- The graph of the units of a package. -/
def loadPackage (loader : Loader) (package : String) (units : List LoadedUnit) :
    Except LoadError LoadedGraph :=
  let sources := SourceMap.ofTexts (units.map fun unit => (unit.name, unit.content.text))
  let snapshots := units.map fun unit => unit.content.snapshot
  match Forest.ofPackage ⟨package, loader.tableFor package⟩ sources snapshots with
  | .error error => .error (.graph error)
  | .ok forest => .ok ⟨.ofForest forest, engineOf units⟩

/-- The unit in a file. -/
def readUnit (files : FileTree) (path : String) : Except LoadError LoadedUnit :=
  match files.read path with
  | .error reason => .error (.unreadable path reason)
  | .ok content => .ok ⟨path, content⟩

/-- The graph of a file on its own. -/
def loadFile (files : FileTree) (path : String) : Except LoadError LoadedGraph := do
  loadUnit (← readUnit files path)

/-- The paths of the files that are loaded from a directory. -/
def discoverFiles (loader : Loader) (files : FileTree) (directory : String) :
    Except LoadError (List String) :=
  match files.listFiles loader.settings.accepts loader.settings.recursive directory with
  | .error error => .error (.unlistable directory error)
  | .ok paths => .ok paths

/-- The unit in a file with the name in its package clause. -/
def readPackaged (files : FileTree) (path : String) : Except LoadError (String × LoadedUnit) := do
  let unit ← readUnit files path
  match unit.content.snapshot.packageName? unit.content.text.toList with
  | none => .error (.missingPackageClause unit.name)
  | some package => .ok (String.ofList package, unit)

/-- The units by package, each package with its units in order. -/
def groupByPackage (units : List (String × LoadedUnit)) : SortedMap String (List LoadedUnit) :=
  units.foldl
    (fun packages (package, unit) =>
      packages.insert package ((packages.get? package).getD [] ++ [unit]))
    .empty

/-- The graphs of the packages that files make up, by package name. -/
def loadPaths (loader : Loader) (files : FileTree) (paths : List String) :
    Except LoadError (List LoadedGraph) := do
  let units ← paths.mapM (readPackaged files)
  (groupByPackage units).entries.mapM fun (package, units) => loader.loadPackage package units

/-- The graphs of the packages in a directory, by package name. -/
def loadDirectory (loader : Loader) (files : FileTree) (directory : String) :
    Except LoadError (List LoadedGraph) := do
  loader.loadPaths files (← loader.discoverFiles files directory)

end Loader

end SyntaxAtlas
