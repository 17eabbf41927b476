import SyntaxAtlas.FileTree
import SyntaxAtlas.Text.Characters
import SyntaxAtlas.Toml.Reader
/-!
Settings: which files to load, and where the symbols are.

Settings come from a TOML file with two keys. Every key is known and every value has its type, or
the file is refused; a value that makes no sense is reported as an issue, all issues together.
-/
namespace SyntaxAtlas

/-- Which files of a directory are loaded. -/
structure LoadSettings where
  /-- Files whose names end in `_test` before the extension are loaded as well. -/
  includeTests : Bool := false
  /-- The extensions of files that are loaded, without their dots. -/
  extensions : List String := ["go"]
  /-- Directories below the directory are searched as well. -/
  recursive : Bool := false
deriving DecidableEq, Repr, Inhabited

/-- Whether a file with a given name is loaded. -/
def LoadSettings.accepts (settings : LoadSettings) (fileName : String) : Bool :=
  match Text.splitLast? '.' fileName.toList with
  | none => false
  | some (stem, extension) =>
    settings.extensions.contains (String.ofList extension) &&
      (settings.includeTests || !"_test".toList.isSuffixOf stem)

/-- All settings. -/
structure Settings where
  /-- Which files are loaded. -/
  load : LoadSettings := {}
  /-- The file with the symbol tables. -/
  symbols : Option String := none
deriving DecidableEq, Repr, Inhabited

/-- A setting that makes no sense. -/
inductive SettingsIssue where
  /-- No file could ever be loaded. -/
  | noExtensions
  /-- An extension has nothing but blanks. -/
  | emptyExtension (extension : String)
  /-- An extension starts with a dot. -/
  | dottedExtension (extension : String)
  /-- The path of the symbols is empty. -/
  | emptySymbolsPath
deriving DecidableEq, Repr

/-- The report of an issue. -/
def SettingsIssue.message : SettingsIssue → String
  | .noExtensions => "load.extensions must not be empty"
  | .emptyExtension extension => "invalid extension '" ++ extension ++ "': extension is empty"
  | .dottedExtension extension =>
    "invalid extension '" ++ extension ++ "': leave out the leading dot"
  | .emptySymbolsPath => "symbols path is empty"

/-- The issue with an extension. -/
def extensionIssue? (extension : String) : Option SettingsIssue :=
  if Text.isBlankText extension.toList then
    some (.emptyExtension extension)
  else if extension.toList.head? == some '.' then
    some (.dottedExtension extension)
  else
    none

/-- Why settings cannot be used. -/
inductive SettingsError where
  /-- The file cannot be read. -/
  | unreadable (path : String) (reason : FileError)
  /-- The text is not TOML, or has unknown keys or values of the wrong type. -/
  | malformed (path : Option String)
  /-- There are issues. -/
  | unusable (path : Option String) (issues : List SettingsIssue)
deriving DecidableEq, Repr

namespace SettingsError

/-- Issues, one on a line. -/
def issueLines (issues : List SettingsIssue) : String :=
  String.intercalate "\n" (issues.map SettingsIssue.message)

/-- The mention of a path that may be unknown. -/
def mention (path : Option String) : String :=
  (path.map (" in " ++ ·)).getD ""

/-- The report of an error. What the reader found wrong in a malformed text is not part of it. -/
def message : SettingsError → String
  | .unreadable path reason =>
    "cannot read loader and symbol settings from " ++ path ++ ": " ++ reason.message
  | .malformed path => "loader and symbol settings" ++ mention path ++ " are not valid TOML: "
  | .unusable path issues =>
    "unusable loader settings" ++ mention path ++ ": " ++ issueLines issues

/-- The error with the path of its file. -/
def withPath (path : String) : SettingsError → SettingsError
  | .malformed none => .malformed (some path)
  | .unusable none issues => .unusable (some path) issues
  | error => error

end SettingsError

namespace LoadSettings

/-- A truth value. -/
def boolean? : Toml.Value → Option Bool
  | .boolean value => some value
  | _ => none

/-- A list of texts. -/
def texts? : Toml.Value → Option (List String)
  | .array items => items.mapM fun
    | .string text => some text
    | _ => none
  | _ => none

/-- The settings with one key read. -/
def set? (settings : LoadSettings) (entry : String × Toml.Value) : Option LoadSettings :=
  match entry.1 with
  | "include_tests" =>
    (boolean? entry.2).map fun value => { settings with includeTests := value }
  | "extensions" => (texts? entry.2).map fun value => { settings with extensions := value }
  | "recursive" => (boolean? entry.2).map fun value => { settings with recursive := value }
  | _ => none

/-- The keys in the order in which an array gives them. -/
def keys : List String :=
  ["include_tests", "extensions", "recursive"]

/-- The load settings in a value: a table, or an array that lists the settings in order. -/
def ofToml? : Toml.Value → Option LoadSettings
  | .table entries => entries.foldlM set? {}
  | .array items => (keys.zip items).foldlM set? {}
  | _ => none

end LoadSettings

namespace Settings

/-- The settings with one key read. -/
def set? (settings : Settings) (entry : String × Toml.Value) : Option Settings :=
  match entry with
  | ("load", value) => (LoadSettings.ofToml? value).map fun load => { settings with load := load }
  | ("symbols", .string path) => some { settings with symbols := some path }
  | _ => none

/-- The issues of settings. -/
def issues (settings : Settings) : List SettingsIssue :=
  (if settings.load.extensions.isEmpty then [.noExtensions] else []) ++
    settings.load.extensions.filterMap extensionIssue? ++
    (if settings.symbols = some "" then [.emptySymbolsPath] else [])

/-- The settings that a document gives. -/
def ofText (document : String) : Except SettingsError Settings :=
  match (Toml.read? document.toList).bind fun entries => entries.foldlM set? {} with
  | none => .error (.malformed none)
  | some settings =>
    match settings.issues with
    | [] => .ok settings
    | issues => .error (.unusable none issues)

/-- The settings with the path of the symbols taken from where the settings file is. -/
def resolveAt (settings : Settings) (path : String) : Settings :=
  match settings.symbols, Path.parent? path with
  | some symbols, some directory => { settings with symbols := some (Path.join directory symbols) }
  | _, _ => settings

/-- The settings in a file. -/
def ofFile (files : FileTree) (path : String) : Except SettingsError Settings :=
  match files.read path with
  | .error reason => .error (.unreadable path reason)
  | .ok content =>
    match ofText content.text with
    | .error error => .error (error.withPath path)
    | .ok settings => .ok (settings.resolveAt path)

/-- The name of a settings file. -/
def fileName : String := "astrav.toml"

/-- The settings in the settings file of a directory, or the default ones. -/
def discover (files : FileTree) (directory : String) : Except SettingsError Settings :=
  let path := Path.join directory fileName
  if files.isFile path then ofFile files path else .ok {}

end Settings

end SyntaxAtlas
