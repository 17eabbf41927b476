import SyntaxAtlas.Command.Arguments
import SyntaxAtlas.Command.Failure
import SyntaxAtlas.Graph.CallTree
import SyntaxAtlas.Graph.Resolve
/-!
Commands.

A command works on a tree of files and yields what it prints, line by line, and how it ends. What
was printed before a failure stays printed.
-/
namespace SyntaxAtlas.Command

/-- What a command prints, and the failure that it may end with. -/
structure Outcome where
  /-- The printed lines. -/
  lines : List String
  /-- Why it ended early. -/
  failure : Option Failure := none
deriving DecidableEq, Repr, Inhabited

/-- The outcome of a command that fails before it prints anything. -/
def Outcome.failed (failure : Failure) : Outcome :=
  ⟨[], some failure⟩

/-- The settings for a path: those of a chosen file, or of the directory of the path. -/
def settingsFor (files : FileTree) (path : String) (chosen : Option String) :
    Except Failure Settings :=
  match chosen with
  | some file =>
    (Settings.ofFile files file).mapError fun error =>
      (Failure.ofSettings error).within ("failed to load " ++ file)
  | none =>
    let directory := if files.isDirectory path then path else (Path.parent? path).getD "."
    (Settings.discover files directory).mapError Failure.ofSettings

/-- The symbol tables in a file, when there is one. -/
def tablesFrom (files : FileTree) (file : Option String) : Except Failure PackageTables :=
  match file with
  | none => .ok .empty
  | some file =>
    (readTables files file PackageTables.read?).mapError fun error =>
      (Failure.ofTables error).within ("failed to load symbols from " ++ file)

/-- The graphs at a path: that of a file, or those of the packages in a directory. -/
def graphsAt (files : FileTree) (path : String) (settings : Settings) (symbols : Option String) :
    Except Failure (List LoadedGraph) := do
  let tables ← tablesFrom files (symbols.or settings.symbols)
  let loader : Loader := ⟨settings.load, tables⟩
  if files.isFile path then
    return [← (Loader.loadFile files path).mapError Failure.ofLoad]
  else
    match ← (loader.loadDirectory files path).mapError Failure.ofLoad with
    | [] => .error ⟨"No Go sources found in " ++ path, []⟩
    | graphs => return graphs

/-- The place of a node: file, line and column, or its span. -/
def location (forest : Forest) (arena : Arena) (id : NodeId) : String :=
  match forest.sources.lineColumn? (arena.span id).start with
  | some (name, line, column) => name ++ ":" ++ toString line ++ ":" ++ toString column
  | none => (arena.span id).render

/-- A node with its place, kind and name. -/
def nodeLine (forest : Forest) (id : NodeId) : Explore String := do
  let place := location forest (← get).arena id
  return place ++ " " ++ (← forest.display id)

/-- Nodes with their places, kinds and names. -/
def nodeLines (forest : Forest) : List NodeId → Explore (List String)
  | [] => return []
  | id :: rest => do
    let line ← nodeLine forest id
    return line :: (← nodeLines forest rest)

/-- The nodes down to a depth, indented by level. -/
def treeLines (depth : Option Nat) (forest : Forest) : Explore (List String) := do
  let root := Arena.root
  let title ← forest.display root
  let first := title ++ " " ++ ((← get).arena.span root).render
  forest.walk root [first] fun lines node => do
    let arena := (← get).arena
    let below := arena.level node - arena.level root
    if depth.any fun most => most < below then
      return (.skip, lines)
    else if node = root then
      return (.descend, lines)
    else
      let indent := String.ofList (List.replicate (2 * below) ' ')
      let line := indent ++ (← forest.display node) ++ " " ++ (arena.span node).render
      return (.descend, lines ++ [line])

/-- The properties that found nodes have. -/
structure Filter where
  /-- Their kind. -/
  kind : Option Kind
  /-- Their name. -/
  name : Option String
  /-- Their token. -/
  token : Option Token
  /-- The pattern that they match. -/
  pattern : Option String

/-- The kind with a tag. -/
def kindOf (tag : String) : Except Failure Kind :=
  match Kind.ofTag? tag with
  | some kind => .ok kind
  | none => .error ⟨Kind.unknownTagMessage tag, []⟩

/-- The token with a spelling. -/
def tokenOf (text : String) : Except Failure Token :=
  match Token.ofText? text with
  | some token => .ok token
  | none => .error ⟨Token.unknownMessage text, []⟩

/-- The properties that were asked for. At least one has to be given. -/
def filterFor (kind name token pattern : Option String) : Except Failure Filter := do
  if kind.isNone && name.isNone && token.isNone && pattern.isNone then
    .error ⟨"Give at least one of --kind, --name, --token or --pattern", []⟩
  else
    return ⟨← kind.mapM kindOf, name, ← token.mapM tokenOf, pattern⟩

/-- The test for kind, name and token. -/
def Filter.test (filter : Filter) (forest : Forest) : Forest.Test := fun node => do
  let arena := (← get).arena
  if filter.kind.all fun kind => arena.kind node == kind then
    let named ←
      match filter.name with
      | none => pure true
      | some name => forest.ofName name node
    if named then
      let arena := (← get).arena
      return filter.token.all fun token => forest.token? arena node == some token
    else
      return false
  else
    return false

/-- The lines for the nodes of a graph that pass a filter, and their number. -/
def foundLines (filter : Filter) (engine : PatternEngine) (forest : Forest) :
    Explore (Except PatternError (List String)) := do
  let test := filter.test forest
  match filter.pattern with
  | none => return .ok (← nodeLines forest (← forest.treeNodes test Arena.root))
  | some pattern =>
    match ← forest.findByPattern engine pattern Arena.root with
    | .error error => return .error error
    | .ok hits =>
      let nodes ← Forest.filterNodes test (hits.map PatternHit.node)
      return .ok (← nodeLines forest nodes)

/-- The lines for all graphs, and the total. A refused pattern ends the search. -/
def findIn (filter : Filter) (lines : List String) : List LoadedGraph → Outcome
  | [] => ⟨lines ++ [toString lines.length ++ " match(es)"], none⟩
  | loaded :: rest =>
    match (loaded.graph.ask (foundLines filter loaded.engine)).1 with
    | .error error => ⟨lines, some ⟨error.message, []⟩⟩
    | .ok more => findIn filter (lines ++ more) rest

/-- The lines for the call tree of a function, if a graph declares it. -/
def callLines (function : String) (kind : Kind) (forest : Forest) :
    Explore (Option (List String)) := do
  match ← forest.declarationByName? function with
  | none => return none
  | some start =>
    let title ← forest.display start
    let nodes ← forest.callTreeNodes (Forest.ofKind kind) start
    return some (("From " ++ title) :: (← nodeLines forest nodes))

/-- The lines for a declaration and its uses. -/
def usageLines (forest : Forest) (declaration : NodeId) : Explore (List String) := do
  let title := "Declared " ++ location forest (← get).arena declaration
  let uses ← forest.usages declaration
  let arena := (← get).arena
  return title :: uses.map fun use => "  used " ++ location forest arena use

/-- The lines for some declarations, each with its uses. -/
def usageLinesOfAll (forest : Forest) : List NodeId → Explore (List String)
  | [] => return []
  | declaration :: rest => do
    let lines ← usageLines forest declaration
    return lines ++ (← usageLinesOfAll forest rest)

/-- The lines for all declarations of a name. Nothing is said about a package without symbols. -/
def declarationLines (name : String) (forest : Forest) : Explore (List String) := do
  match forest.package with
  | none => return []
  | some package =>
    if package.symbols.isEmpty then
      return []
    else
      let found ← forest.findDeclarations Arena.root
      let arena := (← get).arena
      usageLinesOfAll forest (found.filter fun id => forest.sourceText arena id == name)

/-- What a command does on a tree of files. -/
def run (files : FileTree) (invocation : Invocation) : Except Failure Outcome := do
  let path := invocation.path
  match invocation.request with
  | .tree depth =>
    let settings ← settingsFor files path invocation.settings
    let graphs ← graphsAt files path settings none
    return ⟨graphs.flatMap fun loaded => (loaded.graph.ask (treeLines depth)).1, none⟩
  | .find kind name token pattern =>
    let filter ← filterFor kind name token pattern
    let settings ← settingsFor files path invocation.settings
    let graphs ← graphsAt files path settings none
    return findIn filter [] graphs
  | .calls function tag =>
    let kind ← kindOf tag
    let settings ← settingsFor files path invocation.settings
    let graphs ← graphsAt files path settings none
    match graphs.filterMap fun loaded => (loaded.graph.ask (callLines function kind)).1 with
    | [] => .error ⟨"Function " ++ function ++ " not declared in " ++ path, []⟩
    | sections => return ⟨sections.flatten, none⟩
  | .usages name symbols =>
    let settings ← settingsFor files path invocation.settings
    let graphs ← graphsAt files path settings symbols
    match graphs.flatMap fun loaded => (loaded.graph.ask (declarationLines name)).1 with
    | [] => return ⟨["No declarations of " ++ name], none⟩
    | lines => return ⟨lines, none⟩

/-- How a program ends: its code, and what it prints. -/
structure Exit where
  /-- Zero for success, one for failure, two for arguments that make no sense. -/
  code : Nat
  /-- The standard output. -/
  output : String
  /-- The error output. -/
  errors : String
deriving DecidableEq, Repr, Inhabited

/-- Lines as a text. -/
def linesText (lines : List String) : String :=
  String.join (lines.map (· ++ "\n"))

/-- How an outcome ends the program. -/
def Outcome.exit (outcome : Outcome) : Exit :=
  match outcome.failure with
  | none => ⟨0, linesText outcome.lines, ""⟩
  | some failure => ⟨1, linesText outcome.lines, failure.report⟩

/-- What the program does with its arguments on a tree of files. -/
def execute (files : FileTree) (arguments : List String) : Exit :=
  match parse? arguments with
  | none => ⟨2, "", "usage: tree|find|calls|usages PATH [OPTIONS]\n"⟩
  | some invocation =>
    match run files invocation with
    | .error failure => (Outcome.failed failure).exit
    | .ok outcome => outcome.exit

end SyntaxAtlas.Command
