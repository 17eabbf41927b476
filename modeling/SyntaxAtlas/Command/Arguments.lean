import SyntaxAtlas.Text.Numbers
/-!
Command line arguments.

A command has one path and options with values. An option is given by a long or a short name; its
value is the next argument, or follows in the same one. No option is given twice, and a value does
not start with a dash unless the dash is all of it. Behind a double dash everything is a path.
Letters that only make the program say more about its work may stand alone or before the letter of
an option.
-/
namespace SyntaxAtlas.Command

/-- An option with a value. -/
structure OptionName where
  /-- The name behind two dashes. -/
  long : String
  /-- The letter behind one dash. -/
  short : Char
  /-- The value is a path. -/
  ofPath : Bool := false
deriving DecidableEq, Repr, Inhabited

/-- What was given so far. -/
structure Given where
  /-- The paths. -/
  paths : List String := []
  /-- The options by their long names. -/
  values : List (String × String) := []
deriving Repr, Inhabited

/-- The option for the choice of a settings file. It may also stand before the command. -/
def settingsOption : OptionName := ⟨"config", 'c', true⟩

/-- An argument that can be a value or a path. -/
def isPlain (argument : String) : Bool :=
  match argument.toList with
  | '-' :: _ :: _ => false
  | _ => true

/-- The letter that makes the program say more about its work. -/
def isVerbosityLetter (letter : Char) : Bool :=
  letter == 'v'

/-- An argument that only makes the program say more about its work. -/
def isVerbosity (argument : String) : Bool :=
  match argument.toList with
  | '-' :: letters =>
    argument == "--verbose" || (!letters.isEmpty && letters.all isVerbosityLetter)
  | _ => false

/-- What was given, with one more option. A path is never empty, even when another one wins over
it. -/
def Given.add? (given : Given) (option : OptionName) (value : String) : Option Given :=
  if (given.values.lookup option.long).isSome || (option.ofPath && value.isEmpty) then
    none
  else
    some { given with values := (option.long, value) :: given.values }

/-- The option that an argument names, and its value when it is in the same argument. -/
def matchOption? (options : List OptionName) (argument : String) :
    Option (OptionName × Option String) :=
  match argument.toList with
  | '-' :: '-' :: text =>
    let name := text.takeWhile (· ≠ '=')
    let value :=
      match text.dropWhile (· ≠ '=') with
      | [] => none
      | _ :: value => some (String.ofList value)
    (options.find? fun option => option.long.toList == name).map fun option => (option, value)
  | '-' :: letters =>
    match letters.dropWhile isVerbosityLetter with
    | [] => none
    | letter :: text =>
      let value :=
        match text with
        | [] => none
        | '=' :: value => some (String.ofList value)
        | value => some (String.ofList value)
      (options.find? fun option => option.short == letter).map fun option => (option, value)
  | _ => none

/-- The arguments of a command. -/
def scan? (options : List OptionName) (given : Given) : List String → Option Given
  | [] => some given
  | argument :: rest =>
    if argument = "--" then
      some { given with paths := given.paths ++ rest }
    else if isPlain argument then
      scan? options { given with paths := given.paths ++ [argument] } rest
    else if isVerbosity argument then
      scan? options given rest
    else
      match matchOption? options argument with
      | none => none
      | some (option, some value) => do
        scan? options (← given.add? option value) rest
      | some (option, none) =>
        match rest with
        | [] => none
        | value :: rest =>
          if isPlain value then do
            scan? options (← given.add? option value) rest
          else
            none

/-- The arguments before a command, which can only choose the settings; the command; and the
arguments behind it. -/
def scanHead? (given : Given) : List String → Option (Given × String × List String)
  | [] => none
  | argument :: rest =>
    if argument = "--" then
      none
    else if isPlain argument then
      some (given, argument, rest)
    else if isVerbosity argument then
      scanHead? given rest
    else
      match matchOption? [settingsOption] argument with
      | none => none
      | some (option, some value) => do
        scanHead? (← given.add? option value) rest
      | some (option, none) =>
        match rest with
        | [] => none
        | value :: rest =>
          if isPlain value then do
            scanHead? (← given.add? option value) rest
          else
            none

/-- A natural number of at most sixty-four bits, a plus sign before its digits allowed. -/
def natural? (text : String) : Option Nat :=
  let digits :=
    match text.toList with
    | '+' :: digits => digits
    | digits => digits
  if !digits.isEmpty && digits.all Char.isDigit then
    let value := Text.digitsValue digits
    if value ≤ 18446744073709551615 then some value else none
  else
    none

/-- What is asked for. -/
inductive Request where
  /-- Show the nodes down to a depth. -/
  | tree (depth : Option Nat)
  /-- Find nodes with given properties. -/
  | find (kind name token pattern : Option String)
  /-- Find nodes of a kind in the call tree of a function. -/
  | calls (function kind : String)
  /-- List the declarations of a name and their uses. -/
  | usages (name : String) (symbols : Option String)
deriving DecidableEq, Repr, Inhabited

/-- What is asked for, about which path, with which settings file. -/
structure Invocation where
  /-- The settings file, when one is chosen. -/
  settings : Option String
  /-- A file or a directory. -/
  path : String
  /-- What is asked for. -/
  request : Request
deriving DecidableEq, Repr, Inhabited

/-- The options of a command. -/
def optionsOf? : String → Option (List OptionName)
  | "tree" => some [{ long := "depth", short := 'd' }]
  | "find" =>
    some [{ long := "kind", short := 'k' }, { long := "name", short := 'n' },
      { long := "token", short := 't' }, { long := "pattern", short := 'p' }]
  | "calls" => some [{ long := "function", short := 'f' }, { long := "kind", short := 'k' }]
  | "usages" =>
    some [{ long := "name", short := 'n' }, { long := "symbols", short := 's', ofPath := true }]
  | _ => none

/-- The request of a command with given options. -/
def request? (command : String) (values : List (String × String)) : Option Request :=
  match command with
  | "tree" =>
    match values.lookup "depth" with
    | none => some (.tree none)
    | some text => (natural? text).map fun depth => .tree (some depth)
  | "find" =>
    some (.find (values.lookup "kind") (values.lookup "name") (values.lookup "token")
      (values.lookup "pattern"))
  | "calls" => do
    let function ← values.lookup "function"
    return .calls function ((values.lookup "kind").getD "return-statement")
  | "usages" => do
    let name ← values.lookup "name"
    return .usages name (values.lookup "symbols")
  | _ => none

/-- What the arguments ask for. A settings file chosen behind the command wins over one chosen
before it. -/
def parse? (arguments : List String) : Option Invocation := do
  let (head, command, rest) ← scanHead? {} arguments
  let options ← optionsOf? command
  let given ← scan? (settingsOption :: options) {} rest
  let settings := (given.values ++ head.values).lookup settingsOption.long
  match given.paths with
  | [path] =>
    if path.isEmpty then none else return ⟨settings, path, ← request? command given.values⟩
  | _ => none

end SyntaxAtlas.Command
