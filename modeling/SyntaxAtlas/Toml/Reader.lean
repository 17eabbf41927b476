import SyntaxAtlas.Toml.Scalar
/-!
Reading TOML documents.

A document is a list of statements, one to a line: a table header, or a key with a value. Comments
and blank lines may stand anywhere between statements, and inside arrays and inline tables, but not
inside a key. Values do not nest without bound, and neither do keys.
-/
namespace SyntaxAtlas.Toml

/-- What follows blanks, line ends and comments. A comment must not hold control characters. -/
def skipGaps (inComment : Bool) : List Char → Option (List Char)
  | [] => some []
  | '\n' :: rest => skipGaps false rest
  | '\r' :: '\n' :: rest => skipGaps false rest
  | c :: rest =>
    if inComment then
      if isLineChar c then skipGaps true rest else none
    else if isSpace c then
      skipGaps false rest
    else if c = '#' then
      skipGaps true rest
    else
      some (c :: rest)

/-- What follows the end of a line, on which only blanks and a comment may remain. -/
def endLine (inComment : Bool) : List Char → Option (List Char)
  | [] => some []
  | '\n' :: rest => some rest
  | '\r' :: '\n' :: rest => some rest
  | c :: rest =>
    if inComment then
      if isLineChar c then endLine true rest else none
    else if isSpace c then
      endLine false rest
    else if c = '#' then
      endLine true rest
    else
      none

/-- Characters of keys without quotes. -/
def isKeyChar (c : Char) : Bool :=
  c.isAlphanum || c == '_' || c == '-'

/-- One part of a key. Quoted parts stay on one line. -/
def readKeyPart? (text : List Char) : Option (String × List Char) :=
  match text with
  | '"' :: rest =>
    (readQuoted? (rest.length + 1) rest).map fun (key, rest) => (String.ofList key, rest)
  | '\'' :: rest => (readLiteral? rest).map fun (key, rest) => (String.ofList key, rest)
  | _ =>
    let key := text.takeWhile isKeyChar
    if key.isEmpty then none else some (String.ofList key, text.dropWhile isKeyChar)

/-- The number of arrays and inline tables that may be open at once, and of parts that a key may
have. -/
def maxDepth : Nat := 80

/-- A key with dots between its parts, blanks around it included. It has a bounded number of
parts. -/
def readKey? : Nat → List Char → Option (List String × List Char)
  | 0, _ => none
  | room + 1, text => do
    let (part, rest) ← readKeyPart? (text.dropWhile isSpace)
    match rest.dropWhile isSpace with
    | '.' :: rest =>
      let (parts, rest) ← readKey? room rest
      return (part :: parts, rest)
    | rest => return ([part], rest)

mutual

/-- The value at the start of what remains. So many arrays and inline tables may still be opened as
there is room. -/
def readValue? : Nat → Nat → List Char → Option (Value × List Char)
  | 0, _, _ => none
  | fuel + 1, room, text =>
    match text, room with
    | '[' :: rest, room + 1 => do
      let (items, rest) ← readItems? fuel room (← skipGaps false rest)
      return (.array items, rest)
    | '{' :: rest, room + 1 => do
      let (entries, rest) ← readMembers? fuel room [] (← skipGaps false rest)
      return (.table (entriesToValues entries), rest)
    | c :: _, _ =>
      if c = '"' || c = '\'' then
        (readText? text).map fun (text, rest) => (.string (String.ofList text), rest)
      else
        let (lexeme, rest) := scanScalar text
        (scalar? lexeme).map fun value => (value, rest)
    | [], _ => none

/-- The items of an array up to its closing bracket. A comma may follow the last one. -/
def readItems? : Nat → Nat → List Char → Option (List Value × List Char)
  | 0, _, _ => none
  | fuel + 1, room, text =>
    match text with
    | ']' :: rest => some ([], rest)
    | _ => do
      let (item, rest) ← readValue? fuel room text
      match ← skipGaps false rest with
      | ',' :: rest =>
        let (items, rest) ← readItems? fuel room (← skipGaps false rest)
        return (item :: items, rest)
      | ']' :: rest => return ([item], rest)
      | _ => none

/-- The members of an inline table up to its closing brace, after those already read. Line ends and
comments may stand around the equals sign, and a comma may follow the last member. -/
def readMembers? : Nat → Nat → Entries → List Char → Option (Entries × List Char)
  | 0, _, _, _ => none
  | fuel + 1, room, entries, text =>
    match text with
    | '}' :: rest => some (entries, rest)
    | _ => do
      let (key, rest) ← readKey? maxDepth text
      match ← skipGaps false rest with
      | '=' :: rest =>
        let (value, rest) ← readValue? fuel room (← skipGaps false rest)
        let entries ← insertDotted? value key entries
        match ← skipGaps false rest with
        | ',' :: rest => readMembers? fuel room entries (← skipGaps false rest)
        | '}' :: rest => return (entries, rest)
        | _ => none
      | _ => none

end

/-- A document while it is read: the entries, and the table that statements go to. -/
structure Draft where
  /-- The entries read so far. -/
  entries : Entries := []
  /-- The path of the last header. -/
  path : List String := []

/-- The draft after a table header. -/
def Draft.header? (draft : Draft) (key : List String) (listed : Bool) : Option Draft := do
  let last ← key.getLast?
  let change := if listed then openListed? last else openTable? last
  return ⟨← changeAt? change key.dropLast draft.entries, key⟩

/-- The draft after a key with its value. -/
def Draft.assign? (draft : Draft) (key : List String) (value : Value) : Option Draft := do
  return { draft with entries := ← changeAt? (insertDotted? value key) draft.path draft.entries }

/-- The draft after one statement, and what follows its line. -/
def readStatement? (draft : Draft) (text : List Char) : Option (Draft × List Char) := do
  match text with
  | '[' :: '[' :: rest =>
    let (key, rest) ← readKey? maxDepth rest
    match rest with
    | ']' :: ']' :: rest => return (← draft.header? key true, ← endLine false rest)
    | _ => none
  | '[' :: rest =>
    let (key, rest) ← readKey? maxDepth rest
    match rest with
    | ']' :: rest => return (← draft.header? key false, ← endLine false rest)
    | _ => none
  | _ =>
    let (key, rest) ← readKey? maxDepth text
    match rest with
    | '=' :: rest =>
      let (value, rest) ← readValue? (2 * text.length + 2) maxDepth (rest.dropWhile isSpace)
      return (← draft.assign? key value, ← endLine false rest)
    | _ => none

/-- The draft after all statements. -/
def readStatements? : Nat → Draft → List Char → Option Draft
  | 0, _, _ => none
  | fuel + 1, draft, text => do
    match ← skipGaps false text with
    | [] => return draft
    | text =>
      let (draft, rest) ← readStatement? draft text
      readStatements? fuel draft rest

/-- The entries of a whole document. A byte order mark at its start is passed over. -/
def read? (document : List Char) : Option (List (String × Value)) := do
  let text :=
    match document with
    | '\uFEFF' :: rest => rest
    | _ => document
  let draft ← readStatements? (text.length + 1) {} text
  return entriesToValues draft.entries

end SyntaxAtlas.Toml
