import SyntaxAtlas.Json.Basic
/-!
Texts in TOML documents.

There are four forms: between quotes or apostrophes, on one line or over several. Between quotes a
backslash starts an escape; between apostrophes every character stands for itself. Each reader
starts behind the opening mark and returns the text with the rest of the document.
-/
namespace SyntaxAtlas.Toml

/-- A character that may stand for itself on a line: any but the control characters, with the
tabulator allowed. -/
def isLineChar (c : Char) : Bool :=
  c == '\t' || (0x20 ≤ c.toNat && c.toNat != 0x7F)

/-- The character with a code point, if it is one. -/
def charOfCode? (code : Nat) : Option Char :=
  if code.isValidChar then some (Char.ofNat code) else none

/-- The number that hexadecimal digits stand for. -/
def hexCode? (digits : List Char) : Option Nat :=
  digits.foldl (fun code digit => do return (← code) * 16 + (← Json.hexValue? digit)) (some 0)

/-- The character that a letter stands for after a backslash. -/
def shortEscape? : Char → Option Char
  | 'b' => some '\x08'
  | 't' => some '\t'
  | 'n' => some '\n'
  | 'f' => some '\x0c'
  | 'r' => some '\r'
  | 'e' => some '\x1b'
  | '"' => some '"'
  | '\\' => some '\\'
  | _ => none

/-- How many hexadecimal digits follow a letter after a backslash. -/
def escapeWidth? : Char → Option Nat
  | 'x' => some 2
  | 'u' => some 4
  | 'U' => some 8
  | _ => none

/-- The character of an escape, read from behind its backslash. -/
def readEscape? : List Char → Option (Char × List Char)
  | [] => none
  | letter :: rest =>
    match escapeWidth? letter with
    | none => (shortEscape? letter).map fun c => (c, rest)
    | some width =>
      if rest.length < width then
        none
      else
        (hexCode? (rest.take width)).bind fun code =>
          (charOfCode? code).map fun c => (c, rest.drop width)

/-- What follows a line end. -/
def lineEnd? : List Char → Option (List Char)
  | '\n' :: rest => some rest
  | '\r' :: '\n' :: rest => some rest
  | _ => none

/-- Blanks on a line. -/
def isSpace (c : Char) : Bool :=
  c == ' ' || c == '\t'

/-- What follows blanks and line ends. -/
def skipLines : Nat → List Char → List Char
  | 0, text => text
  | fuel + 1, text =>
    match lineEnd? (text.dropWhile isSpace) with
    | some rest => skipLines fuel rest
    | none => text.dropWhile isSpace

/-- A text between quotes on one line. -/
def readQuoted? : Nat → List Char → Option (List Char × List Char)
  | 0, _ => none
  | _ + 1, [] => none
  | _ + 1, '"' :: rest => some ([], rest)
  | fuel + 1, '\\' :: rest => do
    let (c, rest) ← readEscape? rest
    let (text, rest) ← readQuoted? fuel rest
    return (c :: text, rest)
  | fuel + 1, c :: rest =>
    if isLineChar c then
      (readQuoted? fuel rest).map fun (text, rest) => (c :: text, rest)
    else
      none

/-- A text between triple quotes. Line ends stay as they are written, but a backslash at the end of
a line removes the line end and the blanks behind it; up to two quotes may stand before the closing
ones. -/
def readLongQuoted? : Nat → List Char → Option (List Char × List Char)
  | 0, _ => none
  | _ + 1, [] => none
  | _ + 1, '"' :: '"' :: '"' :: '"' :: '"' :: rest => some (['"', '"'], rest)
  | _ + 1, '"' :: '"' :: '"' :: '"' :: rest => some (['"'], rest)
  | _ + 1, '"' :: '"' :: '"' :: rest => some ([], rest)
  | fuel + 1, '\\' :: rest =>
    match lineEnd? (rest.dropWhile isSpace) with
    | some more => readLongQuoted? fuel (skipLines more.length more)
    | none => do
      let (c, rest) ← readEscape? rest
      let (text, rest) ← readLongQuoted? fuel rest
      return (c :: text, rest)
  | fuel + 1, '\r' :: '\n' :: rest =>
    (readLongQuoted? fuel rest).map fun (text, rest) => ('\r' :: '\n' :: text, rest)
  | fuel + 1, c :: rest =>
    if c = '\n' || isLineChar c then
      (readLongQuoted? fuel rest).map fun (text, rest) => (c :: text, rest)
    else
      none

/-- A text between apostrophes on one line. -/
def readLiteral? : List Char → Option (List Char × List Char)
  | [] => none
  | '\'' :: rest => some ([], rest)
  | c :: rest =>
    if isLineChar c then
      (readLiteral? rest).map fun (text, rest) => (c :: text, rest)
    else
      none

/-- A text between triple apostrophes. Line ends stay as they are written; up to two apostrophes
may stand before the closing ones. -/
def readLongLiteral? : Nat → List Char → Option (List Char × List Char)
  | 0, _ => none
  | _ + 1, [] => none
  | _ + 1, '\'' :: '\'' :: '\'' :: '\'' :: '\'' :: rest => some (['\'', '\''], rest)
  | _ + 1, '\'' :: '\'' :: '\'' :: '\'' :: rest => some (['\''], rest)
  | _ + 1, '\'' :: '\'' :: '\'' :: rest => some ([], rest)
  | fuel + 1, '\r' :: '\n' :: rest =>
    (readLongLiteral? fuel rest).map fun (text, rest) => ('\r' :: '\n' :: text, rest)
  | fuel + 1, c :: rest =>
    if c = '\n' || isLineChar c then
      (readLongLiteral? fuel rest).map fun (text, rest) => (c :: text, rest)
    else
      none

/-- A text in any of the four forms, from its opening mark on. A line end behind a triple mark is
not part of the text. -/
def readText? (document : List Char) : Option (List Char × List Char) :=
  let budget := document.length + 1
  match document with
  | '"' :: '"' :: '"' :: rest => readLongQuoted? budget ((lineEnd? rest).getD rest)
  | '"' :: rest => readQuoted? budget rest
  | '\'' :: '\'' :: '\'' :: rest => readLongLiteral? budget ((lineEnd? rest).getD rest)
  | '\'' :: rest => readLiteral? rest
  | _ => none

end SyntaxAtlas.Toml
