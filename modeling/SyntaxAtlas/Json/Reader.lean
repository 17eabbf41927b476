import SyntaxAtlas.Json.Basic
/-!
Reading JSON texts.

The reader is strict: one value with blanks around it, no trailing commas, no comments, no control
characters in strings, no leading zeros in numbers. Each scanner takes the longest lexeme at the
start of what remains and returns the rest.
-/
namespace SyntaxAtlas.Json

/-- Blanks between tokens. -/
def isBlank (c : Char) : Bool :=
  c == ' ' || c == '\t' || c == '\n' || c == '\r'

/-- What remains behind the blanks. -/
def skipBlanks (text : List Char) : List Char :=
  text.dropWhile isBlank

/-- The lexeme of a string, read from behind its opening quote. -/
def scanString : List Char → Option (List Char × List Char)
  | [] => none
  | '"' :: rest => some ([], rest)
  | '\\' :: 'u' :: a :: b :: c :: d :: rest =>
    if (hexValue4? a b c d).isSome then
      (scanString rest).map fun (lexeme, rest) => ('\\' :: 'u' :: a :: b :: c :: d :: lexeme, rest)
    else
      none
  | '\\' :: letter :: rest =>
    if (shortEscape? letter).isSome then
      (scanString rest).map fun (lexeme, rest) => ('\\' :: letter :: lexeme, rest)
    else
      none
  | c :: rest =>
    if c.toNat < 0x20 || c == '\\' then
      none
    else
      (scanString rest).map fun (lexeme, rest) => (c :: lexeme, rest)

/-- A run of at least one digit. -/
def scanDigits (text : List Char) : Option (List Char × List Char) :=
  let digits := text.takeWhile Char.isDigit
  if digits.isEmpty then none else some (digits, text.dropWhile Char.isDigit)

/-- The integral part of a number: a lone zero, or digits that do not start with one. -/
def scanIntegral : List Char → Option (List Char × List Char)
  | '0' :: rest => some (['0'], rest)
  | text => scanDigits text

/-- The fraction of a number, which may be missing. -/
def scanFraction : List Char → Option (List Char × List Char)
  | '.' :: rest => (scanDigits rest).map fun (digits, rest) => ('.' :: digits, rest)
  | text => some ([], text)

/-- The exponent of a number, which may be missing. -/
def scanExponent : List Char → Option (List Char × List Char)
  | e :: rest =>
    if e == 'e' || e == 'E' then
      match rest with
      | sign :: digits =>
        if sign == '+' || sign == '-' then
          (scanDigits digits).map fun (digits, rest) => (e :: sign :: digits, rest)
        else
          (scanDigits rest).map fun (digits, rest) => (e :: digits, rest)
      | [] => none
    else
      some ([], e :: rest)
  | [] => some ([], [])

/-- The lexeme of a number. -/
def scanNumber (text : List Char) : Option (List Char × List Char) := do
  let (sign, text) :=
    match text with
    | '-' :: rest => (['-'], rest)
    | text => ([], text)
  let (integral, text) ← scanIntegral text
  let (fraction, text) ← scanFraction text
  let (exponent, text) ← scanExponent text
  return (sign ++ integral ++ fraction ++ exponent, text)

mutual

/-- The value at the start of what remains, blanks before it included. -/
def readValue : Nat → List Char → Option (Json × List Char)
  | 0, _ => none
  | fuel + 1, text =>
    match skipBlanks text with
    | 'n' :: 'u' :: 'l' :: 'l' :: rest => some (.null, rest)
    | 't' :: 'r' :: 'u' :: 'e' :: rest => some (.bool true, rest)
    | 'f' :: 'a' :: 'l' :: 's' :: 'e' :: rest => some (.bool false, rest)
    | '"' :: rest => (scanString rest).map fun (lexeme, rest) => (.str lexeme, rest)
    | '[' :: rest =>
      match skipBlanks rest with
      | ']' :: rest => some (.arr [], rest)
      | rest => (readItems fuel rest).map fun (items, rest) => (.arr items, rest)
    | '{' :: rest =>
      match skipBlanks rest with
      | '}' :: rest => some (.obj [], rest)
      | rest => (readMembers fuel rest).map fun (members, rest) => (.obj members, rest)
    | text => (scanNumber text).map fun (lexeme, rest) => (.num lexeme, rest)

/-- One or more items, up to the closing bracket. -/
def readItems : Nat → List Char → Option (List Json × List Char)
  | 0, _ => none
  | fuel + 1, text => do
    let (item, rest) ← readValue fuel text
    match skipBlanks rest with
    | ',' :: rest =>
      let (items, rest) ← readItems fuel rest
      return (item :: items, rest)
    | ']' :: rest => return ([item], rest)
    | _ => none

/-- One or more members, up to the closing brace. -/
def readMembers : Nat → List Char → Option (List (List Char × Json) × List Char)
  | 0, _ => none
  | fuel + 1, text =>
    match skipBlanks text with
    | '"' :: rest => do
      let (key, rest) ← scanString rest
      match skipBlanks rest with
      | ':' :: rest =>
        let (value, rest) ← readValue fuel rest
        match skipBlanks rest with
        | ',' :: rest =>
          let (members, rest) ← readMembers fuel rest
          return ((key, value) :: members, rest)
        | '}' :: rest => return ([(key, value)], rest)
        | _ => none
      | _ => none
    | _ => none

end

/-- The value that a whole text is. Every step of the reader but one in two takes a character, so
the budget is never what ends it. -/
def read? (text : List Char) : Option Json := do
  let (value, rest) ← readValue (2 * text.length + 2) text
  if (skipBlanks rest).isEmpty then some value else none

end SyntaxAtlas.Json
