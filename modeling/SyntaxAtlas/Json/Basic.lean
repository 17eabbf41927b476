/-!
JSON values, and escapes in their strings.

Numbers and strings keep the form in which they are written. A reader therefore decides only
whether a text is JSON; what a number or a string means is decided by whoever takes it out of the
value, and a part that nobody takes out is never decoded.

Writing escapes the quote, the backslash and the control characters, and leaves every other
character as it is. Reading understands every escape of the format. An escape may spell one half
of a surrogate pair; a lexeme with a half that has no partner is well formed, but stands for no
text.
-/
namespace SyntaxAtlas

/-- A JSON value as written, blanks aside. -/
inductive Json where
  | null
  | bool (value : Bool)
  /-- A number, from its sign to its last digit. -/
  | num (lexeme : List Char)
  /-- A string, without the quotes around it. -/
  | str (lexeme : List Char)
  | arr (items : List Json)
  /-- Members in written order; a key may occur more than once. -/
  | obj (members : List (List Char × Json))
deriving Repr, Inhabited

namespace Json

/-- The hexadecimal digit of a number below sixteen. -/
def hexDigit (n : Nat) : Char :=
  if n < 10 then Char.ofNat ('0'.toNat + n) else Char.ofNat ('a'.toNat + (n - 10))

/-- The value of a hexadecimal digit of either case. -/
def hexValue? (c : Char) : Option Nat :=
  if '0' ≤ c ∧ c ≤ '9' then some (c.toNat - '0'.toNat)
  else if 'a' ≤ c ∧ c ≤ 'f' then some (c.toNat - 'a'.toNat + 10)
  else if 'A' ≤ c ∧ c ≤ 'F' then some (c.toNat - 'A'.toNat + 10)
  else none

/-- The value of four hexadecimal digits. -/
def hexValue4? (a b c d : Char) : Option Nat := do
  return (((← hexValue? a) * 16 + (← hexValue? b)) * 16 + (← hexValue? c)) * 16 + (← hexValue? d)

/-- The written form of one character. -/
def escapeChar (c : Char) : List Char :=
  if c = '"' then ['\\', '"']
  else if c = '\\' then ['\\', '\\']
  else if c = '\x08' then ['\\', 'b']
  else if c = '\t' then ['\\', 't']
  else if c = '\n' then ['\\', 'n']
  else if c = '\x0c' then ['\\', 'f']
  else if c = '\r' then ['\\', 'r']
  else if c.toNat < 0x20 then
    ['\\', 'u', '0', '0', hexDigit (c.toNat / 16), hexDigit (c.toNat % 16)]
  else [c]

/-- The written form of a text, without quotes. -/
def escape (text : List Char) : List Char :=
  text.flatMap escapeChar

/-- The character that a letter stands for after a backslash, the letter `u` aside. -/
def shortEscape? : Char → Option Char
  | '"' => some '"'
  | '\\' => some '\\'
  | '/' => some '/'
  | 'b' => some '\x08'
  | 'f' => some '\x0c'
  | 'n' => some '\n'
  | 'r' => some '\r'
  | 't' => some '\t'
  | _ => none

/-- The character outside the first plane that a pair of surrogates stands for. -/
def pairedChar (high low : Nat) : Char :=
  Char.ofNat (0x10000 + (high - 0xD800) * 0x400 + (low - 0xDC00))

/-- The text that a lexeme stands for, with the first half of a pair already read or not. -/
def unescapeAfter? : Option Nat → List Char → Option (List Char)
  | none, [] => some []
  | some _, [] => none
  | pending, '\\' :: 'u' :: a :: b :: c :: d :: rest => do
    let unit ← hexValue4? a b c d
    match pending with
    | some high =>
      if 0xDC00 ≤ unit ∧ unit < 0xE000 then
        return pairedChar high unit :: (← unescapeAfter? none rest)
      else
        none
    | none =>
      if 0xD800 ≤ unit ∧ unit < 0xDC00 then
        unescapeAfter? (some unit) rest
      else if 0xDC00 ≤ unit ∧ unit < 0xE000 then
        none
      else
        return Char.ofNat unit :: (← unescapeAfter? none rest)
  | some _, _ => none
  | none, '\\' :: letter :: rest => do
    return (← shortEscape? letter) :: (← unescapeAfter? none rest)
  | none, c :: rest =>
    if c = '\\' then none else (unescapeAfter? none rest).map (c :: ·)

/-- The text that a lexeme stands for. A half of a surrogate pair without its partner stands for
no text. -/
def unescape? (lexeme : List Char) : Option (List Char) :=
  unescapeAfter? none lexeme

end Json

end SyntaxAtlas
