import SyntaxAtlas.Json.Basic
import SyntaxAtlas.Text.Numbers
/-!
Writing JSON texts.

There are two layouts: a compact one without any blanks, and one with a line for every item and
two blanks for every level. Both write empty arrays and objects in two characters.
-/
namespace SyntaxAtlas.Json

/-- The string value for a text. -/
def ofText (text : String) : Json :=
  .str (escape text.toList)

/-- The number value for a natural number. -/
def ofNat (n : Nat) : Json :=
  .num (Text.decimal n)

/-- The object with the given members, keys being texts. -/
def record (members : List (String × Json)) : Json :=
  .obj (members.map fun (key, value) => (escape key.toList, value))

/-- A text between quotes. -/
def quoted (lexeme : List Char) : List Char :=
  '"' :: lexeme ++ ['"']

mutual

/-- The layout without blanks. -/
def compact : Json → List Char
  | .null => "null".toList
  | .bool true => "true".toList
  | .bool false => "false".toList
  | .num lexeme => lexeme
  | .str lexeme => quoted lexeme
  | .arr items => '[' :: compactItems items ++ [']']
  | .obj members => '{' :: compactMembers members ++ ['}']

/-- Items with commas between them. -/
def compactItems : List Json → List Char
  | [] => []
  | [item] => compact item
  | item :: next :: rest => compact item ++ ',' :: compactItems (next :: rest)

/-- Members with commas between them. -/
def compactMembers : List (List Char × Json) → List Char
  | [] => []
  | [(key, value)] => quoted key ++ ':' :: compact value
  | (key, value) :: next :: rest =>
    quoted key ++ ':' :: compact value ++ ',' :: compactMembers (next :: rest)

end

/-- A line end followed by the indentation of a level. -/
def lineBreak (level : Nat) : List Char :=
  '\n' :: List.replicate (2 * level) ' '

mutual

/-- The layout with a line for every item, at a level of nesting. -/
def prettyAt (level : Nat) : Json → List Char
  | .null => "null".toList
  | .bool true => "true".toList
  | .bool false => "false".toList
  | .num lexeme => lexeme
  | .str lexeme => quoted lexeme
  | .arr [] => ['[', ']']
  | .arr (item :: rest) =>
    '[' :: prettyItems (level + 1) (item :: rest) ++ lineBreak level ++ [']']
  | .obj [] => ['{', '}']
  | .obj (member :: rest) =>
    '{' :: prettyMembers (level + 1) (member :: rest) ++ lineBreak level ++ ['}']

/-- Items, each on a line of its own, with commas between them. -/
def prettyItems (level : Nat) : List Json → List Char
  | [] => []
  | [item] => lineBreak level ++ prettyAt level item
  | item :: next :: rest =>
    lineBreak level ++ prettyAt level item ++ ',' :: prettyItems level (next :: rest)

/-- Members, each on a line of its own, with commas between them. -/
def prettyMembers (level : Nat) : List (List Char × Json) → List Char
  | [] => []
  | [(key, value)] => lineBreak level ++ quoted key ++ ':' :: ' ' :: prettyAt level value
  | (key, value) :: next :: rest =>
    lineBreak level ++ quoted key ++ ':' :: ' ' :: prettyAt level value ++
      ',' :: prettyMembers level (next :: rest)

end

/-- The layout with a line for every item. -/
def pretty (value : Json) : List Char :=
  prettyAt 0 value

end SyntaxAtlas.Json
