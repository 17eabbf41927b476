/-!
Lexical tokens carried by operator, literal and keyword nodes.

A token has one spelling. For the five kinds of literals that spelling is the name of the kind.
-/
namespace SyntaxAtlas

/-- A token of the source language that a node can carry. -/
inductive Token where
  | int
  | float
  | imaginary
  | char
  | string
  | add
  | sub
  | mul
  | div
  | rem
  | and
  | or
  | xor
  | shl
  | shr
  | andNot
  | logicalAnd
  | logicalOr
  | arrow
  | inc
  | dec
  | eq
  | ne
  | lt
  | gt
  | le
  | ge
  | not
  | tilde
  | assign
  | define
  | addAssign
  | subAssign
  | mulAssign
  | divAssign
  | remAssign
  | andAssign
  | orAssign
  | xorAssign
  | shlAssign
  | shrAssign
  | andNotAssign
  | breakWord
  | continueWord
  | gotoWord
  | fallthroughWord
  | varWord
  | constWord
  | typeWord
  | importWord
deriving DecidableEq, Repr, Inhabited

namespace Token

/-- Every token. -/
def all : List Token :=
  [.int, .float, .imaginary, .char, .string, .add, .sub, .mul, .div, .rem, .and, .or, .xor, .shl,
   .shr, .andNot, .logicalAnd, .logicalOr, .arrow, .inc, .dec, .eq, .ne, .lt, .gt, .le, .ge,
   .not, .tilde, .assign, .define, .addAssign, .subAssign, .mulAssign, .divAssign, .remAssign,
   .andAssign, .orAssign, .xorAssign, .shlAssign, .shrAssign, .andNotAssign, .breakWord,
   .continueWord, .gotoWord, .fallthroughWord, .varWord, .constWord, .typeWord, .importWord]

/-- The spelling of a token. -/
def text : Token → String
  | .int => "INT"
  | .float => "FLOAT"
  | .imaginary => "IMAG"
  | .char => "CHAR"
  | .string => "STRING"
  | .add => "+"
  | .sub => "-"
  | .mul => "*"
  | .div => "/"
  | .rem => "%"
  | .and => "&"
  | .or => "|"
  | .xor => "^"
  | .shl => "<<"
  | .shr => ">>"
  | .andNot => "&^"
  | .logicalAnd => "&&"
  | .logicalOr => "||"
  | .arrow => "<-"
  | .inc => "++"
  | .dec => "--"
  | .eq => "=="
  | .ne => "!="
  | .lt => "<"
  | .gt => ">"
  | .le => "<="
  | .ge => ">="
  | .not => "!"
  | .tilde => "~"
  | .assign => "="
  | .define => ":="
  | .addAssign => "+="
  | .subAssign => "-="
  | .mulAssign => "*="
  | .divAssign => "/="
  | .remAssign => "%="
  | .andAssign => "&="
  | .orAssign => "|="
  | .xorAssign => "^="
  | .shlAssign => "<<="
  | .shrAssign => ">>="
  | .andNotAssign => "&^="
  | .breakWord => "break"
  | .continueWord => "continue"
  | .gotoWord => "goto"
  | .fallthroughWord => "fallthrough"
  | .varWord => "var"
  | .constWord => "const"
  | .typeWord => "type"
  | .importWord => "import"

/-- The token with a given spelling. -/
def ofText? (text : String) : Option Token :=
  all.find? fun token => token.text == text

/-- The refusal of a text that spells no token. -/
def unknownMessage (text : String) : String :=
  "unknown token: " ++ text

/-- Tokens that assign or define. -/
def isAssignment : Token → Bool
  | .assign | .define | .addAssign | .subAssign | .mulAssign | .divAssign | .remAssign
  | .andAssign | .orAssign | .xorAssign | .shlAssign | .shrAssign | .andNotAssign => true
  | _ => false

/-- The kinds of literals. -/
def isLiteral : Token → Bool
  | .int | .float | .imaginary | .char | .string => true
  | _ => false

end Token

end SyntaxAtlas
