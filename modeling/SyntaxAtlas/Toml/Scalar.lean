import SyntaxAtlas.Text.Numbers
import SyntaxAtlas.Toml.Document
import SyntaxAtlas.Toml.Text
/-!
Numbers, truth values and times in TOML documents.
-/
namespace SyntaxAtlas.Toml

/-- Digits in groups: underscores stand between two digits only. The result has no underscores. -/
def ungroup? (isDigit : Char → Bool) : List Char → Option (List Char)
  | [] => none
  | [c] => if isDigit c then some [c] else none
  | c :: '_' :: rest => if isDigit c then (ungroup? isDigit rest).map (c :: ·) else none
  | c :: rest => if isDigit c then (ungroup? isDigit rest).map (c :: ·) else none

/-- A sign that may be missing. -/
def splitSign : List Char → Option Char × List Char
  | '+' :: rest => (some '+', rest)
  | '-' :: rest => (some '-', rest)
  | text => (none, text)

/-- The value of digits in a base. -/
def baseValue? (base : Nat) (digits : List Char) : Option Nat := do
  let digits ← ungroup? (fun c => (Json.hexValue? c).any (· < base)) digits
  digits.foldl (fun value c => do return (← value) * base + (← Json.hexValue? c)) (some 0)

/-- Decimal digits without leading zeros. -/
def plainDigits? (text : List Char) : Option (List Char) := do
  let digits ← ungroup? Char.isDigit text
  if digits.head? == some '0' && digits.length != 1 then none else some digits

/-- An integer in decimal digits, with a sign that may be missing. -/
def decimal? (text : List Char) : Option Int := do
  let (sign, digits) := splitSign text
  let value := Int.ofNat (Text.digitsValue (← plainDigits? digits))
  return if sign == some '-' then -value else value

/-- An integer in any of the bases. -/
def unbounded? : List Char → Option Int
  | '0' :: 'x' :: digits => (baseValue? 16 digits).map Int.ofNat
  | '0' :: 'o' :: digits => (baseValue? 8 digits).map Int.ofNat
  | '0' :: 'b' :: digits => (baseValue? 2 digits).map Int.ofNat
  | text => decimal? text

/-- An integer that fits into sixty-four bits. -/
def integer? (lexeme : List Char) : Option Int :=
  (unbounded? lexeme).filter fun value =>
    -9223372036854775808 ≤ value ∧ value ≤ 9223372036854775807

/-- The exponent of a float, from behind its letter. -/
def exponent? (text : List Char) : Option Int := do
  let (sign, digits) := splitSign text
  let value := Int.ofNat (Text.digitsValue (← ungroup? Char.isDigit digits))
  return if sign == some '-' then -value else value

/-- The number with given digits before the point, and the rest read from behind the point: digits,
and an exponent that may be missing. -/
def fraction? (whole text : List Char) : Option Text.Scientific := do
  let isMark := fun c => c == 'e' || c == 'E'
  let digits ← ungroup? Char.isDigit (text.takeWhile (!isMark ·))
  let exponent ←
    match text.dropWhile (!isMark ·) with
    | [] => some 0
    | _ :: exponent => exponent? exponent
  return ⟨whole ++ digits, exponent - digits.length⟩

/-- The number that a float without a sign stands for. It has a point or an exponent. -/
def scientific? (text : List Char) : Option Text.Scientific := do
  let isMark := fun c => c == '.' || c == 'e' || c == 'E'
  let whole ← plainDigits? (text.takeWhile (!isMark ·))
  match text.dropWhile (!isMark ·) with
  | [] => none
  | '.' :: rest => fraction? whole rest
  | _ :: exponent => return ⟨whole, ← exponent? exponent⟩

/-- The written form of a float. Infinity has its own name and is not written as a large number. -/
def isFloat (lexeme : List Char) : Bool :=
  let (_, text) := splitSign lexeme
  text == "inf".toList || text == "nan".toList || (scientific? text).any (·.fitsFloat)

/-- A number of fixed width between two bounds. -/
def isField (width low high : Nat) (text : List Char) : Bool :=
  text.length == width && text.all Char.isDigit &&
    decide (low ≤ Text.digitsValue text ∧ Text.digitsValue text ≤ high)

/-- The number of days in a month. -/
def daysInMonth (year month : Nat) : Nat :=
  if month = 2 then
    if year % 4 = 0 ∧ (year % 100 ≠ 0 ∨ year % 400 = 0) then 29 else 28
  else if month = 4 ∨ month = 6 ∨ month = 9 ∨ month = 11 then 30
  else 31

/-- The written form of a date. -/
def isDate (text : List Char) : Bool :=
  text.length == 10 && text[4]? == some '-' && text[7]? == some '-' &&
    isField 4 0 9999 (text.take 4) && isField 2 1 12 ((text.drop 5).take 2) &&
    isField 2 1 (daysInMonth (Text.digitsValue (text.take 4))
      (Text.digitsValue ((text.drop 5).take 2))) (text.drop 8)

/-- The written form of a time of day, seconds and their fraction being optional. -/
def isTime (text : List Char) : Bool :=
  isField 2 0 23 (text.take 2) && text[2]? == some ':' && isField 2 0 59 ((text.drop 3).take 2) &&
    match text.drop 5 with
    | [] => true
    | ':' :: seconds =>
      isField 2 0 60 (seconds.take 2) &&
        match seconds.drop 2 with
        | [] => true
        | '.' :: fraction => !fraction.isEmpty && fraction.all Char.isDigit
        | _ => false
    | _ => false

/-- The written form of an offset from universal time. -/
def isOffset : List Char → Bool
  | ['Z'] | ['z'] => true
  | sign :: rest =>
    (sign == '+' || sign == '-') && rest[2]? == some ':' && isField 2 0 23 (rest.take 2) &&
      isField 2 0 59 (rest.drop 3)
  | [] => false

/-- The written form of a time of day with an offset that may be missing. -/
def isZonedTime (text : List Char) : Bool :=
  let isMark := fun c => c == 'Z' || c == 'z' || c == '+' || c == '-'
  isTime (text.takeWhile (!isMark ·)) &&
    match text.dropWhile (!isMark ·) with
    | [] => true
    | offset => isOffset offset

/-- The written form of a date, a time of day, or both. -/
def isDateTime (lexeme : List Char) : Bool :=
  isDate lexeme || isTime lexeme ||
    (isDate (lexeme.take 10) &&
      match lexeme.drop 10 with
      | mark :: time => (mark == 'T' || mark == 't' || mark == ' ') && isZonedTime time
      | [] => false)

/-- Characters of numbers, truth values and times. -/
def isScalarChar (c : Char) : Bool :=
  c.isAlphanum || c == '_' || c == '+' || c == '-' || c == '.' || c == ':'

/-- The longest scalar at the start of a text. A blank between a date and a time belongs to it. -/
def scanScalar (text : List Char) : List Char × List Char :=
  let lexeme := text.takeWhile isScalarChar
  let rest := text.dropWhile isScalarChar
  match rest with
  | ' ' :: next :: more =>
    if isDate lexeme && next.isDigit then
      (lexeme ++ ' ' :: (next :: more).takeWhile isScalarChar,
        (next :: more).dropWhile isScalarChar)
    else
      (lexeme, rest)
  | _ => (lexeme, rest)

/-- The value with a written form. -/
def scalar? (lexeme : List Char) : Option Value :=
  if lexeme = "true".toList then some (.boolean true)
  else if lexeme = "false".toList then some (.boolean false)
  else
    match integer? lexeme with
    | some value => some (.integer value)
    | none =>
      if isFloat lexeme then some (.float (String.ofList lexeme))
      else if isDateTime lexeme then some (.dateTime (String.ofList lexeme))
      else none

end SyntaxAtlas.Toml
