/-!
Numbers in decimal digits.

A natural number has one written form: its digits, without a sign and without leading zeros. Other
numbers come with a power of ten, and a binary float of sixty-four bits can hold some of them only.
A number is too large for such a float when it is at least as near to the next power of two as to
the largest float. Numbers near that limit are compared exactly, others by the place of their first
digit, so that a huge exponent is never written out.
-/
namespace SyntaxAtlas.Text

/-- The digits of a number. -/
def decimal (n : Nat) : List Char :=
  Nat.toDigits 10 n

/-- The number that a run of digits stands for, leading zeros allowed. -/
def digitsValue (digits : List Char) : Nat :=
  digits.foldl (fun value digit => 10 * value + (digit.toNat - '0'.toNat)) 0

/-- The number with the given written form. -/
def ofDecimal? (text : List Char) : Option Nat :=
  match text with
  | [] => none
  | first :: rest =>
    if (first :: rest).all Char.isDigit && (first != '0' || rest.isEmpty) then
      some (digitsValue (first :: rest))
    else
      none

/-- The number that the digits stand for, times a power of ten. -/
structure Scientific where
  /-- The digits, leading zeros allowed. -/
  digits : List Char
  /-- The exponent of the power of ten. -/
  exponent : Int
deriving DecidableEq, Repr, Inhabited

/-- The least number that is rounded beyond the largest float: half a unit in the last of the
fifty-three places below the power of two with exponent 1024. It has 309 digits. -/
def floatLimit : Nat :=
  Nat.pow 2 1024 - Nat.pow 2 970

namespace Scientific

/-- The digits from the first one that counts. -/
def significant (number : Scientific) : List Char :=
  number.digits.dropWhile (· == '0')

/-- The number of places before the point, below zero for small fractions. -/
def magnitude (number : Scientific) : Int :=
  number.significant.length + number.exponent

/-- The number is below the limit of floats, given that it has 309 places before the point. -/
def belowLimit (number : Scientific) : Bool :=
  let places := number.significant.length
  digitsValue number.significant * Nat.pow 10 (309 - places) <
    floatLimit * Nat.pow 10 (places - 309)

/-- A float can hold the number, if only rounded. -/
def fitsFloat (number : Scientific) : Bool :=
  number.significant.isEmpty || number.magnitude < 309 ||
    (number.magnitude == 309 && number.belowLimit)

end Scientific

end SyntaxAtlas.Text
