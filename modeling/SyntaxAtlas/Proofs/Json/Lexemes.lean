import Mathlib.Data.Option.Basic
import Mathlib.Tactic.SplitIfs
import SyntaxAtlas.Json.Reader
import SyntaxAtlas.Json.Writer

/-! Strings and numbers as they are written. A scanner finds the end of a written lexeme although it
only looks ahead, and what the lexeme stands for is what was written. For strings both follow from
the few ways in which a single character can be written. -/
namespace SyntaxAtlas

namespace Text

theorem digitsValue_decimal (n : Nat) : digitsValue (decimal n) = n := by
  rw [digitsValue, decimal, ← Nat.ofDigitChars_eq_foldl]
  exact Nat.ofDigitChars_ten_toDigits

theorem isDigit_of_mem_decimal {n : Nat} {c : Char} (member : c ∈ decimal n) : c.isDigit := by
  apply Nat.isDigit_of_mem_toDigits _ _ member <;> omega

/-- A positive number does not start with a zero. -/
theorem decimal_of_pos {n : Nat} (positive : 0 < n) :
    ∃ first rest, decimal n = first :: rest ∧ first ≠ '0' := by
  induction n using Nat.strongRecOn with
  | ind n ih =>
      rw [decimal, Nat.toDigits_eq_if (by omega)]
      by_cases hSmall : n < 10
      · have hDigits : ∀ digit, digit < 10 → 0 < digit → digit.digitChar ≠ '0' := by decide
        exact ⟨n.digitChar, [], if_pos hSmall, hDigits n hSmall positive⟩
      · obtain ⟨first, rest, hFront, hFirst⟩ := ih (n / 10) (by omega) (by omega)
        rw [decimal] at hFront
        exact ⟨first, rest ++ [(n % 10).digitChar], by simp [hSmall, hFront], hFirst⟩

theorem ofDecimal?_decimal (n : Nat) : ofDecimal? (decimal n) = some n := by
  have hDigits : ∀ c ∈ decimal n, c.isDigit := fun c member => isDigit_of_mem_decimal member
  have hValue := digitsValue_decimal n
  rcases Nat.eq_zero_or_pos n with rfl | hPositive
  · rfl
  · obtain ⟨first, rest, hDecimal, hFirst⟩ := decimal_of_pos hPositive
    rw [hDecimal] at hDigits hValue ⊢
    have hAll : (first :: rest).all Char.isDigit := List.all_eq_true.mpr hDigits
    simp [ofDecimal?, hAll, hFirst, hValue]

end Text

namespace Json

/-- What follows does not continue a number. -/
def EndsNumber (rest : List Char) : Prop :=
  ∀ c ∈ rest.head?, ¬ c.isDigit ∧ c ≠ '.' ∧ c ≠ 'e' ∧ c ≠ 'E'

section Numbers

variable {rest : List Char} (ends : EndsNumber rest)

include ends

theorem scanDigits_append {digits : List Char} (nonempty : digits ≠ [])
    (all : ∀ c ∈ digits, c.isDigit) : scanDigits (digits ++ rest) = some (digits, rest) := by
  have hRest : rest.takeWhile Char.isDigit = [] ∧ rest.dropWhile Char.isDigit = rest := by
    cases rest with
    | nil => simp
    | cons c rest => simp [(ends c rfl).1]
  rw [scanDigits, List.takeWhile_append_of_pos all, List.dropWhile_append_of_pos all, hRest.1,
    hRest.2]
  simp [nonempty]

theorem scanIntegral_decimal (n : Nat) :
    scanIntegral (Text.decimal n ++ rest) = some (Text.decimal n, rest) := by
  rcases Nat.eq_zero_or_pos n with rfl | hPositive
  · rfl
  · obtain ⟨first, others, hDecimal, hFirst⟩ := Text.decimal_of_pos hPositive
    have hDigits : ∀ c ∈ Text.decimal n, c.isDigit :=
      fun c member => Text.isDigit_of_mem_decimal member
    have hScan := scanDigits_append ends (by simp [hDecimal]) hDigits
    rw [hDecimal] at hScan ⊢
    unfold scanIntegral
    split
    · rename_i hZero
      simp_all
    · exact hScan

theorem scanFraction_of_ends : scanFraction rest = some ([], rest) := by
  unfold scanFraction
  split
  · exact absurd rfl (ends '.' rfl).2.1
  · rfl

theorem scanExponent_of_ends : scanExponent rest = some ([], rest) := by
  cases rest with
  | nil => rfl
  | cons c rest =>
      obtain ⟨_, _, hLower, hUpper⟩ := ends c rfl
      simp [scanExponent, hLower, hUpper]

/-- A number is scanned up to its last digit and no further. -/
theorem scanNumber_decimal (n : Nat) :
    scanNumber (Text.decimal n ++ rest) = some (Text.decimal n, rest) := by
  have hIntegral := scanIntegral_decimal ends n
  obtain ⟨first, others, hDecimal⟩ : ∃ first others, Text.decimal n = first :: others :=
    List.exists_cons_of_ne_nil Nat.toDigits_ne_nil
  have hFirst : first ≠ '-' := by
    rintro rfl
    have hDigit : '-'.isDigit := Text.isDigit_of_mem_decimal (n := n) (by simp [hDecimal])
    exact absurd hDigit (by decide)
  rw [hDecimal, List.cons_append] at hIntegral ⊢
  simp [scanNumber, hFirst, hIntegral, scanFraction_of_ends ends, scanExponent_of_ends ends]

end Numbers

theorem hexValue?_hexDigit {n : Nat} (small : n < 16) : hexValue? (hexDigit n) = some n := by
  have hAll : ∀ n, n < 16 → hexValue? (hexDigit n) = some n := by decide
  exact hAll n small

theorem hexValue4?_control {c : Char} (control : c.toNat < 0x20) :
    hexValue4? '0' '0' (hexDigit (c.toNat / 16)) (hexDigit (c.toNat % 16)) = some c.toNat := by
  have hZero : hexValue? '0' = some 0 := by decide
  have hHigh := hexValue?_hexDigit (show c.toNat / 16 < 16 by omega)
  have hLow := hexValue?_hexDigit (show c.toNat % 16 < 16 by omega)
  simp only [hexValue4?, hZero, hHigh, hLow]
  exact congrArg some (by omega)

/-- The ways in which a character is written: by a letter behind a backslash, by its number, or as
it is. -/
inductive Escaped : Char → List Char → Prop where
  | short {letter c : Char} (h : shortEscape? letter = some c) : Escaped c ['\\', letter]
  | numbered {first second third fourth c : Char} (control : c.toNat < 0x20)
      (h : hexValue4? first second third fourth = some c.toNat) :
      Escaped c ['\\', 'u', first, second, third, fourth]
  | plain {c : Char} (quote : c ≠ '"') (backslash : c ≠ '\\') (visible : ¬ c.toNat < 0x20) :
      Escaped c [c]

theorem escaped_escapeChar (c : Char) : Escaped c (escapeChar c) := by
  unfold escapeChar
  split_ifs with hQuote hBackslash _ _ _ _ _ hControl
  all_goals try (subst c; exact .short rfl)
  · exact .numbered hControl (hexValue4?_control hControl)
  · exact .plain hQuote hBackslash hControl

namespace Escaped

variable {c letter : Char} {written : List Char}

/-- The letter that announces a number is no short escape. -/
theorem letter_ne (h : shortEscape? letter = some c) : letter ≠ 'u' := by
  rintro rfl
  cases h

theorem scanString_append (h : Escaped c written) (rest : List Char) :
    scanString (written ++ rest) =
      (scanString rest).map fun (lexeme, rest) => (written ++ lexeme, rest) := by
  cases h with
  | short h => simp [scanString, letter_ne h, h]
  | numbered control h => simp [scanString, h]
  | plain quote backslash visible => simp [scanString, backslash, visible]

theorem unescapeAfter?_append (h : Escaped c written) (rest : List Char) :
    unescapeAfter? none (written ++ rest) = (unescapeAfter? none rest).map (c :: ·) := by
  cases h with
  | short h => simp [unescapeAfter?, letter_ne h, h, Option.map_eq_bind]
  | numbered control h =>
      -- a control character is no half of a surrogate pair
      have hHigh : ¬ 0xD800 ≤ c.toNat := by omega
      have hLow : ¬ 0xDC00 ≤ c.toNat := by omega
      simp [unescapeAfter?, h, hHigh, hLow, Option.map_eq_bind]
  | plain quote backslash visible => simp [unescapeAfter?, backslash]

end Escaped

/-- A quote ends a written text, and no character inside it does. -/
theorem scanString_escape (text rest : List Char) :
    scanString (escape text ++ '"' :: rest) = some (escape text, rest) := by
  induction text with
  | nil => simp [escape, scanString]
  | cons c text ih =>
      have hCons : escape (c :: text) = escapeChar c ++ escape text := rfl
      rw [hCons, List.append_assoc, (escaped_escapeChar c).scanString_append, ih]
      rfl

theorem unescape?_escape (text : List Char) : unescape? (escape text) = some text := by
  unfold unescape?
  induction text with
  | nil => simp [escape, unescapeAfter?]
  | cons c text ih =>
      have hCons : escape (c :: text) = escapeChar c ++ escape text := rfl
      rw [hCons, (escaped_escapeChar c).unescapeAfter?_append, ih]
      rfl

theorem escapeChar_of_isDigit {c : Char} (digit : c.isDigit) : escapeChar c = [c] := by
  have hVisible : ¬ c.toNat < 0x20 := by
    simp only [Char.isDigit, ge_iff_le, Bool.and_eq_true, decide_eq_true_eq] at digit
    have hFirst : '0'.toNat ≤ c.toNat := digit.1
    have hZero : '0'.toNat = 0x30 := rfl
    omega
  have hOther : ∀ other : Char, other.isDigit = false → c ≠ other := by
    rintro other hOther rfl
    simp [digit] at hOther
  simp [escapeChar, hOther, hVisible]

/-- Digits are written as they are, so that a number can be a key. -/
theorem escape_decimal (n : Nat) : escape (Text.decimal n) = Text.decimal n := by
  have hDigits : ∀ c ∈ Text.decimal n, c.isDigit :=
    fun c member => Text.isDigit_of_mem_decimal member
  generalize Text.decimal n = digits at hDigits
  induction digits with
  | nil => rfl
  | cons c digits ih =>
      have hRest : escape digits = digits :=
        ih fun digit member => hDigits digit (List.mem_cons_of_mem c member)
      have hCons : escape (c :: digits) = escapeChar c ++ escape digits := rfl
      rw [hCons, escapeChar_of_isDigit (hDigits c List.mem_cons_self), hRest]
      rfl

end Json

end SyntaxAtlas
