import Mathlib.Data.List.Induction
import SyntaxAtlas.Proofs.Source.Placement

/-! Lines and columns of positions. The line of a place counts the line ends in front of it, and the
column counts the bytes behind the last of them. Texts are cut between characters, whereas lines and
columns are a matter of bytes: a character has the byte of a line end only when it is one, so that
both ways of counting agree. What is passed on the way from a place to a later one ends a line or
makes the last one longer, so that no two places have the same line and column. -/
namespace SyntaxAtlas

namespace Text

/-- The byte of a line end. -/
def lineFeed : UInt8 := 10

/-- The bytes of a text. -/
def bytes (text : List Char) : List UInt8 :=
  text.flatMap String.utf8EncodeChar

@[simp] theorem bytes_append (front back : List Char) :
    bytes (front ++ back) = bytes front ++ bytes back :=
  List.flatMap_append

@[simp] theorem length_bytes (text : List Char) : (bytes text).length = byteLength text := by
  induction text with
  | nil => rfl
  | cons c rest ih =>
      change (String.utf8EncodeChar c ++ bytes rest).length = c.utf8Size + byteLength rest
      rw [List.length_append, String.length_utf8EncodeChar, ih]

/-- No other character has the byte of a line end. -/
theorem lineFeed_mem_utf8EncodeChar {c : Char} :
    lineFeed ∈ String.utf8EncodeChar c ↔ c = '\n' := by
  constructor
  · intro member
    unfold String.utf8EncodeChar at member
    dsimp only at member
    split_ifs at member with hOne
    · -- the one byte of the character is its number
      change c.toNat ≤ 127 at hOne
      have hNumber : c.toNat % 256 = 10 := by
        simpa [lineFeed, ← UInt8.toNat_inj, eq_comm] using member
      apply Char.ext
      apply UInt32.toNat_inj.mp
      change c.toNat = 10
      omega
    all_goals
      -- the bytes of a longer character have their highest bit set
      simp [lineFeed, ← UInt8.toNat_inj] at member
      omega
  · rintro rfl
    decide

theorem count_utf8EncodeChar (c : Char) :
    (String.utf8EncodeChar c).count lineFeed = [c].count '\n' := by
  by_cases h : c = '\n'
  · subst h
    decide
  · have hNone : lineFeed ∉ String.utf8EncodeChar c := mt lineFeed_mem_utf8EncodeChar.mp h
    rw [List.count_eq_zero.mpr hNone, List.count_singleton]
    simp [h]

/-- A text has as many bytes of a line end as line ends. -/
theorem count_bytes (text : List Char) : (bytes text).count lineFeed = text.count '\n' := by
  induction text with
  | nil => rfl
  | cons c rest ih =>
      change (String.utf8EncodeChar c ++ bytes rest).count lineFeed = ([c] ++ rest).count '\n'
      rw [List.count_append, List.count_append, count_utf8EncodeChar, ih]

@[simp] theorem byteLength_reverse (text : List Char) :
    byteLength text.reverse = byteLength text := by
  induction text with
  | nil => rfl
  | cons c rest ih =>
      rw [List.reverse_cons, byteLength_append, ih]
      simp [byteLength, Nat.add_comm]

/-- Bytes without a line end make the last line longer. -/
theorem lastLineLength_append {front tail : List Char} (unbroken : '\n' ∉ tail) :
    lastLineLength (front ++ tail) = lastLineLength front + byteLength tail := by
  have hTail : ∀ c ∈ tail.reverse, decide (c ≠ '\n') = true := by
    intro c member
    rw [decide_eq_true_eq]
    rintro rfl
    exact unbroken (List.mem_reverse.mp member)
  rw [lastLineLength, List.reverse_append, List.takeWhile_append_of_pos hTail, byteLength_append,
    byteLength_reverse, Nat.add_comm]
  rfl

/-- Behind a line end a new line starts. -/
theorem lastLineLength_concat_break (front : List Char) :
    lastLineLength (front ++ ['\n']) = 0 := by
  simp [lastLineLength, byteLength]

/-- The last line of a text stands behind its last line end, or is all of the text. -/
theorem exists_lastLine (text : List Char) :
    ∃ lines tail, text = lines ++ tail ∧ '\n' ∉ tail ∧ lastLineLength text = byteLength tail ∧
      (lines = [] ∨ ∃ front, lines = front ++ ['\n']) := by
  induction text using List.reverseRecOn with
  | nil => exact ⟨[], [], rfl, by simp, rfl, .inl rfl⟩
  | append_singleton text c ih =>
      by_cases hBreak : c = '\n'
      · subst hBreak
        refine ⟨text ++ ['\n'], [], by simp, by simp, ?_, .inr ⟨text, rfl⟩⟩
        rw [lastLineLength_concat_break]
        rfl
      · obtain ⟨lines, tail, rfl, hTail, hLength, hLines⟩ := ih
        have hLast : '\n' ∉ [c] := by simpa using Ne.symm hBreak
        refine ⟨lines, tail ++ [c], by simp, by simp [hTail, Ne.symm hBreak], ?_, hLines⟩
        rw [lastLineLength_append hLast, hLength, byteLength_append]

/-- Line and column of the place behind some bytes. The line is one more than the line ends among
them. The column is one more than the bytes behind the last line end, or than all of the bytes in
the first line. -/
structure PlaceBehind (before : List UInt8) (line column : Nat) : Prop where
  breaks : before.count lineFeed + 1 = line
  tail : ∃ lines tail, before = lines ++ tail ∧ tail.length + 1 = column ∧ lineFeed ∉ tail ∧
    (line = 1 ∧ lines = [] ∨ ∃ front, lines = front ++ [lineFeed])

theorem placeBehind_lineColumn (text : List Char) :
    PlaceBehind (bytes text) (lineColumn text).1 (lineColumn text).2 where
  breaks := by rw [count_bytes, lineColumn]
  tail := by
    obtain ⟨lines, tail, hText, hTail, hLength, hLines⟩ := exists_lastLine text
    have hNone : lineFeed ∉ bytes tail := by
      rw [← List.count_eq_zero, count_bytes, List.count_eq_zero]
      exact hTail
    refine ⟨bytes lines, bytes tail, by rw [hText, bytes_append], ?_, hNone, ?_⟩
    · rw [length_bytes, lineColumn, hLength]
    · rcases hLines with rfl | ⟨front, rfl⟩
      · have hCount : text.count '\n' = 0 := by
          rw [hText, List.nil_append, List.count_eq_zero]
          exact hTail
        exact .inl ⟨by rw [lineColumn, hCount], rfl⟩
      · exact .inr ⟨bytes front, by rw [bytes_append]; rfl⟩

/-- Whatever is passed on the way, the place behind it comes later. -/
theorem lineColumn_lt {before passed : List Char} (moves : 0 < byteLength passed) :
    Prod.Lex (· < ·) (· < ·) (lineColumn before) (lineColumn (before ++ passed)) := by
  rw [Prod.lex_def]
  by_cases hBreak : '\n' ∈ passed
  · have hCount : 0 < passed.count '\n' := List.count_pos_iff.mpr hBreak
    left
    simp only [lineColumn, List.count_append]
    omega
  · have hCount : passed.count '\n' = 0 := List.count_eq_zero.mpr hBreak
    right
    simp only [lineColumn, List.count_append, lastLineLength_append hBreak]
    omega

theorem utf8ByteSize_eq (text : String) : text.utf8ByteSize = byteLength text.toList := by
  rw [← String.size_toByteArray, ← String.utf8Encode_toList, List.utf8Encode,
    List.size_toByteArray]
  exact length_bytes text.toList

/-- A cut between two characters is a position at which the encoding can be cut. -/
theorem boundary_iff_isValid {text : String} {offset : Nat} :
    Boundary text.toList offset ↔ (String.Pos.Raw.mk offset).IsValid text := by
  rw [String.Pos.Raw.isValid_iff_exists_append]
  constructor
  · rintro ⟨before, after, hText, rfl⟩
    refine ⟨String.ofList before, String.ofList after, ?_, ?_⟩
    · rw [← String.ofList_append, hText, String.ofList_toList]
    · rw [String.Pos.Raw.ext_iff, String.byteIdx_rawEndPos, utf8ByteSize_eq, String.toList_ofList]
  · rintro ⟨before, after, rfl, hOffset⟩
    rw [String.Pos.Raw.ext_iff, String.byteIdx_rawEndPos, utf8ByteSize_eq] at hOffset
    exact ⟨before.toList, after.toList, String.toList_append.symm, hOffset.symm⟩

end Text

namespace SourceUnit

variable {unit : SourceUnit} {pos : Nat}

/-- The bytes of the unit. -/
def bytes (unit : SourceUnit) : List UInt8 :=
  unit.text.toUTF8.data.toList

theorem bytes_eq (unit : SourceUnit) : unit.bytes = Text.bytes unit.chars := by
  rw [bytes, String.toUTF8_eq_toByteArray, ← String.utf8Encode_toList, List.utf8Encode,
    List.toList_data_toByteArray]
  rfl

theorem lineColumn?_eq_some_iff {place : Nat × Nat} : unit.lineColumn? pos = some place ↔
    unit.Covers pos ∧ ∃ before after, before ++ after = unit.chars ∧
      Text.byteLength before = pos - unit.base ∧ Text.lineColumn before = place := by
  simp [lineColumn?, Text.splitBytes?_eq_some_iff, and_assoc]

theorem lineColumn?_isSome_iff : (unit.lineColumn? pos).isSome ↔
    unit.Covers pos ∧ (String.Pos.Raw.mk (pos - unit.base)).IsValid unit.text := by
  rw [← Text.boundary_iff_isValid, Option.isSome_iff_exists]
  simp only [lineColumn?_eq_some_iff]
  constructor
  · rintro ⟨_, hCovers, before, after, hText, hLength, _⟩
    exact ⟨hCovers, before, after, hText, hLength⟩
  · rintro ⟨hCovers, before, after, hText, hLength⟩
    exact ⟨_, hCovers, before, after, hText, hLength, rfl⟩

/-- The bytes in front of a position tell its line and column. -/
theorem placeBehind_of_lineColumn? {line column : Nat}
    (found : unit.lineColumn? pos = some (line, column)) :
    Text.PlaceBehind (unit.bytes.take (pos - unit.base)) line column := by
  obtain ⟨_, before, after, hText, hLength, hPlace⟩ := lineColumn?_eq_some_iff.mp found
  have hBefore : unit.bytes.take (pos - unit.base) = Text.bytes before := by
    rw [bytes_eq, ← hText, Text.bytes_append, ← hLength, ← Text.length_bytes, List.take_left']
    rfl
  have hBehind := Text.placeBehind_lineColumn before
  rwa [hPlace, ← hBefore] at hBehind

/-- Of two positions that have a line and a column, the later one has the later ones. -/
theorem lineColumn?_lt {first second : Nat} {here there : Nat × Nat} (less : first < second)
    (hHere : unit.lineColumn? first = some here) (hThere : unit.lineColumn? second = some there) :
    Prod.Lex (· < ·) (· < ·) here there := by
  obtain ⟨hFirst, front, back, hFront, hFrontLength, rfl⟩ := lineColumn?_eq_some_iff.mp hHere
  obtain ⟨_, left, right, hLeft, hLeftLength, rfl⟩ := lineColumn?_eq_some_iff.mp hThere
  have hBase := hFirst.1
  obtain ⟨passed, rfl, _⟩ := Text.exists_between (hFront.trans hLeft.symm) (by omega)
  apply Text.lineColumn_lt
  rw [Text.byteLength_append] at hLeftLength
  omega

/-- Line and column tell the position. A position of a unit has them, the end of the text included,
unless it lies inside a character. The line is told by the line ends among the bytes in front of the
position, and the column by the bytes behind the last of them. A later position has a later line, or
the same line and a later column. -/
theorem lineColumn?_tells (unit : SourceUnit) :
    (∀ pos, (unit.lineColumn? pos).isSome ↔
      (unit.base ≤ pos ∧ pos ≤ unit.base + unit.text.utf8ByteSize) ∧
        (String.Pos.Raw.mk (pos - unit.base)).IsValid unit.text) ∧
    (∀ pos line column, unit.lineColumn? pos = some (line, column) →
      Text.PlaceBehind (unit.bytes.take (pos - unit.base)) line column) ∧
    ∀ first second here there, first < second → unit.lineColumn? first = some here →
      unit.lineColumn? second = some there → Prod.Lex (· < ·) (· < ·) here there := by
  refine ⟨?_, ?_, ?_⟩
  · intro pos
    rw [Text.utf8ByteSize_eq]
    exact lineColumn?_isSome_iff
  · exact fun pos line column => placeBehind_of_lineColumn?
  · exact fun first second here there => lineColumn?_lt

/-- A unit at 5 with a character of two bytes, a line of its own for a line end, and no line end at
its end. There is no place inside the character. -/
theorem lineColumn?_tells_sample :
    let unit : SourceUnit := ⟨"a", 5, "é\n\nx"⟩
    5 < 10 ∧ unit.lineColumn? 5 = some (1, 1) ∧ unit.lineColumn? 10 = some (3, 2) ∧
      unit.lineColumn? 6 = none ∧ unit.lineColumn? 7 = some (1, 3) ∧
      unit.lineColumn? 8 = some (2, 1) ∧ unit.lineColumn? 4 = none ∧ unit.lineColumn? 11 = none ∧
      Text.PlaceBehind (unit.bytes.take 5) 3 2 ∧
      ¬ (String.Pos.Raw.mk 1).IsValid unit.text ∧ Prod.Lex (· < ·) (· < ·) (1, 1) (3, 2) := by
  intro unit
  have hStart : unit.lineColumn? 5 = some (1, 1) := by decide
  have hInside : unit.lineColumn? 6 = none := by decide
  have hEnd : unit.lineColumn? 10 = some (3, 2) := by decide
  obtain ⟨hSome, hBehind, hLess⟩ := lineColumn?_tells unit
  have hCut : ¬ (String.Pos.Raw.mk 1).IsValid unit.text := by
    intro hValid
    have hPlace := (hSome 6).mpr ⟨by decide, hValid⟩
    rw [hInside] at hPlace
    cases hPlace
  exact ⟨by decide, hStart, hEnd, hInside, by decide, by decide, by decide, by decide,
    hBehind 10 3 2 hEnd, hCut, hLess 5 10 (1, 1) (3, 2) (by decide) hStart hEnd⟩

end SourceUnit

end SyntaxAtlas
