/-!
Texts cut into pieces, and paths of files.

A path is a text with slashes between its segments. Empty segments and segments that stand for the
directory they are in say nothing, except for such a segment at the very start.
-/
namespace SyntaxAtlas.Text

/-- The pieces between the occurrences of a character. There is one more piece than occurrences. -/
def pieces (separator : Char) : List Char → List (List Char)
  | [] => [[]]
  | c :: rest =>
    if c = separator then
      [] :: pieces separator rest
    else
      match pieces separator rest with
      | [] => [[c]]
      | piece :: more => (c :: piece) :: more

/-- Pieces joined by a character. -/
def joinPieces (separator : Char) : List (List Char) → List Char
  | [] => []
  | [piece] => piece
  | piece :: next :: rest => piece ++ separator :: joinPieces separator (next :: rest)

/-- A text cut at the last occurrence of a character, which is left out. -/
def splitLast? (separator : Char) (text : List Char) : Option (List Char × List Char) :=
  let tail := text.reverse.takeWhile (· ≠ separator)
  match text.reverse.dropWhile (· ≠ separator) with
  | [] => none
  | _ :: front => some (front.reverse, tail.reverse)

/-- The last separator is the one behind which there is no other. -/
theorem splitLast?_append {separator : Char} {front last : List Char} (plain : separator ∉ last) :
    splitLast? separator (front ++ separator :: last) = some (front, last) := by
  have hTail : ∀ c ∈ last.reverse, (decide (c ≠ separator)) = true := by
    intro c member
    refine decide_eq_true ?_
    rintro rfl
    exact plain (List.mem_reverse.mp member)
  have hReverse : (front ++ separator :: last).reverse =
      last.reverse ++ separator :: front.reverse := by simp
  unfold splitLast?
  rw [hReverse, List.dropWhile_append_of_pos hTail, List.takeWhile_append_of_pos hTail]
  simp

theorem exists_last {separator : Char} {text : List Char} (member : separator ∈ text) :
    ∃ front last, text = front ++ separator :: last ∧ separator ∉ last := by
  obtain ⟨before, after, hReverse, hFirst⟩ :=
    List.eq_append_cons_of_mem (List.mem_reverse.mpr member)
  refine ⟨after.reverse, before.reverse, ?_, by simpa using hFirst⟩
  simpa using congrArg List.reverse hReverse

end SyntaxAtlas.Text

namespace SyntaxAtlas.Path

/-- The segments between the slashes. -/
def segments (path : String) : List String :=
  (Text.pieces '/' path.toList).map String.ofList

/-- The path with the given segments. -/
def ofSegments (segments : List String) : String :=
  String.ofList (Text.joinPieces '/' (segments.map String.toList))

/-- A path that starts at the top of all directories. -/
def isAbsolute (path : String) : Bool :=
  path.toList.head? == some '/'

/-- A path continued by another one. An absolute path replaces what it continues. -/
def join (directory path : String) : String :=
  if isAbsolute path || directory.isEmpty then
    path
  else if directory.toList.getLast? == some '/' then
    directory ++ path
  else
    directory ++ "/" ++ path

/-- A segment that says nothing. -/
def isIdle (segment : String) : Bool :=
  segment == "" || segment == "."

/-- The segments up to the last one that says something. The very first segment always stays. -/
def trimEnd : List String → List String
  | [] => []
  | first :: rest => first :: (rest.reverse.dropWhile isIdle).reverse

/-- The path without its last component. A path without components has no parent. -/
def parent? (path : String) : Option String :=
  match trimEnd (segments path) with
  | [] | [""] => none
  | [_] => some ""
  | first :: rest =>
    match trimEnd (first :: rest.dropLast) with
    | [""] => some "/"
    | kept => some (ofSegments kept)

/-- The last component of a path. -/
def fileName (path : String) : String :=
  ((trimEnd (segments path)).getLast?).getD path

end SyntaxAtlas.Path
