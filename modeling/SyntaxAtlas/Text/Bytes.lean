/-!
Byte offsets in a text.

A text is a list of characters, and each character takes one to four bytes. An offset is usable
only on a boundary between two characters, so cutting a text at an offset can fail.
-/
namespace SyntaxAtlas.Text

/-- The number of bytes that a text takes. -/
def byteLength : List Char → Nat
  | [] => 0
  | c :: rest => c.utf8Size + byteLength rest

/-- The text cut after a number of bytes. There is no cut inside a character or past the end. -/
def splitBytes? : Nat → List Char → Option (List Char × List Char)
  | 0, text => some ([], text)
  | _ + 1, [] => none
  | n + 1, c :: rest =>
    if c.utf8Size ≤ n + 1 then
      (splitBytes? (n + 1 - c.utf8Size) rest).map fun (before, after) => (c :: before, after)
    else
      none

/-- The bytes from one offset to another. There is no slice when an offset falls inside a
character or past the end, or when the offsets are in the wrong order. -/
def slice? (start stop : Nat) (text : List Char) : Option (List Char) := do
  if start ≤ stop then
    let (_, tail) ← splitBytes? start text
    let (middle, _) ← splitBytes? (stop - start) tail
    some middle
  else
    none

/-- The bytes since the last line end, or since the start of the text. -/
def lastLineLength (text : List Char) : Nat :=
  byteLength (text.reverse.takeWhile (· ≠ '\n'))

/-- Line and column, both counted from one, of the place where a text ends. -/
def lineColumn (before : List Char) : Nat × Nat :=
  (before.count '\n' + 1, lastLineLength before + 1)

/-- Row and byte column, both counted from zero, that a number of bytes leads to. The offset may
fall inside a character. -/
def point : Nat → List Char → Nat × Nat :=
  go 0 0
where
  /-- The point, counted on from a given row and column. -/
  go (row column : Nat) : Nat → List Char → Nat × Nat
    | 0, _ | _, [] => (row, column)
    | n + 1, c :: rest =>
      if c = '\n' then
        go (row + 1) 0 n rest
      else
        go row (column + min (n + 1) c.utf8Size) (n + 1 - c.utf8Size) rest

@[simp] theorem byteLength_append (a b : List Char) :
    byteLength (a ++ b) = byteLength a + byteLength b := by
  induction a with
  | nil => simp [byteLength]
  | cons c rest ih => simp [byteLength, ih, Nat.add_assoc]

/-- A cut loses nothing, and the first part has the length that was asked for. -/
theorem splitBytes?_eq_some_iff {n : Nat} {text before after : List Char} :
    splitBytes? n text = some (before, after) ↔
      before ++ after = text ∧ byteLength before = n := by
  induction text generalizing n before with
  | nil =>
    cases n with
    | zero => cases before <;> simp [splitBytes?, byteLength, eq_comm]
    | succ n =>
      cases before with
      | nil => simp [splitBytes?, byteLength]
      | cons c rest => simp [splitBytes?]
  | cons c rest ih =>
    have hc := c.utf8Size_pos
    cases n with
    | zero =>
      cases before with
      | nil => simp [splitBytes?, byteLength, eq_comm]
      | cons d more =>
        have hd := d.utf8Size_pos
        simp only [splitBytes?, byteLength, Option.some.injEq, Prod.mk.injEq]
        constructor
        · rintro ⟨h, -⟩
          exact absurd h (by simp)
        · rintro ⟨-, h⟩
          omega
    | succ n =>
      simp only [splitBytes?]
      cases before with
      | nil =>
        constructor
        · intro h
          split at h
          · obtain ⟨⟨a, b⟩, -, hab⟩ := Option.map_eq_some_iff.1 h
            simp at hab
          · simp at h
        · rintro ⟨-, h⟩
          simp [byteLength] at h
      | cons d more =>
        constructor
        · intro h
          split at h
          · rename_i hle
            obtain ⟨⟨a, b⟩, hs, hab⟩ := Option.map_eq_some_iff.1 h
            simp only [Prod.mk.injEq, List.cons.injEq] at hab
            obtain ⟨⟨rfl, rfl⟩, rfl⟩ := hab
            obtain ⟨hcat, hlen⟩ := ih.1 hs
            refine ⟨by simp [hcat], ?_⟩
            simp only [byteLength, hlen]
            omega
          · simp at h
        · rintro ⟨hcat, hlen⟩
          simp only [List.cons_append, List.cons.injEq] at hcat
          obtain ⟨rfl, hcat⟩ := hcat
          simp only [byteLength] at hlen
          have hle : d.utf8Size ≤ n + 1 := by omega
          rw [if_pos hle]
          rw [ih.2 ⟨hcat, by omega⟩]
          rfl

end SyntaxAtlas.Text
