import SyntaxAtlas.Proofs.Json.Lexemes

/-! Texts of JSON values. A value can be spelled with any blanks between its tokens; both layouts of
the writer are such spellings, and the reader takes every spelling back to the value. The budget of
the reader counts characters: every step but one in two takes a character. -/
namespace SyntaxAtlas.Json

/-- Blanks between two tokens. -/
def Gap (gap : List Char) : Prop :=
  ∀ c ∈ gap, isBlank c

/-- What the reader reads in one go: a value, or what stands behind an opening bracket or brace. -/
inductive Part where
  | value (value : Json)
  | items (items : List Json)
  | members (members : List (List Char × Json))

/-- A part is spelled by a text. The texts of items and of members include what closes them. -/
inductive Spells : Part → List Char → Prop where
  | null : Spells (.value .null) "null".toList
  | yes : Spells (.value (.bool true)) "true".toList
  | no : Spells (.value (.bool false)) "false".toList
  | number (n : Nat) : Spells (.value (ofNat n)) (Text.decimal n)
  | string (text : List Char) : Spells (.value (.str (escape text))) (quoted (escape text))
  | emptyArray : Spells (.value (.arr [])) ['[', ']']
  | array {items : List Json} {text : List Char} (h : Spells (.items items) text) :
      Spells (.value (.arr items)) ('[' :: text)
  | lastItem {item : Json} {before text after : List Char} (lead : Gap before)
      (h : Spells (.value item) text) (trail : Gap after) :
      Spells (.items [item]) (before ++ text ++ after ++ [']'])
  | nextItem {item : Json} {items : List Json} {before text after more : List Char}
      (lead : Gap before) (h : Spells (.value item) text) (trail : Gap after)
      (others : Spells (.items items) more) :
      Spells (.items (item :: items)) (before ++ text ++ after ++ ',' :: more)
  | emptyObject : Spells (.value (.obj [])) ['{', '}']
  | object {members : List (List Char × Json)} {text : List Char}
      (h : Spells (.members members) text) : Spells (.value (.obj members)) ('{' :: text)
  | lastMember (key : List Char) {before between text after : List Char} {value : Json}
      (lead : Gap before) (middle : Gap between) (h : Spells (.value value) text)
      (trail : Gap after) :
      Spells (.members [(escape key, value)])
        (before ++ quoted (escape key) ++ ':' :: (between ++ text ++ after ++ ['}']))
  | nextMember (key : List Char) {before between text after more : List Char} {value : Json}
      {members : List (List Char × Json)} (lead : Gap before) (middle : Gap between)
      (h : Spells (.value value) text) (trail : Gap after)
      (others : Spells (.members members) more) :
      Spells (.members ((escape key, value) :: members))
        (before ++ quoted (escape key) ++ ':' :: (between ++ text ++ after ++ ',' :: more))

section Gaps

variable {gap : List Char}

theorem gap_nil : Gap [] := by
  simp [Gap]

theorem gap_lineBreak (level : Nat) : Gap (lineBreak level) := by
  intro c member
  rcases List.mem_cons.mp member with rfl | member
  · decide
  · rw [List.eq_of_mem_replicate member]
    decide

theorem skipBlanks_append (h : Gap gap) (rest : List Char) :
    skipBlanks (gap ++ rest) = skipBlanks rest :=
  List.dropWhile_append_of_pos h

theorem skipBlanks_cons {c : Char} (visible : isBlank c = false) (rest : List Char) :
    skipBlanks (c :: rest) = c :: rest := by
  simp [skipBlanks, visible]

@[simp] theorem skipBlanks_quote (rest : List Char) : skipBlanks ('"' :: rest) = '"' :: rest :=
  skipBlanks_cons (by decide) rest

@[simp] theorem skipBlanks_colon (rest : List Char) : skipBlanks (':' :: rest) = ':' :: rest :=
  skipBlanks_cons (by decide) rest

@[simp] theorem skipBlanks_comma (rest : List Char) : skipBlanks (',' :: rest) = ',' :: rest :=
  skipBlanks_cons (by decide) rest

@[simp] theorem skipBlanks_bracket (rest : List Char) :
    skipBlanks ('[' :: rest) = '[' :: rest ∧ skipBlanks (']' :: rest) = ']' :: rest :=
  ⟨skipBlanks_cons (by decide) rest, skipBlanks_cons (by decide) rest⟩

@[simp] theorem skipBlanks_brace (rest : List Char) :
    skipBlanks ('{' :: rest) = '{' :: rest ∧ skipBlanks ('}' :: rest) = '}' :: rest :=
  ⟨skipBlanks_cons (by decide) rest, skipBlanks_cons (by decide) rest⟩

theorem skipBlanks_skipBlanks (text : List Char) :
    skipBlanks (skipBlanks text) = skipBlanks text := by
  induction text with
  | nil => rfl
  | cons c text ih =>
      by_cases hBlank : isBlank c
      · simpa [skipBlanks, hBlank] using ih
      · simp [skipBlanks, hBlank]

/-- A number ends where blanks, a comma or a closing bracket follow. -/
theorem endsNumber_append {mark : Char} (h : Gap gap)
    (closes : mark = ',' ∨ mark = ']' ∨ mark = '}') (rest : List Char) :
    EndsNumber (gap ++ mark :: rest) := by
  cases gap with
  | nil =>
      rintro c ⟨⟩
      rcases closes with rfl | rfl | rfl <;> decide
  | cons blank gap =>
      have hBlank := h blank List.mem_cons_self
      simp only [isBlank, Bool.or_eq_true, beq_iff_eq] at hBlank
      rintro c ⟨⟩
      rcases hBlank with ((rfl | rfl) | rfl) | rfl <;> decide

end Gaps

section Steps

variable {budget : Nat} {text rest : List Char}

theorem readValue_skipBlanks (budget : Nat) (text : List Char) :
    readValue budget (skipBlanks text) = readValue budget text := by
  cases budget with
  | zero => rfl
  | succ budget => rw [readValue, readValue, skipBlanks_skipBlanks]

theorem readValue_append {gap : List Char} (h : Gap gap) (budget : Nat) (text : List Char) :
    readValue budget (gap ++ text) = readValue budget text := by
  rw [← readValue_skipBlanks, skipBlanks_append h, readValue_skipBlanks]

theorem readItems_skipBlanks (budget : Nat) (text : List Char) :
    readItems budget (skipBlanks text) = readItems budget text := by
  cases budget with
  | zero => rfl
  | succ budget => rw [readItems, readItems, readValue_skipBlanks]

theorem readMembers_skipBlanks (budget : Nat) (text : List Char) :
    readMembers budget (skipBlanks text) = readMembers budget text := by
  cases budget with
  | zero => rfl
  | succ budget => rw [readMembers, readMembers, skipBlanks_skipBlanks]

theorem readItems_closed (budget : Nat) (rest : List Char) :
    readItems budget (']' :: rest) = none := by
  cases budget with
  | zero => rfl
  | succ budget => cases budget <;> rfl

theorem readMembers_closed (budget : Nat) (rest : List Char) :
    readMembers budget ('}' :: rest) = none := by
  cases budget <;> rfl

/-- A digit starts nothing but a number. -/
theorem readValue_number (n : Nat) (ends : EndsNumber rest) :
    readValue (budget + 1) (Text.decimal n ++ rest) = some (ofNat n, rest) := by
  have hScan := scanNumber_decimal ends n
  obtain ⟨first, others, hDecimal⟩ : ∃ first others, Text.decimal n = first :: others :=
    List.exists_cons_of_ne_nil Nat.toDigits_ne_nil
  have hFirst : first.isDigit := Text.isDigit_of_mem_decimal (n := n) (by simp [hDecimal])
  have hOther : ∀ other : Char, other.isDigit = false → first ≠ other := by
    rintro other hOther rfl
    simp [hFirst] at hOther
  have hVisible : isBlank first = false := by simp [isBlank, hOther]
  rw [ofNat]
  rw [hDecimal, List.cons_append] at hScan ⊢
  simp only [readValue, skipBlanks_cons hVisible]
  split <;> simp_all

theorem readValue_string (text rest : List Char) :
    readValue (budget + 1) (quoted (escape text) ++ rest) = some (.str (escape text), rest) := by
  simp [readValue, quoted, scanString_escape]

/-- What is read as items does not start with the bracket that closes an empty array. -/
theorem readValue_array {items : List Json} (h : readItems budget text = some (items, rest)) :
    readValue (budget + 1) ('[' :: text) = some (.arr items, rest) := by
  simp only [readValue, skipBlanks_bracket]
  rw [← readItems_skipBlanks] at h
  split
  · rename_i hClosed
    rw [hClosed, readItems_closed] at h
    cases h
  · rw [h]
    rfl

theorem readValue_object {members : List (List Char × Json)}
    (h : readMembers budget text = some (members, rest)) :
    readValue (budget + 1) ('{' :: text) = some (.obj members, rest) := by
  simp only [readValue, skipBlanks_brace]
  rw [← readMembers_skipBlanks] at h
  split
  · rename_i hClosed
    rw [hClosed, readMembers_closed] at h
    cases h
  · rw [h]
    rfl

section Sequences

variable {after : List Char} (trail : Gap after)

include trail

theorem readItems_last {item : Json}
    (h : readValue budget text = some (item, after ++ ']' :: rest)) :
    readItems (budget + 1) text = some ([item], rest) := by
  simp [readItems, h, skipBlanks_append trail]

theorem readItems_next {item : Json} {items : List Json} {more : List Char}
    (h : readValue budget text = some (item, after ++ ',' :: more))
    (others : readItems budget more = some (items, rest)) :
    readItems (budget + 1) text = some (item :: items, rest) := by
  simp [readItems, h, others, skipBlanks_append trail]

variable {before : List Char} (lead : Gap before) (key : List Char)

include lead

theorem readMembers_last {value : Json}
    (h : readValue budget text = some (value, after ++ '}' :: rest)) :
    readMembers (budget + 1) (before ++ quoted (escape key) ++ ':' :: text) =
      some ([(escape key, value)], rest) := by
  simp [readMembers, h, quoted, scanString_escape, skipBlanks_append lead,
    skipBlanks_append trail]

theorem readMembers_next {value : Json} {members : List (List Char × Json)} {more : List Char}
    (h : readValue budget text = some (value, after ++ ',' :: more))
    (others : readMembers budget more = some (members, rest)) :
    readMembers (budget + 1) (before ++ quoted (escape key) ++ ':' :: text) =
      some ((escape key, value) :: members, rest) := by
  simp [readMembers, h, others, quoted, scanString_escape, skipBlanks_append lead,
    skipBlanks_append trail]

end Sequences

end Steps

/-- The reader finds a part at the start of a text, whatever follows, with a budget of two for every
character. -/
def ReadAs : Part → List Char → Prop
  | .value value, text => ∀ budget rest, 2 * text.length ≤ budget → EndsNumber rest →
      readValue budget (text ++ rest) = some (value, rest)
  | .items items, text => ∀ budget rest, 2 * text.length < budget →
      readItems budget (text ++ rest) = some (items, rest)
  | .members members, text => ∀ budget rest, 2 * text.length < budget →
      readMembers budget (text ++ rest) = some (members, rest)

namespace Spells

theorem readAs {part : Part} {text : List Char} (spells : Spells part text) :
    ReadAs part text := by
  induction spells with
  | null =>
      rintro (_ | budget) rest hBudget -
      · simp at hBudget
      · rfl
  | yes =>
      rintro (_ | budget) rest hBudget -
      · simp at hBudget
      · rfl
  | no =>
      rintro (_ | budget) rest hBudget -
      · simp at hBudget
      · rfl
  | number n =>
      rintro (_ | budget) rest hBudget ends
      · have hDigits : 0 < (Text.decimal n).length := Nat.length_toDigits_pos
        omega
      · exact readValue_number n ends
  | string text =>
      rintro (_ | budget) rest hBudget -
      · simp [quoted] at hBudget
      · exact readValue_string text rest
  | emptyArray =>
      rintro (_ | budget) rest hBudget -
      · simp at hBudget
      · rfl
  | array h ih =>
      rintro (_ | budget) rest hBudget -
      · simp at hBudget
      · rw [List.length_cons] at hBudget
        exact readValue_array (ih budget rest (by omega))
  | lastItem lead h trail ih =>
      rintro (_ | budget) rest hBudget
      · simp at hBudget
      · simp only [List.append_assoc, List.cons_append, List.nil_append, List.length_append]
          at hBudget ⊢
        apply readItems_last trail
        rw [readValue_append lead]
        exact ih budget _ (by omega) (endsNumber_append trail (by simp) rest)
  | nextItem lead h trail others ih ihOthers =>
      rintro (_ | budget) rest hBudget
      · simp at hBudget
      · simp only [List.append_assoc, List.cons_append, List.length_append, List.length_cons]
          at hBudget ⊢
        apply readItems_next trail
        · rw [readValue_append lead]
          exact ih budget _ (by omega) (endsNumber_append trail (by simp) _)
        · exact ihOthers budget rest (by omega)
  | emptyObject =>
      rintro (_ | budget) rest hBudget -
      · simp at hBudget
      · rfl
  | object h ih =>
      rintro (_ | budget) rest hBudget -
      · simp at hBudget
      · rw [List.length_cons] at hBudget
        exact readValue_object (ih budget rest (by omega))
  | lastMember key lead middle h trail ih =>
      rintro (_ | budget) rest hBudget
      · simp at hBudget
      · simp only [List.append_assoc, List.cons_append, List.nil_append, List.length_append,
          List.length_cons] at hBudget ⊢
        rw [← List.append_assoc]
        apply readMembers_last trail lead
        rw [readValue_append middle]
        exact ih budget _ (by omega) (endsNumber_append trail (by simp) rest)
  | nextMember key lead middle h trail others ih ihOthers =>
      rintro (_ | budget) rest hBudget
      · simp at hBudget
      · simp only [List.append_assoc, List.cons_append, List.length_append, List.length_cons]
          at hBudget ⊢
        rw [← List.append_assoc]
        apply readMembers_next trail lead
        · rw [readValue_append middle]
          exact ih budget _ (by omega) (endsNumber_append trail (by simp) _)
        · exact ihOthers budget rest (by omega)

/-- The reader takes every spelling of a value back to the value. -/
theorem read?_eq {value : Json} {text : List Char} (spells : Spells (.value value) text) :
    read? text = some value := by
  have hRead := spells.readAs (2 * text.length + 2) [] (by omega) (by simp [EndsNumber])
  rw [List.append_nil] at hRead
  rw [read?, hRead]
  rfl

section Layouts

variable {layout : Json → List Char} {before after : List Char} (lead : Gap before)
  (trail : Gap after)

include lead trail

/-- Items written one after the other with commas between them, each behind the same gap. -/
theorem items_of_layout (join : List Json → List Char)
    (hLast : ∀ item, join [item] = before ++ layout item)
    (hNext : ∀ item next rest,
      join (item :: next :: rest) = before ++ layout item ++ ',' :: join (next :: rest))
    (first : Json) (rest : List Json)
    (h : ∀ item ∈ first :: rest, Spells (.value item) (layout item)) :
    Spells (.items (first :: rest)) (join (first :: rest) ++ after ++ [']']) := by
  induction rest generalizing first with
  | nil =>
      rw [hLast]
      exact .lastItem lead (h first List.mem_cons_self) trail
  | cons next rest ih =>
      have hOthers := ih next fun item member => h item (List.mem_cons_of_mem first member)
      have hItems := nextItem lead (h first List.mem_cons_self) gap_nil hOthers
      rw [hNext]
      simpa using hItems

/-- Members written one after the other with commas between them. -/
theorem members_of_layout {between : List Char} (middle : Gap between)
    (join : List (List Char × Json) → List Char)
    (hLast : ∀ key value, join [(key, value)] =
      before ++ quoted key ++ ':' :: (between ++ layout value))
    (hNext : ∀ key value next rest, join ((key, value) :: next :: rest) =
      before ++ quoted key ++ ':' :: (between ++ layout value ++ ',' :: join (next :: rest)))
    (first : List Char × Json) (rest : List (List Char × Json))
    (keys : ∀ member ∈ first :: rest, ∃ key, member.1 = escape key)
    (values : ∀ member ∈ first :: rest, Spells (.value member.2) (layout member.2)) :
    Spells (.members (first :: rest)) (join (first :: rest) ++ after ++ ['}']) := by
  induction rest generalizing first with
  | nil =>
      obtain ⟨written, value⟩ := first
      obtain ⟨key, rfl⟩ := keys (written, value) List.mem_cons_self
      have hMember := lastMember key lead middle (values _ List.mem_cons_self) trail
      rw [hLast]
      simpa using hMember
  | cons next rest ih =>
      obtain ⟨written, value⟩ := first
      obtain ⟨key, rfl⟩ := keys (written, value) List.mem_cons_self
      have hOthers := ih next (fun member h => keys member (List.mem_cons_of_mem _ h))
        fun member h => values member (List.mem_cons_of_mem _ h)
      have hMembers := nextMember key lead middle (values _ List.mem_cons_self) gap_nil
        hOthers
      rw [hNext]
      simpa using hMembers

end Layouts

end Spells

/-- A value all of whose strings, keys and numbers are written forms. -/
inductive Plain : Json → Prop where
  | null : Plain .null
  | bool (value : Bool) : Plain (.bool value)
  | number (n : Nat) : Plain (ofNat n)
  | string (text : List Char) : Plain (.str (escape text))
  | array {items : List Json} (h : ∀ item ∈ items, Plain item) : Plain (.arr items)
  | object {members : List (List Char × Json)}
      (keys : ∀ member ∈ members, ∃ key, member.1 = escape key)
      (values : ∀ member ∈ members, Plain member.2) : Plain (.obj members)

namespace Plain

theorem spells_compact {value : Json} (plain : Plain value) :
    Spells (.value value) value.compact := by
  induction plain with
  | null => exact .null
  | bool value =>
      cases value with
      | false => exact .no
      | true => exact .yes
  | number n => exact .number n
  | string text => exact .string text
  | @array items h ih =>
      cases items with
      | nil => exact .emptyArray
      | cons first rest =>
          have hItems := Spells.items_of_layout gap_nil gap_nil compactItems
            (by simp [compactItems]) (by simp [compactItems]) first rest ih
          simpa [compact] using Spells.array hItems
  | @object members keys values ih =>
      cases members with
      | nil => exact .emptyObject
      | cons first rest =>
          have hMembers := Spells.members_of_layout gap_nil gap_nil gap_nil compactMembers
            (by simp [compactMembers]) (by simp [compactMembers]) first rest keys ih
          simpa [compact] using Spells.object hMembers

theorem spells_prettyAt {value : Json} (plain : Plain value) (level : Nat) :
    Spells (.value value) (prettyAt level value) := by
  induction plain generalizing level with
  | null => exact .null
  | bool value =>
      cases value with
      | false => exact .no
      | true => exact .yes
  | number n => exact .number n
  | string text => exact .string text
  | @array items h ih =>
      cases items with
      | nil => exact .emptyArray
      | cons first rest =>
          have hItems := Spells.items_of_layout (gap_lineBreak (level + 1)) (gap_lineBreak level)
            (prettyItems (level + 1)) (by simp [prettyItems]) (by simp [prettyItems])
            first rest fun item member => ih item member (level + 1)
          simpa [prettyAt] using Spells.array hItems
  | @object members keys values ih =>
      cases members with
      | nil => exact .emptyObject
      | cons first rest =>
          have hBlank : Gap [' '] := by simp [Gap, isBlank]
          have hMembers := Spells.members_of_layout (gap_lineBreak (level + 1))
            (gap_lineBreak level) hBlank (prettyMembers (level + 1))
            (by simp [prettyMembers]) (by simp [prettyMembers]) first rest keys
            fun member h => ih member h (level + 1)
          simpa [prettyAt] using Spells.object hMembers

theorem read?_compact {value : Json} (plain : Plain value) : read? value.compact = some value :=
  plain.spells_compact.read?_eq

theorem read?_pretty {value : Json} (plain : Plain value) : read? value.pretty = some value :=
  (plain.spells_prettyAt 0).read?_eq

end Plain

end SyntaxAtlas.Json
