import Mathlib.Data.List.Basic
import SyntaxAtlas.Source

/-! Texts that are placed one behind the other. A unit starts where its text starts in the joined
text, for one position is left free behind every unit and one line end stands there. So a position
tells the unit, and a part of a unit is a part of the joined text at the same offsets. -/
namespace SyntaxAtlas

namespace Text

/-- An offset between two characters or at an end. -/
def Boundary (text : List Char) (offset : Nat) : Prop :=
  ∃ before after, before ++ after = text ∧ byteLength before = offset

theorem isSome_splitBytes?_iff {text : List Char} {offset : Nat} :
    (splitBytes? offset text).isSome ↔ Boundary text offset := by
  simp [Option.isSome_iff_exists, splitBytes?_eq_some_iff, Boundary]

instance (text : List Char) (offset : Nat) : Decidable (Boundary text offset) :=
  decidable_of_iff _ isSome_splitBytes?_iff

/-- What stands between two offsets of a text. -/
def Part (text : List Char) (span : Span) (part : List Char) : Prop :=
  ∃ before after, before ++ part ++ after = text ∧ byteLength before = span.start ∧
    byteLength (before ++ part) = span.stop

theorem byteLength_eq_zero {text : List Char} (h : byteLength text = 0) : text = [] := by
  cases text with
  | nil => rfl
  | cons c rest =>
      have hSize := c.utf8Size_pos
      simp only [byteLength] at h
      omega

/-- Of two cuts through one text, the one with more bytes in front is the later one. -/
theorem exists_between {front back left right : List Char} (h : front ++ back = left ++ right)
    (shorter : byteLength front ≤ byteLength left) :
    ∃ middle, left = front ++ middle ∧ back = middle ++ right := by
  rcases List.append_eq_append_iff.mp h with hLater | ⟨middle, rfl, rfl⟩
  · exact hLater
  · have hEmpty : middle = [] := by
      apply byteLength_eq_zero
      rw [byteLength_append] at shorter
      omega
    exact ⟨[], by simp [hEmpty], by simp [hEmpty]⟩

theorem slice?_eq_some_iff {start stop : Nat} {text part : List Char} :
    slice? start stop text = some part ↔ Part text ⟨start, stop⟩ part := by
  unfold slice? Part
  constructor
  · intro h
    split_ifs at h with hOrder
    simp only [Option.bind_eq_bind, Option.bind_eq_some_iff, Prod.exists, Option.some.injEq,
      splitBytes?_eq_some_iff] at h
    obtain ⟨before, tail, ⟨rfl, hStart⟩, middle, after, ⟨rfl, hLength⟩, rfl⟩ := h
    refine ⟨before, after, by simp, hStart, ?_⟩
    rw [byteLength_append, hStart, hLength]
    exact Nat.add_sub_of_le hOrder
  · rintro ⟨before, after, rfl, hStart, hStop⟩
    dsimp only at hStart hStop
    rw [byteLength_append] at hStop
    have hOrder : start ≤ stop := by omega
    have hFirst : splitBytes? start (before ++ part ++ after) = some (before, part ++ after) :=
      splitBytes?_eq_some_iff.mpr ⟨by simp, hStart⟩
    have hSecond : splitBytes? (stop - start) (part ++ after) = some (part, after) :=
      splitBytes?_eq_some_iff.mpr ⟨rfl, by omega⟩
    simp only [if_pos hOrder, hFirst, Option.bind_eq_bind, Option.bind_some, hSecond]

namespace Part

variable {text part : List Char} {span : Span}

theorem boundaries (h : Part text span part) :
    Boundary text span.start ∧ Boundary text span.stop := by
  obtain ⟨before, after, hText, hStart, hStop⟩ := h
  exact ⟨⟨before, part ++ after, by rw [← hText, List.append_assoc], hStart⟩,
    ⟨before ++ part, after, hText, hStop⟩⟩

theorem of_boundaries (hStart : Boundary text span.start) (hStop : Boundary text span.stop)
    (ordered : span.start ≤ span.stop) : ∃ part, Part text span part := by
  obtain ⟨front, back, hFront, hFrontLength⟩ := hStart
  obtain ⟨left, right, hLeft, hLeftLength⟩ := hStop
  obtain ⟨part, rfl, rfl⟩ := exists_between (hFront.trans hLeft.symm) (by omega)
  exact ⟨part, front, right, hLeft, hFrontLength, hLeftLength⟩

/-- A part of a text is a part of a longer text, further behind. -/
theorem surround_iff {before after : List Char} (inside : span.stop ≤ byteLength text) :
    Part (before ++ text ++ after) (span.shift (byteLength before)) part ↔ Part text span part := by
  constructor
  · rintro ⟨front, back, hText, hStart, hStop⟩
    rw [byteLength_append] at hStop
    dsimp only [Span.shift] at hStart hStop
    -- the part starts behind what was put in front, and ends before what was put behind
    have hFront : before ++ (text ++ after) = front ++ (part ++ back) := by simpa using hText.symm
    obtain ⟨gap, rfl, hGap⟩ := exists_between hFront (by omega)
    rw [byteLength_append] at hStart hStop
    have hBack : gap ++ part ++ back = text ++ after := by simpa using hGap.symm
    obtain ⟨rest, rfl, _⟩ := exists_between hBack (by rw [byteLength_append]; omega)
    exact ⟨gap, rest, rfl, by omega, by rw [byteLength_append]; omega⟩
  · rintro ⟨front, back, rfl, hStart, hStop⟩
    refine ⟨before ++ front, back ++ after, by simp, ?_, ?_⟩
    · simp [Span.shift, ← hStart, Nat.add_comm]
    · simp only [Span.shift, ← hStop, List.append_assoc, byteLength_append]
      omega

end Part

end Text

namespace SourceMap

theorem le_base_of_mem_placeFrom {base : Nat} {texts : List (String × String)} {unit : SourceUnit}
    (member : unit ∈ placeFrom base texts) : base ≤ unit.base := by
  induction texts generalizing base with
  | nil => cases member
  | cons entry rest ih =>
      rcases List.mem_cons.mp member with rfl | hRest
      · exact Nat.le_refl base
      · have hLater := ih hRest
        omega

/-- No unit ends where the next one starts. -/
theorem placeFrom_apart (base : Nat) (texts : List (String × String)) :
    (placeFrom base texts).Pairwise fun first second =>
      first.base + first.length < second.base := by
  induction texts generalizing base with
  | nil => exact .nil
  | cons entry rest ih =>
      refine .cons ?_ (ih _)
      intro unit member
      exact le_base_of_mem_placeFrom member

theorem joined_cons_cons (first second : SourceUnit) (rest : List SourceUnit) :
    (joined ⟨first :: second :: rest⟩).toList =
      first.chars ++ '\n' :: (joined ⟨second :: rest⟩).toList := by
  simp [joined, SourceUnit.chars, String.intercalate_cons_cons]

/-- The text of a unit stands in the joined text, as many bytes from its start as the unit. -/
theorem joined_placeFrom {base : Nat} {texts : List (String × String)} {number : UnitId}
    {unit : SourceUnit} (hUnit : (placeFrom base texts)[number]? = some unit) :
    ∃ before after, before ++ unit.chars ++ after =
      (joined ⟨placeFrom base texts⟩).toList ∧ base + Text.byteLength before = unit.base := by
  induction texts generalizing base number with
  | nil => simp [placeFrom] at hUnit
  | cons entry rest ih =>
      cases number with
      | zero =>
          obtain rfl := Option.some.inj hUnit
          cases rest with
          | nil => exact ⟨[], [], by simp [placeFrom, joined, SourceUnit.chars], rfl⟩
          | cons next others =>
              let others := placeFrom (base + Text.byteLength entry.2.toList + 1) (next :: others)
              refine ⟨[], '\n' :: (joined ⟨others⟩).toList, ?_, rfl⟩
              rw [placeFrom, placeFrom, joined_cons_cons]
              rfl
      | succ number =>
          obtain ⟨before, after, hText, hBase⟩ := ih hUnit
          cases rest with
          | nil => simp [placeFrom] at hUnit
          | cons next others =>
              refine ⟨entry.2.toList ++ '\n' :: before, after, ?_, ?_⟩
              · rw [placeFrom] at hText
                rw [placeFrom, placeFrom, joined_cons_cons, ← hText]
                simp [SourceUnit.chars]
              · have hBreak : '\n'.utf8Size = 1 := by decide
                rw [Text.byteLength_append, Text.byteLength, hBreak]
                omega

theorem unitAt?_eq_of_apart {map : SourceMap}
    (apart : map.units.Pairwise fun first second => first.base + first.length < second.base)
    {number : UnitId} {unit : SourceUnit} (hUnit : map.get? number = some unit) {pos : Nat}
    (covers : unit.Covers pos) : map.unitAt? pos = some (number, unit) := by
  have hSome : (map.unitAt? pos).isSome := by
    rw [unitAt?, Option.isSome_map, List.find?_isSome]
    exact ⟨(unit, number), List.mk_mem_zipIdx_iff_getElem?.mpr hUnit, decide_eq_true covers⟩
  obtain ⟨found, hFound⟩ := Option.isSome_iff_exists.mp hSome
  rw [hFound]
  obtain ⟨⟨other, place⟩, hFind, rfl⟩ := Option.map_eq_some_iff.mp hFound
  have hOther : map.units[place]? = some other :=
    List.mk_mem_zipIdx_iff_getElem?.mp (List.mem_of_find?_eq_some hFind)
  have hCovers : other.Covers pos := by simpa using List.find?_some hFind
  have hSame : place = number := by
    obtain ⟨hPlace, rfl⟩ := List.getElem?_eq_some_iff.mp hOther
    obtain ⟨hNumber, rfl⟩ := List.getElem?_eq_some_iff.mp hUnit
    have hApart := List.pairwise_iff_getElem.mp apart
    rcases Nat.lt_trichotomy place number with hBefore | hHere | hBehind
    · have hGap := hApart place number hPlace hNumber hBefore
      exact absurd (Nat.le_trans covers.1 hCovers.2) (Nat.not_le.mpr hGap)
    · exact hHere
    · have hGap := hApart number place hNumber hPlace hBehind
      exact absurd (Nat.le_trans hCovers.1 covers.2) (Nat.not_le.mpr hGap)
  subst hSame
  obtain rfl := Option.some.inj (hOther.symm.trans hUnit)
  rfl

section OfTexts

variable {texts : List (String × String)} {number : UnitId} {unit : SourceUnit}
  (hUnit : (ofTexts texts).get? number = some unit)

include hUnit

/-- Every position of a unit leads to it, the one behind its text included. -/
theorem unitAt?_ofTexts {pos : Nat} (covers : unit.Covers pos) :
    (ofTexts texts).unitAt? pos = some (number, unit) := by
  rw [ofTexts] at hUnit ⊢
  exact unitAt?_eq_of_apart (placeFrom_apart 0 texts) hUnit covers

/-- What a unit gives for a span is what stands there in the joined text. -/
theorem slice?_ofTexts {span : Span} (inside : unit.span.Encloses span)
    (ordered : span.start ≤ span.stop) (part : List Char) :
    unit.slice? span = some (String.ofList part) ↔
      Text.Part (ofTexts texts).joined.toList span part := by
  rw [ofTexts] at hUnit ⊢
  obtain ⟨before, after, hText, hBase⟩ := joined_placeFrom hUnit
  obtain ⟨here, rfl⟩ : ∃ here : Span, span = here.shift unit.base := by
    obtain ⟨start, stop⟩ := span
    obtain ⟨hStart, _⟩ := inside
    dsimp only [SourceUnit.span] at hStart ordered
    exact ⟨⟨start - unit.base, stop - unit.base⟩, by simp only [Span.shift, Span.mk.injEq]; omega⟩
  have hInside : here.stop ≤ Text.byteLength unit.chars := by
    have hStop := inside.2
    simp only [Span.shift, SourceUnit.span, SourceUnit.length] at hStop
    omega
  have hSlice : unit.slice? (here.shift unit.base) =
      (Text.slice? here.start here.stop unit.chars).map String.ofList := by
    rw [SourceUnit.slice?, Span.localTo?_shift, Option.map_eq_bind]
    rfl
  rw [hSlice, ← hText, ← hBase, Nat.zero_add, Text.Part.surround_iff hInside]
  simp only [Option.map_eq_some_iff, Text.slice?_eq_some_iff, String.ofList_inj, exists_eq_right]

end OfTexts

end SourceMap

end SyntaxAtlas
