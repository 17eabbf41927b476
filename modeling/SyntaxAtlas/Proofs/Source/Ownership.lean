import Mathlib.Data.List.Induction
import SyntaxAtlas.Proofs.Source.Placement

/-! Which unit a position belongs to. A text that is appended starts behind every unit that ends
before the largest position, wherever the units were put. A unit that ends there has no base behind
it, and it is the only one that an appended text can run into. When every unit is appended, the
positions are taken without gaps, no position is taken twice, and what is read under a span is read
in the one unit that the span lies in. Ranges are closed, so that the end of a unit is its own. -/
namespace SyntaxAtlas

namespace Text.Part

variable {text part : List Char} {span : Span}

theorem start_le_stop (h : Part text span part) : span.start ≤ span.stop := by
  obtain ⟨before, after, _, hStart, hStop⟩ := h
  rw [← hStart, ← hStop]
  simp

theorem stop_le (h : Part text span part) : span.stop ≤ byteLength text := by
  obtain ⟨before, after, hText, _, hStop⟩ := h
  rw [← hStop, ← hText]
  simp

end Text.Part

namespace SourceUnit

/-- Two units have no position in common, not even an end. -/
def Apart (first second : SourceUnit) : Prop :=
  ∀ pos, ¬ (first.Covers pos ∧ second.Covers pos)

/-- A text stands in a unit under a span of package positions. -/
def Carries (unit : SourceUnit) (span : Span) (text : String) : Prop :=
  unit.span.Encloses span ∧ span.start ≤ span.stop ∧
    Text.Part unit.chars ⟨span.start - unit.base, span.stop - unit.base⟩ text.toList

/-- A unit that ends at the largest position and reaches down into what a text of some length takes
from a base on. -/
def Obstructs (unit : SourceUnit) (base length : Nat) : Prop :=
  unit.base + unit.length = maxPosition ∧ unit.base ≤ base + length

variable {unit first second : SourceUnit} {span : Span} {text : String}

theorem behind_eq (inner : unit.base + unit.length < maxPosition) :
    unit.behind = unit.base + unit.length + 1 :=
  Nat.mod_eq_of_lt (Nat.succ_lt_succ inner)

theorem behind_le (unit : SourceUnit) : unit.behind ≤ maxPosition :=
  Nat.lt_succ_iff.mp (Nat.mod_lt _ (Nat.succ_pos maxPosition))

theorem apart_of_lt (before : first.base + first.length < second.base) : first.Apart second := by
  rintro pos ⟨⟨_, hEnd⟩, ⟨hStart, _⟩⟩
  omega

/-- What a unit gives under a span is what stands there. -/
theorem slice?_eq_some_iff : unit.slice? span = some text ↔ unit.Carries span text := by
  obtain ⟨start, stop⟩ := span
  simp only [slice?, Span.localTo?, Carries, SourceUnit.span, Span.Encloses]
  constructor
  · intro h
    simp only [Option.bind_eq_bind, Option.bind_eq_some_iff, Option.ite_none_right_eq_some,
      Option.some.injEq, Text.slice?_eq_some_iff] at h
    obtain ⟨here, ⟨⟨hStart, hStop⟩, rfl⟩, part, hPart, hText⟩ := h
    obtain rfl := Option.some.inj hText
    have hOrder := hPart.start_le_stop
    have hInside := hPart.stop_le
    simp only [SourceUnit.length] at hOrder hInside ⊢
    exact ⟨⟨hStart, by omega⟩, by omega, by simpa using hPart⟩
  · rintro ⟨⟨hStart, hStop⟩, hOrder, hPart⟩
    have hBoth : unit.base ≤ start ∧ unit.base ≤ stop := ⟨hStart, by omega⟩
    rw [if_pos hBoth]
    simp [Text.slice?_eq_some_iff.mpr hPart]

/-- A unit carries some text under a span in it exactly when both ends are between characters. -/
theorem exists_carries_iff : (∃ text, unit.Carries span text) ↔
    unit.span.Encloses span ∧ span.start ≤ span.stop ∧
      Text.Boundary unit.chars (span.start - unit.base) ∧
      Text.Boundary unit.chars (span.stop - unit.base) := by
  constructor
  · rintro ⟨text, hInside, hOrder, hPart⟩
    exact ⟨hInside, hOrder, hPart.boundaries⟩
  · rintro ⟨hInside, hOrder, hStart, hStop⟩
    obtain ⟨part, hPart⟩ : ∃ part,
        Text.Part unit.chars ⟨span.start - unit.base, span.stop - unit.base⟩ part :=
      Text.Part.of_boundaries hStart hStop (Nat.sub_le_sub_right hOrder unit.base)
    exact ⟨String.ofList part, hInside, hOrder, by simpa using hPart⟩

end SourceUnit

namespace SourceMap

variable {map : SourceMap} {unit : SourceUnit} {number : UnitId} {pos : Nat}

theorem nextBase_push (map : SourceMap) (unit : SourceUnit) :
    (map.push unit).nextBase = max map.nextBase unit.behind := by
  simp [nextBase, push]

theorem get?_push_old (map : SourceMap) (unit : SourceUnit) (old : number < map.size) :
    (map.push unit).get? number = map.get? number :=
  List.getElem?_append_left old

theorem get?_push_new (map : SourceMap) (unit : SourceUnit) :
    (map.push unit).get? map.size = some unit :=
  List.getElem?_concat_length

/-- There is always a position at the next base. -/
theorem nextBase_le (map : SourceMap) : map.nextBase ≤ maxPosition := by
  obtain ⟨units⟩ := map
  induction units using List.reverseRecOn with
  | nil => exact Nat.zero_le maxPosition
  | append_singleton units last ih =>
      have hPush := nextBase_push ⟨units⟩ last
      rw [push] at hPush
      rw [hPush]
      exact Nat.max_le.mpr ⟨ih, last.behind_le⟩

/-- The next base is behind every unit that ends before the largest position. -/
theorem lt_nextBase_of_mem (member : unit ∈ map.units)
    (inner : unit.base + unit.length < maxPosition) : unit.base + unit.length < map.nextBase := by
  obtain ⟨units⟩ := map
  induction units using List.reverseRecOn with
  | nil => cases member
  | append_singleton units last ih =>
      have hPush := nextBase_push ⟨units⟩ last
      rw [push] at hPush
      rw [hPush]
      rcases List.mem_append.mp member with hOld | hLast
      · exact Nat.lt_of_lt_of_le (ih hOld) (Nat.le_max_left ..)
      · obtain rfl := List.mem_singleton.mp hLast
        rw [SourceUnit.behind_eq inner]
        exact Nat.lt_of_lt_of_le (Nat.lt_succ_self _) (Nat.le_max_right ..)

/-- A position leads to a unit that covers it. -/
theorem covers_of_unitAt? (found : map.unitAt? pos = some (number, unit)) :
    map.get? number = some unit ∧ unit.Covers pos := by
  obtain ⟨⟨other, place⟩, hFind, hSame⟩ := Option.map_eq_some_iff.mp found
  obtain ⟨rfl, rfl⟩ := Prod.mk.inj hSame
  exact ⟨List.mk_mem_zipIdx_iff_getElem?.mp (List.mem_of_find?_eq_some hFind),
    by simpa using List.find?_some hFind⟩

/-- In a source map every position belongs to one unit at most, the positions before the next base
belong to some unit, and look-ups and slices are answered by that unit. -/
structure Unambiguous (map : SourceMap) : Prop where
  disjoint : ∀ first second left right, first ≠ second → map.get? first = some left →
    map.get? second = some right → left.Apart right
  covered : ∀ pos, (∃ unit ∈ map.units, unit.Covers pos) ↔ pos < map.nextBase
  owner : ∀ pos number unit,
    map.unitAt? pos = some (number, unit) ↔ map.get? number = some unit ∧ unit.Covers pos
  sliced : ∀ span, (map.slice? span).isSome ↔ span.start ≤ span.stop ∧
    ∃ unit ∈ map.units, unit.span.Encloses span ∧
      Text.Boundary unit.chars (span.start - unit.base) ∧
      Text.Boundary unit.chars (span.stop - unit.base)
  slice : ∀ span text, map.slice? span = some text ↔ ∃ unit ∈ map.units, unit.Carries span text

/-- The number of positions that texts take, the one left free behind each of them included. -/
def extent : List (String × String) → Nat
  | [] => 0
  | (_, text) :: rest => Text.byteLength text.toList + 1 + extent rest

theorem extent_concat (texts : List (String × String)) (name text : String) :
    extent (texts ++ [(name, text)]) = extent texts + Text.byteLength text.toList + 1 := by
  induction texts with
  | nil => simp [extent]
  | cons entry rest ih =>
      rw [List.cons_append, extent, ih, extent]
      omega

theorem placeFrom_append (base : Nat) (texts more : List (String × String)) :
    placeFrom base (texts ++ more) = placeFrom base texts ++ placeFrom (base + extent texts) more := by
  induction texts generalizing base with
  | nil => rfl
  | cons entry rest ih =>
      rw [List.cons_append, placeFrom, ih, placeFrom, extent, List.cons_append]
      congr 3
      omega

theorem ofTexts_concat (texts : List (String × String)) (name text : String) :
    ofTexts (texts ++ [(name, text)]) = (ofTexts texts).push ⟨name, extent texts, text⟩ := by
  rw [ofTexts, placeFrom_append, Nat.zero_add]
  rfl

/-- Texts leave no gap: they take the positions from their base up to the one before the base that
follows. -/
theorem covered_placeFrom {base : Nat} {texts : List (String × String)} {pos : Nat} :
    (∃ unit ∈ placeFrom base texts, unit.Covers pos) ↔ base ≤ pos ∧ pos < base + extent texts := by
  induction texts generalizing base with
  | nil => simp [placeFrom, extent]
  | cons entry rest ih =>
      rw [placeFrom, extent, List.exists_mem_cons_iff, ih]
      simp only [SourceUnit.Covers, SourceUnit.length, SourceUnit.chars]
      omega

/-- As long as there are positions for all texts, the next base is the number of those taken. -/
theorem nextBase_ofTexts {texts : List (String × String)} (fits : extent texts ≤ maxPosition) :
    (ofTexts texts).nextBase = extent texts := by
  induction texts using List.reverseRecOn with
  | nil => rfl
  | append_singleton texts entry ih =>
      rw [extent_concat] at fits ⊢
      have hInner : extent texts + Text.byteLength entry.2.toList < maxPosition := fits
      rw [ofTexts_concat, nextBase_push, ih (by omega), SourceUnit.behind_eq hInner]
      exact Nat.max_eq_right (by simp only [SourceUnit.length, SourceUnit.chars]; omega)

theorem owner_ofTexts (texts : List (String × String)) (pos : Nat) (number : UnitId)
    (unit : SourceUnit) : (ofTexts texts).unitAt? pos = some (number, unit) ↔
      (ofTexts texts).get? number = some unit ∧ unit.Covers pos := by
  constructor
  · exact covers_of_unitAt?
  · rintro ⟨hUnit, covers⟩
    exact unitAt?_ofTexts hUnit covers

/-- A slice is read in the unit that covers its start. -/
theorem slice?_ofTexts_iff (texts : List (String × String)) (span : Span) (text : String) :
    (ofTexts texts).slice? span = some text ↔
      ∃ unit ∈ (ofTexts texts).units, unit.Carries span text := by
  simp only [slice?, Option.bind_eq_bind, Option.bind_eq_some_iff, Prod.exists, owner_ofTexts,
    SourceUnit.slice?_eq_some_iff]
  constructor
  · rintro ⟨number, unit, ⟨hUnit, _⟩, hCarries⟩
    exact ⟨unit, List.mem_of_getElem? hUnit, hCarries⟩
  · rintro ⟨unit, member, hCarries⟩
    obtain ⟨number, hUnit⟩ := List.mem_iff_getElem?.mp member
    obtain ⟨⟨hStart, hStop⟩, hOrder, _⟩ := id hCarries
    exact ⟨number, unit, ⟨hUnit, hStart, Nat.le_trans hOrder hStop⟩, hCarries⟩

theorem unambiguous_ofTexts {texts : List (String × String)} (fits : extent texts ≤ maxPosition) :
    (ofTexts texts).Unambiguous where
  disjoint first second left right other hLeft hRight pos := by
    rintro ⟨inLeft, inRight⟩
    have hFirst := unitAt?_ofTexts hLeft inLeft
    have hSecond := unitAt?_ofTexts hRight inRight
    rw [hFirst] at hSecond
    exact other (Prod.mk.inj (Option.some.inj hSecond)).1
  covered pos := by
    rw [nextBase_ofTexts fits, ofTexts, covered_placeFrom, Nat.zero_add]
    exact and_iff_right (Nat.zero_le pos)
  owner := owner_ofTexts texts
  sliced span := by
    simp only [Option.isSome_iff_exists, slice?_ofTexts_iff]
    constructor
    · rintro ⟨text, unit, member, hCarries⟩
      obtain ⟨hInside, hOrder, hEnds⟩ := SourceUnit.exists_carries_iff.mp ⟨text, hCarries⟩
      exact ⟨hOrder, unit, member, hInside, hEnds⟩
    · rintro ⟨hOrder, unit, member, hInside, hEnds⟩
      obtain ⟨text, hCarries⟩ := SourceUnit.exists_carries_iff.mpr ⟨hInside, hOrder, hEnds⟩
      exact ⟨text, unit, member, hCarries⟩
  slice := slice?_ofTexts_iff texts

/-- A way to put a unit into a source map. -/
inductive Placing where
  /-- Behind all units. -/
  | add (name text : String)
  /-- Where the unit says. -/
  | push (unit : SourceUnit)

/-- The source map with one more unit. -/
def place (map : SourceMap) : Placing → SourceMap
  | .add name text => map.add name text
  | .push unit => map.push unit

/-- The source map of units that were put there one after the other. -/
def placed (placings : List Placing) : SourceMap :=
  placings.foldl place empty

theorem placed_concat (placings : List Placing) (last : Placing) :
    placed (placings ++ [last]) = (placed placings).place last := by
  simp [placed]

theorem exists_push (map : SourceMap) (placing : Placing) :
    ∃ unit, map.place placing = map.push unit := by
  cases placing with
  | add name text => exact ⟨⟨name, map.nextBase, text⟩, rfl⟩
  | push unit => exact ⟨unit, rfl⟩

theorem size_placed (placings : List Placing) : (placed placings).size = placings.length := by
  induction placings using List.reverseRecOn with
  | nil => rfl
  | append_singleton placings last ih =>
      obtain ⟨unit, hPush⟩ := exists_push (placed placings) last
      rw [placed_concat, hPush, List.length_append, ← ih]
      simp [push, size]

/-- What a placing that appends a text makes of it: a unit with this text which is apart from all
earlier units. Later placings do not touch it. -/
def Appends (map : SourceMap) (number : UnitId) (name text : String) : Prop :=
  ∃ unit, map.get? number = some unit ∧ unit.name = name ∧ unit.text = text ∧
    ∀ other earlier, other < number → map.get? other = some earlier → earlier.Apart unit

/-- One step: a text that is appended now is apart from all units that are there, unless one of them
obstructs it. A unit that ends before the largest position is in front of the next base, so that only
those which end there are left. -/
theorem appends_add_iff {name text : String}
    (fits : ∀ unit ∈ map.units, unit.base + unit.length ≤ maxPosition) :
    (map.add name text).Appends map.size name text ↔ ∀ unit ∈ map.units,
      ¬ unit.Obstructs map.nextBase (Text.byteLength text.toList) := by
  have hNew : (map.add name text).get? map.size = some ⟨name, map.nextBase, text⟩ :=
    get?_push_new map _
  constructor
  · rintro ⟨unit, hUnit, _, _, hApart⟩ earlier member ⟨hEnd, hReaches⟩
    obtain rfl := Option.some.inj (hUnit.symm.trans hNew)
    obtain ⟨other, hOther, hEarlier⟩ := List.mem_iff_getElem.mp member
    have hOld : (map.add name text).get? other = some earlier := by
      rw [add, get?_push_old map _ hOther]
      exact List.getElem?_eq_some_iff.mpr ⟨hOther, hEarlier⟩
    have hNext := map.nextBase_le
    -- the first position at which both have started is in both
    refine hApart other earlier hOther hOld (max earlier.base map.nextBase) ?_
    simp only [SourceUnit.Covers, SourceUnit.length, SourceUnit.chars] at hEnd hReaches ⊢
    omega
  · intro hClear
    refine ⟨_, hNew, rfl, rfl, ?_⟩
    intro other earlier hBefore hEarlier
    rw [add, get?_push_old map _ hBefore] at hEarlier
    have hMember := List.mem_of_getElem? hEarlier
    rcases Nat.lt_or_eq_of_le (fits earlier hMember) with hInner | hEnd
    · exact SourceUnit.apart_of_lt (lt_nextBase_of_mem hMember hInner)
    · rintro pos ⟨⟨hStart, _⟩, ⟨_, hStop⟩⟩
      exact hClear earlier hMember ⟨hEnd, Nat.le_trans hStart hStop⟩

/-- Whether a text was appended behind the earlier units shows in the units up to it. -/
theorem Appends.congr {other : SourceMap} {name text : String} (h : map.Appends number name text)
    (same : ∀ place ≤ number, other.get? place = map.get? place) :
    other.Appends number name text := by
  obtain ⟨unit, hUnit, hName, hText, hApart⟩ := h
  refine ⟨unit, (same number (Nat.le_refl number)).trans hUnit, hName, hText, ?_⟩
  intro place earlier hBefore hEarlier
  rw [same place (Nat.le_of_lt hBefore)] at hEarlier
  exact hApart place earlier hBefore hEarlier

/-- One step: a unit that is put somewhere does not move the units that are there. -/
theorem appends_push_iff {name text : String} (old : number < map.size) (next : SourceUnit) :
    (map.push next).Appends number name text ↔ map.Appends number name text := by
  have hSame : ∀ place ≤ number, (map.push next).get? place = map.get? place := fun place hPlace =>
    get?_push_old map next (Nat.lt_of_le_of_lt hPlace old)
  exact ⟨fun h => h.congr fun place hPlace => (hSame place hPlace).symm, fun h => h.congr hSame⟩

/-- The whole run: a text that was appended is apart from the units that were there before, unless
one of them obstructs it. -/
theorem appends_placed_iff {placings : List Placing} {name text : String}
    (appended : placings[number]? = some (.add name text))
    (fits : ∀ unit ∈ (placed (placings.take number)).units,
      unit.base + unit.length ≤ maxPosition) :
    (placed placings).Appends number name text ↔
      ∀ unit ∈ (placed (placings.take number)).units,
        ¬ unit.Obstructs (placed (placings.take number)).nextBase
          (Text.byteLength text.toList) := by
  induction placings using List.reverseRecOn with
  | nil => cases appended
  | append_singleton placings last ih =>
      have hNumber : number < (placings ++ [last]).length :=
        (List.getElem?_eq_some_iff.mp appended).1
      rw [List.length_append, List.length_singleton] at hNumber
      have hTake : (placings ++ [last]).take number = placings.take number :=
        List.take_append_of_le_length (Nat.le_of_lt_succ hNumber)
      rw [hTake] at fits ⊢
      rw [placed_concat]
      rcases Nat.lt_or_eq_of_le (Nat.le_of_lt_succ hNumber) with hOld | rfl
      · rw [List.getElem?_append_left hOld] at appended
        obtain ⟨unit, hPush⟩ := exists_push (placed placings) last
        rw [hPush, appends_push_iff (by rwa [size_placed]), ih appended fits]
      · rw [List.getElem?_concat_length] at appended
        obtain rfl := Option.some.inj appended
        rw [List.take_length] at fits ⊢
        rw [← size_placed placings]
        exact appends_add_iff fits

/-- Texts that are all appended are placed one behind the other, as long as there are positions for
them. -/
theorem placed_texts {texts : List (String × String)} (fits : extent texts ≤ maxPosition) :
    placed (texts.map fun entry => .add entry.1 entry.2) = ofTexts texts := by
  induction texts using List.reverseRecOn with
  | nil => rfl
  | append_singleton texts entry ih =>
      have hBefore : extent texts ≤ maxPosition := by
        rw [extent_concat] at fits
        omega
      rw [List.map_append, List.map_singleton, placed_concat, ih hBefore, place, add,
        nextBase_ofTexts hBefore, ofTexts_concat]

end SourceMap

end SyntaxAtlas
