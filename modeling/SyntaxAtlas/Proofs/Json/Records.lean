import Mathlib.Data.List.Basic
import SyntaxAtlas.Proofs.Json.Spelling
import SyntaxAtlas.Json.Record

/-! Records and what is read out of them. A record is written with the members that are there;
reading it by the names of its fields gives a slot for every field, empty where the member was left
out. -/
namespace SyntaxAtlas

namespace Json

theorem mapM_eq_some_map {α β : Type} {entries : List α} {f : α → Option β} {g : α → β}
    (h : ∀ entry ∈ entries, f entry = some (g entry)) : entries.mapM f = some (entries.map g) := by
  induction entries with
  | nil => rfl
  | cons entry rest ih =>
      have hRest := ih fun other member => h other (List.mem_cons_of_mem entry member)
      simp [List.mapM_cons, h entry List.mem_cons_self, hRest]

/-- The members for fields whose slots are filled. -/
def filled (fields : List (String × Option Json)) : List (String × Json) :=
  fields.filterMap fun (name, slot) => slot.map (name, ·)

theorem filled_cons (name : String) (slot : Option Json) (rest : List (String × Option Json)) :
    filled ((name, slot) :: rest) = slot.toList.map (name, ·) ++ filled rest := by
  cases slot <;> rfl

section Slots

variable {fields : List (String × Option Json)} {name : String} {slot : Option Json}

theorem filter_filled_of_absent (absent : name ∉ fields.map Prod.fst) :
    (filled fields).filter (·.1 = name) = [] := by
  rw [List.filter_eq_nil_iff]
  intro member hMember
  obtain ⟨⟨other, slot⟩, hField, hSlot⟩ := List.mem_filterMap.mp hMember
  obtain ⟨value, _, rfl⟩ := Option.map_eq_some_iff.mp hSlot
  have hOther : other ∈ fields.map Prod.fst := List.mem_map_of_mem hField
  simp only [decide_eq_true_eq]
  rintro rfl
  exact absent hOther

theorem filter_filled (distinct : (fields.map Prod.fst).Nodup) (member : (name, slot) ∈ fields) :
    (filled fields).filter (·.1 = name) = slot.toList.map (name, ·) := by
  induction fields with
  | nil => cases member
  | cons field rest ih =>
      obtain ⟨first, held⟩ := field
      obtain ⟨hAbsent, hRest⟩ := List.nodup_cons.mp distinct
      rw [filled_cons, List.filter_append]
      rcases List.mem_cons.mp member with hHead | hTail
      · obtain ⟨rfl, rfl⟩ := Prod.mk.inj hHead
        rw [filter_filled_of_absent hAbsent]
        simp
      · have hName : name ∈ rest.map Prod.fst := List.mem_map_of_mem hTail
        have hOther : first ≠ name := by
          rintro rfl
          exact hAbsent hName
        rw [ih hRest hTail]
        simp [hOther]

theorem slot?_filled (distinct : (fields.map Prod.fst).Nodup) (member : (name, slot) ∈ fields) :
    slot? (filled fields) name = some slot := by
  rw [slot?, filter_filled distinct member]
  cases slot <;> rfl

end Slots

theorem slots?_record (names : List String) (members : List (String × Json)) :
    (record members).slots? names = names.mapM (slot? members) := by
  have hMembers : textMembers? (record members) = some members := by
    rw [record, textMembers?, List.mapM_map, mapM_eq_some_map (g := id), List.map_id]
    simp [unescape?_escape]
  change (textMembers? (record members)).bind _ = _
  rw [hMembers]
  rfl

/-- Reading a record gives back its slots, when no two fields have the same name. -/
theorem slots?_eq (names : List String) (slots : List (Option Json)) {value : Json}
    (distinct : names.Nodup) (together : names.length = slots.length)
    (written : value = record (filled (names.zip slots))) : value.slots? names = some slots := by
  have hNames : (names.zip slots).map Prod.fst = names := List.map_fst_zip (by omega)
  have hSlots : (names.zip slots).map Prod.snd = slots := List.map_snd_zip (by omega)
  have hRead : ((names.zip slots).map Prod.fst).mapM (slot? (filled (names.zip slots))) =
      some ((names.zip slots).map Prod.snd) := by
    rw [List.mapM_map]
    apply mapM_eq_some_map
    rintro ⟨name, slot⟩ member
    apply slot?_filled _ member
    rwa [hNames]
  rwa [hNames, hSlots, ← slots?_record, ← written] at hRead

theorem text?_ofText (text : String) : text? (ofText text) = some text := by
  simp [text?, ofText, unescape?_escape]

theorem nat?_ofNat {n bound : Nat} (fits : n ≤ bound) : nat? bound (ofNat n) = some n := by
  simp [nat?, ofNat, Text.ofDecimal?_decimal, fits]

section Values

variable {α : Type} {write : α → Json} {value? : Json → Option α}

theorem list?_map {entries : List α} (h : ∀ entry ∈ entries, value? (write entry) = some entry) :
    list? value? (.arr (entries.map write)) = some entries := by
  rw [list?, List.mapM_map]
  exact (mapM_eq_some_map (g := id) h).trans (congrArg some (List.map_id entries))

/-- A list is left out when it is empty. -/
theorem optional?_list {entries : List α}
    (h : ∀ entry ∈ entries, value? (write entry) = some entry) :
    optional? [] (list? value?)
      (if entries.isEmpty then none else some (.arr (entries.map write))) = some entries := by
  cases entries with
  | nil => rfl
  | cons entry rest => exact list?_map h

/-- A value that may be missing is left out when it is. -/
theorem optional?_nullable {entry : Option α}
    (h : ∀ value ∈ entry, value? (write value) = some value) (hNull : value? .null = none) :
    optional? none (nullable? value?) (entry.map write) = some entry := by
  cases entry with
  | none => rfl
  | some value =>
      have hValue := h value rfl
      simp only [Option.map_some, optional?]
      unfold nullable?
      split
      · simp_all
      · simp [hValue]

theorem plain_array {entries : List α} (h : ∀ entry, (write entry).Plain) :
    (Json.arr (entries.map write)).Plain := by
  apply Plain.array
  intro item member
  obtain ⟨entry, _, rfl⟩ := List.mem_map.mp member
  exact h entry

end Values

theorem plain_ofText (text : String) : (ofText text).Plain :=
  .string text.toList

theorem plain_record {members : List (String × Json)} (h : ∀ member ∈ members, member.2.Plain) :
    (record members).Plain := by
  apply Plain.object
  · intro member hMember
    obtain ⟨⟨name, value⟩, _, rfl⟩ := List.mem_map.mp hMember
    exact ⟨name.toList, rfl⟩
  · intro member hMember
    obtain ⟨⟨name, value⟩, hNamed, rfl⟩ := List.mem_map.mp hMember
    exact h (name, value) hNamed

end Json

namespace Span

/-- Both ends are positions that a document may mention. -/
def Fits (span : Span) : Prop :=
  span.start ≤ maxPosition ∧ span.stop ≤ maxPosition

instance (span : Span) : Decidable span.Fits :=
  inferInstanceAs (Decidable (_ ∧ _))

theorem plain_toJson (span : Span) : span.toJson.Plain := by
  apply Json.plain_record
  simp [Json.Plain.number]

theorem ofJson?_toJson {span : Span} (fits : span.Fits) : ofJson? span.toJson = some span := by
  have hSlots : span.toJson.slots? ["start", "end"] =
      some [some (.ofNat span.start), some (.ofNat span.stop)] :=
    Json.slots?_eq _ _ (by decide) rfl rfl
  simp [ofJson?, hSlots, Json.required?, Json.nat?_ofNat fits.1, Json.nat?_ofNat fits.2]

end Span

end SyntaxAtlas
