import SyntaxAtlas.SortedMap

/-! Sorted maps as maps. The keys of a sorted map are distinct, so that the list of its entries and the
look-up of keys tell the same, and putting a value under a key changes what is under this key only. -/
namespace SyntaxAtlas.SortedMap

section Keys

variable {κ α : Type} [LT κ] [Std.Irrefl (α := κ) (· < ·)]

theorem pairwise_keys_ne (map : SortedMap κ α) : map.entries.Pairwise fun a b => a.1 ≠ b.1 := by
  apply map.sorted.imp
  intro first second hLess hSame
  rw [hSame] at hLess
  exact Std.Irrefl.irrefl second.1 hLess

theorem nodup_keys (map : SortedMap κ α) : (map.entries.map Prod.fst).Nodup :=
  List.pairwise_map.mpr map.pairwise_keys_ne

end Keys

section Lookup

variable {κ α : Type} [DecidableEq κ]

theorem lookup_cons (entry : κ × α) (rest : List (κ × α)) (key : κ) :
    (entry :: rest).lookup key = if key = entry.1 then some entry.2 else rest.lookup key := by
  rw [List.lookup_cons]
  by_cases hSame : key = entry.1
  · simp [hSame]
  · have hOther : (key == entry.1) = false := by simpa using hSame
    rw [hOther, if_neg hSame]

/-- What is listed with a key is what is found under it. -/
theorem mem_iff_lookup {entries : List (κ × α)} (distinct : entries.Pairwise fun a b => a.1 ≠ b.1)
    {key : κ} {value : α} : (key, value) ∈ entries ↔ entries.lookup key = some value := by
  induction distinct with
  | nil => simp
  | @cons head rest hApart _ ih =>
      rw [lookup_cons, List.mem_cons, ih]
      by_cases hSame : key = head.1
      · have hOnly : rest.lookup key = none := by
          rw [List.lookup_eq_none_iff]
          intro entry member
          simpa [hSame] using hApart entry member
        rw [if_pos hSame, hOnly]
        constructor
        · rintro (rfl | hNone)
          · rfl
          · cases hNone
        · intro hValue
          left
          rw [hSame, ← Option.some.inj hValue]
      · rw [if_neg hSame]
        constructor
        · rintro (rfl | hRest)
          · exact absurd rfl hSame
          · exact hRest
        · exact .inr

variable [LT κ] [Std.Irrefl (α := κ) (· < ·)]

theorem mem_entries_iff (map : SortedMap κ α) {key : κ} {value : α} :
    (key, value) ∈ map.entries ↔ map.get? key = some value :=
  mem_iff_lookup map.pairwise_keys_ne

variable [DecidableLT κ] [Std.Trichotomous (α := κ) (· < ·)]

theorem lookup_insertEntry (entries : List (κ × α)) (key other : κ) (value : α) :
    (insertEntry key value entries).lookup other =
      if other = key then some value else entries.lookup other := by
  induction entries with
  | nil => rw [insertEntry, lookup_cons, List.lookup_nil]
  | cons head rest ih =>
      rw [insertEntry]
      by_cases hBefore : key < head.1
      · rw [if_pos hBefore, lookup_cons]
      · rw [if_neg hBefore]
        by_cases hBehind : head.1 < key
        · rw [if_pos hBehind, lookup_cons, lookup_cons, ih]
          -- the head has another key
          by_cases hHead : other = head.1
          · have hOther : other ≠ key := by
              rintro rfl
              rw [← hHead] at hBehind
              exact Std.Irrefl.irrefl other hBehind
            rw [if_pos hHead, if_pos hHead, if_neg hOther]
          · rw [if_neg hHead, if_neg hHead]
        · have hSame : key = head.1 := Std.Trichotomous.trichotomous key head.1 hBefore hBehind
          rw [if_neg hBehind, lookup_cons, lookup_cons, hSame]
          by_cases hHead : other = head.1
          · rw [if_pos hHead, if_pos hHead]
          · rw [if_neg hHead, if_neg hHead, if_neg hHead]

theorem get?_insert [Trans (α := κ) (· < ·) (· < ·) (· < ·)] (map : SortedMap κ α)
    (key other : κ) (value : α) :
    (map.insert key value).get? other = if other = key then some value else map.get? other :=
  lookup_insertEntry map.entries key other value

end Lookup

end SyntaxAtlas.SortedMap
