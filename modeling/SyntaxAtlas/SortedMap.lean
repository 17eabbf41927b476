/-!
Finite maps kept in the order of their keys.

The map is a list of entries with strictly increasing keys, so two maps are equal as soon as they
list the same entries, and printing a map needs no sorting.
-/
namespace SyntaxAtlas

/-- A finite map whose entries are listed by increasing key. -/
structure SortedMap (κ : Type) (α : Type) [LT κ] where
  /-- Keys with their values. -/
  entries : List (κ × α)
  /-- No key stands before a smaller or equal one. -/
  sorted : entries.Pairwise fun a b => a.1 < b.1
deriving DecidableEq, Repr

/-- Texts are compared character by character, which is transitive. -/
instance transText : Trans (α := String) (· < ·) (· < ·) (· < ·) :=
  ⟨String.lt_trans⟩

namespace SortedMap

variable {κ α : Type} [LT κ]

/-- The map without entries. -/
def empty : SortedMap κ α :=
  ⟨[], .nil⟩

instance : Inhabited (SortedMap κ α) := ⟨empty⟩

/-- The number of entries. -/
def size (map : SortedMap κ α) : Nat :=
  map.entries.length

/-- No entry at all. -/
def isEmpty (map : SortedMap κ α) : Bool :=
  map.entries.isEmpty

/-- The value under a key. -/
def get? [BEq κ] (map : SortedMap κ α) (key : κ) : Option α :=
  map.entries.lookup key

section Insert

variable [DecidableLT κ]

/-- One pass that puts an entry at its place. A value under the same key is replaced. -/
def insertEntry (key : κ) (value : α) : List (κ × α) → List (κ × α)
  | [] => [(key, value)]
  | entry :: rest =>
    if key < entry.1 then
      (key, value) :: entry :: rest
    else if entry.1 < key then
      entry :: insertEntry key value rest
    else
      (entry.1, value) :: rest

/-- Every key after the insertion is the new key or was there before. -/
theorem fst_of_mem_insertEntry {key : κ} {value : α} {entries : List (κ × α)} {entry : κ × α}
    (h : entry ∈ insertEntry key value entries) :
    entry.1 = key ∨ ∃ old ∈ entries, old.1 = entry.1 := by
  induction entries with
  | nil =>
    simp only [insertEntry, List.mem_singleton] at h
    exact .inl (h ▸ rfl)
  | cons head rest ih =>
    simp only [insertEntry] at h
    split at h
    · rcases List.mem_cons.1 h with rfl | h
      · exact .inl rfl
      · exact .inr ⟨entry, h, rfl⟩
    · split at h
      · rcases List.mem_cons.1 h with rfl | h
        · exact .inr ⟨entry, List.mem_cons_self, rfl⟩
        · rcases ih h with h | ⟨old, hold, heq⟩
          · exact .inl h
          · exact .inr ⟨old, List.mem_cons_of_mem _ hold, heq⟩
      · rcases List.mem_cons.1 h with rfl | h
        · exact .inr ⟨head, List.mem_cons_self, rfl⟩
        · exact .inr ⟨entry, List.mem_cons_of_mem _ h, rfl⟩

variable [Trans (α := κ) (· < ·) (· < ·) (· < ·)]

theorem insertEntry_sorted {key : κ} {value : α} {entries : List (κ × α)}
    (h : entries.Pairwise fun a b => a.1 < b.1) :
    (insertEntry key value entries).Pairwise fun a b => a.1 < b.1 := by
  induction entries with
  | nil => exact List.pairwise_singleton _ _
  | cons head rest ih =>
    obtain ⟨hhead, hrest⟩ := List.pairwise_cons.1 h
    simp only [insertEntry]
    split
    · rename_i hlt
      refine List.pairwise_cons.2 ⟨fun entry hentry => ?_, h⟩
      rcases List.mem_cons.1 hentry with rfl | hentry
      · exact hlt
      · exact Trans.trans hlt (hhead entry hentry)
    · split
      · rename_i hgt
        refine List.pairwise_cons.2 ⟨fun entry hentry => ?_, ih hrest⟩
        rcases fst_of_mem_insertEntry hentry with hkey | ⟨old, hold, hkey⟩
        · exact hkey ▸ hgt
        · exact hkey ▸ hhead old hold
      · exact List.pairwise_cons.2 ⟨fun entry hentry => hhead entry hentry, hrest⟩

/-- The map with a value put under a key. -/
def insert (map : SortedMap κ α) (key : κ) (value : α) : SortedMap κ α :=
  ⟨insertEntry key value map.entries, insertEntry_sorted map.sorted⟩

/-- The map that results from putting entries one after the other: under a repeated key the last
value stays. -/
def ofEntries (entries : List (κ × α)) : SortedMap κ α :=
  entries.foldl (fun map entry => map.insert entry.1 entry.2) empty

end Insert

end SortedMap

end SyntaxAtlas
