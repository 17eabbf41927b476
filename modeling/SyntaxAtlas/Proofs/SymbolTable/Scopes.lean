import Mathlib.Data.List.Basic
import SyntaxAtlas.SymbolTable.Basic

/-! Scopes of a symbol table. Both the innermost scope at a position and the declaration that is
visible there are found by keeping the latest start seen so far, the earlier entry on a tie; what
such a pass ends with is said once, and then for scopes. -/
namespace SyntaxAtlas

section Latest

variable {α : Type} (key : α → Nat)

/-- The one of two entries with the larger key, the held one on a tie. -/
def laterBy (best : Option α) (candidate : α) : Option α :=
  match best with
  | some held => if key candidate ≤ key held then some held else some candidate
  | none => some candidate

/-- A pass that holds one entry at a time, replaced or not by each next one, ends with one of
them. -/
theorem mem_of_foldl_choice {pick : Option α → α → Option α}
    (h : ∀ held entry, pick held entry = held ∨ pick held entry = some entry) {entries : List α}
    {best : α} (found : entries.foldl pick none = some best) : best ∈ entries := by
  have hAll : ∀ held, entries.foldl pick held = some best → held = some best ∨ best ∈ entries := by
    clear found
    induction entries with
    | nil => exact fun held hFold => .inl hFold
    | cons entry rest ih =>
        intro held hFold
        rcases ih _ hFold with hStep | hRest
        · rcases h held entry with hKept | hTaken
          · exact .inl (hKept.symm.trans hStep)
          · obtain rfl : entry = best := Option.some.inj (hTaken.symm.trans hStep)
            exact .inr List.mem_cons_self
        · exact .inr (List.mem_cons_of_mem entry hRest)
  rcases hAll none found with hNone | hMember
  · cases hNone
  · exact hMember

variable {key} in
theorem mem_of_foldl_laterBy {entries : List α} {best : α}
    (found : entries.foldl (laterBy key) none = some best) : best ∈ entries := by
  refine mem_of_foldl_choice ?_ found
  rintro (_ | held) entry
  · exact .inr rfl
  · unfold laterBy
    dsimp only
    split_ifs
    · exact .inl rfl
    · exact .inr rfl

/-- From a held entry on, the pass ends with it or with a later entry of larger key. -/
theorem foldl_laterBy_some (held : α) (entries : List α) :
    (entries.foldl (laterBy key) (some held) = some held ∧
        ∀ entry ∈ entries, key entry ≤ key held) ∨
      ∃ before best after, entries = before ++ best :: after ∧
        entries.foldl (laterBy key) (some held) = some best ∧ key held < key best ∧
        (∀ entry ∈ before, key entry < key best) ∧ ∀ entry ∈ after, key entry ≤ key best := by
  induction entries generalizing held with
  | nil => exact .inl ⟨rfl, by simp⟩
  | cons entry rest ih =>
      rw [List.foldl_cons]
      by_cases hTie : key entry ≤ key held
      · have hStep : laterBy key (some held) entry = some held := if_pos hTie
        rw [hStep]
        rcases ih held with
          ⟨hFold, hRest⟩ | ⟨before, best, after, rfl, hFold, hHeld, hBefore, hAfter⟩
        · exact .inl ⟨hFold, by simpa using ⟨hTie, hRest⟩⟩
        · refine .inr ⟨entry :: before, best, after, rfl, hFold, hHeld, ?_, hAfter⟩
          simpa using ⟨Nat.lt_of_le_of_lt hTie hHeld, hBefore⟩
      · have hStep : laterBy key (some held) entry = some entry := if_neg hTie
        have hLater : key held < key entry := Nat.not_le.mp hTie
        rw [hStep]
        rcases ih entry with
          ⟨hFold, hRest⟩ | ⟨before, best, after, rfl, hFold, hEntry, hBefore, hAfter⟩
        · exact .inr ⟨[], entry, rest, rfl, hFold, hLater, by simp, hRest⟩
        · have hHeld := Nat.lt_trans hLater hEntry
          refine .inr ⟨entry :: before, best, after, rfl, hFold, hHeld, ?_, hAfter⟩
          simpa using ⟨hEntry, hBefore⟩

theorem foldl_laterBy_eq_none_iff {entries : List α} :
    entries.foldl (laterBy key) none = none ↔ entries = [] := by
  cases entries with
  | nil => simp
  | cons entry rest =>
      rw [List.foldl_cons]
      change rest.foldl (laterBy key) (some entry) = none ↔ _
      rcases foldl_laterBy_some key entry rest with ⟨hFold, _⟩ | ⟨_, best, _, _, hFold, _⟩ <;>
        simp [hFold]

/-- Entries that are not later than the held one do not replace it. -/
theorem foldl_laterBy_of_le {held : α} {entries : List α}
    (h : ∀ entry ∈ entries, key entry ≤ key held) :
    entries.foldl (laterBy key) (some held) = some held := by
  rcases foldl_laterBy_some key held entries with
    ⟨hFold, _⟩ | ⟨before, best, after, rfl, _, hLater, _, _⟩
  · exact hFold
  · have hBest := h best (by simp)
    exact absurd hLater (Nat.not_lt.mpr hBest)

/-- What the pass ends with is the first entry with the largest key. -/
theorem foldl_laterBy_eq_some_iff {entries : List α} {best : α} :
    entries.foldl (laterBy key) none = some best ↔
      ∃ before after, entries = before ++ best :: after ∧
        (∀ entry ∈ before, key entry < key best) ∧ ∀ entry ∈ after, key entry ≤ key best := by
  refine ⟨?_, ?_⟩
  · intro h
    cases entries with
    | nil => cases h
    | cons entry rest =>
        rw [List.foldl_cons] at h
        change rest.foldl (laterBy key) (some entry) = some best at h
        rcases foldl_laterBy_some key entry rest with
          ⟨hFold, hRest⟩ | ⟨before, last, after, rfl, hFold, hEntry, hBefore, hAfter⟩
        · obtain rfl : entry = best := Option.some.inj (hFold.symm.trans h)
          exact ⟨[], rest, rfl, by simp, hRest⟩
        · obtain rfl : last = best := Option.some.inj (hFold.symm.trans h)
          exact ⟨entry :: before, after, rfl, by simpa using ⟨hEntry, hBefore⟩, hAfter⟩
  · rintro ⟨before, after, rfl, hBefore, hAfter⟩
    -- whatever is held when the best entry comes is replaced by it
    have hStep : laterBy key (before.foldl (laterBy key) none) best = some best := by
      cases hHeld : before.foldl (laterBy key) none with
      | none => rfl
      | some held =>
          have hMember : held ∈ before := mem_of_foldl_laterBy hHeld
          exact if_neg (Nat.not_le.mpr (hBefore held hMember))
    rw [List.foldl_append, List.foldl_cons, hStep]
    exact foldl_laterBy_of_le key hAfter

/-- Nothing in the list has a larger key than what the pass ends with. -/
theorem le_of_foldl_laterBy {entries : List α} {best entry : α}
    (found : entries.foldl (laterBy key) none = some best) (member : entry ∈ entries) :
    key entry ≤ key best := by
  obtain ⟨before, after, rfl, hBefore, hAfter⟩ := (foldl_laterBy_eq_some_iff key).mp found
  rcases List.mem_append.mp member with hMember | hMember
  · exact Nat.le_of_lt (hBefore entry hMember)
  · rcases List.mem_cons.mp hMember with rfl | hMember
    · exact Nat.le_refl _
    · exact hAfter entry hMember

/-- What the pass ends with is the first entry that has its key. -/
theorem find?_of_foldl_laterBy {entries : List α} {best : α}
    (found : entries.foldl (laterBy key) none = some best) :
    entries.find? (fun entry => decide (key entry = key best)) = some best := by
  obtain ⟨before, after, rfl, hBefore, _⟩ := (foldl_laterBy_eq_some_iff key).mp found
  have hNone : before.find? (fun entry => decide (key entry = key best)) = none := by
    rw [List.find?_eq_none]
    intro entry member
    have hLess := hBefore entry member
    simp only [decide_eq_true_eq]
    omega
  simp [List.find?_append, hNone]

end Latest

/-- Two searches through one list that accept each other's result end at the same place. -/
theorem find?_eq_of_mutual {α : Type} {entries : List α} {left right : α → Bool} {first second : α}
    (hLeft : entries.find? left = some first) (hRight : entries.find? right = some second)
    (across : right first = true) (back : left second = true) : first = second := by
  induction entries with
  | nil => simp at hLeft
  | cons entry rest ih =>
      rw [List.find?_cons] at hLeft hRight
      cases hl : left entry <;> cases hr : right entry <;>
        simp only [hl, hr, Option.some.injEq] at hLeft hRight
      · exact ih hLeft hRight
      · subst hRight
        simp [hl] at back
      · subst hLeft
        simp [hr] at across
      · exact hLeft.symm.trans hRight

namespace SymbolTable

/-- Two scopes that share a position are nested. -/
def Laminar (table : SymbolTable) : Prop :=
  ∀ first ∈ table.scopes, ∀ second ∈ table.scopes, ∀ pos, first.Contains pos →
    second.Contains pos → first.range.Encloses second.range ∨ second.range.Encloses first.range

theorem innermostScope?_eq (table : SymbolTable) (pos : Nat) :
    table.innermostScope? pos =
      (table.scopes.filter fun scope => decide (scope.Contains pos)).foldl
        (laterBy fun scope => scope.range.start) none := by
  have hStep : laterStart = laterBy fun scope : Scope => scope.range.start := by
    funext best scope
    cases best <;> rfl
  rw [innermostScope?, hStep]

/-- The innermost scope is one of the table, and it contains the position. -/
theorem innermostScope?_eq_some {table : SymbolTable} {pos : Nat} {scope : Scope}
    (h : table.innermostScope? pos = some scope) :
    scope ∈ table.scopes ∧ scope.Contains pos := by
  rw [innermostScope?_eq] at h
  simpa using mem_of_foldl_laterBy h

section Innermost

variable {table : SymbolTable} {pos : Nat} {scope : Scope}

/-- No scope around a position starts behind the innermost one. -/
theorem start_le_innermostScope? (h : table.innermostScope? pos = some scope) {other : Scope}
    (listed : other ∈ table.scopes) (around : other.Contains pos) :
    other.range.start ≤ scope.range.start := by
  rw [innermostScope?_eq] at h
  apply le_of_foldl_laterBy (fun scope : Scope => scope.range.start) h
  simp [listed, around]

/-- Two positions that lie in each other's innermost scopes have the same one, when both scopes
start together. Which of several is listed first does not depend on the position. -/
theorem innermostScope?_eq_of_tie {other : Nat} {rival : Scope}
    (h : table.innermostScope? pos = some scope) (hRival : table.innermostScope? other = some rival)
    (across : scope.Contains other) (back : rival.Contains pos)
    (tie : scope.range.start = rival.range.start) : scope = rival := by
  rw [innermostScope?_eq] at h hRival
  have hFirst := find?_of_foldl_laterBy (fun scope : Scope => scope.range.start) h
  have hSecond := find?_of_foldl_laterBy (fun scope : Scope => scope.range.start) hRival
  rw [List.find?_filter] at hFirst hSecond
  apply find?_eq_of_mutual hFirst hSecond
  · simp [across, tie]
  · simp [back, tie]

end Innermost

/-- The scopes around a position are nested, any two of them. -/
def NestedAt (table : SymbolTable) (pos : Nat) : Prop :=
  ∀ first ∈ table.scopes, ∀ second ∈ table.scopes, first.Contains pos → second.Contains pos →
    first.range.Encloses second.range ∨ second.range.Encloses first.range

/-- Of the scopes around a position, the first listed one of those that start last. -/
structure StartsLast (table : SymbolTable) (pos : Nat) (scope : Scope) : Prop where
  around : scope.Contains pos
  latest : ∀ other ∈ table.scopes, other.Contains pos → other.range.start ≤ scope.range.start
  first : ∃ before after, table.scopes = before ++ scope :: after ∧
    ∀ earlier ∈ before, earlier.Contains pos → earlier.range.start ≠ scope.range.start

variable {table : SymbolTable} {pos : Nat} {scope : Scope}

theorem innermostScope?_eq_none_iff :
    table.innermostScope? pos = none ↔ ∀ scope ∈ table.scopes, ¬ scope.Contains pos := by
  rw [innermostScope?_eq, foldl_laterBy_eq_none_iff, List.filter_eq_nil_iff]
  simp only [decide_eq_true_eq]

/-- The pass over the scopes ends with the first of those that start last. -/
theorem innermostScope?_eq_some_iff :
    table.innermostScope? pos = some scope ↔ table.StartsLast pos scope := by
  constructor
  · intro h
    obtain ⟨listed, around⟩ := innermostScope?_eq_some h
    refine ⟨around, fun other => start_le_innermostScope? h, ?_⟩
    rw [innermostScope?_eq] at h
    have hFirst := find?_of_foldl_laterBy (fun scope : Scope => scope.range.start) h
    rw [List.find?_filter, List.find?_eq_some_iff_append] at hFirst
    obtain ⟨_, before, after, hScopes, hBefore⟩ := hFirst
    refine ⟨before, after, hScopes, ?_⟩
    intro earlier member hAround
    simpa [hAround] using hBefore earlier member
  · rintro ⟨around, latest, before, after, hScopes, hBefore⟩
    rw [innermostScope?_eq, hScopes, List.filter_append, List.filter_cons_of_pos (by simpa),
      foldl_laterBy_eq_some_iff]
    refine ⟨_, _, rfl, ?_, ?_⟩
    · intro earlier member
      obtain ⟨hListed, hAround⟩ := List.mem_filter.mp member
      have hOther := hBefore earlier hListed (of_decide_eq_true hAround)
      have hLatest := latest earlier (by simp [hScopes, hListed]) (of_decide_eq_true hAround)
      omega
    · intro later member
      obtain ⟨hListed, hAround⟩ := List.mem_filter.mp member
      exact latest later (by simp [hScopes, hListed]) (of_decide_eq_true hAround)

/-- Where scopes are nested, a scope that starts earlier reaches around the one that starts last. -/
theorem StartsLast.enclosed (h : table.StartsLast pos scope) (nested : table.NestedAt pos)
    {other : Scope} (listed : other ∈ table.scopes) (around : other.Contains pos)
    (apart : other.range.start ≠ scope.range.start) : other.range.Encloses scope.range := by
  obtain ⟨before, after, hScopes, _⟩ := h.first
  have hListed : scope ∈ table.scopes := by simp [hScopes]
  rcases nested other listed scope hListed around h.around with hOuter | hInner
  · exact hOuter
  · have hLatest := h.latest other listed around
    exact absurd (Nat.le_antisymm hLatest hInner.1) apart

/-- The innermost scope at a position. There is none only where no scope is. Otherwise it is the
first listed one of those scopes around the position that start last, and where scopes are nested it
lies in every scope around the position that starts elsewhere. -/
theorem innermostScope?_tightest (table : SymbolTable) (pos : Nat) :
    (table.innermostScope? pos = none ↔ ∀ scope ∈ table.scopes, ¬ scope.Contains pos) ∧
    (∀ scope, table.innermostScope? pos = some scope ↔ table.StartsLast pos scope) ∧
    ∀ scope, table.innermostScope? pos = some scope → table.NestedAt pos →
      ∀ other ∈ table.scopes, other.Contains pos → other.range.start ≠ scope.range.start →
        other.range.Encloses scope.range := by
  refine ⟨innermostScope?_eq_none_iff, fun scope => innermostScope?_eq_some_iff, ?_⟩
  intro scope found nested other listed around apart
  exact (innermostScope?_eq_some_iff.mp found).enclosed nested listed around apart

end SymbolTable

namespace Sample

/-- Nested scopes out of order, one of them with an empty range and two with the same start. -/
def nestedScopes : SymbolTable where
  scopes := [
    { owner := ⟨4, 8⟩, range := ⟨4, 8⟩ },
    { owner := ⟨0, 20⟩, range := ⟨0, 20⟩ },
    { owner := ⟨6, 6⟩, range := ⟨6, 6⟩ },
    { owner := ⟨3, 9⟩, range := ⟨4, 9⟩ }]

end Sample

/-- At 6 the first of the two scopes is found that start at 4. Behind its end it is the second one, and
at 20 there is none. -/
theorem SymbolTable.innermostScope?_tightest_sample :
    let table := Sample.nestedScopes
    table.NestedAt 6 ∧ table.StartsLast 6 { owner := ⟨4, 8⟩, range := ⟨4, 8⟩ } ∧
      table.StartsLast 8 { owner := ⟨3, 9⟩, range := ⟨4, 9⟩ } ∧
      (∀ scope ∈ table.scopes, ¬ scope.Contains 20) ∧
      Span.Encloses ⟨0, 20⟩ ⟨4, 8⟩ := by
  intro table
  have hNested : table.NestedAt 6 := by
    unfold SymbolTable.NestedAt
    decide
  have hInner : table.innermostScope? 6 = some { owner := ⟨4, 8⟩, range := ⟨4, 8⟩ } := by decide
  obtain ⟨_, hSome, hEncloses⟩ := SymbolTable.innermostScope?_tightest table 6
  obtain ⟨_, hBehind, _⟩ := SymbolTable.innermostScope?_tightest table 8
  obtain ⟨hNone, _, _⟩ := SymbolTable.innermostScope?_tightest table 20
  exact ⟨hNested, (hSome _).mp hInner, (hBehind _).mp (by decide), hNone.mp (by decide),
    hEncloses _ hInner hNested { owner := ⟨0, 20⟩, range := ⟨0, 20⟩ } (by decide) (by decide)
      (by decide)⟩

end SyntaxAtlas
