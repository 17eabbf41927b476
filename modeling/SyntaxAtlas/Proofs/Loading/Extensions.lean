import Mathlib.Data.List.Infix
import SyntaxAtlas.Settings

/-! Extensions and file names. Settings are refused when an extension is blank or starts with a dot. A
file name is cut at its last dot, so that its extension has no dot at all, and an extension with a dot
inside passes without ever being met: what counts in its place is the part behind its last dot. -/
namespace SyntaxAtlas

/-- A text without a character ends a longer text before which the character stands, or it ends what
stands behind the character. -/
theorem Text.isSuffix_append_cons_iff {separator : Char} {ending front last : List Char}
    (plain : separator ∉ ending) : ending <:+ front ++ separator :: last ↔ ending <:+ last := by
  constructor
  · intro h
    rcases List.suffix_or_suffix_of_suffix h (List.suffix_append front (separator :: last)) with
      hInside | hOver
    · rcases List.suffix_cons_iff.mp hInside with rfl | hLast
      · exact absurd List.mem_cons_self plain
      · exact hLast
    · exact absurd (hOver.subset List.mem_cons_self) plain
  · intro h
    exact (h.trans (List.suffix_cons separator last)).trans (List.suffix_append front _)

theorem extensionIssue?_eq_none_iff {extension : String} : extensionIssue? extension = none ↔
    ¬ Text.isBlankText extension.toList ∧ extension.toList.head? ≠ some '.' := by
  unfold extensionIssue?
  split_ifs with hBlank hDot
  · simp [hBlank]
  · simpa [hBlank] using hDot
  · simpa [hBlank] using hDot

/-- What it takes to pass validation. -/
theorem Settings.issues_eq_nil_iff {settings : Settings} : settings.issues = [] ↔
    settings.load.extensions ≠ [] ∧
      (∀ extension ∈ settings.load.extensions, extensionIssue? extension = none) ∧
      settings.symbols ≠ some "" := by
  simp [issues]

namespace LoadSettings

variable {settings : LoadSettings} {front last : List Char}

/-- Whether a file is loaded hangs on the two pieces of its name around the last dot. -/
theorem accepts_cut {fileName : String} (cut : fileName.toList = front ++ '.' :: last)
    (plain : '.' ∉ last) : settings.accepts fileName = true ↔
      String.ofList last ∈ settings.extensions ∧
        (settings.includeTests = true ∨ ¬ "_test".toList <:+ front) := by
  rw [accepts, cut, Text.splitLast?_append plain]
  simp [← List.isSuffixOf_iff_suffix]

/-- An extension that is listed in vain. It has a dot inside, and the part behind its last dot is not
listed, or the part before it marks tests, which are left out. -/
def Misses (settings : LoadSettings) (extension : String) : Prop :=
  ∃ front last, extension = front ++ "." ++ last ∧ front ≠ "" ∧ '.' ∉ last.toList ∧
    (last ∉ settings.extensions ∨
      settings.includeTests = false ∧ "_test".toList <:+ front.toList)

theorem accepts_of_plain {stem extension : String} (listed : extension ∈ settings.extensions)
    (noTest : ¬ "_test".toList <:+ stem.toList) (plain : '.' ∉ extension.toList) :
    settings.accepts (stem ++ "." ++ extension) = true := by
  have hCut : (stem ++ "." ++ extension).toList = stem.toList ++ '.' :: extension.toList := by simp
  rw [accepts_cut hCut plain, String.ofList_toList]
  exact ⟨listed, .inr noTest⟩

/-- The stem of a file has no part in it when its extension has a dot inside. -/
theorem accepts_compound {stem front last : String} (plain : '.' ∉ last.toList) :
    settings.accepts (stem ++ "." ++ (front ++ "." ++ last)) = true ↔
      last ∈ settings.extensions ∧
        (settings.includeTests = true ∨ ¬ "_test".toList <:+ front.toList) := by
  have hCut : (stem ++ "." ++ (front ++ "." ++ last)).toList =
      (stem.toList ++ '.' :: front.toList) ++ '.' :: last.toList := by simp
  have hMark : '.' ∉ "_test".toList := by decide
  rw [accepts_cut hCut plain, String.ofList_toList, Text.isSuffix_append_cons_iff hMark]

/-- There is one way to cut an extension at its last dot. -/
theorem misses_iff {extension front last : String} (cut : extension = front ++ "." ++ last)
    (inside : front ≠ "") (plain : '.' ∉ last.toList) : settings.Misses extension ↔
      last ∉ settings.extensions ∨
        settings.includeTests = false ∧ "_test".toList <:+ front.toList := by
  constructor
  · rintro ⟨otherFront, otherLast, hCut, _, hPlain, hMissed⟩
    have hTexts : front.toList ++ '.' :: last.toList =
        otherFront.toList ++ '.' :: otherLast.toList := by
      simpa using congrArg String.toList (cut.symm.trans hCut)
    have hPieces := congrArg (Text.splitLast? '.') hTexts
    rw [Text.splitLast?_append plain, Text.splitLast?_append hPlain] at hPieces
    obtain ⟨hFront, hLast⟩ := Prod.mk.inj (Option.some.inj hPieces)
    rwa [String.toList_inj.mp hFront, String.toList_inj.mp hLast]
  · exact fun missed => ⟨front, last, cut, inside, plain, missed⟩

end LoadSettings

/-- With settings that pass validation, a listed extension selects a file that is no test unless it is
listed in vain. -/
theorem Settings.accepts_unless_missed {settings : Settings} (usable : settings.issues = [])
    {extension : String} (listed : extension ∈ settings.load.extensions) {stem : String}
    (noTest : ¬ "_test".toList <:+ stem.toList) :
    settings.load.accepts (stem ++ "." ++ extension) = true ↔ ¬ settings.load.Misses extension := by
  by_cases hDot : '.' ∈ extension.toList
  · obtain ⟨frontText, lastText, hCut, hPlain⟩ := Text.exists_last hDot
    obtain ⟨front, rfl⟩ : ∃ front, frontText = String.toList front :=
      ⟨String.ofList frontText, String.toList_ofList.symm⟩
    obtain ⟨last, rfl⟩ : ∃ last, lastText = String.toList last :=
      ⟨String.ofList lastText, String.toList_ofList.symm⟩
    have hExtension : extension = front ++ "." ++ last := String.toList_inj.mp (by simpa using hCut)
    have hInside : front ≠ "" := by
      rintro rfl
      exact (extensionIssue?_eq_none_iff.mp ((issues_eq_nil_iff.mp usable).2.1 _ listed)).2
        (by simp [hCut])
    rw [LoadSettings.misses_iff hExtension hInside hPlain, hExtension,
      LoadSettings.accepts_compound hPlain]
    simp only [not_or, not_and, not_not, ← Bool.not_eq_true]
    tauto
  · refine iff_of_true (LoadSettings.accepts_of_plain listed noTest hDot) ?_
    rintro ⟨front, last, rfl, _⟩
    simp at hDot

namespace Sample

/-- Settings for files that were made by a generator. -/
def compound : Settings where
  load := { extensions := ["pb.go"] }

end Sample

/-- The part behind the last dot is not listed itself. -/
theorem Settings.accepts_unless_missed_sample :
    Sample.compound.issues = [] ∧ "pb.go" ∈ Sample.compound.load.extensions ∧
      ¬ "_test".toList <:+ "api".toList ∧ Sample.compound.load.Misses "pb.go" := by
  have hUsable : Sample.compound.issues = [] := by decide
  have hListed : "pb.go" ∈ Sample.compound.load.extensions := by decide
  have hNoTest : ¬ "_test".toList <:+ "api".toList := by decide
  have hChoice := accepts_unless_missed hUsable hListed hNoTest
  refine ⟨hUsable, hListed, hNoTest, not_not.mp (mt hChoice.mpr ?_)⟩
  decide

/-- Validation passes an extension that no file name has. -/
theorem Sample.compound_extension_selects_nothing :
    Sample.compound.issues = [] ∧ "pb.go" ∈ Sample.compound.load.extensions ∧
      ¬ "_test".toList <:+ "api".toList ∧
      Sample.compound.load.accepts ("api" ++ "." ++ "pb.go") = false := by
  decide

end SyntaxAtlas
