import SyntaxAtlas.Graph.Forest
import SyntaxAtlas.Proofs.Snapshot.Flaws

/-! Which units make a forest. Every unit needs a well-formed snapshot; nothing else is asked for,
and a refusal names the first unit and the first element that stand in the way. -/
namespace SyntaxAtlas

/-- The snapshot of the unit has a root and unfolds into one tree inside the text. -/
def ParsedUnit.WellFormed (unit : ParsedUnit) : Prop :=
  unit.snapshot.root?.isSome ∧ unit.snapshot.WellFormed unit.source.length

/-- An error tells the truth about units: the unit that it names is the first one which is not well
formed, and in a malformed snapshot the element is the first one with a flaw. -/
inductive GraphError.Blames : GraphError → List ParsedUnit → Prop where
  | emptySnapshot {before after : List ParsedUnit} {unit : ParsedUnit}
      (earlier : ∀ other ∈ before, other.WellFormed) (empty : unit.snapshot.root? = none) :
      Blames (.emptySnapshot unit.source.name) (before ++ unit :: after)
  | malformedSnapshot {before after : List ParsedUnit} {unit : ParsedUnit} {id : ElementId}
      {defect : Defect} (earlier : ∀ other ∈ before, other.WellFormed)
      (flaw : unit.snapshot.Flaw unit.source.length id defect)
      (first : ∀ other < id, unit.snapshot.Flawless unit.source.length other) :
      Blames (.malformedSnapshot unit.source.name id defect) (before ++ unit :: after)

/-- Blame is given only where some unit is not well formed. -/
theorem GraphError.Blames.exists_not_wellFormed {error : GraphError} {units : List ParsedUnit}
    (blames : error.Blames units) : ∃ unit ∈ units, ¬ unit.WellFormed := by
  cases blames with
  | @emptySnapshot before after unit earlier empty =>
      refine ⟨unit, by simp, ?_⟩
      rintro ⟨hRoot, _⟩
      simp [empty] at hRoot
  | @malformedSnapshot before after unit id defect earlier flaw first =>
      refine ⟨unit, by simp, ?_⟩
      rintro ⟨_, hWellFormed⟩
      exact (Snapshot.wellFormed_iff_flawless ..).mp hWellFormed id defect flaw

namespace ParsedUnit

theorem problem?_eq_none_iff (unit : ParsedUnit) : unit.problem? = none ↔ unit.WellFormed := by
  unfold problem? WellFormed Snapshot.root?
  by_cases hEmpty : unit.snapshot.size = 0
  · simp [hEmpty]
  · simp [hEmpty, Snapshot.firstDefect?_eq_none_iff]

instance (unit : ParsedUnit) : Decidable unit.WellFormed :=
  decidable_of_iff (unit.problem?.isNone) (by
    rw [Option.isNone_iff_eq_none, problem?_eq_none_iff])

/-- What keeps a unit out of a forest is the first thing wrong with it. -/
theorem problem?_blames {unit : ParsedUnit} {error : GraphError} (before after : List ParsedUnit)
    (earlier : ∀ other ∈ before, other.WellFormed) (problem : unit.problem? = some error) :
    error.Blames (before ++ unit :: after) := by
  unfold problem? at problem
  split_ifs at problem with hEmpty
  · cases problem
    exact .emptySnapshot earlier (by simp [Snapshot.root?, hEmpty])
  · obtain ⟨⟨id, defect⟩, hDefect, rfl⟩ := Option.map_eq_some_iff.mp problem
    have hFirst := unit.snapshot.firstDefect?_firstFlaw unit.source.length
    rw [hDefect] at hFirst
    obtain ⟨_, hFlaw, hEarlier⟩ := hFirst
    exact .malformedSnapshot earlier hFlaw
      (fun other hOther => hEarlier other (Nat.zero_le _) hOther)

/-- The first problem among units is that of the first unit which is not well formed. -/
theorem findSome?_problem?_blames {units : List ParsedUnit} {error : GraphError}
    (problem : units.findSome? problem? = some error) : error.Blames units := by
  obtain ⟨before, unit, after, rfl, hProblem, hBefore⟩ := List.findSome?_eq_some_iff.mp problem
  exact problem?_blames before after
    (fun other hOther => (problem?_eq_none_iff other).mp (hBefore other hOther)) hProblem

end ParsedUnit

namespace Forest

/-- Every unit of a forest is well formed. -/
theorem wellFormed (forest : Forest) {unit : ParsedUnit} (member : unit ∈ forest.units) :
    unit.WellFormed :=
  unit.problem?_eq_none_iff.mp (forest.accepted unit member)

/-- A right answer to the question for a forest over units: that forest when all of them are well
formed, and otherwise an error that blames the right one. -/
inductive Answers (units : List ParsedUnit) (package : Option Package) :
    Except GraphError Forest → Prop where
  | ok {forest : Forest} (hUnits : forest.units = units) (hPackage : forest.package = package) :
      Answers units package (.ok forest)
  | error {error : GraphError} (blames : error.Blames units) : Answers units package (.error error)

namespace Answers

variable {units : List ParsedUnit} {package : Option Package} {answer : Except GraphError Forest}

/-- A right answer is a forest exactly when all units are well formed. -/
theorem exists_ok_iff (h : Answers units package answer) :
    (∃ forest, answer = .ok forest) ↔ ∀ unit ∈ units, unit.WellFormed := by
  cases h with
  | @ok forest hUnits hPackage =>
      refine ⟨fun _ unit member => forest.wellFormed (hUnits ▸ member), fun _ => ?_⟩
      exact ⟨forest, rfl⟩
  | error blames =>
      obtain ⟨unit, member, hNot⟩ := blames.exists_not_wellFormed
      constructor
      · rintro ⟨forest, hOk⟩
        cases hOk
      · exact fun hAll => False.elim (hNot (hAll unit member))

theorem of_ok {forest : Forest} (h : Answers units package answer) (hOk : answer = .ok forest) :
    forest.units = units ∧ forest.package = package := by
  cases h with
  | ok hUnits hPackage =>
      obtain rfl := Except.ok.inj hOk
      exact ⟨hUnits, hPackage⟩
  | error blames => cases hOk

/-- Where a unit is not well formed, a right answer is an error that blames the first such unit. -/
theorem exists_error (h : Answers units package answer)
    (malformed : ¬ ∀ unit ∈ units, unit.WellFormed) :
    ∃ error, answer = .error error ∧ error.Blames units := by
  cases h with
  | @ok forest hUnits hPackage =>
      exact absurd (fun unit member => forest.wellFormed (hUnits ▸ member)) malformed
  | @error error blames => exact ⟨error, rfl, blames⟩

end Answers

/-- With as many units as snapshots, a package is refused for the first problem among them. -/
theorem ofPackage_eq_error (package : Package) {sources : SourceMap} {snapshots : List Snapshot}
    {error : GraphError} (agree : sources.size = snapshots.length)
    (problem : (List.zipWith ParsedUnit.mk sources.units snapshots).findSome?
      ParsedUnit.problem? = some error) :
    ofPackage package sources snapshots = .error error := by
  unfold ofPackage
  rw [if_neg (not_not.mpr agree)]
  dsimp only
  split
  · rename_i other hOther
    exact congrArg Except.error (Option.some.inj (hOther.symm.trans problem))
  · rename_i hNone
    cases hNone.symm.trans problem

/-- With as many units as snapshots, a package gets the right answer. -/
theorem ofPackage_answers (package : Package) {sources : SourceMap} {snapshots : List Snapshot}
    (agree : sources.size = snapshots.length) :
    Answers (List.zipWith ParsedUnit.mk sources.units snapshots) (some package)
      (ofPackage package sources snapshots) := by
  unfold ofPackage
  rw [if_neg (not_not.mpr agree)]
  dsimp only
  split
  · rename_i problem hProblem
    exact .error (ParsedUnit.findSome?_problem?_blames hProblem)
  · exact .ok rfl rfl

/-- A file on its own gets the right answer. -/
theorem ofFile_answers (source : SourceUnit) (snapshot : Snapshot) :
    Answers [⟨source, snapshot⟩] none (ofFile source snapshot) := by
  unfold ofFile
  split
  · rename_i problem hProblem
    exact .error (ParsedUnit.problem?_blames [] [] (by simp) hProblem)
  · exact .ok rfl rfl

/-- With more or fewer units than snapshots, a package is refused for their numbers alone. -/
theorem ofPackage_eq_mismatch (package : Package) {sources : SourceMap} {snapshots : List Snapshot}
    (differ : sources.size ≠ snapshots.length) : ofPackage package sources snapshots =
      .error (.unitCountMismatch sources.size snapshots.length) := by
  rw [ofPackage, if_pos differ]

/-- The forest of a package holds the units in order, each with its snapshot. -/
theorem of_ofPackage {package : Package} {sources : SourceMap} {snapshots : List Snapshot}
    {forest : Forest} (h : ofPackage package sources snapshots = .ok forest) :
    sources.size = snapshots.length ∧
      forest.units = List.zipWith ParsedUnit.mk sources.units snapshots ∧
      forest.package = some package := by
  by_cases agree : sources.size = snapshots.length
  · exact ⟨agree, (ofPackage_answers package agree).of_ok h⟩
  · cases (ofPackage_eq_mismatch package agree).symm.trans h

/-- Forests are made from exactly the well-formed inputs. A package needs as many units as
snapshots and a file has one of each; then only the snapshots count, and they all have to be well
formed. Everything else is refused, for the numbers when they differ, and otherwise with an error
that names the first unit which is not well formed and, when its snapshot has elements, the first of
them with a flaw. -/
theorem accepts_exactly_wellFormed (package : Package) (sources : SourceMap)
    (snapshots : List Snapshot) (source : SourceUnit) (snapshot : Snapshot) :
    let units := List.zipWith ParsedUnit.mk sources.units snapshots
    ((∃ forest, ofPackage package sources snapshots = .ok forest) ↔
      sources.size = snapshots.length ∧ ∀ unit ∈ units, unit.WellFormed) ∧
    (∀ forest, ofPackage package sources snapshots = .ok forest →
      forest.units = units ∧ forest.package = some package) ∧
    (sources.size ≠ snapshots.length → ofPackage package sources snapshots =
      .error (.unitCountMismatch sources.size snapshots.length)) ∧
    (sources.size = snapshots.length → (¬ ∀ unit ∈ units, unit.WellFormed) →
      ∃ error, ofPackage package sources snapshots = .error error ∧ error.Blames units) ∧
    ((∃ forest, ofFile source snapshot = .ok forest) ↔
      (ParsedUnit.mk source snapshot).WellFormed) ∧
    (∀ forest, ofFile source snapshot = .ok forest →
      forest.units = [⟨source, snapshot⟩] ∧ forest.package = none) ∧
    (¬ (ParsedUnit.mk source snapshot).WellFormed →
      ∃ error, ofFile source snapshot = .error error ∧ error.Blames [⟨source, snapshot⟩]) := by
  intro units
  have hPackage : sources.size = snapshots.length →
      Answers units (some package) (ofPackage package sources snapshots) :=
    ofPackage_answers package
  have hFile := ofFile_answers source snapshot
  refine ⟨?_, fun _ hOk => (of_ofPackage hOk).2, ofPackage_eq_mismatch package,
    fun agree malformed => (hPackage agree).exists_error malformed, ?_,
    fun _ hOk => hFile.of_ok hOk, ?_⟩
  · by_cases agree : sources.size = snapshots.length
    · rw [(hPackage agree).exists_ok_iff, and_iff_right agree]
    · simp [ofPackage_eq_mismatch package agree, agree]
  · rw [hFile.exists_ok_iff, List.forall_mem_singleton]
  · intro malformed
    exact hFile.exists_error fun hAll => malformed (hAll _ (List.mem_singleton_self _))

/-- The second of two texts comes with a snapshot whose root lists an element twice. It is blamed,
and not the first text, although there are as many snapshots as texts. A third text without a
snapshot is refused for that. -/
theorem accepts_exactly_wellFormed_sample :
    let leaf : Snapshot := ⟨#[{ kind := "source_file", span := ⟨0, 0⟩ }]⟩
    let twice : Snapshot := ⟨#[{ kind := "source_file", span := ⟨0, 2⟩, children := [1, 1] },
      { kind := "identifier", span := ⟨0, 2⟩ }]⟩
    let sources : SourceMap := ⟨[⟨"a.go", 0, ""⟩, ⟨"b.go", 1, "xy"⟩]⟩
    let blamed := GraphError.malformedSnapshot "b.go" 0 (.sharedChild 1)
    (∃ error, ofPackage ⟨"p", {}⟩ sources [leaf, twice] = .error error ∧
      error.Blames (List.zipWith ParsedUnit.mk sources.units [leaf, twice]) ∧ error = blamed) ∧
    ofPackage ⟨"p", {}⟩ sources [leaf] = .error (.unitCountMismatch 2 1) ∧
    (∃ forest, ofPackage ⟨"p", {}⟩ sources [leaf, leaf] = .ok forest) ∧
    ∃ error, ofFile ⟨"b.go", 1, "xy"⟩ twice = .error error ∧
      error.Blames [⟨⟨"b.go", 1, "xy"⟩, twice⟩] := by
  intro leaf twice sources blamed
  obtain ⟨_, _, _, hRefused, _, _, hAlone⟩ :=
    accepts_exactly_wellFormed ⟨"p", {}⟩ sources [leaf, twice] ⟨"b.go", 1, "xy"⟩ twice
  obtain ⟨_, _, hMismatch, _⟩ :=
    accepts_exactly_wellFormed ⟨"p", {}⟩ sources [leaf] ⟨"b.go", 1, "xy"⟩ twice
  obtain ⟨hAccepted, _⟩ :=
    accepts_exactly_wellFormed ⟨"p", {}⟩ sources [leaf, leaf] ⟨"b.go", 1, "xy"⟩ twice
  obtain ⟨error, hError, hBlames⟩ := hRefused rfl (by decide)
  have hAnswer : ofPackage ⟨"p", {}⟩ sources [leaf, twice] = .error blamed :=
    ofPackage_eq_error _ rfl (by decide +kernel)
  refine ⟨⟨error, hError, hBlames, ?_⟩, hMismatch (by decide), hAccepted.mpr ⟨rfl, by decide⟩,
    hAlone (by decide)⟩
  exact Except.error.inj (hError.symm.trans hAnswer)

end Forest

end SyntaxAtlas
