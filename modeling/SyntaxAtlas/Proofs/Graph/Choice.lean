import SyntaxAtlas.Proofs.Graph.Eclipses

/-! The choice of a declaration. Among several candidates only the starts of their scopes are
compared, and the scope of a candidate is itself the first listed of those that start last around
it. When scopes are nested this ends at the smallest scope all the same: of two scopes with one
start the larger one can only be that of a candidate behind the smaller one. -/
namespace SyntaxAtlas

namespace SymbolTable

/-- Two innermost scopes around one position. The one that starts later, or that belongs to the
earlier candidate on a tie, lies inside the other. -/
theorem encloses_of_later {table : SymbolTable} (laminar : table.Laminar) {pos start other : Nat}
    {scope rival : Scope} (hScope : table.innermostScope? start = some scope)
    (hRival : table.innermostScope? other = some rival) (around : scope.Contains pos)
    (visible : rival.Contains pos)
    (best : rival.range.start < scope.range.start ∨
      rival.range.start = scope.range.start ∧ start < other) :
    rival.range.Encloses scope.range := by
  obtain ⟨hListed, hStart⟩ := innermostScope?_eq_some hScope
  obtain ⟨hRivalListed, hOther⟩ := innermostScope?_eq_some hRival
  rcases laminar rival hRivalListed scope hListed pos visible around with hOuter | hInner
  · exact hOuter
  · rcases best with hEarlier | ⟨tie, hBefore⟩
    · exact absurd hInner.1 (Nat.not_le.mpr hEarlier)
    · -- each candidate lies in the scope of the other one, so that both have the first listed
      have hAcross : scope.Contains other :=
        ⟨Nat.le_trans hInner.1 hOther.1, Nat.lt_of_lt_of_le hOther.2 hInner.2⟩
      have hBack : rival.Contains start :=
        ⟨Nat.le_trans (Nat.le_of_eq tie) hStart.1, Nat.lt_trans hBefore hOther.2⟩
      rw [innermostScope?_eq_of_tie hScope hRival hAcross hBack tie.symm]
      exact ⟨Nat.le_refl _, Nat.le_refl _⟩

end SymbolTable

namespace Forest

/-- A node is a candidate for a name when the name is defined at a position and the node is the
identifier there. -/
def Candidate (forest : Forest) (package : Package) (session : Session) (name : String)
    (node : NodeId) : Prop :=
  ∃ pos symbol, (pos, symbol) ∈ package.symbols.defs.entries ∧ symbol.name = name ∧
    ((forest.identAt? pos).run session).1 = some node

/-- A candidate whose innermost scope contains a position. -/
def VisibleIn (forest : Forest) (package : Package) (session : Session) (name : String) (pos : Nat)
    (node : NodeId) (scope : Scope) : Prop :=
  forest.Candidate package session name node ∧
    forest.scope? session.arena node = some scope ∧ scope.Contains pos

theorem mem_identsAt {forest : Forest} {session : Session} {positions : List Nat} {node : NodeId} :
    node ∈ ((forest.identsAt positions).run session).1 ↔
      ∃ pos ∈ positions, ((forest.identAt? pos).run session).1 = some node := by
  cases positions with
  | nil =>
      rw [identsAt, Explore.run_pure]
      simp
  | cons pos rest =>
      rw [identsAt_run_cons]
      exact List.mem_filterMap

theorem mem_candidates {forest : Forest} {package : Package} {session : Session} {name : String}
    {node : NodeId} :
    node ∈ ((forest.identsAt (declaredPositions package name)).run session).1 ↔
      forest.Candidate package session name node := by
  simp only [mem_identsAt, mem_declaredPositions, Candidate]
  constructor
  · rintro ⟨pos, ⟨symbol, hDeclared, hName⟩, hNode⟩
    exact ⟨pos, symbol, hDeclared, hName, hNode⟩
  · rintro ⟨pos, symbol, hDeclared, hName, hNode⟩
    exact ⟨pos, ⟨symbol, hDeclared, hName⟩, hNode⟩

section Several

variable {forest : Forest} {arena : Arena} {pos : Nat} {candidates : List NodeId}
  {first second : NodeId}

/-- Only a single candidate is taken as it is. -/
theorem chosenCandidate?_of_several (hFirst : first ∈ candidates) (hSecond : second ∈ candidates)
    (distinct : first ≠ second) :
    forest.chosenCandidate? arena pos candidates =
      forest.visibleCandidate? arena pos candidates := by
  unfold chosenCandidate?
  split
  · rw [List.mem_singleton.mp hFirst, List.mem_singleton.mp hSecond] at distinct
    exact absurd rfl distinct
  · rfl

theorem visibleCandidate?_eq_none_iff :
    forest.visibleCandidate? arena pos candidates = none ↔
      ∀ node ∈ candidates, ∀ scope, forest.scope? arena node = some scope →
        ¬ scope.Contains pos := by
  rw [visibleCandidate?_eq, Option.map_eq_none_iff, foldl_laterBy_eq_none_iff,
    List.eq_nil_iff_forall_not_mem]
  simp only [mem_visibleCandidates]
  constructor
  · intro hNone node member scope hScope visible
    exact hNone (scope.range.start, node) ⟨member, scope, hScope, visible, rfl⟩
  · rintro hNone entry ⟨member, scope, hScope, visible, _⟩
    exact hNone entry.2 member scope hScope visible

theorem contains_of_visibleCandidate? {node : NodeId}
    (found : forest.visibleCandidate? arena pos candidates = some node) :
    node ∈ candidates ∧ ∃ scope, forest.scope? arena node = some scope ∧ scope.Contains pos := by
  rw [visibleCandidate?_eq] at found
  obtain ⟨entry, hFold, rfl⟩ := Option.map_eq_some_iff.mp found
  obtain ⟨member, scope, hScope, visible, _⟩ :=
    mem_visibleCandidates.mp (mem_of_foldl_laterBy hFold)
  exact ⟨member, scope, hScope, visible⟩

end Several

/-- The scope of the chosen candidate lies inside the scope of every other visible one. -/
theorem encloses_of_chosenCandidate? {forest : Forest} {package : Package}
    (hPackage : forest.package = some package) (laminar : package.symbols.Laminar) {arena : Arena}
    {pos : Nat} {candidates : List NodeId}
    (increasing : candidates.Pairwise fun first second =>
      (arena.span first).start < (arena.span second).start)
    {chosen other : NodeId} {scope rival : Scope}
    (found : forest.chosenCandidate? arena pos candidates = some chosen)
    (hScope : forest.scope? arena chosen = some scope) (around : scope.Contains pos)
    (member : other ∈ candidates) (hRival : forest.scope? arena other = some rival)
    (visible : rival.Contains pos) : rival.range.Encloses scope.range := by
  by_cases hOther : other = chosen
  · obtain rfl : rival = scope := by
      rw [hOther, hScope] at hRival
      exact (Option.some.inj hRival).symm
    exact ⟨Nat.le_refl _, Nat.le_refl _⟩
  · have hBest := chosenCandidate?_best found increasing hScope member hOther hRival visible
    rw [scope?_eq hPackage] at hScope hRival
    exact SymbolTable.encloses_of_later laminar hScope hRival around visible hBest

end Forest

namespace Session

variable {forest : Forest} {package : Package} {session : Session}

/-- Identifiers at increasing positions have increasing starts. -/
theorem identsAt_increasing (sound : session.Sound forest) {positions : List Nat}
    (increasing : positions.Pairwise (· < ·)) :
    ((forest.identsAt positions).run session).1.Pairwise fun first second =>
      (((forest.identsAt positions).run session).2.arena.span first).start <
        (((forest.identsAt positions).run session).2.arena.span second).start := by
  cases positions with
  | nil => exact .nil
  | cons pos rest =>
      rw [Forest.identsAt_run_cons]
      have hIndex := identIndex_yields sound
      exact pairwise_filterMap_lookup (hIndex.sound.identIndex _ hIndex.answer) increasing

/-- A declaration that was asked for is chosen among the candidates that are there afterwards. -/
theorem declaration?_chosen (sound : session.Sound forest)
    (hPackage : forest.package = some package) {use : NodeId} (known : use < session.arena.size)
    (identifier : (session.arena.kind use).isIdentifier)
    (named : forest.sourceText session.arena use ≠ Forest.blankName) :
    let asked := (forest.declaration? use).run session
    let look := (forest.identsAt (Forest.declaredPositions package
      (forest.sourceText session.arena use))).run asked.2
    look.2 = asked.2 ∧ asked.1 = forest.chosenCandidate? asked.2.arena
      (session.arena.span use).start look.1 := by
  have hAsked := declaration?_yields sound known
  have hKeeps := hAsked.allows.keeps.arena
  have hSettles := hAsked.answer.2 package hPackage (by rwa [hKeeps.kind use known])
  unfold Settles at hSettles
  rw [Forest.resolveDeclaration?_run, forest.sourceText_extends hKeeps known, if_neg named]
    at hSettles
  dsimp only at hSettles ⊢
  obtain ⟨hChosen, hSame⟩ := Prod.mk.inj hSettles
  rw [hSame, hKeeps.span use known] at hChosen
  exact ⟨hSame, hChosen.symm⟩

end Session

/-- A name with several candidates is never guessed. No declaration is given exactly when no
candidate has the identifier in its scope, and otherwise one is given whose scope lies inside the
scope of every candidate that has the identifier in its scope. -/
theorem Reachable.declaration?_innermost {forest : Forest} {package : Package} {session : Session}
    (reached : Reachable forest session) (hPackage : forest.package = some package)
    (laminar : package.symbols.Laminar) {use : NodeId} (known : use < session.arena.size)
    (identifier : (session.arena.kind use).isIdentifier)
    (named : forest.sourceText session.arena use ≠ Forest.blankName) :
    let name := forest.sourceText session.arena use
    let pos := (session.arena.span use).start
    let answer := ((forest.declaration? use).run session).1
    let after := ((forest.declaration? use).run session).2
    (∃ first second, first ≠ second ∧ forest.Candidate package after name first ∧
      forest.Candidate package after name second) →
    (answer = none ↔ ¬ ∃ node scope, forest.VisibleIn package after name pos node scope) ∧
    ∀ declaration, answer = some declaration →
      ∃ scope, forest.VisibleIn package after name pos declaration scope ∧
        ∀ node rival, forest.VisibleIn package after name pos node rival →
          rival.range.Encloses scope.range := by
  intro name pos answer after
  rintro ⟨first, second, distinct, hFirst, hSecond⟩
  have hAfter : after.Sound forest := (Session.declaration?_yields reached.sound known).sound
  obtain ⟨hSame, hChosen⟩ :=
    Session.declaration?_chosen reached.sound hPackage known identifier named
  have hIncreasing := Session.identsAt_increasing hAfter
    (Forest.declaredPositions_increasing package name)
  have hMember : ∀ {node}, node ∈ ((forest.identsAt (Forest.declaredPositions package name)).run
      after).1 ↔ forest.Candidate package after name node := Forest.mem_candidates
  rw [hSame] at hIncreasing
  have hVisible : answer = forest.visibleCandidate? after.arena pos
      ((forest.identsAt (Forest.declaredPositions package name)).run after).1 := hChosen.trans
    (Forest.chosenCandidate?_of_several (hMember.mpr hFirst) (hMember.mpr hSecond) distinct)
  constructor
  · rw [hVisible, Forest.visibleCandidate?_eq_none_iff]
    constructor
    · rintro hNone ⟨node, scope, hNode, hScope, around⟩
      exact hNone node (hMember.mpr hNode) scope hScope around
    · intro hNone node member scope hScope around
      exact hNone ⟨node, scope, hMember.mp member, hScope, around⟩
  · intro declaration found
    obtain ⟨member, scope, hScope, around⟩ :=
      Forest.contains_of_visibleCandidate? (hVisible.symm.trans found)
    refine ⟨scope, ⟨hMember.mp member, hScope, around⟩, ?_⟩
    rintro node rival ⟨hNode, hRival, visible⟩
    exact Forest.encloses_of_chosenCandidate? hPackage laminar hIncreasing
      (hChosen.symm.trans found) hScope around (hMember.mpr hNode) hRival visible

namespace Sample

/-- A name that is declared at its first and third place. -/
def tiedUnit : ParsedUnit where
  source := ⟨"a.go", 0, "x x x x x"⟩
  snapshot := ⟨#[
    { kind := "source_file", span := ⟨0, 9⟩, children := [1, 2, 3, 4, 5] },
    { kind := "identifier", span := ⟨0, 1⟩ },
    { kind := "identifier", span := ⟨2, 3⟩ },
    { kind := "identifier", span := ⟨4, 5⟩ },
    { kind := "identifier", span := ⟨6, 7⟩ },
    { kind := "identifier", span := ⟨8, 9⟩ }]⟩

/-- Two scopes start together, and each is the innermost one of a declaration. The last use is in
neither of them. -/
def tiedPackage : Package where
  name := "a"
  symbols := {
    defs := .ofEntries [(0, ⟨"x", .var, none⟩), (4, ⟨"x", .var, none⟩)]
    scopes := [{ owner := ⟨0, 9⟩, range := ⟨0, 4⟩ }, { owner := ⟨0, 9⟩, range := ⟨0, 8⟩ }] }

def tied : Forest where
  units := [tiedUnit]
  package := some tiedPackage
  accepted := by decide
  standalone := by decide

/-- The session after the identifiers were indexed. -/
def tiedSession : Session :=
  (tied.identIndex.run (.start tied)).2

theorem reachable_tied : Reachable tied tiedSession :=
  .ask .identIndex (.nil _)

theorem laminar_tied : tiedPackage.symbols.Laminar := by
  have hNested : ∀ first ∈ tiedPackage.symbols.scopes, ∀ second ∈ tiedPackage.symbols.scopes,
      first.range.Encloses second.range ∨ second.range.Encloses first.range := by decide
  exact fun first hFirst second hSecond _ _ _ => hNested first hFirst second hSecond

theorem uses_tied : ∀ entry ∈ [(3, 2), (6, 8)], entry.1 < tiedSession.arena.size ∧
    (tiedSession.arena.kind entry.1).isIdentifier ∧
    tied.sourceText tiedSession.arena entry.1 = "x" ∧
    (tiedSession.arena.span entry.1).start = entry.2 := by
  decide +kernel

theorem candidates_tied : ∀ use ∈ [3, 6],
    ∃ first second, first ≠ second ∧
      tied.Candidate tiedPackage ((tied.declaration? use).run tiedSession).2 "x" first ∧
      tied.Candidate tiedPackage ((tied.declaration? use).run tiedSession).2 "x" second := by
  have hFound : ∀ use ∈ [3, 6], ∀ entry ∈ [(0, 2), (4, 4)],
      ((tied.identAt? entry.1).run ((tied.declaration? use).run tiedSession).2).1 =
        some entry.2 := by decide +kernel
  intro use member
  refine ⟨2, 4, by decide, ⟨0, ⟨"x", .var, none⟩, by decide, rfl, ?_⟩,
    ⟨4, ⟨"x", .var, none⟩, by decide, rfl, ?_⟩⟩
  · exact hFound use member (0, 2) (by decide)
  · exact hFound use member (4, 4) (by decide)

end Sample

/-- The second identifier is in both scopes and belongs to the smaller one; the last one is in
none. -/
theorem Reachable.declaration?_innermost_sample :
    let inside := ((Sample.tied.declaration? 3).run Sample.tiedSession).2
    let outside := ((Sample.tied.declaration? 6).run Sample.tiedSession).2
    (∃ scope, Sample.tied.VisibleIn Sample.tiedPackage inside "x" 2 2 scope ∧
      ∀ node rival, Sample.tied.VisibleIn Sample.tiedPackage inside "x" 2 node rival →
        rival.range.Encloses scope.range) ∧
    ¬ ∃ node scope, Sample.tied.VisibleIn Sample.tiedPackage outside "x" 8 node scope := by
  intro inside outside
  have hNamed : "x" ≠ Forest.blankName := by decide
  constructor
  · obtain ⟨hKnown, hKind, hText, hStart⟩ := Sample.uses_tied (3, 2) (by decide)
    have hChoice := Reachable.declaration?_innermost Sample.reachable_tied rfl Sample.laminar_tied
      hKnown hKind (hText.trans_ne hNamed)
    rw [hText, hStart] at hChoice
    exact (hChoice (Sample.candidates_tied 3 (by decide))).2 2 (by decide +kernel)
  · obtain ⟨hKnown, hKind, hText, hStart⟩ := Sample.uses_tied (6, 8) (by decide)
    have hChoice := Reachable.declaration?_innermost Sample.reachable_tied rfl Sample.laminar_tied
      hKnown hKind (hText.trans_ne hNamed)
    rw [hText, hStart] at hChoice
    exact (hChoice (Sample.candidates_tied 6 (by decide))).1.mp (by decide +kernel)

end SyntaxAtlas
