import SyntaxAtlas.Proofs.Graph.Choice
import SyntaxAtlas.Proofs.Graph.Transparency

/-! Resolving twice is resolving once. The second time the question is asked from the place of the
declaration, where other scopes are open than at the place of the use. But the scope of the
declaration is the innermost one there, and of the candidates before it none can tie: two candidates
that lie in each other's scopes have the same scope, and then the earlier one would have been chosen
the first time. No nesting of scopes is needed for that. -/
namespace SyntaxAtlas

namespace Forest

variable {forest : Forest} {package : Package}

section Candidates

variable {arena : Arena} {pos : Nat} {candidates : List NodeId} {chosen other : NodeId}
  {scope rival : Scope}

/-- A candidate before the chosen one whose scope contains the start of the chosen one has a scope
that starts earlier. -/
theorem start_lt_of_chosenCandidate? (hPackage : forest.package = some package)
    (increasing : candidates.Pairwise fun first second =>
      (arena.span first).start < (arena.span second).start)
    (found : forest.chosenCandidate? arena pos candidates = some chosen)
    (hScope : forest.scope? arena chosen = some scope) (around : scope.Contains pos)
    (member : other ∈ candidates) (before : (arena.span other).start < (arena.span chosen).start)
    (hRival : forest.scope? arena other = some rival)
    (visible : rival.Contains (arena.span chosen).start) :
    rival.range.start < scope.range.start := by
  have hInnermost : package.symbols.innermostScope? (arena.span chosen).start = some scope := by
    rw [← scope?_eq hPackage, hScope]
  have hInnermostRival : package.symbols.innermostScope? (arena.span other).start = some rival := by
    rw [← scope?_eq hPackage, hRival]
  obtain ⟨hListed, hOther⟩ := SymbolTable.innermostScope?_eq_some hInnermostRival
  apply Nat.lt_of_le_of_ne (SymbolTable.start_le_innermostScope? hInnermost hListed visible)
  intro tie
  -- both lie in both scopes, so the scopes are one, and the other candidate comes first in it
  have hAcross : scope.Contains (arena.span other).start := by
    have hChosen := (SymbolTable.innermostScope?_eq_some hInnermost).2
    exact ⟨Nat.le_trans (Nat.le_of_eq tie.symm) hOther.1, Nat.lt_trans before hChosen.2⟩
  have hSame : scope = rival :=
    SymbolTable.innermostScope?_eq_of_tie hInnermost hInnermostRival hAcross visible tie.symm
  have hDistinct : other ≠ chosen := by
    intro hEq
    rw [hEq] at before
    exact Nat.lt_irrefl _ before
  rw [hSame] at around
  have hBest := chosenCandidate?_best found increasing hScope member hDistinct hRival around
  omega

/-- The chosen candidate is also chosen from its own start. -/
theorem chosenCandidate?_self (hPackage : forest.package = some package)
    (increasing : candidates.Pairwise fun first second =>
      (arena.span first).start < (arena.span second).start)
    (found : forest.chosenCandidate? arena pos candidates = some chosen) :
    forest.chosenCandidate? arena (arena.span chosen).start candidates = some chosen := by
  have hFound := found
  unfold chosenCandidate? at hFound
  split at hFound
  · exact hFound
  · obtain ⟨member, scope, hScope, around⟩ := contains_of_visibleCandidate? hFound
    have hInnermost : package.symbols.innermostScope? (arena.span chosen).start = some scope := by
      rw [← scope?_eq hPackage, hScope]
    obtain ⟨before, after, rfl⟩ := List.append_of_mem member
    apply chosenCandidate?_of_latest hScope (SymbolTable.innermostScope?_eq_some hInnermost).2
    · intro other hOther rival hRival visible
      have hBefore : (arena.span other).start < (arena.span chosen).start :=
        (List.pairwise_append.mp increasing).2.2 other hOther chosen List.mem_cons_self
      exact start_lt_of_chosenCandidate? hPackage increasing found hScope around
        (List.mem_append_left _ hOther) hBefore hRival visible
    · intro other _ rival hRival visible
      rw [scope?_eq hPackage] at hRival
      have hListed := (SymbolTable.innermostScope?_eq_some hRival).1
      exact SymbolTable.start_le_innermostScope? hInnermost hListed visible

end Candidates

section Index

variable {session : Session} {use declaration : NodeId}

/-- Only identifiers have a declaration. -/
theorem isIdentifier_of_declaration? (hPackage : forest.package = some package)
    (resolved : ((forest.declaration? use).run session).1 = some declaration) :
    (session.arena.kind use).isIdentifier := by
  by_contra hKind
  rw [declaration?, Explore.run_read, hPackage] at resolved
  simp [hKind] at resolved

/-- After a declaration was found, the identifiers are indexed. -/
theorem identIndex_extends_declaration? (sound : session.Sound forest)
    (hPackage : forest.package = some package) (identifies : session.Identifies use)
    (resolved : ((forest.resolveDeclaration? package use).run session).1 = some declaration) :
    (forest.identIndex.run session).2.Extends ((forest.declaration? use).run session).2 := by
  obtain ⟨_, hIndexed, _⟩ := resolveDeclaration?_eq_some resolved
  obtain ⟨_, hRun⟩ := Session.declaration?_run sound hPackage identifies.2
  rw [hRun, hIndexed]
  exact ⟨.refl _, fun _ h => h, fun _ h => h, fun _ h => h⟩

end Index

/-- The table spells the definitions as the source does: the name recorded at a position is the text
of the identifier that is found there. -/
def SpellsDefinitions (forest : Forest) (package : Package) (session : Session) : Prop :=
  ∀ entry ∈ package.symbols.defs.entries, ∀ id, ((forest.identAt? entry.1).run session).1 = some id →
    forest.sourceText ((forest.identAt? entry.1).run session).2.arena id = entry.2.name

end Forest

/-- The declaration that an identifier is resolved to is resolved to itself, at once and at any later
time. -/
theorem Reachable.declaration?_idempotent {forest : Forest} {package : Package} {session : Session}
    (reached : Reachable forest session) (hPackage : forest.package = some package)
    (spells : forest.SpellsDefinitions package session) {use declaration : NodeId}
    (known : use < session.arena.size)
    (resolved : ((forest.declaration? use).run session).1 = some declaration) {later : Session}
    (leads : Leads forest ((forest.declaration? use).run session).2 later) :
    ((forest.declaration? declaration).run later).1 = some declaration := by
  have identifies : session.Identifies use :=
    ⟨known, Forest.isIdentifier_of_declaration? hPackage resolved⟩
  have hMemo := Forest.memoizes_declaration hPackage
  rw [hMemo.agrees session use reached.sound identifies] at resolved
  obtain ⟨named, _, hChosen⟩ := Forest.resolveDeclaration?_eq_some resolved
  -- the candidates come from one index, which is there from the first question on
  obtain ⟨hLater, hSince⟩ := leads.sound_extends (hMemo.leaves session use reached.sound identifies).1
  have hKeeps := (Forest.identIndex_extends_declaration? reached.sound hPackage identifies
    resolved).trans hSince
  have hYields := Session.identIndex_yields reached.sound
  have hLists := hYields.sound.identIndex _ hYields.answer
  obtain ⟨pos, hPos, hFound⟩ := List.mem_filterMap.mp (Forest.mem_of_chosenCandidate? hChosen)
  obtain ⟨symbol, hDeclared, hName⟩ := Forest.mem_declaredPositions.mp hPos
  obtain ⟨hKnown, hKind, _⟩ := hLists _ (Session.mem_of_lookup hFound)
  have hIdentifies : later.Identifies declaration := Session.Identifies.keep ⟨hKnown, hKind⟩ hKeeps
  -- so the declaration is asked about under the name of the use
  have hText : forest.sourceText later.arena declaration = forest.sourceText session.arena use := by
    rw [forest.sourceText_extends hKeeps.arena hKnown, ← hName]
    exact spells _ hDeclared declaration hFound
  rw [hMemo.agrees later declaration hLater hIdentifies, Forest.resolveDeclaration?_run, hText,
    if_neg named, Forest.identsAt_run_known (hKeeps.identIndex _ hYields.answer)]
  dsimp only
  rw [hKeeps.arena.span declaration hKnown,
    forest.chosenCandidate?_extends hKeeps.arena _ (Session.knows_filterMap_lookup hLists _)]
  exact Forest.chosenCandidate?_self hPackage
    (Session.pairwise_filterMap_lookup hLists (Forest.declaredPositions_increasing package _)) hChosen

namespace Sample

/-- Two scopes that overlap without being nested, each with a declaration of the name. -/
def overlappingPackage : Package where
  name := "a"
  symbols := {
    defs := .ofEntries [(0, ⟨"x", .var, none⟩), (4, ⟨"x", .var, none⟩)]
    scopes := [{ owner := ⟨0, 9⟩, range := ⟨0, 6⟩ }, { owner := ⟨0, 9⟩, range := ⟨2, 9⟩ }] }

def overlapping : Forest where
  units := [tiedUnit]
  package := some overlappingPackage
  accepted := tied.accepted
  standalone := by decide

end Sample

/-- The last identifier belongs to the second declaration, which lies in both scopes and declares
itself, also after the first declaration was resolved. -/
theorem Reachable.declaration?_idempotent_sample :
    let session := (Sample.overlapping.identIndex.run (.start Sample.overlapping)).2
    let asked := (Sample.overlapping.declaration? 6).run session
    let later := ((Sample.overlapping.declaration? 2).run asked.2).2
    asked.1 = some 4 ∧ ((Sample.overlapping.declaration? 4).run later).1 = some 4 := by
  intro session asked later
  have hResolved : asked.1 = some 4 := by decide +kernel
  have hSpells : Sample.overlapping.SpellsDefinitions Sample.overlappingPackage session := by
    have hEach : ∀ entry ∈ Sample.overlappingPackage.symbols.defs.entries,
        ∀ id ∈ ((Sample.overlapping.identAt? entry.1).run session).1,
          Sample.overlapping.sourceText
            ((Sample.overlapping.identAt? entry.1).run session).2.arena id = entry.2.name := by
      decide +kernel
    exact hEach
  have hReached : Reachable Sample.overlapping session := .ask .identIndex (.nil _)
  have hLater : Leads Sample.overlapping asked.2 later :=
    .ask (.declaration 2) (.cons (by decide +kernel) (.nil _))
  exact ⟨hResolved,
    hReached.declaration?_idempotent rfl hSpells (by decide +kernel) hResolved hLater⟩

end SyntaxAtlas
