import SyntaxAtlas.Proofs.Graph.Usages

/-! Uses that their own declaration does not report. A declaration leaves out what lies in the scope
of a rival, on the ground that it belongs to the rival. That is so when the scope of the rival starts
further inside; but a rival in the very same scope, or one that is no identifier, is never preferred,
and then the use is lost. There is no other way to lose one. -/
namespace SyntaxAtlas

namespace Forest

/-- A rival of a declaration hides a position from it without being preferred there: it has the same
innermost scope as the declaration, or no identifier starts at it. -/
def Eclipsed (table : SymbolTable) (located : Nat → Prop) (scope : Scope) (name : String)
    (start pos : Nat) : Prop :=
  ∃ rival symbol shadow, (rival, symbol) ∈ table.defs.entries ∧ symbol.name = name ∧
    rival ≠ start ∧ scope.Contains rival ∧ table.innermostScope? rival = some shadow ∧
    shadow.Contains pos ∧ (shadow = scope ∨ ¬ located rival)

section Candidates

variable {forest : Forest} {arena : Arena} {pos : Nat} {candidates : List NodeId}

theorem visibleCandidates_increasing (forest : Forest) (pos : Nat)
    (increasing : candidates.Pairwise fun first second =>
      (arena.span first).start < (arena.span second).start) :
    (forest.visibleCandidates arena pos candidates).Pairwise fun first second =>
      (arena.span first.2).start < (arena.span second.2).start := by
  have hNode : ∀ candidate entry, (do
      let scope ← forest.scope? arena candidate
      if scope.Contains pos then some (scope.range.start, candidate) else none) = some entry →
      entry.2 = candidate := by
    intro candidate entry hEntry
    simp only [Option.bind_eq_bind, Option.bind_eq_some_iff, Option.ite_none_right_eq_some,
      Option.some.injEq] at hEntry
    obtain ⟨_, _, _, rfl⟩ := hEntry
    rfl
  refine List.pairwise_filterMap.mpr (increasing.imp ?_)
  intro first second hLess firstEntry hFirst secondEntry hSecond
  rw [hNode first firstEntry hFirst, hNode second secondEntry hSecond]
  exact hLess

/-- No visible candidate is better than the chosen one: its scope does not start later, and on a tie
it does not come first. -/
theorem chosenCandidate?_best {chosen other : NodeId} {scope rival : Scope}
    (found : forest.chosenCandidate? arena pos candidates = some chosen)
    (increasing : candidates.Pairwise fun first second =>
      (arena.span first).start < (arena.span second).start)
    (hScope : forest.scope? arena chosen = some scope) (member : other ∈ candidates)
    (distinct : other ≠ chosen) (hRival : forest.scope? arena other = some rival)
    (visible : rival.Contains pos) :
    rival.range.start < scope.range.start ∨ rival.range.start = scope.range.start ∧
      (arena.span chosen).start < (arena.span other).start := by
  unfold chosenCandidate? at found
  split at found
  · obtain rfl := Option.some.inj found
    exact absurd (List.mem_singleton.mp member) distinct
  · rw [visibleCandidate?_eq] at found
    obtain ⟨⟨start, node⟩, hFold, hNode⟩ := Option.map_eq_some_iff.mp found
    obtain rfl : node = chosen := hNode
    obtain ⟨before, after, hSplit, hBefore, hAfter⟩ := (foldl_laterBy_eq_some_iff _).mp hFold
    have hStart : scope.range.start = start := by
      obtain ⟨_, held, hHeld, _, hStart⟩ := mem_visibleCandidates.mp (mem_of_foldl_laterBy hFold)
      obtain rfl := Option.some.inj (hHeld.symm.trans hScope)
      exact hStart
    have hOrdered := forest.visibleCandidates_increasing pos increasing
    have hOther : (rival.range.start, other) ∈ before ++ (start, node) :: after := by
      rw [← hSplit]
      exact mem_visibleCandidates.mpr ⟨member, rival, hRival, visible, rfl⟩
    rw [hSplit] at hOrdered
    rcases List.mem_append.mp hOther with hOther | hOther
    · have hLess := hBefore _ hOther
      left
      omega
    · rcases List.mem_cons.mp hOther with hSame | hOther
      · exact absurd (congrArg Prod.snd hSame) distinct
      · have hLess := hAfter _ hOther
        have hBehind := List.rel_of_pairwise_cons (List.pairwise_append.mp hOrdered).2.1 hOther
        dsimp only at hLess hBehind
        omega

end Candidates

end Forest

namespace Session.Indexed

variable {forest : Forest} {package : Package} {index : List (Nat × NodeId)} {session : Session}
  {pos : Nat} {use declaration : NodeId} {symbol : Symbol}

theorem candidates_increasing (h : session.Indexed forest package index) (name : String) :
    ((Forest.declaredPositions package name).filterMap fun other =>
      List.lookup other index).Pairwise fun first second =>
        (session.arena.span first).start < (session.arena.span second).start :=
  pairwise_filterMap_lookup (h.sound.identIndex index h.hIndex)
    (Forest.declaredPositions_increasing package name)

section Referred

variable (h : session.Indexed forest package index) (found : List.lookup pos index = some use)
  (referred : (pos, symbol) ∈ package.symbols.uses.entries)
  (resolved : ((forest.declaration? use).run session).1 = some declaration)

include h found referred resolved

/-- A recorded use is resolved among the declarations of its recorded name. -/
theorem chosen_of_resolved :
    symbol.name ≠ Forest.blankName ∧
      forest.chosenCandidate? session.arena pos
        ((Forest.declaredPositions package symbol.name).filterMap fun other =>
          List.lookup other index) = some declaration := by
  have hText := h.names _ (List.mem_append_right _ referred) use found
  rw [h.declaration?_eq found, hText] at resolved
  split_ifs at resolved with hBlank
  exact ⟨hBlank, resolved⟩

/-- The declaration of a recorded use is recorded under the same name. -/
theorem declared_of_resolved :
    ∃ start declared, (start, declared) ∈ package.symbols.defs.entries ∧
      declared.name = symbol.name ∧ List.lookup start index = some declaration := by
  obtain ⟨_, hChosen⟩ := h.chosen_of_resolved found referred resolved
  obtain ⟨start, hStart, hFound⟩ := List.mem_filterMap.mp (Forest.mem_of_chosenCandidate? hChosen)
  obtain ⟨declared, hDeclared, hName⟩ := Forest.mem_declaredPositions.mp hStart
  exact ⟨start, declared, hDeclared, hName, hFound⟩

/-- A rival that is an identifier and has a scope of its own does not hide a use from the
declaration which the use is resolved to. If its scope starts later it is preferred, and then the use
is not resolved to the declaration. -/
theorem not_contains_of_located {scope shadow : Scope} {start rival : Nat} {other : Symbol}
    {node : NodeId} (hStart : List.lookup start index = some declaration)
    (hScope : package.symbols.innermostScope? start = some scope)
    (hDeclared : (rival, other) ∈ package.symbols.defs.entries) (hName : other.name = symbol.name)
    (distinct : rival ≠ start) (hRival : scope.Contains rival)
    (hShadow : package.symbols.innermostScope? rival = some shadow) (apart : shadow ≠ scope)
    (located : List.lookup rival index = some node) : ¬ shadow.Contains pos := by
  intro visible
  obtain ⟨_, hChosen⟩ := h.chosen_of_resolved found referred resolved
  have hDeclarationStart := (h.lists hStart).2.2
  have hNodeStart := (h.lists located).2.2
  have hNode : node ∈ (Forest.declaredPositions package symbol.name).filterMap fun other =>
      List.lookup other index :=
    List.mem_filterMap.mpr ⟨rival, Forest.mem_declaredPositions.mpr ⟨other, hDeclared, hName⟩,
      located⟩
  have hOther : node ≠ declaration := by
    rintro rfl
    exact distinct (hNodeStart.symm.trans hDeclarationStart)
  have hHere : forest.scope? session.arena declaration = some scope := by
    rw [Forest.scope?_eq h.hPackage, hDeclarationStart, hScope]
  have hThere : forest.scope? session.arena node = some shadow := by
    rw [Forest.scope?_eq h.hPackage, hNodeStart, hShadow]
  have hBest := Forest.chosenCandidate?_best hChosen (h.candidates_increasing symbol.name) hHere
    hNode hOther hThere visible
  -- the scope of the declaration is around the rival, so that it does not start later
  have hScopeListed := (SymbolTable.innermostScope?_eq_some hScope).1
  have hLate := SymbolTable.start_le_innermostScope? hShadow hScopeListed hRival
  rw [hDeclarationStart, hNodeStart] at hBest
  rcases hBest with hEarly | ⟨tie, hBehind⟩
  · exact Nat.not_lt.mpr hLate hEarly
  · have hAround := (SymbolTable.innermostScope?_eq_some hScope).2
    have hRivalInside := (SymbolTable.innermostScope?_eq_some hShadow).2
    have hBack : shadow.Contains start :=
      ⟨Nat.le_trans (Nat.le_of_eq tie) hAround.1, Nat.lt_trans hBehind hRivalInside.2⟩
    exact apart (SymbolTable.innermostScope?_eq_of_tie hScope hShadow hRival hBack tie.symm).symm

/-- A use is reported by its declaration unless it is eclipsed. -/
theorem mem_usages_iff {scope : Scope}
    (hScope : package.symbols.innermostScope? (session.arena.span declaration).start = some scope)
    (inside : scope.Contains pos) :
    use ∈ ((forest.usages declaration).run session).1 ↔
      ¬ Forest.Eclipsed package.symbols (fun rival => ∃ id, List.lookup rival index = some id) scope
        symbol.name (session.arena.span declaration).start pos := by
  obtain ⟨hNamed, _⟩ := h.chosen_of_resolved found referred resolved
  obtain ⟨start, declared, hDeclared, hName, hStart⟩ :=
    h.declared_of_resolved found referred resolved
  rw [(h.lists hStart).2.2] at hScope ⊢
  constructor
  · rintro member ⟨rival, other, shadow, hRival, hOther, distinct, hInside, hShadow, visible, _⟩
    obtain ⟨held, usePos, hHeld, _, hUsed, hUse⟩ := h.of_mem_usages hStart hDeclared member
    obtain rfl := Option.some.inj (hHeld.symm.trans hScope)
    obtain rfl : usePos = pos := (h.lists hUse).2.2.symm.trans (h.lists found).2.2
    obtain ⟨_, _, hClear⟩ := Forest.mem_usagePositions.mp hUsed
    exact hClear rival other shadow hRival (hOther.trans hName.symm) distinct hInside hShadow visible
  · intro hClear
    have hText := h.names _ (List.mem_append_left _ hDeclared) declaration hStart
    rw [h.usages_eq hStart, hScope, hText, hName]
    dsimp only
    rw [if_neg hNamed]
    refine List.mem_filterMap.mpr ⟨pos, Forest.mem_usagePositions.mpr ?_, found⟩
    refine ⟨⟨symbol, referred, rfl⟩, inside, ?_⟩
    intro rival other shadow hRival hOther distinct hInside hShadow visible
    have hNotSame : shadow ≠ scope := fun hSame => hClear
      ⟨rival, other, shadow, hRival, hOther, distinct, hInside, hShadow, visible, .inl hSame⟩
    have hLocated : ∃ id, List.lookup rival index = some id := by
      by_contra hMissing
      exact hClear
        ⟨rival, other, shadow, hRival, hOther, distinct, hInside, hShadow, visible, .inr hMissing⟩
    obtain ⟨node, hNode⟩ := hLocated
    exact h.not_contains_of_located found referred resolved hStart hScope hRival hOther distinct
      hInside hShadow hNotSame hNode visible

end Referred

end Session.Indexed

/-- A recorded use that is known and resolved to a declaration and lies in its scope is one of the
usages of the declaration, unless it is eclipsed: at once, if the declaration is known as well, and at
any later time. The scopes may overlap in any way. -/
theorem Reachable.mem_usages_iff_not_eclipsed {forest : Forest} {package : Package}
    {session : Session} (reached : Reachable forest session)
    (hPackage : forest.package = some package) (consistent : forest.Consistent package session)
    {pos : Nat} {symbol : Symbol} (referred : (pos, symbol) ∈ package.symbols.uses.entries)
    {use : NodeId} (found : ((forest.identAt? pos).run session).1 = some use)
    (known : use < session.arena.size) {declaration : NodeId}
    (resolved : ((forest.declaration? use).run session).1 = some declaration) {scope : Scope}
    (hScope : forest.scope? ((forest.declaration? use).run session).2.arena declaration = some scope)
    (inside : scope.Contains pos) :
    let after := ((forest.declaration? use).run session).2
    let eclipsed := Forest.Eclipsed package.symbols
      (fun rival => ∃ id, ((forest.identAt? rival).run session).1 = some id) scope symbol.name
      (after.arena.span declaration).start pos
    (declaration < session.arena.size →
      (use ∈ ((forest.usages declaration).run session).1 ↔ ¬ eclipsed)) ∧
    ∀ later, Leads forest after later →
      (use ∈ ((forest.usages declaration).run later).1 ↔ ¬ eclipsed) := by
  intro after eclipsed
  have identifies := Session.Indexed.identifies_of_identAt? reached.sound found known
  have hAfter : after.Indexed forest package (forest.identIndex.run session).1 :=
    .of_declaration? reached.sound hPackage identifies consistent resolved
  rw [Forest.scope?_eq hPackage] at hScope
  have hIff : ∀ there, there.Indexed forest package (forest.identIndex.run session).1 →
      ((forest.declaration? use).run there).1 = some declaration →
      (use ∈ ((forest.usages declaration).run there).1 ↔ ¬ eclipsed) := by
    intro there hThere hResolved
    obtain ⟨start, _, _, _, hStart⟩ := hThere.declared_of_resolved found referred hResolved
    have hSpan : (after.arena.span declaration).start = (there.arena.span declaration).start :=
      (hAfter.lists hStart).2.2.trans (hThere.lists hStart).2.2.symm
    unfold eclipsed
    rw [hSpan] at hScope ⊢
    exact hThere.mem_usages_iff found referred hResolved hScope inside
  refine ⟨?_, ?_⟩
  · intro hKnown
    -- both answers are those that the indexed session gives
    have hIndexed := Session.Indexed.of_identIndex reached.sound hPackage consistent
    have hResolved := Session.Indexed.declaration?_run_index reached.sound hPackage identifies
    rw [resolved] at hResolved
    obtain ⟨start, _, _, _, hStart⟩ := hIndexed.declared_of_resolved found referred hResolved
    have hDeclaring : ((forest.identAt? start).run session).1 = some declaration := hStart
    have hDeclaration :=
      Session.Indexed.identifies_of_identAt? reached.sound hDeclaring hKnown
    rw [← Session.Indexed.usages_run_index reached.sound hPackage hDeclaration]
    exact hIff _ hIndexed hResolved
  · intro later since
    have hLater := hAfter.keep since
    have hAgain := (Forest.memoizes_declaration hPackage).ask_later reached.sound identifies
      hLater.sound (since.keeps hAfter.sound)
    exact hIff later hLater (hAgain.trans resolved)

namespace Sample

/-- A function and a field of a structure have one name, and the function is used. -/
def homonymUnit : ParsedUnit where
  source := ⟨"a.go", 0, "func f()\x7b\x7d;type T struct\x7bf int\x7d;var v=f"⟩
  snapshot := ⟨#[
    { kind := "source_file", span := ⟨0, 39⟩, children := [1, 5, 13] },
    { kind := "function_declaration", span := ⟨0, 10⟩, children := [2, 3, 4] },
    { kind := "identifier", span := ⟨5, 6⟩, field := some "name" },
    { kind := "parameter_list", span := ⟨6, 8⟩, field := some "parameters" },
    { kind := "block", span := ⟨8, 10⟩, field := some "body" },
    { kind := "type_declaration", span := ⟨11, 31⟩, children := [6] },
    { kind := "type_spec", span := ⟨16, 31⟩, children := [7, 8] },
    { kind := "type_identifier", span := ⟨16, 17⟩, field := some "name" },
    { kind := "struct_type", span := ⟨18, 31⟩, field := some "type", children := [9] },
    { kind := "field_declaration_list", span := ⟨24, 31⟩, children := [10] },
    { kind := "field_declaration", span := ⟨25, 30⟩, children := [11, 12] },
    { kind := "field_identifier", span := ⟨25, 26⟩, field := some "name" },
    { kind := "type_identifier", span := ⟨27, 30⟩, field := some "type" },
    { kind := "var_declaration", span := ⟨32, 39⟩, children := [14] },
    { kind := "var_spec", span := ⟨36, 39⟩, children := [15, 16] },
    { kind := "identifier", span := ⟨36, 37⟩, field := some "name" },
    { kind := "expression_list", span := ⟨38, 39⟩, field := some "value", children := [17] },
    { kind := "identifier", span := ⟨38, 39⟩ }]⟩

/-- A structure opens no scope, so that both declarations are in that of the file. -/
def homonymScope : Scope where
  owner := ⟨0, 39⟩
  range := ⟨0, 39⟩

def homonymPackage : Package where
  name := "p"
  symbols := {
    defs := .ofEntries [(5, ⟨"f", .func, none⟩), (16, ⟨"T", .type, none⟩), (25, ⟨"f", .var, none⟩),
      (36, ⟨"v", .var, none⟩)]
    uses := .ofEntries [(38, ⟨"f", .func, none⟩)]
    scopes := [homonymScope] }

def homonyms : Forest where
  units := [homonymUnit]
  package := some homonymPackage
  accepted := by decide
  standalone := by decide

/-- The session in which every node has a number. Nothing was looked up yet. -/
def homonymSession : Session :=
  Query.after homonyms (.start homonyms) .materializeAll

/-- The session after the use was resolved. -/
def homonymLater : Session :=
  ((homonyms.declaration? 18).run homonymSession).2

theorem reachable_homonyms : Reachable homonyms homonymSession :=
  .ask .materializeAll (.nil _)

theorem laminar_homonyms : homonymPackage.symbols.Laminar := by
  have hNested : ∀ first ∈ homonymPackage.symbols.scopes, ∀ second ∈ homonymPackage.symbols.scopes,
      first.range.Encloses second.range ∨ second.range.Encloses first.range := by decide
  exact fun first hFirst second hSecond _ _ _ => hNested first hFirst second hSecond

/-- What is recorded agrees with the texts. The use is resolved to the function, whose scope is that
of the file, and the function does not report it, neither at once nor afterwards. -/
theorem resolution_homonyms :
    (∀ entry ∈ homonymPackage.symbols.defs.entries ++ homonymPackage.symbols.uses.entries,
      (((homonyms.identAt? entry.1).run homonymSession).1.all fun id =>
        homonyms.sourceText ((homonyms.identAt? entry.1).run homonymSession).2.arena id ==
          entry.2.name) = true) ∧
    ((homonyms.identAt? 38).run homonymSession).1 = some 18 ∧
    ((homonyms.declaration? 18).run homonymSession).1 = some 5 ∧
    (18 < homonymSession.arena.size ∧ 5 < homonymSession.arena.size) ∧
    (homonyms.scope? homonymLater.arena 5 = some homonymScope ∧
      (homonymLater.arena.span 5).start = 5) ∧
    18 ∉ ((homonyms.usages 5).run homonymSession).1 ∧
    18 ∉ ((homonyms.usages 5).run homonymLater).1 := by
  decide +kernel

theorem consistent_homonyms : homonyms.Consistent homonymPackage homonymSession := by
  intro entry member id hFound
  have hText := resolution_homonyms.1 entry member
  rw [hFound] at hText
  simpa only [Option.all_some, beq_iff_eq] using hText

end Sample

/-- The field eclipses the use of the function. -/
theorem Reachable.mem_usages_iff_not_eclipsed_sample :
    Forest.Eclipsed Sample.homonymPackage.symbols
      (fun rival => ∃ id, ((Sample.homonyms.identAt? rival).run Sample.homonymSession).1 = some id)
      Sample.homonymScope "f" 5 38 := by
  have hUsed : (38, ⟨"f", .func, none⟩) ∈ Sample.homonymPackage.symbols.uses.entries := by decide
  obtain ⟨_, hFound, hResolved, ⟨hUse, hDeclaration⟩, ⟨hScope, hStart⟩, hMissed, _⟩ :=
    Sample.resolution_homonyms
  unfold Sample.homonymLater at hScope hStart
  obtain ⟨hIff, _⟩ := Reachable.mem_usages_iff_not_eclipsed Sample.reachable_homonyms rfl
    Sample.consistent_homonyms hUsed hFound hUse hResolved hScope (by decide)
  rw [hStart] at hIff
  by_contra hClear
  exact hMissed ((hIff hDeclaration).mpr hClear)

/-- A use is resolved to the function, in whose scope it lies, and the function does not report
it. -/
theorem Sample.homonym_use_not_reported :
    Reachable Sample.homonyms Sample.homonymSession ∧ Sample.homonymPackage.symbols.Laminar ∧
      Sample.homonyms.Consistent Sample.homonymPackage Sample.homonymSession ∧
      (38, ⟨"f", .func, none⟩) ∈ Sample.homonymPackage.symbols.uses.entries ∧
      ((Sample.homonyms.identAt? 38).run Sample.homonymSession).1 = some 18 ∧
      ((Sample.homonyms.declaration? 18).run Sample.homonymSession).1 = some 5 ∧
      Sample.homonyms.scope? Sample.homonymLater.arena 5 = some Sample.homonymScope ∧
      Sample.homonymScope.Contains 38 ∧
      18 ∉ ((Sample.homonyms.usages 5).run Sample.homonymSession).1 ∧
      18 ∉ ((Sample.homonyms.usages 5).run Sample.homonymLater).1 := by
  obtain ⟨_, hFound, hResolved, _, ⟨hScope, _⟩, hMissed, hMissedLater⟩ := Sample.resolution_homonyms
  exact ⟨Sample.reachable_homonyms, Sample.laminar_homonyms, Sample.consistent_homonyms, by decide,
    hFound, hResolved, hScope, by decide, hMissed, hMissedLater⟩

end SyntaxAtlas
