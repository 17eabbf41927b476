import SyntaxAtlas.Proofs.Graph.Transparency
import SyntaxAtlas.Proofs.SortedMap

/-! Usages against declarations. The two directions are worked out differently: a use is given to
the visible candidate whose scope starts last, and a declaration leaves out the uses that lie in the
scope of a rival. When scopes are nested, nothing is left that the first direction would give to
someone else. -/
namespace SyntaxAtlas

namespace Forest

section Table

variable {table : SymbolTable} {scope : Scope} {name : String} {start pos : Nat}

/-- A position is a usage of a declaration when its name is used there, inside the scope, and no
rival of the declaration has a scope around it. -/
theorem mem_usagePositions :
    pos ∈ usagePositions table scope name start ↔
      (∃ symbol, (pos, symbol) ∈ table.uses.entries ∧ symbol.name = name) ∧ scope.Contains pos ∧
        ∀ rival symbol shadow, (rival, symbol) ∈ table.defs.entries → symbol.name = name →
          rival ≠ start → scope.Contains rival → table.innermostScope? rival = some shadow →
          ¬ shadow.Contains pos := by
  unfold usagePositions
  simp only [List.mem_map, List.mem_filter, Bool.and_eq_true, Bool.not_eq_true', beq_iff_eq,
    decide_eq_true_eq, List.any_eq_false, List.mem_filterMap, Prod.exists, bne_iff_ne]
  refine ⟨?_, ?_⟩
  · rintro ⟨_, symbol, ⟨hUse, ⟨hName, hInside⟩, hShadows⟩, rfl⟩
    refine ⟨⟨symbol, hUse, hName⟩, hInside, ?_⟩
    intro rival other shadow declared hOther hStart hContains hShadow
    exact hShadows shadow ⟨rival, other, ⟨declared, ⟨hOther, hStart⟩, hContains⟩, hShadow⟩
  · rintro ⟨⟨symbol, hUse, hName⟩, hInside, hClear⟩
    refine ⟨pos, symbol, ⟨hUse, ⟨hName, hInside⟩, ?_⟩, rfl⟩
    rintro shadow ⟨rival, other, ⟨declared, ⟨hOther, hStart⟩, hContains⟩, hShadow⟩
    exact hClear rival other shadow declared hOther hStart hContains hShadow

theorem usagePositions_increasing (table : SymbolTable) (scope : Scope) (name : String)
    (start : Nat) : (usagePositions table scope name start).Pairwise (· < ·) := by
  refine List.pairwise_map.mpr ?_
  exact table.uses.sorted.filter _

theorem declaredPositions_increasing (package : Package) (name : String) :
    (declaredPositions package name).Pairwise (· < ·) := by
  refine List.pairwise_map.mpr ?_
  exact package.symbols.defs.sorted.filter _

theorem mem_declaredPositions {package : Package} :
    pos ∈ declaredPositions package name ↔
      ∃ symbol, (pos, symbol) ∈ package.symbols.defs.entries ∧ symbol.name = name := by
  simp [declaredPositions]

/-- No other declaration of the name competes for a usage. A scope that starts later would lie
inside the scope of the declaration, and one that starts together with it but belongs to an earlier
declaration as well; either way the other declaration would be a rival, whose scope hides the
usage. -/
theorem start_le_of_usage (laminar : table.Laminar)
    (hScope : table.innermostScope? start = some scope)
    (used : pos ∈ usagePositions table scope name start) {rival : Nat} {symbol : Symbol}
    {shadow : Scope} (declared : (rival, symbol) ∈ table.defs.entries) (hName : symbol.name = name)
    (hShadow : table.innermostScope? rival = some shadow) (visible : shadow.Contains pos) :
    (rival < start → shadow.range.start < scope.range.start) ∧
      (start < rival → shadow.range.start ≤ scope.range.start) := by
  obtain ⟨_, hInside, hUnshadowed⟩ := mem_usagePositions.mp used
  obtain ⟨hScopeListed, hStart⟩ := SymbolTable.innermostScope?_eq_some hScope
  obtain ⟨hShadowListed, hRival⟩ := SymbolTable.innermostScope?_eq_some hShadow
  have hOutside : rival ≠ start → ¬ scope.Contains rival := fun hOther hContains =>
    hUnshadowed rival symbol shadow declared hName hOther hContains hShadow visible
  refine ⟨?_, ?_⟩
  · intro hBefore
    by_contra hLate
    have hFirst : scope.range.start ≤ rival := Nat.le_trans (Nat.not_lt.mp hLate) hRival.1
    exact hOutside (Nat.ne_of_lt hBefore) ⟨hFirst, Nat.lt_trans hBefore hStart.2⟩
  · intro hBehind
    by_contra hLate
    have hLater : scope.range.start < shadow.range.start := Nat.not_le.mp hLate
    rcases laminar scope hScopeListed shadow hShadowListed pos hInside visible with hInner | hOuter
    · have hFirst : scope.range.start ≤ rival := Nat.le_trans hInner.1 hRival.1
      exact hOutside (Nat.ne_of_gt hBehind) ⟨hFirst, Nat.lt_of_lt_of_le hRival.2 hInner.2⟩
    · exact hLate hOuter.1

/-- A position is a usage of one declaration only. -/
theorem start_eq_of_usage (laminar : table.Laminar) {symbol other : Symbol} {rival : Nat}
    {shadow : Scope} (declared : (start, symbol) ∈ table.defs.entries)
    (hScope : table.innermostScope? start = some scope)
    (used : pos ∈ usagePositions table scope symbol.name start)
    (hRival : (rival, other) ∈ table.defs.entries)
    (hShadow : table.innermostScope? rival = some shadow)
    (hUsed : pos ∈ usagePositions table shadow other.name rival) : rival = start := by
  obtain ⟨⟨use, hUse, hName⟩, hInside, _⟩ := mem_usagePositions.mp used
  obtain ⟨⟨again, hAgain, hOtherName⟩, hVisible, _⟩ := mem_usagePositions.mp hUsed
  -- one name is recorded at the position, so that the two declarations are rivals
  have hSame : use = again := Option.some.inj
    ((table.uses.mem_entries_iff.mp hUse).symm.trans (table.uses.mem_entries_iff.mp hAgain))
  have hNames : other.name = symbol.name := by rw [← hOtherName, ← hSame, hName]
  obtain ⟨hEarlier, hLater⟩ := start_le_of_usage laminar hScope used hRival hNames hShadow hVisible
  obtain ⟨hEarlierBack, hLaterBack⟩ :=
    start_le_of_usage laminar hShadow hUsed declared hNames.symm hScope hInside
  rcases Nat.lt_trichotomy rival start with hBefore | hEqual | hBehind
  · exact absurd (hEarlier hBefore) (Nat.not_lt.mpr (hLaterBack hBefore))
  · exact hEqual
  · exact absurd (hEarlierBack hBehind) (Nat.not_lt.mpr (hLater hBehind))

end Table

section Candidates

variable {forest : Forest} {arena : Arena} {pos : Nat}

theorem visibleCandidates_append (forest : Forest) (arena : Arena) (pos : Nat)
    (first second : List NodeId) :
    forest.visibleCandidates arena pos (first ++ second) =
      forest.visibleCandidates arena pos first ++ forest.visibleCandidates arena pos second :=
  List.filterMap_append

/-- A candidate is chosen when no visible candidate before it has a scope that starts as late, and
none after it one that starts later. -/
theorem chosenCandidate?_of_latest {before after : List NodeId} {node : NodeId} {scope : Scope}
    (hScope : forest.scope? arena node = some scope) (visible : scope.Contains pos)
    (hBefore : ∀ other ∈ before, ∀ rival, forest.scope? arena other = some rival →
      rival.Contains pos → rival.range.start < scope.range.start)
    (hAfter : ∀ other ∈ after, ∀ rival, forest.scope? arena other = some rival →
      rival.Contains pos → rival.range.start ≤ scope.range.start) :
    forest.chosenCandidate? arena pos (before ++ node :: after) = some node := by
  have hNode : forest.visibleCandidates arena pos (node :: after) =
      (scope.range.start, node) :: forest.visibleCandidates arena pos after := by
    unfold visibleCandidates
    rw [List.filterMap_cons, hScope]
    simp [visible]
  have hVisible : forest.visibleCandidate? arena pos (before ++ node :: after) = some node := by
    rw [visibleCandidate?_eq, visibleCandidates_append, hNode]
    refine Option.map_eq_some_iff.mpr ⟨(scope.range.start, node), ?_, rfl⟩
    refine (foldl_laterBy_eq_some_iff _).mpr ⟨_, _, rfl, ?_, ?_⟩
    · intro entry member
      obtain ⟨hMember, rival, hRival, hContains, hStart⟩ := mem_visibleCandidates.mp member
      rw [← hStart]
      exact hBefore entry.2 hMember rival hRival hContains
    · intro entry member
      obtain ⟨hMember, rival, hRival, hContains, hStart⟩ := mem_visibleCandidates.mp member
      rw [← hStart]
      exact hAfter entry.2 hMember rival hRival hContains
  unfold chosenCandidate?
  split
  · rename_i only hOnly
    have hMember : node ∈ [only] := by
      rw [← hOnly]
      simp
    rw [List.mem_singleton.mp hMember]
  · exact hVisible

end Candidates

theorem scope?_eq {forest : Forest} {package : Package} (hPackage : forest.package = some package)
    (arena : Arena) (id : NodeId) :
    forest.scope? arena id = package.symbols.innermostScope? (arena.span id).start := by
  rw [scope?, hPackage]
  rfl

/-- The table agrees with the texts: the name recorded at a position is the text of the identifier
that is found there. -/
def Consistent (forest : Forest) (package : Package) (session : Session) : Prop :=
  ∀ entry ∈ package.symbols.defs.entries ++ package.symbols.uses.entries,
    ∀ id, ((forest.identAt? entry.1).run session).1 = some id →
      forest.sourceText ((forest.identAt? entry.1).run session).2.arena id = entry.2.name

section Index

variable {forest : Forest} {package : Package} {session : Session} {id declaration : NodeId}

/-- An identifier is resolved to the same declaration before and after the identifiers are
indexed. -/
theorem resolveDeclaration?_run_index (sound : session.Sound forest)
    (known : id < session.arena.size) :
    ((forest.resolveDeclaration? package id).run (forest.identIndex.run session).2).1 =
      ((forest.resolveDeclaration? package id).run session).1 := by
  have hKeeps := (Session.identIndex_yields sound).allows.keeps.arena
  rw [resolveDeclaration?_run, resolveDeclaration?_run, forest.sourceText_extends hKeeps known]
  split_ifs
  · rfl
  · cases declaredPositions package (forest.sourceText session.arena id) with
    | nil => rfl
    | cons pos rest =>
        rw [identsAt_run_known (identIndex_run_index forest session), identsAt_run_cons]

/-- A declaration that was found was looked up in the index. -/
theorem resolveDeclaration?_eq_some
    (resolved : ((forest.resolveDeclaration? package id).run session).1 = some declaration) :
    let name := forest.sourceText session.arena id
    let indexed := forest.identIndex.run session
    name ≠ blankName ∧ ((forest.resolveDeclaration? package id).run session).2 = indexed.2 ∧
      forest.chosenCandidate? indexed.2.arena (indexed.2.arena.span id).start
        ((declaredPositions package name).filterMap fun pos => List.lookup pos indexed.1) =
          some declaration := by
  intro name indexed
  rw [resolveDeclaration?_run] at resolved ⊢
  split_ifs at resolved ⊢ with hBlank
  cases hPositions : declaredPositions package name with
  | nil =>
      rw [hPositions] at resolved
      nomatch resolved
  | cons pos rest =>
      rw [hPositions, identsAt_run_cons] at resolved
      rw [identsAt_run_cons]
      exact ⟨hBlank, rfl, resolved⟩

/-- The usages of an identifier are resolved to the same before and after the identifiers are
indexed. -/
theorem resolveUsages_run_index (sound : session.Sound forest)
    (known : id < session.arena.size) :
    ((forest.resolveUsages package id).run (forest.identIndex.run session).2).1 =
      ((forest.resolveUsages package id).run session).1 := by
  have hKeeps := (Session.identIndex_yields sound).allows.keeps.arena
  rw [resolveUsages_run, resolveUsages_run, forest.scope?_extends hKeeps known,
    forest.sourceText_extends hKeeps known, hKeeps.span id known]
  cases forest.scope? session.arena id with
  | none => rfl
  | some scope =>
      dsimp only
      split_ifs
      · rfl
      · exact identsAt_run_index forest session _

theorem resolveUsages_run_or (forest : Forest) (session : Session) (package : Package)
    (id : NodeId) :
    ((forest.resolveUsages package id).run session).1 = [] ∨
      ((forest.resolveUsages package id).run session).2 = (forest.identIndex.run session).2 := by
  rw [resolveUsages_run]
  cases forest.scope? session.arena id with
  | none => exact .inl rfl
  | some scope =>
      dsimp only
      split_ifs
      · exact .inl rfl
      · exact (forest.identsAt_run_or session _).imp_left (congrArg Prod.fst)

end Index

end Forest

namespace Session

/-- A session of a package whose identifiers are indexed, with a table that agrees with their
texts. -/
structure Indexed (forest : Forest) (package : Package) (index : List (Nat × NodeId))
    (session : Session) : Prop where
  sound : session.Sound forest
  hPackage : forest.package = some package
  hIndex : session.identIndex = some index
  names : ∀ entry ∈ package.symbols.defs.entries ++ package.symbols.uses.entries,
    ∀ id, List.lookup entry.1 index = some id →
      forest.sourceText session.arena id = entry.2.name

namespace Indexed

variable {forest : Forest} {package : Package} {index : List (Nat × NodeId)} {session : Session}
  {pos : Nat} {id : NodeId}

theorem lists (h : session.Indexed forest package index) (found : List.lookup pos index = some id) :
    id < session.arena.size ∧ (session.arena.kind id).isIdentifier ∧
      (session.arena.span id).start = pos :=
  h.sound.identIndex index h.hIndex _ (mem_of_lookup found)

theorem keep {later : Session} (h : session.Indexed forest package index)
    (leads : Leads forest session later) : later.Indexed forest package index := by
  obtain ⟨hSound, hKeeps⟩ := leads.sound_extends h.sound
  refine ⟨hSound, h.hPackage, hKeeps.identIndex index h.hIndex, ?_⟩
  intro entry member id found
  rw [forest.sourceText_extends hKeeps.arena (h.lists found).1]
  exact h.names entry member id found

section Sooner

/-- Looking for identifiers makes sure of the index. -/
theorem of_identIndex (sound : session.Sound forest) (hPackage : forest.package = some package)
    (consistent : forest.Consistent package session) :
    (forest.identIndex.run session).2.Indexed forest package (forest.identIndex.run session).1 :=
  ⟨(identIndex_yields sound).sound, hPackage, Forest.identIndex_run_index forest session, consistent⟩

variable (sound : session.Sound forest)

include sound

theorem identifies_of_identAt? (found : ((forest.identAt? pos).run session).1 = some id)
    (known : id < session.arena.size) : session.Identifies id := by
  have hFound : session.Yields forest .all (forest.identAt? pos)
      (fun later found => ∀ id, found = some id → later.ListsIdent (pos, id)) :=
    identAt?_yields sound
  refine ⟨known, ?_⟩
  rw [← hFound.allows.keeps.arena.kind id known]
  exact (hFound.answer id found).2.1

variable (hPackage : forest.package = some package) (identifies : session.Identifies id)

include hPackage identifies

/-- An identifier that is known before the identifiers are indexed is resolved to the same
afterwards. -/
theorem declaration?_run_index :
    ((forest.declaration? id).run (forest.identIndex.run session).2).1 =
      ((forest.declaration? id).run session).1 := by
  have hIndex := identIndex_yields sound
  have hMemo := Forest.memoizes_declaration hPackage
  rw [hMemo.agrees session id sound identifies,
    hMemo.agrees _ id hIndex.sound (identifies.keep hIndex.allows.keeps)]
  exact Forest.resolveDeclaration?_run_index sound identifies.1

/-- When a declaration is found, the identifiers are indexed. -/
theorem of_declaration? (consistent : forest.Consistent package session) {declaration : NodeId}
    (resolved : ((forest.declaration? id).run session).1 = some declaration) :
    ((forest.declaration? id).run session).2.Indexed forest package
      (forest.identIndex.run session).1 := by
  have hSound := (declaration?_yields sound identifies.1).sound
  obtain ⟨_, hRun⟩ := declaration?_run sound hPackage identifies.2
  rw [hRun] at resolved hSound ⊢
  obtain ⟨_, hIndexed, _⟩ := Forest.resolveDeclaration?_eq_some resolved
  rw [hIndexed] at hSound ⊢
  exact ⟨hSound, hPackage, Forest.identIndex_run_index forest session, consistent⟩

/-- The usages of an identifier that is known before the identifiers are indexed are the same
afterwards. -/
theorem usages_run_index :
    ((forest.usages id).run (forest.identIndex.run session).2).1 =
      ((forest.usages id).run session).1 := by
  have hIndex := identIndex_yields sound
  have hMemo := Forest.memoizes_usages hPackage
  rw [hMemo.agrees session id sound identifies,
    hMemo.agrees _ id hIndex.sound (identifies.keep hIndex.allows.keeps)]
  exact Forest.resolveUsages_run_index sound identifies.1

/-- When a usage is found, the identifiers are indexed. -/
theorem of_usages (consistent : forest.Consistent package session) {use : NodeId}
    (member : use ∈ ((forest.usages id).run session).1) :
    ((forest.usages id).run session).2.Indexed forest package
      (forest.identIndex.run session).1 := by
  have hSound := (usages_yields sound identifies.1).sound
  obtain ⟨_, hRun⟩ := usages_run sound hPackage identifies.2
  rw [hRun] at member hSound ⊢
  rcases forest.resolveUsages_run_or session package id with hNone | hIndexed
  · rw [hNone] at member
    cases member
  · rw [hIndexed] at hSound ⊢
    exact ⟨hSound, hPackage, Forest.identIndex_run_index forest session, consistent⟩

end Sooner

/-- The usages of an indexed declaration. -/
theorem usages_eq (h : session.Indexed forest package index)
    (found : List.lookup pos index = some id) :
    ((forest.usages id).run session).1 =
      match package.symbols.innermostScope? pos with
      | none => []
      | some scope =>
        if forest.sourceText session.arena id = Forest.blankName then []
        else (Forest.usagePositions package.symbols scope (forest.sourceText session.arena id)
          pos).filterMap fun use => List.lookup use index := by
  obtain ⟨_, hKind, hStart⟩ := h.lists found
  obtain ⟨memory, hRun⟩ := usages_run h.sound h.hPackage hKind
  rw [hRun, Forest.resolveUsages_run, Forest.scope?_eq h.hPackage, hStart]
  cases package.symbols.innermostScope? pos with
  | none => rfl
  | some scope =>
      dsimp only
      split_ifs
      · rfl
      · rw [Forest.identsAt_run_known h.hIndex]

/-- The declaration of an indexed identifier. -/
theorem declaration?_eq (h : session.Indexed forest package index)
    (found : List.lookup pos index = some id) :
    ((forest.declaration? id).run session).1 =
      if forest.sourceText session.arena id = Forest.blankName then none
      else forest.chosenCandidate? session.arena pos
        ((Forest.declaredPositions package (forest.sourceText session.arena id)).filterMap
          fun other => List.lookup other index) := by
  obtain ⟨_, hKind, hStart⟩ := h.lists found
  obtain ⟨memory, hRun⟩ := declaration?_run h.sound h.hPackage hKind
  rw [hRun, Forest.resolveDeclaration?_run]
  split_ifs
  · rfl
  · rw [Forest.identsAt_run_known h.hIndex]
    dsimp only
    rw [hStart]

section Declared

variable {symbol : Symbol}
  (h : session.Indexed forest package index) (found : List.lookup pos index = some id)
  (declared : (pos, symbol) ∈ package.symbols.defs.entries)

include h found declared

/-- A usage comes from a position that the table gives to the declaration. -/
theorem of_mem_usages {use : NodeId} (member : use ∈ ((forest.usages id).run session).1) :
    ∃ scope usePos, package.symbols.innermostScope? pos = some scope ∧
      symbol.name ≠ Forest.blankName ∧
      usePos ∈ Forest.usagePositions package.symbols scope symbol.name pos ∧
      List.lookup usePos index = some use := by
  have hText := h.names _ (List.mem_append_left _ declared) id found
  rw [h.usages_eq found, hText] at member
  cases hScope : package.symbols.innermostScope? pos with
  | none =>
      rw [hScope] at member
      cases member
  | some scope =>
      rw [hScope] at member
      dsimp only at member
      split_ifs at member with hBlank
      · cases member
      · obtain ⟨usePos, hUsed, hFound⟩ := List.mem_filterMap.mp member
        exact ⟨scope, usePos, rfl, hBlank, hUsed, hFound⟩

/-- Usages are listed by increasing start, whenever the starts are looked at. -/
theorem usages_increasing {later : Session} (hLater : later.Indexed forest package index) :
    ((forest.usages id).run session).1.Pairwise fun first second =>
      (later.arena.span first).start < (later.arena.span second).start := by
  have hText := h.names _ (List.mem_append_left _ declared) id found
  rw [h.usages_eq found, hText]
  cases package.symbols.innermostScope? pos with
  | none => exact .nil
  | some scope =>
      dsimp only
      split_ifs
      · exact .nil
      · exact pairwise_filterMap_lookup (hLater.sound.identIndex index hLater.hIndex)
          (Forest.usagePositions_increasing _ scope symbol.name pos)

/-- A usage is resolved to the declaration that reports it. -/
theorem declaration?_of_usage (laminar : package.symbols.Laminar) {scope : Scope} {usePos : Nat}
    {use : NodeId} (hScope : package.symbols.innermostScope? pos = some scope)
    (named : symbol.name ≠ Forest.blankName)
    (used : usePos ∈ Forest.usagePositions package.symbols scope symbol.name pos)
    (hUse : List.lookup usePos index = some use) :
    ((forest.declaration? use).run session).1 = some id := by
  obtain ⟨⟨useSymbol, hRefers, hName⟩, hInside, _⟩ := Forest.mem_usagePositions.mp used
  have hText : forest.sourceText session.arena use = symbol.name :=
    (h.names _ (List.mem_append_right _ hRefers) use hUse).trans hName
  have hMember : pos ∈ Forest.declaredPositions package symbol.name :=
    Forest.mem_declaredPositions.mpr ⟨symbol, declared, rfl⟩
  -- what the table says about the other candidates
  have hOthers : ∀ other ∈ Forest.declaredPositions package symbol.name, ∀ node,
      List.lookup other index = some node → ∀ rival,
      forest.scope? session.arena node = some rival → rival.Contains usePos →
      (other < pos → rival.range.start < scope.range.start) ∧
        (pos < other → rival.range.start ≤ scope.range.start) := by
    intro other hOther node hNode rival hRival hContains
    obtain ⟨otherSymbol, hDeclared, hOtherName⟩ := Forest.mem_declaredPositions.mp hOther
    rw [Forest.scope?_eq h.hPackage, (h.lists hNode).2.2] at hRival
    exact Forest.start_le_of_usage laminar hScope used hDeclared hOtherName hRival hContains
  have hIncreasing := Forest.declaredPositions_increasing package symbol.name
  rw [h.declaration?_eq hUse, hText, if_neg named]
  obtain ⟨before, after, hSplit⟩ := List.append_of_mem hMember
  rw [hSplit] at hOthers hIncreasing ⊢
  obtain ⟨_, hBehind, hAhead⟩ := List.pairwise_append.mp hIncreasing
  rw [List.filterMap_append, List.filterMap_cons, found]
  refine Forest.chosenCandidate?_of_latest ?_ hInside ?_ ?_
  · rw [Forest.scope?_eq h.hPackage, (h.lists found).2.2]
    exact hScope
  · intro node member rival hRival hContains
    obtain ⟨other, hOther, hNode⟩ := List.mem_filterMap.mp member
    exact (hOthers other (List.mem_append_left _ hOther) node hNode rival hRival hContains).1
      (hAhead other hOther pos List.mem_cons_self)
  · intro node member rival hRival hContains
    obtain ⟨other, hOther, hNode⟩ := List.mem_filterMap.mp member
    exact (hOthers other (List.mem_append_right _ (List.mem_cons_of_mem _ hOther)) node hNode rival
      hRival hContains).2 (List.rel_of_pairwise_cons hBehind hOther)

/-- No other declaration reports a usage of this one. -/
theorem eq_of_mem_usages (laminar : package.symbols.Laminar) {scope : Scope} {usePos : Nat}
    {use : NodeId} (hScope : package.symbols.innermostScope? pos = some scope)
    (used : usePos ∈ Forest.usagePositions package.symbols scope symbol.name pos)
    (hUse : List.lookup usePos index = some use) {start : Nat} {rival : Symbol} {other : NodeId}
    (hDeclared : (start, rival) ∈ package.symbols.defs.entries)
    (hOther : List.lookup start index = some other)
    (member : use ∈ ((forest.usages other).run session).1) : other = id := by
  obtain ⟨shadow, otherPos, hShadow, _, hUsed, hAgain⟩ := h.of_mem_usages hOther hDeclared member
  -- one identifier starts at one position only
  obtain rfl : usePos = otherPos := (h.lists hUse).2.2.symm.trans (h.lists hAgain).2.2
  have hSame := Forest.start_eq_of_usage laminar declared hScope used hDeclared hShadow hUsed
  rw [hSame] at hOther
  exact Option.some.inj (hOther.symm.trans found)

end Declared

end Indexed

end Session

/-- A usage of a declaring identifier that is known comes from a position that the table gives to
it, and the session that is left is indexed. -/
theorem Session.Indexed.exists_of_usages {forest : Forest} {package : Package} {session : Session}
    (sound : session.Sound forest) (hPackage : forest.package = some package)
    (consistent : forest.Consistent package session) {pos : Nat} {symbol : Symbol}
    (declared : (pos, symbol) ∈ package.symbols.defs.entries) {declaration : NodeId}
    (found : ((forest.identAt? pos).run session).1 = some declaration)
    (known : declaration < session.arena.size) {use : NodeId}
    (member : use ∈ ((forest.usages declaration).run session).1) :
    ∃ scope usePos, package.symbols.innermostScope? pos = some scope ∧
      symbol.name ≠ Forest.blankName ∧
      usePos ∈ Forest.usagePositions package.symbols scope symbol.name pos ∧
      List.lookup usePos (forest.identIndex.run session).1 = some use ∧
      ((forest.usages declaration).run session).2.Indexed forest package
        (forest.identIndex.run session).1 := by
  have identifies := identifies_of_identAt? sound found known
  have hAfter := of_usages sound hPackage identifies consistent member
  rw [← usages_run_index sound hPackage identifies] at member
  obtain ⟨scope, usePos, hScope, named, used, hUse⟩ :=
    (of_identIndex sound hPackage consistent).of_mem_usages found declared member
  exact ⟨scope, usePos, hScope, named, used, hUse, hAfter⟩

/-- The usages of a known declaring identifier: their starts increase, all of them lie in its scope,
each of them is resolved to it at any later time, and no other declaration reports one of them, in
this history or in any other. Nothing is said about uses that no declaration reports. -/
theorem Reachable.usages_resolve_back {forest : Forest} {package : Package} {session : Session}
    (reached : Reachable forest session) (hPackage : forest.package = some package)
    (laminar : package.symbols.Laminar) (consistent : forest.Consistent package session) {pos : Nat}
    {symbol : Symbol} (declared : (pos, symbol) ∈ package.symbols.defs.entries)
    {declaration : NodeId} (found : ((forest.identAt? pos).run session).1 = some declaration)
    (known : declaration < session.arena.size) :
    let indexed := ((forest.identAt? pos).run session).2
    let uses := ((forest.usages declaration).run session).1
    let after := ((forest.usages declaration).run session).2
    (uses.Pairwise fun first second =>
      (after.arena.span first).start < (after.arena.span second).start) ∧
    (∀ use ∈ uses, ∃ scope, forest.scope? after.arena declaration = some scope ∧
      scope.Contains (after.arena.span use).start) ∧
    (∀ use ∈ uses, ∀ later, Leads forest after later →
      ((forest.declaration? use).run later).1 = some declaration) ∧
    (∀ use ∈ uses, ∀ entry ∈ package.symbols.defs.entries, ∀ other,
      ((forest.identAt? entry.1).run indexed).1 = some other →
      ∀ later, Leads forest indexed later →
      use ∈ ((forest.usages other).run later).1 → other = declaration) ∧
    ∀ use ∈ uses, ∀ there, Reachable forest there → forest.Consistent package there →
      ∀ entry ∈ package.symbols.defs.entries, ∀ other,
      ((forest.identAt? entry.1).run there).1 = some other → other < there.arena.size →
      ∀ same ∈ ((forest.usages other).run there).1,
      (((forest.usages other).run there).2.arena.span same).start = (after.arena.span use).start →
      entry.1 = pos := by
  intro indexed uses after
  have hIndexed : indexed.Indexed forest package (forest.identIndex.run session).1 :=
    .of_identIndex reached.sound hPackage consistent
  have hFound : List.lookup pos (forest.identIndex.run session).1 = some declaration := found
  have hUses : ∀ use ∈ uses, ∃ scope usePos, package.symbols.innermostScope? pos = some scope ∧
      symbol.name ≠ Forest.blankName ∧
      usePos ∈ Forest.usagePositions package.symbols scope symbol.name pos ∧
      List.lookup usePos (forest.identIndex.run session).1 = some use ∧
      after.Indexed forest package (forest.identIndex.run session).1 :=
    fun use => Session.Indexed.exists_of_usages reached.sound hPackage consistent declared found known
  refine ⟨?_, ?_, ?_, ?_, ?_⟩
  · by_cases hNone : uses = []
    · rw [hNone]
      exact .nil
    · obtain ⟨use, member⟩ := List.exists_mem_of_ne_nil uses hNone
      obtain ⟨_, _, _, _, _, _, hAfter⟩ := hUses use member
      have hSame : ((forest.usages declaration).run indexed).1 = uses :=
        Session.Indexed.usages_run_index reached.sound hPackage
          (Session.Indexed.identifies_of_identAt? reached.sound found known)
      rw [← hSame]
      exact hIndexed.usages_increasing hFound declared hAfter
  · intro use member
    obtain ⟨scope, usePos, hScope, _, hUsed, hUse, hAfter⟩ := hUses use member
    refine ⟨scope, ?_, ?_⟩
    · rw [Forest.scope?_eq hPackage, (hAfter.lists hFound).2.2]
      exact hScope
    · rw [(hAfter.lists hUse).2.2]
      exact (Forest.mem_usagePositions.mp hUsed).2.1
  · intro use member later hLater
    obtain ⟨scope, usePos, hScope, hNamed, hUsed, hUse, hAfter⟩ := hUses use member
    have hThen := hAfter.keep hLater
    exact hThen.declaration?_of_usage hFound declared laminar hScope hNamed hUsed hUse
  · intro use member entry hEntry other hOther later hLater hMember
    obtain ⟨scope, usePos, hScope, _, hUsed, hUse, _⟩ := hUses use member
    -- the index was there when the other declaration was looked for
    have hOtherFound : List.lookup entry.1 (forest.identIndex.run session).1 = some other := by
      rw [Forest.identAt?_run, Forest.identIndex_run_known hIndexed.hIndex] at hOther
      exact hOther
    exact (hIndexed.keep hLater).eq_of_mem_usages hFound declared laminar hScope hUsed hUse hEntry
      hOtherFound hMember
  · intro use member there hThere hConsistent entry hEntry other hOther hKnown same hMember hStart
    obtain ⟨scope, usePos, hScope, _, hUsed, hUse, hAfter⟩ := hUses use member
    obtain ⟨shadow, otherPos, hShadow, _, hOtherUsed, hOtherUse, hOtherAfter⟩ :=
      Session.Indexed.exists_of_usages hThere.sound hPackage hConsistent hEntry hOther hKnown hMember
    obtain rfl : otherPos = usePos := by
      rw [← (hOtherAfter.lists hOtherUse).2.2, hStart, (hAfter.lists hUse).2.2]
    exact Forest.start_eq_of_usage laminar declared hScope hUsed hEntry hShadow hOtherUsed

/-- Nothing was looked up in the session that is asked here. -/
theorem Reachable.usages_resolve_back_sample :
    let session := Query.after Sample.forest (.start Sample.forest) .materializeAll
    ((Sample.forest.usages 2).run session).1 = [6] ∧
      ((Sample.forest.declaration? 6).run ((Sample.forest.usages 2).run session).2).1 = some 2 := by
  have hReached : Reachable Sample.forest
      (Query.after Sample.forest (.start Sample.forest) .materializeAll) :=
    .ask .materializeAll (.nil _)
  have hUses : ((Sample.forest.usages 2).run
      (Query.after Sample.forest (.start Sample.forest) .materializeAll)).1 = [6] := by
    decide +kernel
  have hLaminar : Sample.package.symbols.Laminar := by
    have hNested : ∀ first ∈ Sample.package.symbols.scopes,
        ∀ second ∈ Sample.package.symbols.scopes,
        first.range.Encloses second.range ∨ second.range.Encloses first.range := by decide
    exact fun first hFirst second hSecond _ _ _ => hNested first hFirst second hSecond
  have hConsistent : Sample.forest.Consistent Sample.package
      (Query.after Sample.forest (.start Sample.forest) .materializeAll) := by
    have hTexts : ∀ entry ∈ Sample.package.symbols.defs.entries ++
        Sample.package.symbols.uses.entries,
        let looked := (Sample.forest.identAt? entry.1).run
          (Query.after Sample.forest (.start Sample.forest) .materializeAll)
        (looked.1.all fun id => Sample.forest.sourceText looked.2.arena id == entry.2.name) = true :=
      by decide +kernel
    intro entry member id hFound
    have hText := hTexts entry member
    dsimp only at hText
    rw [hFound] at hText
    simpa only [Option.all_some, beq_iff_eq] using hText
  have hDeclared : (0, ⟨"x", .var, none⟩) ∈ Sample.package.symbols.defs.entries := by decide
  have hFound : ((Sample.forest.identAt? 0).run
      (Query.after Sample.forest (.start Sample.forest) .materializeAll)).1 = some 2 := by
    decide +kernel
  have hKnown : 2 < (Query.after Sample.forest (.start Sample.forest) .materializeAll).arena.size := by
    decide +kernel
  obtain ⟨_, _, hBack, _⟩ := Reachable.usages_resolve_back hReached rfl hLaminar hConsistent
    hDeclared hFound hKnown
  refine ⟨hUses, hBack 6 ?_ _ (.refl _)⟩
  rw [hUses]
  exact List.mem_singleton_self 6

end SyntaxAtlas
