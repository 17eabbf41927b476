import SyntaxAtlas.Proofs.Graph.Choice
import SyntaxAtlas.Proofs.Graph.Indexing

/-! Declarations below a node. The search takes the recorded positions in the span of the node, looks
each of them up in the index of identifiers, and keeps the identifiers below the node. The index knows
the first identifier at a position. When a declaration is split, the parts that the names share are
there once for each name, so that the first one at a position may be below another node. -/
namespace SyntaxAtlas

namespace Arena

namespace WellNumbered

variable {forest : Forest} {arena : Arena} {id upper lower : NodeId}

theorem level_child (h : arena.WellNumbered forest) {parent : NodeId}
    (above : arena.parent? id = some parent) : arena.level id = arena.level parent + 1 := by
  obtain ⟨ids, hParent, hChildren, member⟩ := h.listed_by_parent above
  exact (h.of_mem_children hParent hChildren member).2.2.2

theorem level_lt_of_mem_ancestors (h : arena.WellNumbered forest)
    (above : upper ∈ arena.ancestors id) : arena.level upper < arena.level id := by
  induction id using Nat.strongRecOn with
  | ind id ih =>
      rcases arena.ancestors_cases id with hNone | ⟨parent, hParent, before, hAncestors⟩
      · rw [hNone] at above
        cases above
      · rw [hAncestors] at above
        have hLevel := h.level_child hParent
        rcases mem_lineage.mp above with rfl | hFurther
        · omega
        · have hLess := ih parent before hFurther
          omega

/-- A node contains what is properly below it. The way up may end at the level of the upper node, as
levels only get smaller. -/
theorem contains_iff (h : arena.WellNumbered forest) :
    arena.contains upper lower ↔ upper ∈ arena.ancestors lower := by
  induction lower using Nat.strongRecOn with
  | ind lower ih =>
      rw [contains]
      cases hParent : arena.parent? lower with
      | none => simp [ancestors_of_alone hParent]
      | some parent =>
          have hBefore := h.parent_lt hParent
          rw [h.ancestors_child hParent, mem_lineage]
          dsimp only
          split_ifs with hSame hLevel
          · simp [hSame]
          · have hAbove : upper ∉ arena.ancestors parent := fun above =>
              absurd (h.level_lt_of_mem_ancestors above) (Nat.not_lt.mpr hLevel)
            simp [hAbove, Ne.symm hSame]
          · rw [ih parent hBefore]
            simp [Ne.symm hSame]

end WellNumbered

/-- Some identifier properly below a node starts at a position. -/
def NamesBelow (arena : Arena) (id : NodeId) (pos : Nat) : Prop :=
  ∃ node, id ∈ arena.ancestors node ∧ (arena.kind node).isIdentifier ∧
    (arena.span node).start = pos

/-- A position that is missed from a node: the node does not cover it, or the first identifier that
starts there is not below the node. -/
def Overlooks (arena : Arena) (id : NodeId) (pos : Nat) : Prop :=
  ¬ (arena.span id).Contains pos ∨
    ∃ first, arena.firstIdentAt? pos = some first ∧ id ∉ arena.ancestors first

section Identifiers

variable {forest : Forest} {arena : Arena} {id node : NodeId} {pos : Nat}

theorem of_firstIdentAt? (found : arena.firstIdentAt? pos = some node) :
    (arena.kind node).isIdentifier ∧ (arena.span node).start = pos := by
  have hMember := List.mem_of_find?_eq_some found
  have hStart := List.find?_some found
  exact ⟨(List.mem_filter.mp hMember).2, by simpa using hStart⟩

theorem NamesBelow.exists_firstIdentAt? (h : arena.WellNumbered forest)
    (names : arena.NamesBelow id pos) : ∃ first, arena.firstIdentAt? pos = some first := by
  obtain ⟨node, below, hKind, hStart⟩ := names
  have hRoot := h.root_mem_lineage (known_of_mem_ancestors below)
  apply Option.isSome_iff_exists.mp
  rw [firstIdentAt?, List.find?_isSome]
  exact ⟨node, List.mem_filter.mpr ⟨h.mem_preorder.mpr hRoot, hKind⟩, by simpa using hStart⟩

end Identifiers

end Arena

namespace Package

variable {package : Package} {span : Span} {pos : Nat}

/-- A position is recorded under a name that declares something. -/
def Declares (package : Package) (pos : Nat) : Prop :=
  ∃ symbol, (pos, symbol) ∈ package.symbols.defs.entries ∧ symbol.name ≠ Forest.blankName

/-- The positions in a span that are recorded under such names. -/
def declaringPositions (package : Package) (span : Span) : List Nat :=
  (package.symbols.defs.entries.filter fun entry =>
    entry.2.name != Forest.blankName && decide (span.Contains entry.1)).map Prod.fst

theorem mem_declaringPositions :
    pos ∈ package.declaringPositions span ↔ package.Declares pos ∧ span.Contains pos := by
  simp only [declaringPositions, Declares, List.mem_map, List.mem_filter, Bool.and_eq_true,
    bne_iff_ne, decide_eq_true_eq, Prod.exists]
  constructor
  · rintro ⟨_, symbol, ⟨recorded, hName, covers⟩, rfl⟩
    exact ⟨⟨symbol, recorded, hName⟩, covers⟩
  · rintro ⟨⟨symbol, recorded, hName⟩, covers⟩
    exact ⟨pos, symbol, ⟨recorded, hName, covers⟩, rfl⟩

theorem declaringPositions_increasing (package : Package) (span : Span) :
    (package.declaringPositions span).Pairwise (· < ·) :=
  List.pairwise_map.mpr (package.symbols.defs.sorted.filter _)

end Package

namespace Forest

theorem findDeclarations_run {forest : Forest} {package : Package} (session : Session) (id : NodeId)
    (hPackage : forest.package = some package) :
    (forest.findDeclarations id).run session =
      let looked := (forest.identsAt (package.declaringPositions (session.arena.span id))).run session
      (looked.1.filter (looked.2.arena.contains id), looked.2) := by
  rw [findDeclarations, hPackage]
  rfl

end Forest

namespace Session

variable {forest : Forest} {package : Package} {session last : Session} {id node : NodeId}

/-- What an exact index answers is read off the tree. -/
theorem Exact.identAt?_eq (exact : session.Exact) (sound : session.Sound forest)
    (hLast : last.Sound forest) (since : (forest.identIndex.run session).2.Extends last) (pos : Nat) :
    ((forest.identAt? pos).run session).1 = last.arena.firstIdentAt? pos := by
  have hIndexed := identIndex_yields sound
  obtain ⟨complete, hListed⟩ := identIndex_exact sound exact _ hIndexed.answer
  rw [Forest.identAt?_run, hListed,
    ← complete.identStarts_eq hIndexed.sound.arena hLast.arena since.arena]
  exact last.arena.lookup_identStarts pos

/-- Looking at no position at all does not build the index, and finds nothing. -/
theorem Exact.mem_identsAt (exact : session.Exact) (sound : session.Sound forest)
    (hLast : last.Sound forest) {positions : List Nat}
    (since : ((forest.identsAt positions).run session).2.Extends last) :
    node ∈ ((forest.identsAt positions).run session).1 ↔
      ∃ pos ∈ positions, last.arena.firstIdentAt? pos = some node := by
  rw [Forest.mem_identsAt]
  cases positions with
  | nil => simp
  | cons pos rest =>
      rw [Forest.identsAt_run_cons] at since
      simp only [exact.identAt?_eq sound hLast since]

/-- The nodes that are found, read off the tree at any later time. -/
theorem Exact.mem_findDeclarations (exact : session.Exact) (sound : session.Sound forest)
    (hPackage : forest.package = some package) (known : id < session.arena.size)
    (hLast : last.Sound forest)
    (since : ((forest.findDeclarations id).run session).2.Extends last) :
    node ∈ ((forest.findDeclarations id).run session).1 ↔
      ∃ pos, (package.Declares pos ∧ (last.arena.span id).Contains pos) ∧
        last.arena.firstIdentAt? pos = some node ∧ id ∈ last.arena.ancestors node := by
  have hRun := Forest.findDeclarations_run session id hPackage
  have hLooked : session.Yields forest .all
      (forest.identsAt (package.declaringPositions (session.arena.span id))) Knows :=
    identsAt_yields sound
  rw [hRun] at since ⊢
  dsimp only at since ⊢
  have hSpan : last.arena.span id = session.arena.span id :=
    (hLooked.allows.keeps.trans since).arena.span id known
  rw [List.mem_filter, hSpan]
  simp only [← Package.mem_declaringPositions]
  constructor
  · rintro ⟨member, contains⟩
    obtain ⟨pos, hPos, hFirst⟩ := (exact.mem_identsAt sound hLast since).mp member
    refine ⟨pos, hPos, hFirst, ?_⟩
    rw [since.arena.ancestors (hLooked.answer node member)]
    exact hLooked.sound.arena.contains_iff.mp contains
  · rintro ⟨pos, hPos, hFirst, below⟩
    have hMember := (exact.mem_identsAt sound hLast since).mpr ⟨pos, hPos, hFirst⟩
    refine ⟨hMember, hLooked.sound.arena.contains_iff.mpr ?_⟩
    rwa [← since.arena.ancestors (hLooked.answer node hMember)]

/-- The nodes that are found come by position. -/
theorem findDeclarations_increasing (sound : session.Sound forest)
    (hPackage : forest.package = some package)
    (since : ((forest.findDeclarations id).run session).2.Extends last) :
    ((forest.findDeclarations id).run session).1.Pairwise fun first second =>
      (last.arena.span first).start < (last.arena.span second).start := by
  have hRun := Forest.findDeclarations_run session id hPackage
  have hLooked : session.Yields forest .all
      (forest.identsAt (package.declaringPositions (session.arena.span id))) Knows :=
    identsAt_yields sound
  rw [hRun] at since ⊢
  dsimp only at since ⊢
  apply List.Pairwise.filter
  apply (identsAt_increasing sound (package.declaringPositions_increasing _)).imp_of_mem
  intro first second hFirst hSecond hLess
  rwa [since.arena.span first (hLooked.answer first hFirst),
    since.arena.span second (hLooked.answer second hSecond)]

end Session

/-- The declarations that are found below a node, after any history. They come by position and are
identifiers properly below the node, and a recorded position at which an identifier below the node
starts is among theirs unless it is overlooked. -/
theorem Reachable.findDeclarations_unless_overlooked {forest : Forest} {package : Package}
    {session : Session} (reached : Reachable forest session)
    (hPackage : forest.package = some package) {id : NodeId} (known : id < session.arena.size)
    {later : Session} (leads : Leads forest ((forest.findDeclarations id).run session).2 later) :
    let found := ((forest.findDeclarations id).run session).1
    (found.Pairwise fun first second =>
      (later.arena.span first).start < (later.arena.span second).start) ∧
    (∀ node ∈ found, id ∈ later.arena.ancestors node ∧ (later.arena.kind node).isIdentifier) ∧
    ∀ pos, (∃ node ∈ found, (later.arena.span node).start = pos) ↔
      package.Declares pos ∧ later.arena.NamesBelow id pos ∧ ¬ later.arena.Overlooks id pos := by
  intro found
  obtain ⟨hLater, since⟩ :=
    leads.sound_extends (Session.findDeclarations_yields reached.sound).sound
  have hFound : ∀ {node}, node ∈ found ↔ _ :=
    reached.exact.mem_findDeclarations reached.sound hPackage known hLater since
  refine ⟨Session.findDeclarations_increasing reached.sound hPackage since, ?_, ?_⟩
  · intro node member
    obtain ⟨pos, _, hFirst, below⟩ := hFound.mp member
    exact ⟨below, (Arena.of_firstIdentAt? hFirst).1⟩
  · intro pos
    constructor
    · rintro ⟨node, member, hStart⟩
      obtain ⟨other, ⟨declares, covers⟩, hFirst, below⟩ := hFound.mp member
      obtain ⟨hKind, hOther⟩ := Arena.of_firstIdentAt? hFirst
      obtain rfl : other = pos := hOther.symm.trans hStart
      refine ⟨declares, ⟨node, below, hKind, hStart⟩, ?_⟩
      rintro (outside | ⟨first, hAgain, hNotBelow⟩)
      · exact outside covers
      · obtain rfl : node = first := Option.some.inj (hFirst.symm.trans hAgain)
        exact hNotBelow below
    · rintro ⟨declares, names, sees⟩
      obtain ⟨covers, hBelow⟩ := not_or.mp sees
      obtain ⟨first, hFirst⟩ := names.exists_firstIdentAt? hLater.arena
      have below : id ∈ later.arena.ancestors first := by
        by_contra hNotBelow
        exact hBelow ⟨first, hFirst, hNotBelow⟩
      exact ⟨first, hFound.mpr ⟨pos, ⟨declares, not_not.mp covers⟩, hFirst, below⟩,
        (Arena.of_firstIdentAt? hFirst).2⟩

namespace Sample

/-- A function with two parameters of one type, in which a parameter is declared as well. -/
def copiedUnit : ParsedUnit where
  source := ⟨"a.go", 0, "func f(a,b func(x int))\x7b\x7d"⟩
  snapshot := ⟨#[
    { kind := "source_file", span := ⟨0, 25⟩, children := [1] },
    { kind := "function_declaration", span := ⟨0, 25⟩, children := [2, 3, 12] },
    { kind := "identifier", span := ⟨5, 6⟩, field := some "name" },
    { kind := "parameter_list", span := ⟨6, 23⟩, field := some "parameters", children := [4] },
    { kind := "parameter_declaration", span := ⟨7, 22⟩, children := [5, 6, 7] },
    { kind := "identifier", span := ⟨7, 8⟩, field := some "name" },
    { kind := "identifier", span := ⟨9, 10⟩, field := some "name" },
    { kind := "function_type", span := ⟨11, 22⟩, field := some "type", children := [8] },
    { kind := "parameter_list", span := ⟨15, 22⟩, field := some "parameters", children := [9] },
    { kind := "parameter_declaration", span := ⟨16, 21⟩, children := [10, 11] },
    { kind := "identifier", span := ⟨16, 17⟩, field := some "name" },
    { kind := "type_identifier", span := ⟨18, 21⟩, field := some "type" },
    { kind := "block", span := ⟨23, 25⟩, field := some "body" }]⟩

def copiedPackage : Package where
  name := "p"
  symbols := {
    defs := .ofEntries [(5, ⟨"f", .func, none⟩), (7, ⟨"a", .var, none⟩), (9, ⟨"b", .var, none⟩),
      (16, ⟨"x", .var, none⟩)]
    uses := .ofEntries []
    scopes := [{ owner := ⟨0, 25⟩, range := ⟨0, 25⟩ }] }

def copied : Forest where
  units := [copiedUnit]
  package := some copiedPackage
  accepted := by decide
  standalone := by decide

/-- The session in which everything has a number. -/
def copiedSession : Session :=
  Query.after copied (.start copied) .materializeAll

theorem reachable_copied : Reachable copied copiedSession :=
  .ask .materializeAll (.nil _)

/-- The session after the second of the two parameters was asked for declarations. -/
def copiedLater : Session :=
  ((copied.findDeclarations 7).run copiedSession).2

/-- Only the name of the parameter is found, although the second copy of the inner parameter is below
it as well. -/
theorem findDeclarations_copied : ((copied.findDeclarations 7).run copiedSession).1 = [14] ∧
    (copiedLater.arena.span 14).start = 9 ∧ 7 < copiedSession.arena.size ∧
    7 ∈ copiedLater.arena.ancestors 18 ∧ (copiedLater.arena.kind 18).isIdentifier ∧
    (copiedLater.arena.span 18).start = 16 := by
  decide +kernel

theorem known_copied : 7 < copiedSession.arena.size :=
  findDeclarations_copied.2.2.1

theorem declares_copied : copiedPackage.Declares 16 :=
  ⟨⟨"x", .var, none⟩, by decide, by decide⟩

theorem namesBelow_copied : copiedLater.arena.NamesBelow 7 16 :=
  ⟨18, findDeclarations_copied.2.2.2⟩

theorem not_found_copied : ¬ ∃ node ∈ ((copied.findDeclarations 7).run copiedSession).1,
    (copiedLater.arena.span node).start = 16 := by
  obtain ⟨hFound, hStart, _⟩ := findDeclarations_copied
  rw [hFound]
  rintro ⟨node, member, hOther⟩
  obtain rfl := List.mem_singleton.mp member
  rw [hStart] at hOther
  cases hOther

end Sample

/-- The name of the second parameter is seen, and the inner parameter in its type is overlooked. -/
theorem Reachable.findDeclarations_unless_overlooked_sample :
    ¬ Sample.copiedLater.arena.Overlooks 7 9 ∧ Sample.copiedLater.arena.Overlooks 7 16 := by
  obtain ⟨_, _, hStarts⟩ := Reachable.findDeclarations_unless_overlooked Sample.reachable_copied rfl
    Sample.known_copied (.refl Sample.copiedLater)
  obtain ⟨hFound, hStart, _⟩ := Sample.findDeclarations_copied
  have hMember : 14 ∈ ((Sample.copied.findDeclarations 7).run Sample.copiedSession).1 := by
    rw [hFound]
    exact List.mem_singleton_self 14
  constructor
  · exact ((hStarts 9).mp ⟨14, hMember, hStart⟩).2.2
  · by_contra hSeen
    exact Sample.not_found_copied
      ((hStarts 16).mpr ⟨Sample.declares_copied, Sample.namesBelow_copied, hSeen⟩)

/-- A declaration is recorded at a position where an identifier below the node starts, and it is not
found. -/
theorem Sample.copied_declaration_not_found :
    Reachable Sample.copied Sample.copiedSession ∧ Sample.copied.package = some Sample.copiedPackage ∧
      7 < Sample.copiedSession.arena.size ∧ Sample.copiedPackage.Declares 16 ∧
      Sample.copiedLater.arena.NamesBelow 7 16 ∧
      ¬ ∃ node ∈ ((Sample.copied.findDeclarations 7).run Sample.copiedSession).1,
        (Sample.copiedLater.arena.span node).start = 16 :=
  ⟨Sample.reachable_copied, rfl, Sample.known_copied, Sample.declares_copied,
    Sample.namesBelow_copied, Sample.not_found_copied⟩

end SyntaxAtlas
