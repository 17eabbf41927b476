import SyntaxAtlas.Proofs.Graph.PatternHits
import SyntaxAtlas.Proofs.Graph.Positions

/-! Matches that give no hit although a node below the start fits them. For a match only the first of
all nodes that fit it is tried, and where that node does not lie below the start nothing is put in its
place: the match is passed by. So is a match outside of the span of the start, although below one name
of a declaration there are nodes in front of that name. There is no other way to lose a match, and from
a package none is lost. -/
namespace SyntaxAtlas

section Answers

variable {engine : PatternEngine} {pattern : String}

/-- What the engine answers for the unit of a stretch. -/
def Stretch.answer (engine : PatternEngine) (pattern : String) (stretch : Stretch) :
    Except PatternError (List PatternMatch) :=
  (engine stretch.number pattern).mapError fun reason => ⟨pattern, reason⟩

theorem map_reports (hit? : PatternMatch → Option PatternHit) (stretches : List Stretch) :
    (reports engine pattern stretches).map (List.filterMap hit?) =
      (stretches.mapM fun stretch : Stretch =>
        (stretch.matches engine pattern).map (List.filterMap hit?)).map List.flatten := by
  induction stretches with
  | nil => rfl
  | cons stretch rest ih =>
      rw [← List.singleton_append, map_reports_append, reports_singleton, ih, List.singleton_append,
        List.mapM_cons]
      cases (stretch.matches engine pattern).map (List.filterMap hit?) with
      | error error => rfl
      | ok hits =>
          cases rest.mapM fun stretch : Stretch =>
              (stretch.matches engine pattern).map (List.filterMap hit?) with
          | error error => rfl
          | ok more => rfl

end Answers

namespace Forest

variable {forest : Forest} {arena : Arena} {id node first : NodeId} {stretch : Stretch}
  {found : PatternMatch}

/-- The hit for a match in the text of a stretch. What is outside of the stretch gives none. -/
def hitIn? (forest : Forest) (arena : Arena) (id : NodeId) (stretch : Stretch)
    (found : PatternMatch) : Option PatternHit :=
  if stretch.span.Encloses (found.span.shift stretch.base) then
    forest.hit? arena id (found.shift stretch.base)
  else
    none

/-- The engine answers for the whole unit, and every match is looked at on its own. -/
theorem map_matches (forest : Forest) (arena : Arena) (id : NodeId) (engine : PatternEngine)
    (pattern : String) (stretch : Stretch) :
    (stretch.matches engine pattern).map (List.filterMap (forest.hit? arena id)) =
      (stretch.answer engine pattern).map (List.filterMap (forest.hitIn? arena id stretch)) := by
  unfold Stretch.matches Stretch.answer
  cases engine stretch.number pattern with
  | error reason => rfl
  | ok answer =>
      refine congrArg Except.ok ?_
      rw [List.filterMap_filter, List.filterMap_map]
      refine List.filterMap_congr ?_
      intro found _
      simp only [hitIn?, Function.comp_apply, PatternMatch.shift, decide_eq_true_eq]

/-- A node of the tree with the span and the grammar kind of a match at package positions. -/
structure Fits (forest : Forest) (arena : Arena) (found : PatternMatch) (node : NodeId) : Prop where
  known : node < arena.size
  span : arena.span node = found.span
  kind : forest.grammarKind? arena node = some found.kind

/-- The first of all nodes, in pre-order, that fit a match. -/
structure FitsFirst (forest : Forest) (arena : Arena) (found : PatternMatch) (first : NodeId) :
    Prop extends forest.Fits arena found first where
  before : ∃ others rest, arena.preorder Arena.root = others ++ first :: rest ∧
    ∀ other ∈ others, ¬ forest.Fits arena found other

/-- The root of a package has no grammar kind. -/
theorem Fits.origin_ne_package (fits : forest.Fits arena found node) :
    arena.origin node ≠ .package := by
  intro hOrigin
  have hKind := fits.kind
  rw [grammarKind?, element?, hOrigin] at hKind
  cases hKind

theorem Fits.mem_withSpan (fits : forest.Fits arena found node) (h : arena.WellNumbered forest) :
    node ∈ arena.withSpan found.span :=
  h.mem_withSpan.mpr ⟨fits.known, fits.origin_ne_package, fits.span⟩

/-- The nodes with a span are listed in pre-order. -/
theorem fitsFirst_iff (h : arena.WellNumbered forest) : forest.FitsFirst arena found first ↔
    (arena.withSpan found.span).find? (fun node =>
      forest.grammarKind? arena node == some found.kind) = some first := by
  classical
  have hTest : ∀ node ∈ arena.preorder Arena.root,
      decide (arena.origin node != .package ∧ decide (arena.span node == found.span ∧
        forest.grammarKind? arena node == some found.kind)) =
          decide (forest.Fits arena found node) := by
    intro node member
    simp only [bne_iff_ne, beq_iff_eq, decide_eq_true_eq]
    refine decide_eq_decide.mpr ⟨?_, fun fits => ⟨fits.origin_ne_package, fits.span, fits.kind⟩⟩
    rintro ⟨_, hSpan, hKind⟩
    exact ⟨h.known_of_mem_preorder h.nonempty member, hSpan, hKind⟩
  rw [Arena.withSpan, List.find?_filter, Arena.inner, List.find?_filter, List.find?_congr hTest,
    List.find?_eq_some_iff_append]
  simp only [decide_eq_true_eq, Bool.not_eq_true', decide_eq_false_iff_not]
  constructor
  · exact fun hFirst => ⟨hFirst.toFits, hFirst.before⟩
  · rintro ⟨fits, before⟩
    exact ⟨fits, before⟩

theorem FitsFirst.matchedNode?_eq (fits : forest.FitsFirst arena found first)
    (h : arena.WellNumbered forest) : forest.matchedNode? arena found = some first := by
  rw [matchedNode?, (fitsFirst_iff h).mp fits]
  rfl

theorem Fits.exists_first (fits : forest.Fits arena found node) (h : arena.WellNumbered forest) :
    ∃ first, forest.FitsFirst arena found first := by
  have hFound : ((arena.withSpan found.span).find? fun node =>
      forest.grammarKind? arena node == some found.kind).isSome :=
    List.find?_isSome.mpr ⟨node, fits.mem_withSpan h, beq_iff_eq.mpr fits.kind⟩
  obtain ⟨first, hFirst⟩ := Option.isSome_iff_exists.mp hFound
  exact ⟨first, (fitsFirst_iff h).mpr hFirst⟩

/-- A match is passed by: it lies outside of what is searched, or the first node that fits it does not
lie below the start. -/
def PassesBy (forest : Forest) (arena : Arena) (id : NodeId) (stretch : Stretch)
    (found : PatternMatch) : Prop :=
  ¬ stretch.span.Encloses (found.span.shift stretch.base) ∨
    ∃ first, forest.FitsFirst arena (found.shift stretch.base) first ∧ id ∉ arena.ancestors first

/-- The hit for a match that some node fits: the first such node, or nothing. -/
theorem hitIn?_of_fits (h : arena.WellNumbered forest)
    (fits : forest.Fits arena (found.shift stretch.base) node) :
    (forest.PassesBy arena id stretch found ∧ forest.hitIn? arena id stretch found = none) ∨
      ¬ forest.PassesBy arena id stretch found ∧ ∃ first,
        forest.FitsFirst arena (found.shift stretch.base) first ∧ id ∈ arena.ancestors first ∧
          forest.hitIn? arena id stretch found = some ⟨first, found.captures⟩ := by
  obtain ⟨first, hFirst⟩ := fits.exists_first h
  have hTaken := hFirst.matchedNode?_eq h
  by_cases hInside : stretch.span.Encloses (found.span.shift stretch.base)
  · rw [hitIn?, if_pos hInside]
    by_cases hBelow : id ∈ arena.ancestors first
    · refine .inr ⟨?_, first, hFirst, hBelow, hit?_eq_some_iff.mpr ⟨hTaken, hBelow, rfl⟩⟩
      rintro (hOutside | ⟨other, hOther, hElsewhere⟩)
      · exact hOutside hInside
      · obtain rfl := Option.some.inj ((hOther.matchedNode?_eq h).symm.trans hTaken)
        exact hElsewhere hBelow
    · refine .inl ⟨.inr ⟨first, hFirst, hBelow⟩, ?_⟩
      simp [hit?, hTaken, hBelow]
  · exact .inl ⟨.inl hInside, if_neg hInside⟩

end Forest

section Units

variable {forest : Forest} {arena : Arena} {id upper : NodeId} {number : UnitId} {unit : ParsedUnit}

/-- What sprouts inside a unit stays in it. -/
theorem Forest.unit?_of_mem_sprouts {origin : Origin} {sprout : Sprout} (inside : origin ≠ .package)
    (member : sprout ∈ forest.sprouts origin) : sprout.origin.unit? = origin.unit? := by
  cases hPlace : origin.place? with
  | none => exact absurd (Origin.eq_package_of_place? hPlace) inside
  | some place =>
      obtain ⟨child, hChild, _⟩ := Forest.place?_of_mem_sprouts hPlace member
      rw [Origin.unit?_of_place? hChild, Origin.unit?_of_place? hPlace]

namespace Arena.WellNumbered

/-- A node lies in the unit of every node above it that is not the package. -/
theorem unit?_of_mem_ancestors (h : arena.WellNumbered forest) (above : upper ∈ arena.ancestors id)
    (inside : arena.origin upper ≠ .package) :
    (arena.origin id).unit? = (arena.origin upper).unit? := by
  induction id using Nat.strongRecOn with
  | ind id ih =>
      rcases arena.ancestors_cases id with hNone | ⟨parent, hParent, before, hChain⟩
      · simp [hNone] at above
      · obtain ⟨sprout, member, hShows⟩ := h.exists_sprout hParent
        rw [hShows.origin]
        rw [hChain] at above
        rcases mem_lineage.mp above with rfl | hFurther
        · exact Forest.unit?_of_mem_sprouts inside member
        · have hKnown := h.known_parent (known_of_parent hParent) hParent
          have hInner : parent ≠ Arena.root :=
            Nat.ne_of_gt (Nat.zero_lt_of_lt (lt_of_mem_ancestors hFurther))
          rw [Forest.unit?_of_mem_sprouts (h.origin_ne_package hKnown hInner) member]
          exact ih parent before hFurther

end Arena.WellNumbered

namespace Forest

/-- Units are searched in their order, and none of them twice. -/
theorem searched_increasing (forest : Forest) (arena : Arena) (id : NodeId) :
    ((forest.searched arena id).map Stretch.number).Pairwise (· < ·) := by
  by_cases hOrigin : arena.origin id = .package
  · have hNumbers : (forest.searched arena id).map Stretch.number =
        List.range forest.units.length := by
      rw [searched, hOrigin, List.map_map, List.range_eq_range']
      exact List.zipIdx_map_snd 0 forest.units
    rw [hNumbers]
    exact List.pairwise_lt_range
  · rw [searched_of_ne_package hOrigin]
    cases forest.stretch? (arena.origin id) (arena.span id) with
    | none => exact .nil
    | some stretch => exact List.pairwise_singleton _ _

/-- The unit of a node is searched from every node above it. -/
theorem exists_searched (h : arena.WellNumbered forest) {node : NodeId}
    (below : id ∈ arena.ancestors node) (hNumber : (arena.origin node).unit? = some number)
    (hUnit : forest.units[number]? = some unit) :
    ∃ stretch ∈ forest.searched arena id, stretch.number = number ∧
      stretch.base = unit.source.base := by
  by_cases hOrigin : arena.origin id = .package
  · refine ⟨⟨number, unit.source.base, unit.source.span⟩, ?_, rfl, rfl⟩
    rw [searched, hOrigin]
    exact List.mem_map.mpr ⟨(unit, number), List.mk_mem_zipIdx_iff_getElem?.mpr hUnit, rfl⟩
  · rw [h.unit?_of_mem_ancestors below hOrigin] at hNumber
    refine ⟨⟨number, unit.source.base, arena.span id⟩, ?_, rfl, rfl⟩
    rw [searched_of_ne_package hOrigin, stretch?_of_unit? hNumber hUnit]
    exact List.mem_singleton_self _

/-- From a package everything is searched, and every node that can fit lies below it. -/
theorem not_passesBy_of_package (h : arena.WellNumbered forest) {stretch : Stretch}
    {found : PatternMatch} {node : NodeId} (known : id < arena.size)
    (hOrigin : arena.origin id = .package) (member : stretch ∈ forest.searched arena id)
    (hNumber : (arena.origin node).unit? = some stretch.number)
    (fits : forest.Fits arena (found.shift stretch.base) node) :
    ¬ forest.PassesBy arena id stretch found := by
  have hRoot : id = Arena.root := by
    by_contra hInner
    exact h.origin_ne_package known hInner hOrigin
  have hBelow : ∀ other, forest.Fits arena (found.shift stretch.base) other →
      other ≠ Arena.root := by
    rintro other hFits rfl
    exact hFits.origin_ne_package (hRoot ▸ hOrigin)
  rintro (hOutside | ⟨first, hFirst, hElsewhere⟩)
  · obtain ⟨other, unit, hOther, hUnit, hInside, _⟩ := h.lies fits.known (hBelow node fits)
    obtain rfl := Option.some.inj (hNumber.symm.trans hOther)
    rw [searched, hOrigin] at member
    obtain ⟨⟨listed, place⟩, hListed, rfl⟩ := List.mem_map.mp member
    obtain rfl := Option.some.inj
      (hUnit.symm.trans (List.mk_mem_zipIdx_iff_getElem?.mp hListed))
    rw [fits.span] at hInside
    exact hOutside hInside
  · refine hElsewhere ?_
    rw [hRoot]
    rcases Arena.mem_lineage.mp (h.root_mem_lineage hFirst.known) with hSame | hAbove
    · exact absurd hSame.symm (hBelow first hFirst.toFits)
    · exact hAbove

end Forest

end Units

/-- Which matches give a hit, as the tree shows at any later time. The units that are searched come in
their order, none of them twice, and the answer of the engine for each of them is turned into hits match
by match. Where a node below the start fits a match, in the unit of the match, that unit is searched,
and the match gives its hit unless it is passed by. The hit has the captures of the match and a node
below the start that fits it. From a package no such match is passed by. -/
theorem Reachable.findByPattern_unless_passed_by {forest : Forest} {session : Session}
    (reached : Reachable forest session) {id : NodeId} (known : id < session.arena.size)
    (engine : PatternEngine) (pattern : String) :
    let asked := (forest.findByPattern engine pattern id).run session
    ∀ last, Leads forest asked.2 last →
      let arena := last.arena
      let searched := forest.searched arena id
      asked.1 = (searched.mapM fun stretch : Stretch => (stretch.answer engine pattern).map
          (List.filterMap (forest.hitIn? arena id stretch))).map List.flatten ∧
        (searched.map Stretch.number).Pairwise (· < ·) ∧
        ∀ number unit, forest.units[number]? = some unit → ∀ found node,
          id ∈ arena.ancestors node → (arena.origin node).unit? = some number →
          forest.Fits arena (found.shift unit.source.base) node →
          ∃ stretch ∈ searched, stretch.number = number ∧ stretch.base = unit.source.base ∧
            (forest.PassesBy arena id stretch found → arena.origin id ≠ .package ∧
              forest.hitIn? arena id stretch found = none) ∧
            (¬ forest.PassesBy arena id stretch found → ∃ first,
              forest.FitsFirst arena (found.shift unit.source.base) first ∧
                id ∈ arena.ancestors first ∧
                forest.hitIn? arena id stretch found = some ⟨first, found.captures⟩) := by
  intro asked last leads arena searched
  have hReads : session.Reads forest (forest.findByPattern engine pattern id) _ :=
    Session.findByPattern_reads reached.sound reached.spansExact known
  obtain ⟨hSound, hKeeps⟩ := leads.sound_extends hReads.sound
  have hArena : arena.WellNumbered forest := hSound.arena
  refine ⟨?_, forest.searched_increasing arena id, ?_⟩
  · rw [hReads.answer last hSound hKeeps, map_reports]
    simp only [forest.map_matches]
    rfl
  · intro number unit hUnit found node below hNumber fits
    obtain ⟨stretch, member, rfl, hBase⟩ := Forest.exists_searched hArena below hNumber hUnit
    rw [← hBase] at fits ⊢
    refine ⟨stretch, member, rfl, rfl, ?_⟩
    have hKnown : id < arena.size := (hReads.keeps.trans hKeeps).arena.lt known
    rcases Forest.hitIn?_of_fits hArena fits with ⟨hPasses, hNone⟩ | ⟨hTried, first, hFirst, hHit⟩
    · refine ⟨fun _ => ⟨fun hOrigin => ?_, hNone⟩, fun hTried => absurd hPasses hTried⟩
      exact Forest.not_passesBy_of_package hArena hKnown hOrigin member hNumber fits hPasses
    · exact ⟨fun hPasses => absurd hPasses hTried, fun _ => ⟨first, hFirst, hHit⟩⟩

namespace Sample

/-- A record with two fields of one type. -/
def fieldsSnapshot : Snapshot where
  elements := #[
    { kind := "source_file", span := ⟨0, 39⟩, children := [1, 3] },
    { kind := "package_clause", span := ⟨0, 9⟩, children := [2] },
    { kind := "package_identifier", span := ⟨8, 9⟩ },
    { kind := "type_declaration", span := ⟨11, 38⟩, children := [4] },
    { kind := "type_spec", span := ⟨16, 38⟩, children := [5, 6] },
    { kind := "type_identifier", span := ⟨16, 17⟩, field := some "name" },
    { kind := "struct_type", span := ⟨18, 38⟩, field := some "type", children := [7] },
    { kind := "field_declaration_list", span := ⟨25, 38⟩, children := [8] },
    { kind := "field_declaration", span := ⟨28, 36⟩, children := [9, 10, 11] },
    { kind := "field_identifier", span := ⟨28, 29⟩, field := some "name" },
    { kind := "field_identifier", span := ⟨31, 32⟩, field := some "name" },
    { kind := "type_identifier", span := ⟨33, 36⟩, field := some "type" }]

def fieldsText : String :=
  "package p\n\ntype S struct \x7b\n\ta, b int\n\x7d\n"

/-- The pattern of one variable matches everything. -/
def fieldsMatches : List PatternMatch :=
  fieldsSnapshot.elements.toList.map fun element =>
    let found : PatternMatch := ⟨element.span, element.kind, []⟩
    { found with captures := [("T", found.text fieldsText.toList)] }

def fieldsFile : LoadedUnit where
  name := "a.go"
  content.text := fieldsText
  content.snapshot := fieldsSnapshot
  content.answers := [("$T", .ok fieldsMatches)]

def fields : Forest where
  units := [⟨⟨"a.go", 0, fieldsText⟩, fieldsSnapshot⟩]
  package := none
  accepted := by decide
  standalone := by decide

def fieldsSession : Session :=
  Query.after fields (.start fields) .materializeAll

theorem reachable_fieldsSession : Reachable fields fieldsSession :=
  .ask .materializeAll (Session.Knows.nil _)

/-- The match at the type of the fields. -/
def typeMatch : PatternMatch :=
  ⟨⟨33, 36⟩, "type_identifier", [("T", "int")]⟩

end Sample

/-- The type below the second field fits a match that is passed by. -/
theorem Reachable.findByPattern_unless_passed_by_sample :
    let asked := (Sample.fields.findByPattern (Loader.engineOf [Sample.fieldsFile]) "$T" 9).run
      Sample.fieldsSession
    9 ∈ asked.2.arena.ancestors 13 ∧ Sample.fields.Fits asked.2.arena Sample.typeMatch 13 ∧
      ∃ stretch ∈ Sample.fields.searched asked.2.arena 9,
        Sample.fields.PassesBy asked.2.arena 9 stretch Sample.typeMatch := by
  intro asked
  have hKnown : 9 < Sample.fieldsSession.arena.size := by decide +kernel
  obtain ⟨hBelow, hNumber, hSize, hSpan, hKind⟩ : 9 ∈ asked.2.arena.ancestors 13 ∧
      (asked.2.arena.origin 13).unit? = some 0 ∧ 13 < asked.2.arena.size ∧
      asked.2.arena.span 13 = Sample.typeMatch.span ∧
      Sample.fields.grammarKind? asked.2.arena 13 = some Sample.typeMatch.kind := by decide +kernel
  have hFits : Sample.fields.Fits asked.2.arena Sample.typeMatch 13 := ⟨hSize, hSpan, hKind⟩
  obtain ⟨_, _, hHits⟩ := Reachable.findByPattern_unless_passed_by Sample.reachable_fieldsSession
    hKnown (Loader.engineOf [Sample.fieldsFile]) "$T" asked.2 (.refl _)
  obtain ⟨stretch, member, _, _, _, hTried⟩ :=
    hHits 0 _ rfl Sample.typeMatch 13 hBelow hNumber hFits
  refine ⟨hBelow, hFits, stretch, member, ?_⟩
  by_contra hNotPassed
  obtain ⟨first, _, _, hHit⟩ := hTried hNotPassed
  have hNone : ∀ stretch ∈ Sample.fields.searched asked.2.arena 9,
      Sample.fields.hitIn? asked.2.arena 9 stretch Sample.typeMatch = none := by decide +kernel
  rw [hNone stretch member] at hHit
  cases hHit

/-- A loaded file in which the type of the second field is not found from the field, although its
match is reported and the field has its own copy of the type below it. -/
theorem Sample.type_of_second_field_lost :
    let engine := Loader.engineOf [Sample.fieldsFile]
    let asked := (Sample.fields.findByPattern engine "$T" 9).run Sample.fieldsSession
    Loader.loadUnit Sample.fieldsFile = .ok ⟨.ofForest Sample.fields, engine⟩ ∧
      Reachable Sample.fields Sample.fieldsSession ∧
      engine 0 "$T" = .ok Sample.fieldsMatches ∧ Sample.typeMatch ∈ Sample.fieldsMatches ∧
      9 ∈ asked.2.arena.ancestors 13 ∧ asked.2.arena.span 13 = Sample.typeMatch.span ∧
      Sample.fields.grammarKind? asked.2.arena 13 = some Sample.typeMatch.kind ∧
      asked.1 = .ok [⟨12, [("T", "b")]⟩] := by
  refine ⟨rfl, Sample.reachable_fieldsSession, ?_⟩
  decide +kernel

end SyntaxAtlas
