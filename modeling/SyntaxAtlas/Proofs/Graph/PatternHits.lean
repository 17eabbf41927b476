import SyntaxAtlas.Proofs.Graph.Declarations
import SyntaxAtlas.Proofs.Graph.SpanIndex

/-! Where the hits of a pattern come from. The engine reports matches in the texts of units, and a
match becomes a hit when a node for it is found below the start of the search. Such a node has the
span of the match. It also has its grammar kind, but for one case: when no node at all has both, the
first node with the span is taken in its place. -/
namespace SyntaxAtlas

section Reports

/-- A stretch of package positions inside a unit. -/
structure Stretch where
  /-- The number of the unit. -/
  number : UnitId
  /-- The position at which the text of the unit starts. -/
  base : Nat
  /-- The positions. -/
  span : Span

/-- A match in the text of a unit, moved to package positions. -/
def PatternMatch.shift (found : PatternMatch) (base : Nat) : PatternMatch :=
  { found with span := found.span.shift base }

/-- The matches that the engine reports in a stretch. -/
def Stretch.matches (engine : PatternEngine) (pattern : String) (stretch : Stretch) :
    Except PatternError (List PatternMatch) :=
  match engine stretch.number pattern with
  | .error reason => .error ⟨pattern, reason⟩
  | .ok found =>
    .ok ((found.map fun hit => hit.shift stretch.base).filter fun hit =>
      decide (stretch.span.Encloses hit.span))

/-- The matches in several stretches, one after the other. -/
def reports (engine : PatternEngine) (pattern : String) (stretches : List Stretch) :
    Except PatternError (List PatternMatch) :=
  (stretches.mapM (Stretch.matches engine pattern)).map List.flatten

variable {engine : PatternEngine} {pattern : String} {stretch : Stretch} {first rest : List Stretch}

theorem reports_singleton : reports engine pattern [stretch] = stretch.matches engine pattern := by
  unfold reports
  cases hMatches : stretch.matches engine pattern with
  | error error => simp [hMatches, Except.map, bind, Except.bind]
  | ok found => simp [hMatches, Except.map, bind, Except.bind, pure, Except.pure]

theorem reports_append : reports engine pattern (first ++ rest) = do
    let found ← reports engine pattern first
    let more ← reports engine pattern rest
    return found ++ more := by
  unfold reports
  rw [List.mapM_append]
  cases first.mapM (Stretch.matches engine pattern) with
  | error error => rfl
  | ok found =>
      cases rest.mapM (Stretch.matches engine pattern) with
      | error error => rfl
      | ok more => simp [Except.map, bind, Except.bind, pure, Except.pure]

theorem map_reports_append (hit? : PatternMatch → Option PatternHit) :
    (reports engine pattern (first ++ rest)).map (List.filterMap hit?) = do
      let hits ← (reports engine pattern first).map (List.filterMap hit?)
      let more ← (reports engine pattern rest).map (List.filterMap hit?)
      return hits ++ more := by
  rw [reports_append]
  cases reports engine pattern first with
  | error error => rfl
  | ok found =>
      cases reports engine pattern rest with
      | error error => rfl
      | ok more => exact congrArg Except.ok (List.filterMap_append ..)

theorem mem_matches {here : List PatternMatch} {found : PatternMatch}
    (matched : stretch.matches engine pattern = .ok here) (member : found ∈ here) :
    ∃ answer, engine stretch.number pattern = .ok answer ∧
      ∃ original ∈ answer, found = original.shift stretch.base ∧
        stretch.span.Encloses found.span := by
  unfold Stretch.matches at matched
  cases hAnswer : engine stretch.number pattern with
  | error reason =>
      rw [hAnswer] at matched
      cases matched
  | ok answer =>
      rw [hAnswer] at matched
      cases matched
      obtain ⟨hShifted, hInside⟩ := List.mem_filter.mp member
      obtain ⟨original, hOriginal, rfl⟩ := List.mem_map.mp hShifted
      exact ⟨answer, rfl, original, hOriginal, rfl, of_decide_eq_true hInside⟩

/-- Everything that is reported is a match in one of the stretches. -/
theorem exists_of_mem_reports {stretches : List Stretch} {all : List PatternMatch}
    {found : PatternMatch} (reported : reports engine pattern stretches = .ok all)
    (member : found ∈ all) :
    ∃ stretch ∈ stretches, ∃ answer, engine stretch.number pattern = .ok answer ∧
      ∃ original ∈ answer, found = original.shift stretch.base ∧
        stretch.span.Encloses found.span := by
  induction stretches generalizing all with
  | nil =>
      cases reported
      cases member
  | cons stretch rest ih =>
      rw [← List.singleton_append, reports_append, reports_singleton] at reported
      cases hHere : stretch.matches engine pattern with
      | error error =>
          rw [hHere] at reported
          cases reported
      | ok here =>
          cases hThere : reports engine pattern rest with
          | error error =>
              rw [hHere, hThere] at reported
              cases reported
          | ok there =>
              rw [hHere, hThere] at reported
              cases reported
              rcases List.mem_append.mp member with hFirst | hOther
              · exact ⟨stretch, .head _, mem_matches hHere hFirst⟩
              · obtain ⟨other, hListed, hFound⟩ := ih hThere hOther
                exact ⟨other, .tail _ hListed, hFound⟩

end Reports

namespace Forest

section Kinds

variable {forest : Forest} {origin : Origin} {sprout : Sprout}

/-- A unit is of another kind. -/
theorem kind_rootSprout_ne_package (unit : ParsedUnit) (number : UnitId) :
    (unit.rootSprout number).kind ≠ .package := by
  rw [ParsedUnit.rootSprout]
  cases unit.snapshot.get? 0 with
  | none =>
      change Kind.sourceFile ≠ .package
      decide
  | some element => exact Kind.classify_ne_package element.kind

theorem rootSprout_kind_eq_package_iff (forest : Forest) :
    forest.rootSprout.kind = .package ↔ forest.rootSprout.origin = .package := by
  unfold rootSprout
  split
  · rename_i unit _ _ _
    refine iff_of_false (kind_rootSprout_ne_package unit 0) ?_
    intro hOrigin
    cases hOrigin
  · exact iff_of_true rfl rfl

theorem kind_ne_package_of_mem_sprouts (member : sprout ∈ forest.sprouts origin) :
    sprout.kind ≠ .package := by
  cases hPlace : origin.place? with
  | none =>
      obtain rfl := Origin.eq_package_of_place? hPlace
      obtain ⟨number, unit, _, rfl⟩ := of_mem_sprouts_package member
      exact kind_rootSprout_ne_package unit number
  | some place =>
      obtain ⟨unit, child, _, _, hSprout⟩ := of_mem_sprouts hPlace member
      obtain ⟨element, _, hKind⟩ := ParsedUnit.kind_of_mem_sproutsOf hSprout
      rw [hKind]
      exact Kind.classify_ne_package element.kind

end Kinds

/-- The stretch of an origin with a span. A package has none. -/
def stretch? (forest : Forest) (origin : Origin) (span : Span) : Option Stretch := do
  let number ← origin.unit?
  let unit ← forest.units[number]?
  return ⟨number, unit.source.base, span⟩

theorem stretch?_of_unit? {forest : Forest} {origin : Origin} {number : UnitId} {unit : ParsedUnit}
    {span : Span} (inside : origin.unit? = some number)
    (hUnit : forest.units[number]? = some unit) :
    forest.stretch? origin span = some ⟨number, unit.source.base, span⟩ := by
  simp [stretch?, inside, hUnit]

/-- A stretch is searched where its span can be moved to the text. -/
theorem localTo?_eq_stretch? (forest : Forest) (origin : Origin) (span : Span) :
    (do
      let number ← origin.unit?
      let unit ← forest.units[number]?
      let range ← span.localTo? unit.source.base
      return (number, unit.source.base, range)) =
    (forest.stretch? origin span).bind fun stretch =>
      (stretch.span.localTo? stretch.base).map fun range =>
        (stretch.number, stretch.base, range) := by
  cases hNumber : origin.unit? with
  | none => simp [stretch?, hNumber]
  | some number =>
      cases hUnit : forest.units[number]? with
      | none => simp [stretch?, hNumber, hUnit]
      | some unit =>
          rw [stretch?_of_unit? hNumber hUnit]
          cases hRange : span.localTo? unit.source.base with
          | none => simp [hUnit, hRange]
          | some range => simp [hUnit, hRange]

/-- The stretches of nodes, one after the other. -/
def stretches (forest : Forest) (arena : Arena) (parts : List NodeId) : List Stretch :=
  parts.flatMap fun part => (forest.stretch? (arena.origin part) (arena.span part)).toList

theorem stretches_cons (forest : Forest) (arena : Arena) (part : NodeId) (rest : List NodeId) :
    forest.stretches arena (part :: rest) =
      (forest.stretch? (arena.origin part) (arena.span part)).toList ++
        forest.stretches arena rest :=
  List.flatMap_cons

/-- What is searched from a node: all units from a package, and otherwise the span of the node. -/
def searched (forest : Forest) (arena : Arena) (id : NodeId) : List Stretch :=
  match arena.origin id with
  | .package => forest.units.zipIdx.map fun (unit, number) =>
      ⟨number, unit.source.base, unit.source.span⟩
  | origin => (forest.stretch? origin (arena.span id)).toList

theorem searched_of_ne_package {forest : Forest} {arena : Arena} {id : NodeId}
    (inside : arena.origin id ≠ .package) : forest.searched arena id =
      (forest.stretch? (arena.origin id) (arena.span id)).toList := by
  rw [searched]
  cases hOrigin : arena.origin id with
  | package => exact absurd hOrigin inside
  | element => rfl
  | split => rfl

/-- The node that is taken for a match, wherever it lies. -/
def matchedNode? (forest : Forest) (arena : Arena) (found : PatternMatch) : Option NodeId :=
  ((arena.withSpan found.span).find? fun node =>
    forest.grammarKind? arena node == some found.kind).or (arena.withSpan found.span).head?

/-- The hit for a match at package positions. -/
def hit? (forest : Forest) (arena : Arena) (id : NodeId) (found : PatternMatch) :
    Option PatternHit :=
  ((forest.matchedNode? arena found).filter fun node => decide (id ∈ arena.ancestors node)).map
    fun node => ⟨node, found.captures⟩

/-- A node is taken for a match although it is of another grammar kind: it is the first node with
the span of the match, and none of them is of its grammar kind. -/
structure Substitutes (forest : Forest) (arena : Arena) (found : PatternMatch) (node : NodeId) :
    Prop where
  first : (arena.withSpan found.span).head? = some node
  absent : ∀ other ∈ arena.withSpan found.span, forest.grammarKind? arena other ≠ some found.kind

section Hits

variable {forest : Forest} {arena : Arena} {id node : NodeId} {found : PatternMatch}
  {hit : PatternHit}

/-- There are two ways to be taken for a match. -/
theorem matchedNode?_cases (taken : forest.matchedNode? arena found = some node) :
    node ∈ arena.withSpan found.span ∧
      (forest.grammarKind? arena node = some found.kind ∨ forest.Substitutes arena found node) := by
  rcases Option.or_eq_some_iff.mp taken with hSame | ⟨hNone, hFirst⟩
  · have hKind := List.find?_some hSame
    exact ⟨List.mem_of_find?_eq_some hSame, .inl (beq_iff_eq.mp hKind)⟩
  · refine ⟨List.mem_of_head? hFirst, .inr ⟨hFirst, ?_⟩⟩
    intro other member
    simpa using List.find?_eq_none.mp hNone other member

theorem hit?_eq_some_iff : forest.hit? arena id found = some hit ↔
    forest.matchedNode? arena found = some hit.node ∧ id ∈ arena.ancestors hit.node ∧
      hit.captures = found.captures := by
  simp only [hit?, Option.map_eq_some_iff, Option.filter_eq_some_iff, decide_eq_true_eq]
  constructor
  · rintro ⟨node, ⟨hTaken, hBelow⟩, rfl⟩
    exact ⟨hTaken, hBelow, rfl⟩
  · rintro ⟨hTaken, hBelow, hCaptures⟩
    exact ⟨hit.node, ⟨hTaken, hBelow⟩, by rw [← hCaptures]⟩

/-- Without a node below the start that fits a match, its hit is a substitute. -/
theorem hit?_isSome_iff (h : arena.WellNumbered forest)
    (unfit : ∀ node, id ∈ arena.ancestors node → arena.span node = found.span →
      forest.grammarKind? arena node ≠ some found.kind) :
    (forest.hit? arena id found).isSome ↔
      ∃ node, forest.Substitutes arena found node ∧ id ∈ arena.ancestors node := by
  rw [Option.isSome_iff_exists]
  constructor
  · rintro ⟨hit, hHit⟩
    obtain ⟨hTaken, hBelow, _⟩ := hit?_eq_some_iff.mp hHit
    obtain ⟨member, hKind | hSubstitutes⟩ := matchedNode?_cases hTaken
    · exact absurd hKind (unfit hit.node hBelow (h.mem_withSpan.mp member).2.2)
    · exact ⟨hit.node, hSubstitutes, hBelow⟩
  · rintro ⟨node, substitutes, hBelow⟩
    have hNone : (arena.withSpan found.span).find?
        (fun node => forest.grammarKind? arena node == some found.kind) = none := by
      refine List.find?_eq_none.mpr ?_
      intro other member
      simpa using substitutes.absent other member
    have hTaken : forest.matchedNode? arena found = some node := by
      rw [matchedNode?, hNone]
      exact substitutes.first
    exact ⟨⟨node, found.captures⟩, hit?_eq_some_iff.mpr ⟨hTaken, hBelow, rfl⟩⟩

end Hits

end Forest

namespace Arena.WellNumbered

variable {forest : Forest} {arena : Arena} {id : NodeId}

/-- A node of the kind of a package is the package. -/
theorem kind_eq_package_iff (h : arena.WellNumbered forest) (known : id < arena.size) :
    arena.kind id = .package ↔ arena.origin id = .package := by
  by_cases hRoot : id = Arena.root
  · subst hRoot
    rw [h.root.kind, h.root.origin]
    exact forest.rootSprout_kind_eq_package_iff
  · obtain ⟨_, _, _, _, _, above⟩ := h.exists_parent known hRoot
    obtain ⟨sprout, member, hShows⟩ := h.exists_sprout above
    have hKind : arena.kind id ≠ .package := by
      rw [hShows.kind]
      exact Forest.kind_ne_package_of_mem_sprouts member
    exact iff_of_false hKind (h.origin_ne_package known hRoot)

/-- A node in a unit starts and ends behind the base of the unit. -/
theorem base_le_of_stretch? (h : arena.WellNumbered forest) (known : id < arena.size)
    {stretch : Stretch}
    (found : forest.stretch? (arena.origin id) (arena.span id) = some stretch) :
    stretch.base ≤ stretch.span.start ∧ stretch.base ≤ stretch.span.stop := by
  have hCovers := h.covers known
  generalize arena.origin id = origin at hCovers found
  generalize arena.span id = span at hCovers found
  cases hCovers with
  | package => cases found
  | root hUnit =>
      rw [Forest.stretch?_of_unit? rfl hUnit] at found
      cases found
      exact ⟨Nat.le_refl _, Nat.le_add_right _ _⟩
  | element hUnit _ _ =>
      rw [Forest.stretch?_of_unit? rfl hUnit] at found
      cases found
      exact ⟨Nat.le_add_left _ _, Nat.le_add_left _ _⟩
  | split hUnit _ _ =>
      rw [Forest.stretch?_of_unit? rfl hUnit] at found
      cases found
      exact ⟨Nat.le_add_left _ _, Nat.le_add_left _ _⟩

end Arena.WellNumbered

namespace Session

/-- A question whose answer can be read off the tree at any later time. The index of spans stays
exact. -/
structure Reads {α : Type} (forest : Forest) (session : Session) (question : Explore α)
    (reading : Arena → α) : Prop where
  sound : (question.run session).2.Sound forest
  exact : (question.run session).2.SpansExact
  keeps : session.Extends (question.run session).2
  answer : ∀ last : Session, last.Sound forest → (question.run session).2.Extends last →
    (question.run session).1 = reading last.arena

namespace Reads

variable {α β : Type} {forest : Forest} {session : Session} {question : Explore α}
  {reading : Arena → α}

theorem pure {answer : α} (sound : session.Sound forest) (exact : session.SpansExact)
    (h : ∀ last : Session, last.Sound forest → session.Extends last →
      answer = reading last.arena) : session.Reads forest (Pure.pure answer) reading :=
  ⟨sound, exact, .refl session, h⟩

theorem read {next : Session → Explore α} (h : session.Reads forest (next session) reading) :
    session.Reads forest (get >>= next) reading :=
  ⟨h.sound, h.exact, h.keeps, h.answer⟩

theorem bind {next : α → Explore β} {readingNext : Arena → β}
    (first : session.Reads forest question reading)
    (second : ∀ (later : Session) (answer : α), later.Sound forest → later.SpansExact →
      session.Extends later →
      (∀ last : Session, last.Sound forest → later.Extends last → answer = reading last.arena) →
      later.Reads forest (next answer) readingNext) :
    session.Reads forest (question >>= next) readingNext := by
  have hSecond := second _ _ first.sound first.exact first.keeps first.answer
  exact ⟨hSecond.sound, hSecond.exact, first.keeps.trans hSecond.keeps, hSecond.answer⟩

/-- A first question that adds nodes only. -/
theorem bind_nodes {next : α → Explore β} {readingNext : Arena → β} {middle : Session → α → Prop}
    (sound : session.Sound forest) (exact : session.SpansExact)
    (first : session.Yields forest .nodes question middle)
    (second : ∀ (later : Session) (answer : α), later.Sound forest → later.SpansExact →
      session.Extends later → middle later answer → later.Reads forest (next answer) readingNext) :
    session.Reads forest (question >>= next) readingNext := by
  have hExact := (Advances.of_nodes first).spansExact sound.arena exact
  have hSecond := second _ _ first.sound hExact first.allows.keeps first.answer
  exact ⟨hSecond.sound, hSecond.exact, first.allows.keeps.trans hSecond.keeps, hSecond.answer⟩

/-- Another way to read the answer off. -/
theorem congr {other : Arena → α} (h : session.Reads forest question reading)
    (same : ∀ last : Session, last.Sound forest → session.Extends last →
      reading last.arena = other last.arena) : session.Reads forest question other where
  sound := h.sound
  exact := h.exact
  keeps := h.keeps
  answer last hLast since :=
    (h.answer last hLast since).trans (same last hLast (h.keeps.trans since))

/-- A question that does nothing to a session but its usual steps. -/
theorem of_advances {good : Session → α → Prop} (sound : session.Sound forest)
    (exact : session.SpansExact) (asked : session.Yields forest .all question good)
    (advances : session.Advances forest question)
    (h : ∀ last : Session, last.Sound forest → (question.run session).2.Extends last →
      (question.run session).1 = reading last.arena) :
    session.Reads forest question reading :=
  ⟨asked.sound, advances.spansExact sound.arena exact, asked.allows, h⟩

end Reads

section Patterns

variable {forest : Forest} {session last : Session} {id part : NodeId} {engine : PatternEngine}
  {pattern : String}

theorem nodesWithSpan_reads {span : Span} (sound : session.Sound forest)
    (exact : session.SpansExact) :
    session.Reads forest (forest.nodesWithSpan span) (fun arena => arena.withSpan span) :=
  .of_advances sound exact (nodesWithSpan_yields sound) (nodesWithSpan_advances sound)
    fun _ hLast since => exact.nodesWithSpan_eq sound hLast since

theorem nodeForMatch?_reads (found : PatternMatch) (sound : session.Sound forest)
    (exact : session.SpansExact) :
    session.Reads forest (forest.nodeForMatch? found.span found.kind)
      (fun arena => forest.matchedNode? arena found) := by
  refine (nodesWithSpan_reads sound exact).bind ?_
  intro later candidates sound exact _ hCandidates
  refine .read (.pure sound exact ?_)
  intro last hLast since
  have hHere := hCandidates later sound (.refl later)
  rw [Forest.matchedNode?, ← hCandidates last hLast since]
  refine congrArg (fun node : Option NodeId => node.or candidates.head?) (List.find?_congr ?_)
  intro node member
  have hKnown := (sound.arena.mem_withSpan.mp (hHere ▸ member)).1
  simp only [Forest.grammarKind?, Forest.element?, since.arena.origin node hKnown]

/-- What is below a node is below it forever. -/
theorem contains_eq_decide {node : NodeId} (sound : session.Sound forest)
    (known : node < session.arena.size) (since : session.Extends last) :
    (node != id && session.arena.contains id node) = decide (id ∈ last.arena.ancestors node) := by
  rw [since.arena.ancestors known, Bool.eq_iff_iff, Bool.and_eq_true, bne_iff_ne,
    sound.arena.contains_iff, decide_eq_true_iff, and_iff_right_iff_imp]
  intro hBelow
  exact Nat.ne_of_gt (Arena.lt_of_mem_ancestors hBelow)

theorem hitsOf_reads {base : Nat} {reported : List PatternMatch} (sound : session.Sound forest)
    (exact : session.SpansExact) :
    session.Reads forest (forest.hitsOf id base reported) (fun arena =>
      (reported.map fun found => found.shift base).filterMap (forest.hit? arena id)) := by
  induction reported generalizing session with
  | nil => exact .pure sound exact fun _ _ _ => rfl
  | cons found rest ih =>
      refine (nodeForMatch?_reads (found.shift base) sound exact).bind ?_
      intro later node sound exact _ hNode
      refine .read ((ih sound exact).bind ?_)
      intro after hits hSound exact grown hHits
      refine .pure hSound exact ?_
      intro last hLast since
      have hHere := hNode later sound (.refl later)
      -- whether the node lies below the start was asked before the rest was searched
      have hHit : (node.filter fun node => node != id && later.arena.contains id node).map
          (fun node => PatternHit.mk node found.captures) =
            forest.hit? last.arena id (found.shift base) := by
        rw [Forest.hit?, ← hNode last hLast (grown.trans since)]
        cases node with
        | none => rfl
        | some node =>
            have hKnown := (sound.arena.mem_withSpan.mp (Forest.matchedNode?_cases hHere.symm).1).1
            rw [Option.filter_some, Option.filter_some,
              contains_eq_decide sound hKnown (grown.trans since)]
            rfl
      rw [hHit, hHits last hLast since, List.map_cons, List.filterMap_cons]
      cases forest.hit? last.arena id (found.shift base) with
      | none => rfl
      | some hit => rfl

/-- A match lies in a range of the text iff it lies, moved, in the stretch of the range. -/
theorem map_shift_inRange {span : Span} {base : Nat} (start : base ≤ span.start)
    (stop : base ≤ span.stop) (found : List PatternMatch) :
    (PatternMatch.inRange ⟨span.start - base, span.stop - base⟩ found).map
        (fun hit => hit.shift base) =
      (found.map fun hit => hit.shift base).filter fun hit => decide (span.Encloses hit.span) := by
  rw [PatternMatch.inRange, List.filter_map]
  refine congrArg _ (List.filter_congr ?_)
  intro hit _
  refine decide_eq_decide.mpr ?_
  simp only [Span.Encloses, PatternMatch.shift, Span.shift]
  omega

theorem hitsIn_reads (sound : session.Sound forest) (exact : session.SpansExact)
    (known : part < session.arena.size) :
    session.Reads forest (forest.hitsIn engine pattern id part) (fun arena =>
      (reports engine pattern (forest.stretch? (arena.origin part) (arena.span part)).toList).map
        (List.filterMap (forest.hit? arena id))) := by
  have hStays : ∀ {last : Session}, session.Extends last →
      forest.stretch? (last.arena.origin part) (last.arena.span part) =
        forest.stretch? (session.arena.origin part) (session.arena.span part) := by
    intro last since
    rw [since.arena.origin part known, since.arena.span part known]
  refine .read ?_
  dsimp only
  rw [forest.localTo?_eq_stretch?]
  cases hStretch : forest.stretch? (session.arena.origin part) (session.arena.span part) with
  | none =>
      refine .pure sound exact ?_
      intro last _ since
      rw [hStays since, hStretch]
      rfl
  | some stretch =>
      obtain ⟨hStart, hStop⟩ := sound.arena.base_le_of_stretch? known hStretch
      have hRange : stretch.span.localTo? stretch.base =
          some ⟨stretch.span.start - stretch.base, stretch.span.stop - stretch.base⟩ :=
        if_pos ⟨hStart, hStop⟩
      rw [Option.bind_some, hRange, Option.map_some]
      dsimp only
      cases hAnswer : engine stretch.number pattern with
      | error reason =>
          refine .pure sound exact ?_
          intro last _ since
          rw [hStays since, hStretch, Option.toList_some, reports_singleton, Stretch.matches,
            hAnswer]
          rfl
      | ok found =>
          refine (hitsOf_reads sound exact).bind ?_
          intro later hits sound exact grown hHits
          refine .pure sound exact ?_
          intro last hLast since
          rw [hStays (grown.trans since), hStretch, Option.toList_some, reports_singleton,
            Stretch.matches, hAnswer, hHits last hLast since, map_shift_inRange hStart hStop]
          rfl

theorem hitsInAll_reads {parts : List NodeId} (sound : session.Sound forest)
    (exact : session.SpansExact) (knows : session.Knows parts) :
    session.Reads forest (forest.hitsInAll engine pattern id parts) (fun arena =>
      (reports engine pattern (forest.stretches arena parts)).map
        (List.filterMap (forest.hit? arena id))) := by
  induction parts generalizing session with
  | nil => exact .pure sound exact fun _ _ _ => rfl
  | cons part rest ih =>
      simp only [Forest.stretches_cons, map_reports_append]
      refine (hitsIn_reads sound exact knows.head).bind ?_
      intro later here sound exact grown hHere
      cases here with
      | error error =>
          refine .pure sound exact ?_
          intro last hLast since
          rw [← hHere last hLast since]
          rfl
      | ok hits =>
          refine (ih sound exact (knows.tail.keep grown)).bind ?_
          intro after there sound exact grown hThere
          cases there with
          | error error =>
              refine .pure sound exact ?_
              intro last hLast since
              rw [← hHere last hLast (grown.trans since), ← hThere last hLast since]
              rfl
          | ok more =>
              refine .pure sound exact ?_
              intro last hLast since
              rw [← hHere last hLast (grown.trans since), ← hThere last hLast since]
              rfl

/-- The roots of the units stand for the whole texts. -/
theorem stretches_children {arena : Arena} (h : arena.WellNumbered forest) (known : id < arena.size)
    {ids : List NodeId} (children : arena.children? id = some ids)
    (hOrigin : arena.origin id = .package) :
    forest.stretches arena ids = forest.searched arena id := by
  have hShown : ids.map (fun part => forest.stretch? (arena.origin part) (arena.span part)) =
      (forest.sprouts (arena.origin id)).map fun sprout =>
        forest.stretch? sprout.origin sprout.span := by
    refine h.map_children known children ?_
    intro child sprout shows
    rw [shows.origin, shows.span]
  have hUnits : ∀ entry ∈ forest.units.zipIdx,
      (forest.stretch? (.element entry.2 0) entry.1.source.span).toList =
        [⟨entry.2, entry.1.source.base, entry.1.source.span⟩] := by
    intro entry member
    rw [Forest.stretch?_of_unit? rfl (List.mk_mem_zipIdx_iff_getElem?.mp member),
      Option.toList_some]
  calc forest.stretches arena ids
      = (ids.map fun part =>
          forest.stretch? (arena.origin part) (arena.span part)).flatMap Option.toList := by
            rw [List.flatMap_map]
            rfl
    _ = forest.units.zipIdx.flatMap fun entry =>
          (forest.stretch? (.element entry.2 0) entry.1.source.span).toList := by
      rw [hShown, hOrigin, Forest.sprouts, List.map_map, List.flatMap_map]
      rfl
    _ = forest.units.zipIdx.flatMap fun entry =>
          [⟨entry.2, entry.1.source.base, entry.1.source.span⟩] := List.flatMap_congr hUnits
    _ = forest.searched arena id := by
      rw [Forest.searched, hOrigin]
      exact List.map_eq_flatMap.symm

theorem findByPattern_reads (sound : session.Sound forest) (exact : session.SpansExact)
    (known : id < session.arena.size) :
    session.Reads forest (forest.findByPattern engine pattern id) (fun arena =>
      (reports engine pattern (forest.searched arena id)).map
        (List.filterMap (forest.hit? arena id))) := by
  refine .read ?_
  split_ifs with hKind
  · have hOrigin := (sound.arena.kind_eq_package_iff known).mp hKind
    refine .bind_nodes sound exact (children_yields .nodes sound known) ?_
    intro later parts sound exact grown children
    have hKnown := grown.arena.lt known
    have hParts : later.Knows parts := fun part member =>
      (sound.arena.of_mem_children hKnown children member).2.1
    refine (hitsInAll_reads sound exact hParts).congr ?_
    intro last hLast since
    have hChildren := since.arena.children id parts hKnown children
    have hPackage : last.arena.origin id = .package := by
      rw [since.arena.origin id hKnown, grown.arena.origin id known, hOrigin]
    rw [stretches_children hLast.arena (since.arena.lt hKnown) hChildren hPackage]
  · have hOrigin := mt (sound.arena.kind_eq_package_iff known).mpr hKind
    refine (hitsInAll_reads sound exact (.cons known (.nil session))).congr ?_
    intro last hLast since
    rw [← since.arena.origin id known] at hOrigin
    rw [Forest.searched_of_ne_package hOrigin, Forest.stretches, List.flatMap_singleton]

end Patterns

end Session

/-- Where the hits of a pattern come from, as the tree shows at any later time. Every match that the
engine reports in what is searched gives one hit or none. A hit keeps the captures of its match, and
its node lies properly below the start and has the span of the match. The node has the grammar kind
of the match too, unless no node with the span has it. A match without a node that fits gives a hit
only in this way, when the first node with its span lies below the start. -/
theorem Reachable.findByPattern_unless_substituted {forest : Forest} {session : Session}
    (reached : Reachable forest session) {id : NodeId} (known : id < session.arena.size)
    (engine : PatternEngine) (pattern : String) :
    let asked := (forest.findByPattern engine pattern id).run session
    ∀ last, Leads forest asked.2 last →
      let arena := last.arena
      let reported := reports engine pattern (forest.searched arena id)
      asked.1 = reported.map (List.filterMap (forest.hit? arena id)) ∧
        (∀ all, reported = .ok all → ∀ found ∈ all, ∃ stretch ∈ forest.searched arena id,
          ∃ answer, engine stretch.number pattern = .ok answer ∧ ∃ original ∈ answer,
            found = original.shift stretch.base ∧ stretch.span.Encloses found.span) ∧
        ∀ found,
          (∀ hit, forest.hit? arena id found = some hit →
            hit.captures = found.captures ∧ id ∈ arena.ancestors hit.node ∧
              arena.span hit.node = found.span ∧
              (forest.grammarKind? arena hit.node = some found.kind ∨
                forest.Substitutes arena found hit.node)) ∧
          ((∀ node, id ∈ arena.ancestors node → arena.span node = found.span →
              forest.grammarKind? arena node ≠ some found.kind) →
            ((forest.hit? arena id found).isSome ↔
              ∃ node, forest.Substitutes arena found node ∧ id ∈ arena.ancestors node)) := by
  intro asked last leads arena reported
  have hReads : session.Reads forest (forest.findByPattern engine pattern id) _ :=
    Session.findByPattern_reads reached.sound reached.spansExact known
  obtain ⟨hSound, hKeeps⟩ := leads.sound_extends hReads.sound
  refine ⟨hReads.answer last hSound hKeeps, ?_, ?_⟩
  · intro all hReported found member
    exact exists_of_mem_reports hReported member
  · intro found
    refine ⟨?_, Forest.hit?_isSome_iff hSound.arena⟩
    intro hit hHit
    obtain ⟨hTaken, hBelow, hCaptures⟩ := Forest.hit?_eq_some_iff.mp hHit
    obtain ⟨member, hKind⟩ := Forest.matchedNode?_cases hTaken
    exact ⟨hCaptures, hBelow, (hSound.arena.mem_withSpan.mp member).2.2, hKind⟩

namespace Sample

/-- A function with one statement, a call. The tree has a node for the statement only. -/
def bareUnit : ParsedUnit where
  source := ⟨"a.go", 0, "package p\n\nfunc f(x int) \x7b f(1) \x7d\n"⟩
  snapshot := ⟨#[
    { kind := "source_file", span := ⟨0, 34⟩, children := [1] },
    { kind := "expression_statement", span := ⟨27, 31⟩ }]⟩

def bare : Forest where
  units := [bareUnit]
  package := some ⟨"p", {}⟩
  accepted := by decide
  standalone := by decide

/-- The call with the text of its argument. -/
def callMatch : PatternMatch :=
  ⟨⟨27, 31⟩, "call_expression", [("A", "1")]⟩

/-- The engine finds the call, whatever it is asked for. -/
def callEngine : PatternEngine :=
  fun _ _ => .ok [callMatch]

end Sample

/-- From the package the call is found, by its statement. -/
theorem Reachable.findByPattern_unless_substituted_sample :
    let asked := (Sample.bare.findByPattern Sample.callEngine "f($A)" Arena.root).run
      (.start Sample.bare)
    asked.1 = .ok [⟨2, [("A", "1")]⟩] ∧
      Sample.bare.Substitutes asked.2.arena Sample.callMatch 2 := by
  intro asked
  have hAsked : asked.1 = .ok [⟨2, [("A", "1")]⟩] := by decide +kernel
  have hRoot : Arena.root < (Session.start Sample.bare).arena.size := by decide
  obtain ⟨_, _, hHits⟩ := Reachable.findByPattern_unless_substituted (.refl (.start Sample.bare))
    hRoot Sample.callEngine "f($A)" asked.2 (.refl _)
  have hHit : Sample.bare.hit? asked.2.arena Arena.root Sample.callMatch =
      some ⟨2, [("A", "1")]⟩ := by decide +kernel
  obtain ⟨_, _, _, hSame | hSubstitutes⟩ := (hHits Sample.callMatch).1 _ hHit
  · have hOther : Sample.bare.grammarKind? asked.2.arena 2 ≠ some Sample.callMatch.kind := by
      decide +kernel
    exact absurd hSame hOther
  · exact ⟨hAsked, hSubstitutes⟩

/-- The statement is reported although no node of the tree is a call. -/
theorem Sample.statement_taken_for_call :
    let asked := (Sample.bare.findByPattern Sample.callEngine "f($A)" Arena.root).run
      (.start Sample.bare)
    let all := (Sample.bare.materializeAll.run asked.2).2.arena
    Sample.callEngine 0 "f($A)" = .ok [Sample.callMatch] ∧ asked.1 = .ok [⟨2, [("A", "1")]⟩] ∧
      Sample.bare.grammarKind? asked.2.arena 2 = some "expression_statement" ∧
      ∀ node < all.size, Sample.bare.grammarKind? all node ≠ some Sample.callMatch.kind := by
  decide +kernel

end SyntaxAtlas
