import SyntaxAtlas.Proofs.Graph.Extent
import SyntaxAtlas.Proofs.Graph.Histories

/-! Spans of nodes against spans of their parents. The check compares elements, while nodes get
their spans anew: the root of a unit covers the whole text, and one name of a declaration with
several starts at that name although it keeps everything else that the declaration holds. What
stands before the name is then in front of its parent. Nothing else leaves its parent. -/
namespace SyntaxAtlas

namespace Span

theorem Encloses.shift {outer inner : Span} (h : outer.Encloses inner) (base : Nat) :
    (outer.shift base).Encloses (inner.shift base) :=
  ⟨Nat.add_le_add_right h.1 base, Nat.add_le_add_right h.2 base⟩

end Span

namespace SourceMap

theorem lowest_le (units : List SourceUnit) (low : Nat) :
    units.foldl (fun low unit => min low unit.base) low ≤ low ∧
      ∀ unit ∈ units, units.foldl (fun low unit => min low unit.base) low ≤ unit.base := by
  induction units generalizing low with
  | nil => simp
  | cons head rest ih =>
      obtain ⟨hLow, hRest⟩ := ih (min low head.base)
      simp only [List.foldl_cons, List.forall_mem_cons]
      exact ⟨by omega, by omega, hRest⟩

theorem le_highest (units : List SourceUnit) (high : Nat) :
    high ≤ units.foldl (fun high unit => max high unit.span.stop) high ∧
      ∀ unit ∈ units, unit.span.stop ≤
        units.foldl (fun high unit => max high unit.span.stop) high := by
  induction units generalizing high with
  | nil => simp
  | cons head rest ih =>
      obtain ⟨hHigh, hRest⟩ := ih (max high head.span.stop)
      simp only [List.foldl_cons, List.forall_mem_cons]
      exact ⟨by omega, by omega, hRest⟩

/-- The span of all units covers each of them, in whatever order they were placed. -/
theorem span_encloses {map : SourceMap} {unit : SourceUnit} (member : unit ∈ map.units) :
    map.span.Encloses unit.span := by
  unfold span
  cases hUnits : map.units with
  | nil => simp [hUnits] at member
  | cons first rest =>
      obtain ⟨hLow, hBases⟩ := lowest_le rest first.base
      obtain ⟨hHigh, hStops⟩ := le_highest rest first.span.stop
      rw [hUnits] at member
      rcases List.mem_cons.mp member with rfl | hRest
      · exact ⟨hLow, hHigh⟩
      · exact ⟨hBases unit hRest, hStops unit hRest⟩

end SourceMap

namespace Forest

/-- The span of a node, told from its origin. Only the root of a unit covers more than its
element. -/
inductive Covers (forest : Forest) : Origin → Span → Prop where
  | package : Covers forest .package forest.sources.span
  | root {number : UnitId} {unit : ParsedUnit} (hUnit : forest.units[number]? = some unit) :
      Covers forest (.element number 0) unit.source.span
  | element {number : UnitId} {unit : ParsedUnit} {id : ElementId} {element : Element}
      (hUnit : forest.units[number]? = some unit) (inner : id ≠ 0)
      (found : unit.snapshot.get? id = some element) :
      Covers forest (.element number id) (element.span.shift unit.source.base)
  | split {number : UnitId} {unit : ParsedUnit} {id name : ElementId}
      {declaration label : Element} (hUnit : forest.units[number]? = some unit)
      (found : unit.snapshot.get? id = some declaration)
      (labelled : unit.snapshot.get? name = some label) :
      Covers forest (.split number id name)
        (Span.shift ⟨label.span.start, declaration.span.stop⟩ unit.source.base)

end Forest

namespace ParsedUnit

variable {unit : ParsedUnit} {number : UnitId} {id : ElementId} {sprout : Sprout}

theorem splitSprout_span {element label : Element} {name : ElementId}
    (labelled : unit.snapshot.get? name = some label) :
    (unit.splitSprout number id element name).span =
      Span.shift ⟨label.span.start, element.span.stop⟩ unit.source.base := by
  simp [splitSprout, labelled]

end ParsedUnit

namespace Forest

variable {forest : Forest} {number : UnitId} {unit : ParsedUnit} {id : ElementId} {sprout : Sprout}

/-- A name of a declaration is an element inside it. -/
theorem exists_label {element : Element} {name : ElementId}
    (hUnit : forest.units[number]? = some unit) (found : unit.snapshot.get? id = some element)
    (named : name ∈ unit.namesOf element) :
    ∃ label, unit.snapshot.get? name = some label ∧ element.span.Encloses label.span := by
  have hMember := List.mem_of_getElem? hUnit
  have hListed : name ∈ element.children := List.mem_of_mem_filter named
  obtain ⟨label, hLabel⟩ := forest.exists_child hMember found hListed
  exact ⟨label, hLabel, (forest.wellFormed hMember).2.nested id element found name hListed _ hLabel⟩

theorem covers_of_mem_sproutsOf (hUnit : forest.units[number]? = some unit) (inner : id ≠ 0)
    (member : sprout ∈ unit.sproutsOf number id) : forest.Covers sprout.origin sprout.span := by
  obtain ⟨element, found, rfl | ⟨name, hName, rfl⟩⟩ := ParsedUnit.mem_sproutsOf member
  · exact .element hUnit inner found
  · obtain ⟨label, hLabel, _⟩ := exists_label hUnit found hName
    rw [ParsedUnit.splitSprout_span hLabel]
    exact .split hUnit found hLabel

/-- What an element sprouts stays inside the element. -/
theorem encloses_of_mem_sproutsOf {element : Element} (hUnit : forest.units[number]? = some unit)
    (found : unit.snapshot.get? id = some element) (member : sprout ∈ unit.sproutsOf number id) :
    (element.span.shift unit.source.base).Encloses sprout.span ∧
      sprout.origin.place? = some (number, id) := by
  obtain ⟨other, hOther, rfl | ⟨name, hName, rfl⟩⟩ := ParsedUnit.mem_sproutsOf member
  · obtain rfl : other = element := Option.some.inj (hOther.symm.trans found)
    exact ⟨⟨Nat.le_refl _, Nat.le_refl _⟩, rfl⟩
  · obtain rfl : other = element := Option.some.inj (hOther.symm.trans found)
    obtain ⟨label, hLabel, hInside⟩ := exists_label hUnit found hName
    rw [ParsedUnit.splitSprout_span hLabel]
    exact ⟨⟨Nat.add_le_add_right hInside.1 _, Nat.le_refl _⟩, rfl⟩

/-- A part of a declaration stands in front of a name of it: it is no name itself, and it starts
before that name. -/
inductive Protrudes (forest : Forest) : Origin → Origin → Span → Prop where
  | before {number : UnitId} {unit : ParsedUnit} {id name child : ElementId}
      {declaration label : Element} {part : Origin} {span : Span}
      (hUnit : forest.units[number]? = some unit)
      (found : unit.snapshot.get? id = some declaration)
      (labelled : unit.snapshot.get? name = some label) (listed : child ∈ declaration.children)
      (other : unit.isName child = false) (place : part.place? = some (number, child))
      (early : span.start < label.span.start + unit.source.base) :
      Protrudes forest (.split number id name) part span

/-- The sprouts of one listed child lie in its lister. -/
theorem encloses_of_mem_children {element : Element} {child : ElementId}
    (hUnit : forest.units[number]? = some unit) (found : unit.snapshot.get? id = some element)
    (listed : child ∈ element.children) (member : sprout ∈ unit.sproutsOf number child) :
    (element.span.shift unit.source.base).Encloses sprout.span := by
  have hMember := List.mem_of_getElem? hUnit
  obtain ⟨inner, hInner⟩ := forest.exists_child hMember found listed
  have hNested := (forest.wellFormed hMember).2.nested id element found child listed inner hInner
  exact (hNested.shift _).trans (encloses_of_mem_sproutsOf hUnit hInner member).1

/-- Below one name of a declaration, a sprout comes from the name itself or from a part that is no
name. Only in the second case it may start too early. -/
theorem encloses_split_iff {name child : ElementId} {declaration label : Element}
    (hUnit : forest.units[number]? = some unit)
    (found : unit.snapshot.get? id = some declaration)
    (labelled : unit.snapshot.get? name = some label) (listed : child ∈ declaration.children)
    (kept : child = name ∨ unit.isName child = false)
    (member : sprout ∈ unit.sproutsOf number child) :
    (Span.shift ⟨label.span.start, declaration.span.stop⟩ unit.source.base).Encloses sprout.span ↔
      ¬ forest.Protrudes (.split number id name) sprout.origin sprout.span := by
  have hInside := encloses_of_mem_children hUnit found listed member
  constructor
  · rintro ⟨hStart, _⟩ (⟨hOther, _, hLabel, _, _, _, early⟩)
    obtain rfl := Option.some.inj (hOther.symm.trans hUnit)
    obtain rfl := Option.some.inj (hLabel.symm.trans labelled)
    exact Nat.not_lt.mpr hStart early
  · intro hClear
    refine ⟨?_, hInside.2⟩
    by_contra hEarly
    rcases kept with rfl | other
    · exact hEarly (encloses_of_mem_sproutsOf hUnit labelled member).1.1
    · obtain ⟨inner, hInner⟩ := forest.exists_child (List.mem_of_getElem? hUnit) found listed
      have hPlace := (encloses_of_mem_sproutsOf hUnit hInner member).2
      exact hClear (.before hUnit found labelled listed other hPlace (Nat.not_le.mp hEarly))

/-- The children of an origin stay inside its span, but for those in front of a name. -/
theorem Covers.encloses_iff {origin : Origin} {outer : Span} (covers : forest.Covers origin outer)
    (member : sprout ∈ forest.sprouts origin) :
    sprout.span.stop ≤ outer.stop ∧
      (outer.Encloses sprout.span ↔ ¬ forest.Protrudes origin sprout.origin sprout.span) := by
  -- where no name was split off, everything has to stay inside
  have hWhole : outer.Encloses sprout.span → (∀ number id name, origin ≠ .split number id name) →
      sprout.span.stop ≤ outer.stop ∧
        (outer.Encloses sprout.span ↔ ¬ forest.Protrudes origin sprout.origin sprout.span) := by
    intro hInside hNoSplit
    refine ⟨hInside.2, fun _ => ?_, fun _ => hInside⟩
    rintro ⟨⟩
    exact hNoSplit _ _ _ rfl
  cases covers with
  | package =>
      apply hWhole
      · obtain ⟨⟨unit, number⟩, hUnit, rfl⟩ := List.mem_map.mp member
        have hUnit := List.mk_mem_zipIdx_iff_getElem?.mp hUnit
        exact SourceMap.span_encloses (List.mem_map_of_mem (List.mem_of_getElem? hUnit))
      · simp
  | @root number unit hUnit =>
      apply hWhole
      · simp only [sprouts, hUnit, List.mem_flatMap, Snapshot.mem_children_iff] at member
        obtain ⟨child, ⟨root, hRoot, listed⟩, member⟩ := member
        have hText := (forest.wellFormed (List.mem_of_getElem? hUnit)).2.inside root hRoot
        have hInside := encloses_of_mem_children hUnit hRoot listed member
        have hUnitSpan : unit.source.span = (Span.mk 0 unit.source.length).shift unit.source.base := by
          simp [SourceUnit.span, Span.shift, Nat.add_comm]
        rw [hUnitSpan]
        exact (hText.shift _).trans hInside
      · simp
  | @element number unit id element hUnit inner found =>
      apply hWhole
      · simp only [sprouts, hUnit, List.mem_flatMap, Snapshot.mem_children_iff, found] at member
        obtain ⟨child, ⟨_, ⟨⟩, listed⟩, member⟩ := member
        exact encloses_of_mem_children hUnit found listed member
      · simp
  | @split number unit id name declaration label hUnit found labelled =>
      simp only [sprouts, hUnit, List.mem_flatMap, List.mem_filter, Snapshot.mem_children_iff, found,
        Bool.or_eq_true, beq_iff_eq, Bool.not_eq_true'] at member
      obtain ⟨child, ⟨⟨_, ⟨⟩, listed⟩, kept⟩, member⟩ := member
      exact ⟨(encloses_of_mem_children hUnit found listed member).2,
        encloses_split_iff hUnit found labelled listed kept member⟩

theorem covers_of_mem_sprouts {origin : Origin} (member : sprout ∈ forest.sprouts origin) :
    forest.Covers sprout.origin sprout.span := by
  cases hPlace : origin.place? with
  | none =>
      obtain rfl := Origin.eq_package_of_place? hPlace
      obtain ⟨number, unit, hUnit, rfl⟩ := of_mem_sprouts_package member
      exact .root hUnit
  | some place =>
      obtain ⟨unit, child, hUnit, listed, hSprout⟩ := of_mem_sprouts hPlace member
      obtain ⟨element, found, listed⟩ := Snapshot.mem_children_iff.mp listed
      have hForward := (forest.wellFormed (List.mem_of_getElem? hUnit)).2.forward _ element found
      -- a listed element comes behind its lister, so that it is not the root
      have hInner : child ≠ 0 := Nat.ne_zero_of_lt (hForward child listed).1
      exact covers_of_mem_sproutsOf hUnit hInner hSprout

theorem covers_rootSprout (forest : Forest) :
    forest.Covers forest.rootSprout.origin forest.rootSprout.span := by
  unfold rootSprout
  split
  · rename_i unit rest _ hUnits
    exact .root (by simp [hUnits])
  · exact .package

end Forest

namespace Arena

variable {forest : Forest} {arena : Arena} {id parent : NodeId}

namespace WellNumbered

/-- A node below another one is the node of a sprout. -/
theorem exists_sprout (h : arena.WellNumbered forest) (above : arena.parent? id = some parent) :
    ∃ sprout ∈ forest.sprouts (arena.origin parent), arena.Shows id sprout := by
  obtain ⟨ids, hParent, hChildren, member⟩ := h.listed_by_parent above
  obtain ⟨place, hPlace⟩ := List.mem_iff_getElem?.mp member
  obtain ⟨sprout, hSprout, hShows⟩ := h.shows_child hParent hChildren hPlace
  exact ⟨sprout, List.mem_of_getElem? hSprout, hShows⟩

/-- The span of a numbered node is the one that its origin tells. -/
theorem covers (h : arena.WellNumbered forest) (known : id < arena.size) :
    forest.Covers (arena.origin id) (arena.span id) := by
  by_cases hRoot : id = Arena.root
  · subst hRoot
    rw [h.root.origin, h.root.span]
    exact forest.covers_rootSprout
  · obtain ⟨parent, _, _, _, _, above⟩ := h.exists_parent known hRoot
    obtain ⟨sprout, member, hShows⟩ := h.exists_sprout above
    rw [hShows.origin, hShows.span]
    exact Forest.covers_of_mem_sprouts member

end WellNumbered

end Arena

/-- After every history a node ends no later than its parent, and the parent encloses it unless the
node stands in front of the one name that the parent was split off for. -/
theorem Reachable.encloses_iff_not_protrudes {forest : Forest} {session : Session}
    (reached : Reachable forest session) {node parent : NodeId}
    (above : session.arena.parent? node = some parent) :
    (session.arena.span node).stop ≤ (session.arena.span parent).stop ∧
      ((session.arena.span parent).Encloses (session.arena.span node) ↔
        ¬ forest.Protrudes (session.arena.origin parent) (session.arena.origin node)
          (session.arena.span node)) := by
  have hArena := reached.sound.arena
  have hCovers := hArena.covers (hArena.known_parent (Arena.known_of_parent above) above)
  obtain ⟨sprout, member, hShows⟩ := hArena.exists_sprout above
  rw [hShows.origin, hShows.span]
  exact hCovers.encloses_iff member

namespace Sample

/-- A function with two parameters of one type and a comment between their names. -/
def commentedUnit : ParsedUnit where
  source := ⟨"a.go", 0, "func f(a,/**/b int)\x7b\x7d"⟩
  snapshot := ⟨#[
    { kind := "source_file", span := ⟨0, 21⟩, children := [1] },
    { kind := "function_declaration", span := ⟨0, 21⟩, children := [2, 3, 9] },
    { kind := "identifier", span := ⟨5, 6⟩, field := some "name" },
    { kind := "parameter_list", span := ⟨6, 19⟩, field := some "parameters", children := [4] },
    { kind := "parameter_declaration", span := ⟨7, 18⟩, children := [5, 6, 7, 8] },
    { kind := "identifier", span := ⟨7, 8⟩, field := some "name" },
    { kind := "comment", span := ⟨9, 13⟩ },
    { kind := "identifier", span := ⟨13, 14⟩, field := some "name" },
    { kind := "type_identifier", span := ⟨15, 18⟩, field := some "type" },
    { kind := "block", span := ⟨19, 21⟩, field := some "body" }]⟩

def commented : Forest where
  units := [commentedUnit]
  package := some ⟨"p", {}⟩
  accepted := by decide
  standalone := by decide

/-- The parameters of the function with everything below them have numbers. -/
def commentedSession : Session :=
  Query.after commented (.start commented) .materializeAll

theorem reachable_commentedSession : Reachable commented commentedSession :=
  .ask .materializeAll (Session.Knows.nil _)

end Sample

/-- The second parameter encloses its name, and the comment is in front of it. -/
theorem Reachable.encloses_iff_not_protrudes_sample :
    let arena := Sample.commentedSession.arena
    ¬ Sample.commented.Protrudes (arena.origin 7) (arena.origin 12) (arena.span 12) ∧
      Sample.commented.Protrudes (arena.origin 7) (arena.origin 11) (arena.span 11) := by
  have hName : Sample.commentedSession.arena.parent? 12 = some 7 := by decide +kernel
  have hComment : Sample.commentedSession.arena.parent? 11 = some 7 := by decide +kernel
  constructor
  · apply (Reachable.encloses_iff_not_protrudes Sample.reachable_commentedSession hName).2.mp
    decide +kernel
  · by_contra hClear
    have hEncloses := (Reachable.encloses_iff_not_protrudes Sample.reachable_commentedSession
      hComment).2.mpr hClear
    revert hEncloses
    decide +kernel

/-- Between the names of two parameters, a comment lies outside of its second parent. -/
theorem Sample.comment_not_enclosed :
    Reachable Sample.commented Sample.commentedSession ∧
      Sample.commentedSession.arena.parent? 11 = some 7 ∧
      Sample.commentedSession.arena.span 11 = ⟨9, 13⟩ ∧
      Sample.commentedSession.arena.span 7 = ⟨13, 18⟩ ∧
      ¬ (Sample.commentedSession.arena.span 7).Encloses (Sample.commentedSession.arena.span 11) := by
  refine ⟨Sample.reachable_commentedSession, ?_⟩
  decide +kernel

end SyntaxAtlas
