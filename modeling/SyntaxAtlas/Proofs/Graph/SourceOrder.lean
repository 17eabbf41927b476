import SyntaxAtlas.Proofs.Graph.Nesting
import SyntaxAtlas.Proofs.Graph.Sprouting

/-! The order of children. The check of a snapshot compares every span with that of the parent and
never with that of a sibling, so that children come in the order in which they are listed, whatever
their starts are. Here it is said exactly when that order is the order of the source, and which way
of listing siblings is enough for it in the whole tree. -/
namespace SyntaxAtlas

namespace Snapshot

/-- Siblings follow one another: each of them ends before the next one starts. -/
def Sequential (snapshot : Snapshot) : Prop :=
  ∀ id, (snapshot.children id).Pairwise fun first second =>
    ∀ left right, snapshot.get? first = some left → snapshot.get? second = some right →
      left.span.stop ≤ right.span.start

end Snapshot

namespace ParsedUnit

variable {unit : ParsedUnit} {number : UnitId} {id : ElementId} {element : Element}

/-- Where an element starts in its unit. -/
def startOf (unit : ParsedUnit) (id : ElementId) : Nat :=
  ((unit.snapshot.get? id).map fun element => element.span.start).getD 0

/-- The elements with which the nodes of an element start: its names when it is split, and otherwise
the element itself. -/
def heads (unit : ParsedUnit) (id : ElementId) : List ElementId :=
  if unit.splits id then unit.names id else [id]

theorem startOf_of_get? (found : unit.snapshot.get? id = some element) :
    unit.startOf id = element.span.start := by
  simp [startOf, found]

/-- The nodes of an element start where its heads do. -/
theorem map_start_sproutsOf (found : unit.snapshot.get? id = some element) :
    (unit.sproutsOf number id).map (fun sprout => sprout.span.start) =
      (unit.heads id).map fun head => unit.startOf head + unit.source.base := by
  unfold heads
  cases hSplit : unit.splits id with
  | true =>
      rw [sproutsOf_of_splits found hSplit, if_pos rfl, List.map_map]
      refine List.map_congr_left ?_
      intro name member
      obtain ⟨label, hLabel⟩ := exists_of_isName (List.of_mem_filter member)
      rw [Function.comp_apply, splitSprout_span hLabel, startOf_of_get? hLabel, Span.shift]
  | false =>
      rw [sproutsOf_of_not_splits found hSplit]
      simp [startOf_of_get? found, Span.shift]

end ParsedUnit

namespace Forest

variable {forest : Forest} {origin : Origin} {number : UnitId} {unit : ParsedUnit}
  {id child head : ElementId} {element : Element}

/-- The heads of an element lie in it. -/
theorem encloses_of_mem_heads (hUnit : forest.units[number]? = some unit)
    (found : unit.snapshot.get? id = some element) (member : head ∈ unit.heads id) :
    ∃ label, unit.snapshot.get? head = some label ∧ element.span.Encloses label.span := by
  unfold ParsedUnit.heads at member
  split_ifs at member with hSplit
  · rw [← ParsedUnit.namesOf_eq_names found] at member
    exact exists_label hUnit found member
  · obtain rfl := List.mem_singleton.mp member
    exact ⟨element, found, Nat.le_refl _, Nat.le_refl _⟩

/-- The children of an origin start where the heads of the elements that are read below it do. -/
theorem map_start_sprouts (place : origin.place? = some (number, id))
    (hUnit : forest.units[number]? = some unit) :
    (forest.sprouts origin).map (fun sprout => sprout.span.start) =
      ((unit.kept origin).flatMap unit.heads).map fun head =>
        unit.startOf head + unit.source.base := by
  rw [sprouts_eq_flatMap_kept place hUnit, List.map_flatMap, List.map_flatMap]
  refine List.flatMap_congr ?_
  intro child member
  have listed := (kept_sublist place).subset member
  obtain ⟨element, found, listed⟩ := Snapshot.mem_children_iff.mp listed
  obtain ⟨inner, hInner⟩ := forest.exists_child (List.mem_of_getElem? hUnit) found listed
  exact ParsedUnit.map_start_sproutsOf hInner

/-- Siblings that follow one another put the heads in order as well: the names of a split element
follow one another, and all of them lie between its neighbours. -/
theorem heads_ordered_of_sequential (hUnit : forest.units[number]? = some unit)
    (sequential : unit.snapshot.Sequential) (place : origin.place? = some (number, id)) :
    ((unit.kept origin).flatMap unit.heads).Pairwise fun first second =>
      unit.startOf first ≤ unit.startOf second := by
  have hFormed := (forest.wellFormed (List.mem_of_getElem? hUnit)).2
  have hSub : (unit.kept origin).Sublist (unit.snapshot.children id) := kept_sublist place
  have hFound : ∀ child ∈ unit.kept origin, ∃ inner, unit.snapshot.get? child = some inner := by
    intro child member
    obtain ⟨element, found, listed⟩ := Snapshot.mem_children_iff.mp (hSub.subset member)
    exact forest.exists_child (List.mem_of_getElem? hUnit) found listed
  rw [List.pairwise_flatMap]
  constructor
  · -- the heads of one element are that element, or names that follow one another
    intro child _
    unfold ParsedUnit.heads
    split_ifs
    · refine List.Pairwise.imp_of_mem ?_ ((sequential child).filter unit.isName)
      intro first second hFirst hSecond hFollow
      obtain ⟨left, hLeft⟩ := ParsedUnit.exists_of_isName (List.of_mem_filter hFirst)
      obtain ⟨right, hRight⟩ := ParsedUnit.exists_of_isName (List.of_mem_filter hSecond)
      rw [ParsedUnit.startOf_of_get? hLeft, ParsedUnit.startOf_of_get? hRight]
      exact Nat.le_trans (hFormed.ordered _ _ hLeft) (hFollow left right hLeft hRight)
    · exact List.pairwise_singleton _ _
  · refine List.Pairwise.imp_of_mem ?_ ((sequential id).sublist hSub)
    intro first second hFirst hSecond hFollow head hHead other hOther
    obtain ⟨left, hLeft⟩ := hFound first hFirst
    obtain ⟨right, hRight⟩ := hFound second hSecond
    obtain ⟨label, hLabel, hInside⟩ := encloses_of_mem_heads hUnit hLeft hHead
    obtain ⟨tag, hTag, hBehind⟩ := encloses_of_mem_heads hUnit hRight hOther
    rw [ParsedUnit.startOf_of_get? hLabel, ParsedUnit.startOf_of_get? hTag]
    calc label.span.start ≤ label.span.stop := hFormed.ordered _ _ hLabel
      _ ≤ left.span.stop := hInside.2
      _ ≤ right.span.start := hFollow left right hLeft hRight
      _ ≤ tag.span.start := hBehind.1

end Forest

/-- The children of a node, asked for after any history, are in the order of the source exactly when
the elements read below it are listed in that order, where a split element counts by the starts of
its names. Siblings that follow one another in the snapshot are enough. The root of a package is left
out: its children are the units. -/
theorem Reachable.children_in_order_iff {forest : Forest} {session : Session}
    (reached : Reachable forest session) {node : NodeId} (known : node < session.arena.size)
    {number : UnitId} {unit : ParsedUnit}
    (inside : (session.arena.origin node).unit? = some number)
    (hUnit : forest.units[number]? = some unit) :
    let asked := (forest.children node).run session
    let InOrder := asked.1.Pairwise fun first second =>
      (asked.2.arena.span first).start ≤ (asked.2.arena.span second).start
    (InOrder ↔ ((unit.kept (session.arena.origin node)).flatMap unit.heads).Pairwise
      fun first second => unit.startOf first ≤ unit.startOf second) ∧
    (unit.snapshot.Sequential → InOrder) := by
  intro asked InOrder
  obtain ⟨id, place⟩ : ∃ id, (session.arena.origin node).place? = some (number, id) := by
    cases hOrigin : session.arena.origin node with
    | package => simp [hOrigin, Origin.unit?] at inside
    | element other id => exact ⟨id, by simpa [hOrigin, Origin.unit?, Origin.place?] using inside⟩
    | split other id name => exact ⟨id, by simpa [hOrigin, Origin.unit?, Origin.place?] using inside⟩
  have hAsked := Session.children_yields .all reached.sound known
  have hKeeps := hAsked.allows.arena
  have hStarts : asked.1.map (fun child => (asked.2.arena.span child).start) =
      (forest.sprouts (asked.2.arena.origin node)).map fun sprout => sprout.span.start :=
    hAsked.sound.arena.map_children (hKeeps.lt known) hAsked.answer
      fun _ _ shows => congrArg Span.start shows.span
  rw [hKeeps.origin node known, Forest.map_start_sprouts place hUnit] at hStarts
  have hIff : InOrder ↔ ((unit.kept (session.arena.origin node)).flatMap unit.heads).Pairwise
      fun first second => unit.startOf first ≤ unit.startOf second := by
    have hPairwise := congrArg (List.Pairwise (· ≤ ·)) hStarts
    simpa only [List.pairwise_map, Nat.add_le_add_iff_right, eq_iff_iff] using hPairwise
  exact ⟨hIff, fun sequential =>
    hIff.mpr (Forest.heads_ordered_of_sequential hUnit sequential place)⟩

/-- Below the second of two parameters, the comment in front of it, its name and its type are in
order, although the comment starts before the parameter. -/
theorem Reachable.children_in_order_iff_sample :
    let asked := (Sample.commented.children 7).run Sample.commentedSession
    Sample.commentedSession.arena.origin 7 = .split 0 4 7 ∧ asked.1 = [11, 12, 13] ∧
      asked.1.Pairwise fun first second =>
        (asked.2.arena.span first).start ≤ (asked.2.arena.span second).start := by
  have known : 7 < Sample.commentedSession.arena.size := by decide +kernel
  have inside : (Sample.commentedSession.arena.origin 7).unit? = some 0 := by decide +kernel
  have hUnit : Sample.commented.units[0]? = some Sample.commentedUnit := rfl
  have hOrder := (@Reachable.children_in_order_iff Sample.commented Sample.commentedSession
    Sample.reachable_commentedSession 7 known 0 Sample.commentedUnit inside hUnit).1
  exact ⟨by decide +kernel, by decide +kernel, hOrder.mpr (by decide +kernel)⟩

namespace Sample

/-- A unit whose snapshot lists the second name before the first one. -/
def swappedUnit : ParsedUnit where
  source := ⟨"a.go", 0, "x=y"⟩
  snapshot := ⟨#[
    { kind := "source_file", span := ⟨0, 3⟩, children := [1, 2] },
    { kind := "identifier", span := ⟨2, 3⟩ },
    { kind := "identifier", span := ⟨0, 1⟩ }]⟩

def swapped : Forest where
  units := [swappedUnit]
  package := some ⟨"p", {}⟩
  accepted := by decide
  standalone := by decide

/-- The children of the package have numbers, those of the file not yet. -/
def swappedSession : Session :=
  Query.after swapped (.start swapped) (.children Arena.root)

end Sample

/-- A snapshot that lists its names in the wrong order makes a forest, and the file hands them out in
that order. -/
theorem Sample.siblings_out_of_order :
    let asked := (Sample.swapped.children 1).run Sample.swappedSession
    Reachable Sample.swapped Sample.swappedSession ∧
      Sample.swappedSession.arena.origin 1 = .element 0 0 ∧
      asked.1.map (fun child => (asked.2.arena.span child).start) = [2, 0] ∧
      ¬ asked.1.Pairwise fun first second =>
        (asked.2.arena.span first).start ≤ (asked.2.arena.span second).start := by
  have hRoot : (Session.start Sample.swapped).Knows [Arena.root] :=
    .cons (Session.sound_start Sample.swapped).arena.nonempty (.nil _)
  refine ⟨.ask (.children Arena.root) hRoot, ?_⟩
  decide +kernel

end SyntaxAtlas
