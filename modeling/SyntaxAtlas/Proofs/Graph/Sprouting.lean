import Mathlib.Algebra.BigOperators.Group.List.Basic
import SyntaxAtlas.Proofs.Graph.Extent

/-! Sprouts, told by elements. Below an origin a list of elements is read, and every element of it
sprouts once, or once for each of its names when it is split. What is read below one name of a
declaration leaves out the other names and nothing else. -/
namespace SyntaxAtlas

namespace ParsedUnit

variable {unit : ParsedUnit} {number : UnitId} {id child : ElementId} {element : Element}

/-- The names that the element at a place declares. -/
def names (unit : ParsedUnit) (id : ElementId) : List ElementId :=
  (unit.snapshot.children id).filter unit.isName

/-- An element that is split wherever it sprouts: a declaration of a splittable kind with several
names. The root of a unit does not sprout, so that it is not split even if it looks like this. -/
def splits (unit : ParsedUnit) (id : ElementId) : Bool :=
  (unit.snapshot.get? id).any fun element =>
    (Kind.classify element.kind).isSplittable && decide (1 < (unit.names id).length)

/-- An element with one node for each name. The root of a unit is never split. -/
def divided (unit : ParsedUnit) (id : ElementId) : Bool :=
  id != 0 && unit.splits id

/-- The nodes that an element gets every time it is wrapped. -/
def share (unit : ParsedUnit) (id : ElementId) : Nat :=
  if unit.divided id then (unit.names id).length else 1

/-- The children that are read below an origin. -/
def kept (unit : ParsedUnit) : Origin → List ElementId
  | .package => []
  | .element _ id => unit.snapshot.children id
  | .split _ id name => (unit.snapshot.children id).filter fun child =>
      child == name || !unit.isName child

/-- An origin below which an element is read. -/
def reads (unit : ParsedUnit) (number : UnitId) (id : ElementId) (origin : Origin) : Bool :=
  origin.unit? == some number && (unit.kept origin).contains id

theorem children_of_get? (found : unit.snapshot.get? id = some element) :
    unit.snapshot.children id = element.children := by
  simp [Snapshot.children, found]

theorem namesOf_eq_names (found : unit.snapshot.get? id = some element) :
    unit.namesOf element = unit.names id := by
  rw [namesOf, names, children_of_get? found]

theorem exists_of_isName (named : unit.isName id) :
    ∃ label, unit.snapshot.get? id = some label := by
  cases found : unit.snapshot.get? id with
  | none => simp [isName, found] at named
  | some label => exact ⟨label, rfl⟩

theorem sproutsOf_of_splits (found : unit.snapshot.get? id = some element)
    (split : unit.splits id) :
    unit.sproutsOf number id = (unit.names id).map (unit.splitSprout number id element) := by
  have hSplit : (Kind.classify element.kind).isSplittable ∧ 1 < (unit.names id).length := by
    simpa [splits, found] using split
  unfold sproutsOf
  simp only [found, namesOf_eq_names found]
  exact if_pos hSplit

theorem sproutsOf_of_not_splits (found : unit.snapshot.get? id = some element)
    (whole : unit.splits id = false) :
    unit.sproutsOf number id =
      [⟨.classify element.kind, element.span.shift unit.source.base, .element number id⟩] := by
  have hWhole : ¬ ((Kind.classify element.kind).isSplittable ∧ 1 < (unit.names id).length) := by
    simpa [splits, found] using whole
  unfold sproutsOf
  simp only [found, namesOf_eq_names found]
  exact if_neg hWhole

/-- Every node of an element is of the kind of the element. -/
theorem kind_of_mem_sproutsOf {sprout : Sprout} (member : sprout ∈ unit.sproutsOf number id) :
    ∃ element, unit.snapshot.get? id = some element ∧ sprout.kind = .classify element.kind := by
  obtain ⟨element, found, rfl | ⟨name, _, rfl⟩⟩ := mem_sproutsOf member
  · exact ⟨element, found, rfl⟩
  · exact ⟨element, found, rfl⟩

end ParsedUnit

namespace Origin

/-- The origin lies at an element of a unit. -/
def isAt (number : UnitId) (id : ElementId) (origin : Origin) : Bool :=
  origin.place? == some (number, id)

theorem unit?_of_place? {origin : Origin} {number : UnitId} {id : ElementId}
    (place : origin.place? = some (number, id)) : origin.unit? = some number := by
  cases origin with
  | package => cases place
  | element => cases place; rfl
  | split => cases place; rfl

end Origin

namespace Forest

variable {forest : Forest} {origin : Origin} {number : UnitId} {unit : ParsedUnit} {id : ElementId}
  {test : Origin → Bool}

/-- Below an element, or below one of its names, every child that is read there sprouts. -/
theorem sprouts_eq_flatMap_kept (place : origin.place? = some (number, id))
    (hUnit : forest.units[number]? = some unit) :
    forest.sprouts origin = (unit.kept origin).flatMap (unit.sproutsOf number) := by
  cases origin with
  | package => cases place
  | element =>
      cases place
      simp [sprouts, hUnit, ParsedUnit.kept]
  | split =>
      cases place
      simp [sprouts, hUnit, ParsedUnit.kept]

/-- What is read below an origin are children of its element. -/
theorem kept_sublist (place : origin.place? = some (number, id)) :
    (unit.kept origin).Sublist (unit.snapshot.children id) := by
  cases origin with
  | package => cases place
  | element =>
      cases place
      exact List.Sublist.refl _
  | split =>
      cases place
      exact List.filter_sublist

/-- A split element sprouts once for each of its names. -/
theorem countP_sproutsOf_name (hUnit : forest.units[number]? = some unit) {name : ElementId}
    (divided : unit.divided id) (named : name ∈ unit.names id) :
    (unit.sproutsOf number id).countP (fun sprout => sprout.origin == .split number id name) = 1 := by
  have hFormed := (forest.wellFormed (List.mem_of_getElem? hUnit)).2
  have hNodup : (unit.names id).Nodup := (hFormed.nodup_children id).filter _
  obtain ⟨element, found, _⟩ := Snapshot.mem_children_iff.mp (List.mem_of_mem_filter named)
  rw [ParsedUnit.sproutsOf_of_splits found (Bool.and_eq_true_iff.mp divided).2, List.countP_map,
    ← List.count_eq_one_of_mem hNodup named, List.count]
  refine List.countP_congr ?_
  intro other _
  simp [ParsedUnit.splitSprout]

theorem countP_sproutsOf_isAt (inner : id ≠ 0) {element : Element}
    (found : unit.snapshot.get? id = some element) :
    (unit.sproutsOf number id).countP (fun sprout => sprout.origin.isAt number id) =
      unit.share id := by
  have hAll : (unit.sproutsOf number id).countP (fun sprout => sprout.origin.isAt number id) =
      (unit.sproutsOf number id).length := by
    refine List.countP_eq_length.mpr ?_
    intro sprout member
    rw [Origin.isAt, ParsedUnit.place?_of_mem_sproutsOf member, beq_self_eq_true]
  have hDivided : unit.divided id = unit.splits id := by simp [ParsedUnit.divided, inner]
  rw [hAll, ParsedUnit.share, hDivided]
  cases hSplit : unit.splits id with
  | true => simp [ParsedUnit.sproutsOf_of_splits found hSplit]
  | false => simp [ParsedUnit.sproutsOf_of_not_splits found hSplit]

/-- Sprouts from elsewhere do not count. -/
theorem countP_eq_zero_of_elsewhere (here : ∀ origin, test origin → origin.place? = some (number, id))
    {sprouts : List Sprout}
    (elsewhere : ∀ sprout ∈ sprouts, sprout.origin.place? ≠ some (number, id)) :
    sprouts.countP (fun sprout => test sprout.origin) = 0 := by
  refine List.countP_eq_zero.mpr ?_
  intro sprout member hTest
  exact elsewhere sprout member (here _ hTest)

/-- The sprouts of an element or of one of its names lie in the same unit and stand for inner
elements. -/
theorem place?_of_mem_sprouts {outer : ElementId} {sprout : Sprout}
    (place : origin.place? = some (number, outer)) (member : sprout ∈ forest.sprouts origin) :
    ∃ child, sprout.origin.place? = some (number, child) ∧ child ≠ 0 := by
  obtain ⟨unit, child, hUnit, listed, hSprout⟩ := of_mem_sprouts place member
  have hFormed := (forest.wellFormed (List.mem_of_getElem? hUnit)).2
  have hBefore := (hFormed.lt_of_lists listed).1
  exact ⟨child, ParsedUnit.place?_of_mem_sproutsOf hSprout, Nat.ne_zero_of_lt hBefore⟩

theorem place?_isSome_of_mem_sprouts {sprout : Sprout} (member : sprout ∈ forest.sprouts origin) :
    sprout.origin.place?.isSome := by
  cases hPlace : origin.place? with
  | none =>
      obtain rfl := Origin.eq_package_of_place? hPlace
      obtain ⟨number, _, _, rfl⟩ := of_mem_sprouts_package member
      rfl
  | some place =>
      obtain ⟨child, hChild, _⟩ := place?_of_mem_sprouts hPlace member
      rw [hChild]
      rfl

/-- Among the sprouts of an origin, those of one inner element are there when the element is read,
and then all of them are. -/
theorem countP_sprouts (hUnit : forest.units[number]? = some unit) (inner : id ≠ 0)
    (here : ∀ origin, test origin → origin.place? = some (number, id)) :
    (forest.sprouts origin).countP (fun sprout => test sprout.origin) =
      if unit.reads number id origin then
        (unit.sproutsOf number id).countP fun sprout => test sprout.origin
      else 0 := by
  cases hPlace : origin.place? with
  | none =>
      obtain rfl := Origin.eq_package_of_place? hPlace
      have hReads : unit.reads number id .package = false := rfl
      rw [hReads]
      refine countP_eq_zero_of_elsewhere here ?_
      intro sprout member hThere
      obtain ⟨other, _, _, rfl⟩ := of_mem_sprouts_package member
      cases hThere
      exact inner rfl
  | some place =>
      obtain ⟨other, outer⟩ := place
      have hNumber := Origin.unit?_of_place? hPlace
      by_cases hSame : other = number
      · subst hSame
        have hFormed := (forest.wellFormed (List.mem_of_getElem? hUnit)).2
        have hNodup : (unit.kept origin).Nodup :=
          (kept_sublist hPlace).nodup (hFormed.nodup_children outer)
        -- the children that are read are counted one by one, and only the element itself counts
        have hOnly := List.sum_map_eq_nsmul_single id
          ((List.countP fun sprout => test sprout.origin) ∘ unit.sproutsOf other)
          (fun child hOther (_ : child ∈ unit.kept origin) => by
            refine countP_eq_zero_of_elsewhere here ?_
            intro sprout member hThere
            rw [ParsedUnit.place?_of_mem_sproutsOf member] at hThere
            cases hThere
            exact hOther rfl)
        rw [sprouts_eq_flatMap_kept hPlace hUnit, List.countP_flatMap, hOnly]
        by_cases hRead : id ∈ unit.kept origin
        · simp [ParsedUnit.reads, hNumber, hRead, List.count_eq_one_of_mem hNodup hRead]
        · simp [ParsedUnit.reads, hNumber, hRead, List.count_eq_zero_of_not_mem hRead]
      · have hReads : unit.reads number id origin = false := by
          simp [ParsedUnit.reads, hNumber, hSame]
        rw [hReads]
        refine countP_eq_zero_of_elsewhere here ?_
        intro sprout member hThere
        obtain ⟨child, hChild, _⟩ := place?_of_mem_sprouts hPlace member
        rw [hChild] at hThere
        cases hThere
        exact hSame rfl

/-- The roots of the units sprout from the package, each of them once, and from nothing else. -/
theorem countP_sprouts_root (hUnit : forest.units[number]? = some unit) :
    (forest.sprouts origin).countP (fun sprout => sprout.origin.isAt number 0) =
      if origin == .package then 1 else 0 := by
  cases hPlace : origin.place? with
  | none =>
      obtain rfl := Origin.eq_package_of_place? hPlace
      have hCount : (forest.sprouts .package).countP (fun sprout => sprout.origin.isAt number 0) =
          (forest.units.zipIdx.map Prod.snd).count number := by
        rw [sprouts, List.countP_map, List.count, List.countP_map]
        refine List.countP_congr ?_
        intro entry _
        simp [ParsedUnit.rootSprout, Origin.isAt, Origin.place?]
      have hRange : forest.units.zipIdx.map Prod.snd = List.range forest.units.length := by
        rw [List.zipIdx_map_snd, List.range_eq_range']
      have hMember : number ∈ List.range forest.units.length :=
        List.mem_range.mpr (List.getElem?_eq_some_iff.mp hUnit).1
      rw [hCount, hRange, List.count_eq_one_of_mem List.nodup_range hMember]
      rfl
  | some place =>
      have hOther : (origin == .package) = false := by
        refine beq_eq_false_iff_ne.mpr ?_
        rintro rfl
        cases hPlace
      rw [hOther]
      refine List.countP_eq_zero.mpr ?_
      intro sprout member hRoot
      obtain ⟨child, hChild, hInner⟩ := place?_of_mem_sprouts hPlace member
      rw [Origin.isAt, hChild, beq_iff_eq] at hRoot
      cases hRoot
      exact hInner rfl

/-- Only what is split has nodes for single names, and it has no others. -/
def Faithful (forest : Forest) : Origin → Prop
  | .package => True
  | .element number id => ∀ unit, forest.units[number]? = some unit → unit.divided id = false
  | .split number id name => ∀ unit, forest.units[number]? = some unit →
      unit.divided id ∧ name ∈ unit.names id

theorem faithful_of_mem_sproutsOf (hUnit : forest.units[number]? = some unit) (inner : id ≠ 0)
    {sprout : Sprout} (member : sprout ∈ unit.sproutsOf number id) :
    forest.Faithful sprout.origin := by
  obtain ⟨element, found, _⟩ := ParsedUnit.mem_sproutsOf member
  have hDivided : unit.divided id = unit.splits id := by simp [ParsedUnit.divided, inner]
  cases hSplit : unit.splits id with
  | true =>
      rw [ParsedUnit.sproutsOf_of_splits found hSplit] at member
      obtain ⟨name, hName, rfl⟩ := List.mem_map.mp member
      rintro other hOther
      obtain rfl := Option.some.inj (hUnit.symm.trans hOther)
      exact ⟨hDivided.trans hSplit, hName⟩
  | false =>
      rw [ParsedUnit.sproutsOf_of_not_splits found hSplit] at member
      obtain rfl := List.mem_singleton.mp member
      rintro other hOther
      obtain rfl := Option.some.inj (hUnit.symm.trans hOther)
      exact hDivided.trans hSplit

theorem faithful_of_mem_sprouts {sprout : Sprout} (member : sprout ∈ forest.sprouts origin) :
    forest.Faithful sprout.origin := by
  cases hPlace : origin.place? with
  | none =>
      obtain rfl := Origin.eq_package_of_place? hPlace
      obtain ⟨number, unit, hUnit, rfl⟩ := of_mem_sprouts_package member
      exact fun other _ => rfl
  | some place =>
      obtain ⟨unit, child, hUnit, listed, hSprout⟩ := of_mem_sprouts hPlace member
      have hFormed := (forest.wellFormed (List.mem_of_getElem? hUnit)).2
      have hInner : child ≠ 0 := Nat.ne_zero_of_lt (hFormed.lt_of_lists listed).1
      exact faithful_of_mem_sproutsOf hUnit hInner hSprout

/-- A child is read by the nodes of its lister. A name is read by one of the nodes that its lister is
split into, and everything else by all of them. -/
theorem reads_iff (hUnit : forest.units[number]? = some unit) (faithful : forest.Faithful origin)
    {child : ElementId} (lists : unit.snapshot.Lists id child) :
    unit.reads number child origin ↔
      origin.isAt number id ∧
        (unit.divided id → unit.isName child → origin = .split number id child) := by
  have hFormed := (forest.wellFormed (List.mem_of_getElem? hUnit)).2
  cases origin with
  | package => simp [ParsedUnit.reads, Origin.unit?, Origin.isAt, Origin.place?]
  | element other outer =>
      simp only [ParsedUnit.reads, Origin.unit?, ParsedUnit.kept, Origin.isAt, Origin.place?,
        Bool.and_eq_true, beq_iff_eq, List.contains_iff_mem, Option.some.injEq, Prod.mk.injEq]
      constructor
      · rintro ⟨rfl, hListed⟩
        obtain rfl := hFormed.lister_unique hListed lists
        refine ⟨⟨rfl, rfl⟩, fun hDivided => ?_⟩
        rw [faithful unit hUnit] at hDivided
        cases hDivided
      · rintro ⟨⟨rfl, rfl⟩, _⟩
        exact ⟨rfl, lists⟩
  | split other outer name =>
      simp only [ParsedUnit.reads, Origin.unit?, ParsedUnit.kept, Origin.isAt, Origin.place?,
        Bool.and_eq_true, beq_iff_eq, List.contains_iff_mem, Option.some.injEq, Prod.mk.injEq,
        List.mem_filter, Bool.or_eq_true, Bool.not_eq_true']
      constructor
      · rintro ⟨rfl, hListed, hKept⟩
        obtain rfl := hFormed.lister_unique hListed lists
        refine ⟨⟨rfl, rfl⟩, fun _ hName => ?_⟩
        rcases hKept with rfl | hOther
        · rfl
        · rw [hOther] at hName
          cases hName
      · rintro ⟨⟨rfl, rfl⟩, hOnly⟩
        refine ⟨rfl, lists, ?_⟩
        cases hName : unit.isName child with
        | false => exact .inr rfl
        | true =>
            have hSame := hOnly (faithful unit hUnit).1 hName
            exact .inl (Origin.split.inj hSame).2.2.symm

/-- The root of the tree is the package, or the root of the only unit. -/
theorem rootSprout_origin (forest : Forest) :
    (forest.package.isSome ∧ forest.rootSprout.origin = .package) ∨
      forest.package = none ∧ forest.rootSprout.origin = .element 0 0 := by
  cases hPackage : forest.package with
  | some package => exact .inl ⟨rfl, by simp [rootSprout, hPackage]⟩
  | none =>
      have hOne := forest.standalone hPackage
      cases hUnits : forest.units with
      | nil => simp [hUnits] at hOne
      | cons unit rest =>
          exact .inr ⟨rfl, by simp [rootSprout, hPackage, hUnits, ParsedUnit.rootSprout]⟩

theorem of_place?_rootSprout (place : forest.rootSprout.origin.place? = some (number, id)) :
    forest.package = none ∧ number = 0 ∧ id = 0 := by
  rcases forest.rootSprout_origin with ⟨_, hOrigin⟩ | ⟨hPackage, hOrigin⟩
  · rw [hOrigin] at place
    cases place
  · rw [hOrigin] at place
    cases place
    exact ⟨hPackage, rfl, rfl⟩

/-- A sprout at an element: the element is the root of a unit, below the package, or it is listed by
the element above. -/
theorem sprout_cases {sprout : Sprout} (member : sprout ∈ forest.sprouts origin)
    (place : sprout.origin.place? = some (number, id)) :
    ∃ unit, forest.units[number]? = some unit ∧ (id = 0 ∨
      ∃ lister, origin.place? = some (number, lister) ∧ unit.snapshot.Lists lister id) := by
  cases hPlace : origin.place? with
  | none =>
      obtain rfl := Origin.eq_package_of_place? hPlace
      obtain ⟨_, unit, hUnit, rfl⟩ := of_mem_sprouts_package member
      cases place
      exact ⟨unit, hUnit, .inl rfl⟩
  | some spot =>
      obtain ⟨_, lister⟩ := spot
      obtain ⟨unit, child, hUnit, lists, hSprout⟩ := of_mem_sprouts hPlace member
      rw [ParsedUnit.place?_of_mem_sproutsOf hSprout] at place
      cases place
      exact ⟨unit, hUnit, .inr ⟨lister, rfl, lists⟩⟩

end Forest

end SyntaxAtlas
