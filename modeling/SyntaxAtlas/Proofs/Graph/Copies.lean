import Mathlib.Algebra.BigOperators.Group.List.Basic
import Mathlib.Algebra.Ring.Nat
import SyntaxAtlas.Proofs.Graph.Completion
import SyntaxAtlas.Proofs.Graph.Nesting
import SyntaxAtlas.Proofs.Graph.Sprouting

/-! How many nodes an element gets. An element is wrapped once for each node that reads it, and gets
one node, or one for each of its names, every time it is wrapped. A node that stands for one name of
a declaration does not read the other names, so that splits inside each other multiply what they
share and nothing else. Only elements that are reached from the root of their unit get nodes. -/
namespace SyntaxAtlas

namespace ParsedUnit

/-- How often an element is wrapped, told by its lister. An element that nobody lists is not. -/
def wraps (unit : ParsedUnit) (id : ElementId) : Nat :=
  if id = 0 then
    1
  else
    match unit.snapshot.lister? id with
    | none => 0
    | some lister =>
      if lister < id then
        if unit.divided lister && unit.isName id then unit.wraps lister
        else unit.share lister * unit.wraps lister
      else
        0
termination_by id

/-- The number of nodes of an element. -/
def copies (unit : ParsedUnit) (id : ElementId) : Nat :=
  unit.share id * unit.wraps id

/-- How often elements are wrapped and copied, from the root down. -/
structure Multiplicities (unit : ParsedUnit) (wraps copies : ElementId → Nat) : Prop where
  root : wraps 0 = 1 ∧ copies 0 = 1
  copied : ∀ id, id ≠ 0 →
    copies id = if unit.splits id then (unit.names id).length * wraps id else wraps id
  wrapped : ∀ id child, unit.snapshot.Lists id child →
    wraps child = if id ≠ 0 ∧ unit.splits id ∧ unit.isName child then wraps id else copies id

variable {unit : ParsedUnit} {id child : ElementId} {textLength : Nat}

theorem one_le_share (unit : ParsedUnit) (id : ElementId) : 1 ≤ unit.share id := by
  unfold share divided splits
  split_ifs with hDivided
  · simp only [Bool.and_eq_true, Option.any_eq_true, decide_eq_true_eq] at hDivided
    obtain ⟨_, _, _, _, hSeveral⟩ := hDivided
    exact Nat.le_of_lt hSeveral
  · exact Nat.le_refl 1

theorem wraps_root (unit : ParsedUnit) : unit.wraps 0 = 1 := by
  rw [wraps, if_pos rfl]

theorem copies_root (unit : ParsedUnit) : unit.copies 0 = 1 := by
  simp [copies, share, divided, wraps_root]

theorem wraps_of_lists (h : unit.snapshot.WellFormed textLength)
    (lists : unit.snapshot.Lists id child) :
    unit.wraps child =
      if unit.divided id && unit.isName child then unit.wraps id else unit.copies id := by
  have hBefore := (h.lt_of_lists lists).1
  have hInner : child ≠ 0 := Nat.ne_zero_of_lt hBefore
  rw [wraps, if_neg hInner, h.branching.lister?_eq_some_iff.mpr lists]
  simp only [if_pos hBefore, copies]

theorem multiplicities (h : unit.snapshot.WellFormed textLength) :
    unit.Multiplicities unit.wraps unit.copies where
  root := ⟨unit.wraps_root, unit.copies_root⟩
  copied id inner := by
    have hDivided : unit.divided id = unit.splits id := by simp [divided, inner]
    rw [copies, share, hDivided]
    split_ifs
    · rfl
    · exact Nat.one_mul _
  wrapped id child lists := by
    rw [wraps_of_lists h lists]
    simp [divided, and_assoc]

/-- Whatever is reached is wrapped and gets a node. -/
theorem one_le_copies (h : unit.snapshot.WellFormed textLength) (reached : unit.snapshot.Reached id) :
    1 ≤ unit.wraps id ∧ 1 ≤ unit.copies id := by
  have hCopies : ∀ other, 1 ≤ unit.wraps other → 1 ≤ unit.copies other := fun other hWraps =>
    Nat.mul_le_mul (unit.one_le_share other) hWraps
  suffices hWraps : 1 ≤ unit.wraps id from ⟨hWraps, hCopies id hWraps⟩
  induction reached with
  | refl => exact Nat.le_of_eq unit.wraps_root.symm
  | tail _ lists ih =>
      rw [wraps_of_lists h lists]
      split_ifs
      · exact ih
      · exact hCopies _ ih

theorem copies_eq_zero (h : unit.snapshot.WellFormed textLength)
    (unreached : ¬ unit.snapshot.Reached id) : unit.copies id = 0 := by
  suffices hWraps : unit.wraps id = 0 by rw [copies, hWraps, Nat.mul_zero]
  induction id using Nat.strongRecOn with
  | ind id ih =>
      have hInner : id ≠ 0 := by
        rintro rfl
        exact unreached unit.snapshot.reached_root
      cases hLister : unit.snapshot.lister? id with
      | none =>
          rw [wraps, if_neg hInner, hLister]
      | some lister =>
          have lists := h.branching.lister?_eq_some_iff.mp hLister
          have hZero : unit.wraps lister = 0 :=
            ih lister (h.lt_of_lists lists).1 fun reached => unreached (reached.tail lists)
          rw [wraps_of_lists h lists, copies, hZero]
          simp

/-- Where nothing is split on the way down there is one node. -/
theorem copies_eq_one (h : unit.snapshot.WellFormed textLength) (reached : unit.snapshot.Reached id)
    (whole : ∀ upper, unit.snapshot.Above upper id → unit.divided upper = false) :
    unit.copies id = 1 := by
  have hShare : ∀ upper, unit.snapshot.Above upper id → unit.share upper = 1 := by
    intro upper above
    rw [share, whole upper above]
    rfl
  suffices hWraps : unit.wraps id = 1 by
    rw [copies, hWraps, hShare id .refl]
  induction reached with
  | refl => exact unit.wraps_root
  | @tail lister id _ lists ih =>
      have hUpper : ∀ upper, unit.snapshot.Above upper lister → unit.snapshot.Above upper id :=
        fun upper above => Relation.ReflTransGen.tail above lists
      have hLister : unit.wraps lister = 1 :=
        ih (fun upper above => whole upper (hUpper upper above))
          (fun upper above => hShare upper (hUpper upper above))
      rw [wraps_of_lists h lists, whole lister (hUpper lister .refl), copies, hLister,
        hShare lister (hUpper lister .refl)]
      rfl

end ParsedUnit

section Sums

variable {α β : Type}

theorem sum_map_ite_const (items : List α) (test : α → Bool) (amount : Nat) :
    (items.map fun item => if test item then amount else 0).sum = items.countP test * amount := by
  induction items with
  | nil => simp
  | cons item items ih =>
      cases hTest : test item with
      | true => simp [hTest, ih, Nat.add_mul, Nat.add_comm]
      | false => simp [hTest, ih]

/-- Items with keys from a list without repetitions, counted key by key. -/
theorem sum_map_countP_eq_length [BEq β] [LawfulBEq β] {keys : List β} (nodup : keys.Nodup)
    {items : List α} {key : α → β} (listed : ∀ item ∈ items, key item ∈ keys) :
    (keys.map fun other => items.countP fun item => key item == other).sum = items.length := by
  induction items with
  | nil => simp
  | cons item items ih =>
      have hHead : (keys.map fun other => if key item == other then 1 else 0).sum = 1 := by
        have hOnce := sum_map_ite_const keys (fun other => key item == other) 1
        have hCount : keys.countP (fun other => key item == other) = keys.count (key item) := by
          rw [List.count]
          refine List.countP_congr ?_
          intro other _
          rw [beq_iff_eq, beq_iff_eq, eq_comm]
        rw [hOnce, hCount, List.count_eq_one_of_mem nodup (listed item List.mem_cons_self)]
      have hTail := ih fun other member => listed other (List.mem_cons_of_mem item member)
      simp only [List.countP_cons, List.sum_map_add, hTail, hHead, List.length_cons]

end Sums

namespace Forest

variable {forest : Forest} {origin : Origin} {sprout : Sprout}

/-- The element of an origin is reached from the root of its unit. -/
def Grounded (forest : Forest) (origin : Origin) : Prop :=
  ∀ number id, origin.place? = some (number, id) →
    ∃ unit, forest.units[number]? = some unit ∧ unit.snapshot.Reached id

theorem Grounded.of_mem_sprouts (grounded : forest.Grounded origin)
    (member : sprout ∈ forest.sprouts origin) : forest.Grounded sprout.origin := by
  intro number id place
  obtain ⟨unit, hUnit, rfl | ⟨lister, hPlace, lists⟩⟩ := sprout_cases member place
  · exact ⟨unit, hUnit, unit.snapshot.reached_root⟩
  · obtain ⟨other, hOther, hReached⟩ := grounded number lister hPlace
    obtain rfl := Option.some.inj (hUnit.symm.trans hOther)
    exact ⟨unit, hUnit, hReached.tail lists⟩

theorem grounded_rootSprout (forest : Forest) : forest.Grounded forest.rootSprout.origin := by
  intro number id place
  obtain ⟨hPackage, rfl, rfl⟩ := of_place?_rootSprout place
  have hFirst : 0 < forest.units.length := by
    rw [forest.standalone hPackage]
    exact Nat.one_pos
  exact ⟨_, List.getElem?_eq_getElem hFirst, Snapshot.reached_root _⟩

/-- Where nodes can come from: the package, and the elements of every unit. -/
def places (forest : Forest) : List (Option (UnitId × ElementId)) :=
  none :: forest.units.zipIdx.flatMap fun (unit, number) =>
    (List.range unit.snapshot.size).map fun id => some (number, id)

theorem nodup_places (forest : Forest) : forest.places.Nodup := by
  refine List.nodup_cons.mpr ⟨by simp, List.nodup_flatMap.mpr ⟨?_, ?_⟩⟩
  · rintro ⟨unit, number⟩ _
    refine List.nodup_range.map ?_
    intro first second hSame
    cases hSame
    rfl
  · have hNumbers : (forest.units.zipIdx.map Prod.snd).Nodup := by
      rw [List.zipIdx_map_snd]
      exact List.nodup_range'
    refine (List.pairwise_map.mp hNumbers).imp ?_
    rintro ⟨_, left⟩ ⟨_, right⟩ hOther place inLeft inRight
    obtain ⟨_, _, rfl⟩ := List.mem_map.mp inLeft
    obtain ⟨_, _, hPlace⟩ := List.mem_map.mp inRight
    cases hPlace
    exact hOther rfl

theorem Grounded.mem_places (grounded : forest.Grounded origin) :
    origin.place? ∈ forest.places := by
  cases hPlace : origin.place? with
  | none => exact List.mem_cons_self
  | some place =>
      obtain ⟨number, id⟩ := place
      obtain ⟨unit, hUnit, hReached⟩ := grounded number id hPlace
      have hFormed := forest.wellFormed (List.mem_of_getElem? hUnit)
      refine List.mem_cons_of_mem _ (List.mem_flatMap.mpr ⟨(unit, number), ?_, ?_⟩)
      · exact List.mk_mem_zipIdx_iff_getElem?.mpr hUnit
      · have hInside := hFormed.2.lt_size_of_reached hFormed.1 hReached
        exact List.mem_map.mpr ⟨id, List.mem_range.mpr hInside, rfl⟩

/-- The sum over all units and elements of what each element counts for. -/
def sumCopies (forest : Forest) : Nat :=
  (forest.units.map fun unit => ((List.range unit.snapshot.size).map unit.copies).sum).sum

end Forest

namespace Arena

/-- The number of nodes that stand for an element, or for one of its names. -/
def nodesOf (arena : Arena) (number : UnitId) (id : ElementId) : Nat :=
  arena.tally (Origin.isAt number id)

theorem tally_congr {arena : Arena} {first second : Origin → Bool}
    (same : ∀ id, id < arena.size → (first (arena.origin id) ↔ second (arena.origin id))) :
    arena.tally first = arena.tally second := by
  refine List.countP_congr ?_
  intro id member
  exact same id (List.mem_range.mp member)

namespace WellNumbered

variable {forest : Forest} {arena : Arena} {number : UnitId} {unit : ParsedUnit}
  {id child : ElementId}

/-- What holds of the origin of the root and is handed down by sprouting holds of the origin of every
node. -/
theorem origin_induction (h : arena.WellNumbered forest) {good : Origin → Prop}
    (first : good forest.rootSprout.origin)
    (step : ∀ origin sprout, good origin → sprout ∈ forest.sprouts origin → good sprout.origin)
    {node : NodeId} (known : node < arena.size) : good (arena.origin node) := by
  induction node using Nat.strongRecOn with
  | ind node ih =>
      by_cases hRoot : node = Arena.root
      · rw [hRoot, h.root.origin]
        exact first
      · obtain ⟨parent, ids, hParent, hChildren, member, above⟩ := h.exists_parent known hRoot
        obtain ⟨sprout, hSprout, hShows⟩ := h.exists_sprout above
        have hBefore := (h.of_mem_children hParent hChildren member).1
        rw [hShows.origin]
        exact step _ sprout (ih parent hBefore hParent) hSprout

theorem faithful (h : arena.WellNumbered forest) {node : NodeId} (known : node < arena.size) :
    forest.Faithful (arena.origin node) := by
  refine h.origin_induction ?_ (fun _ _ _ member => Forest.faithful_of_mem_sprouts member) known
  rcases forest.rootSprout_origin with ⟨_, hOrigin⟩ | ⟨_, hOrigin⟩
  · rw [hOrigin]
    trivial
  · rw [hOrigin]
    exact fun other _ => rfl

/-- Nodes stand for elements that are reached from the root of their unit. -/
theorem grounded (h : arena.WellNumbered forest) {node : NodeId} (known : node < arena.size) :
    forest.Grounded (arena.origin node) :=
  h.origin_induction forest.grounded_rootSprout
    (fun _ _ hOrigin member => hOrigin.of_mem_sprouts member) known

/-- Above the node of an inner element is a node of the element that lists it. -/
theorem exists_parent_of_place (h : arena.WellNumbered forest)
    (hUnit : forest.units[number]? = some unit) {node : NodeId} (known : node < arena.size)
    (place : (arena.origin node).place? = some (number, child)) (inner : child ≠ 0) :
    ∃ parent lister, arena.parent? node = some parent ∧
      (arena.origin parent).place? = some (number, lister) ∧ unit.snapshot.Lists lister child := by
  have hNotRoot : node ≠ Arena.root := by
    rintro rfl
    rw [h.root.origin] at place
    exact inner (Forest.of_place?_rootSprout place).2.2
  obtain ⟨parent, _, _, _, _, above⟩ := h.exists_parent known hNotRoot
  obtain ⟨sprout, member, hShows⟩ := h.exists_sprout above
  rw [hShows.origin] at place
  obtain ⟨other, hOther, hRoot | ⟨lister, hPlace, lists⟩⟩ := Forest.sprout_cases member place
  · exact absurd hRoot inner
  · obtain rfl := Option.some.inj (hUnit.symm.trans hOther)
    exact ⟨parent, lister, above, hPlace, lists⟩

section Counts

variable (h : arena.WellNumbered forest) (complete : arena.Complete)
  (hUnit : forest.units[number]? = some unit)

include h complete hUnit

/-- Nodes of one kind at an inner element: the element brings its share of them every time it is
read. -/
theorem tally_inner (inner : id ≠ 0) {test : Origin → Bool}
    (here : ∀ origin, test origin → origin.place? = some (number, id)) :
    arena.tally test = arena.tally (unit.reads number id) *
      (unit.sproutsOf number id).countP fun sprout => test sprout.origin := by
  have hRoot : test forest.rootSprout.origin = false :=
    Bool.eq_false_iff.mpr fun hTest => inner (Forest.of_place?_rootSprout (here _ hTest)).2.2
  have hEach : ∀ node, (forest.sprouts (arena.origin node)).countP
        (fun sprout => test sprout.origin) =
      if unit.reads number id (arena.origin node) then
        (unit.sproutsOf number id).countP fun sprout => test sprout.origin
      else 0 := fun node => Forest.countP_sprouts hUnit inner here
  rw [h.tally_eq complete, hRoot]
  simp only [hEach, Bool.false_eq_true, if_false, Nat.zero_add, tally]
  exact sum_map_ite_const _ (fun node => unit.reads number id (arena.origin node)) _

omit hUnit in
/-- Nothing sprouts into a package, so that it has a node only when it is the root. -/
theorem tally_package :
    arena.tally (· == .package) = if forest.package.isSome then 1 else 0 := by
  have hNone : ∀ node, (forest.sprouts (arena.origin node)).countP
      (fun sprout => sprout.origin == .package) = 0 := by
    intro node
    refine List.countP_eq_zero.mpr ?_
    intro sprout member hOrigin
    have hPlace := Forest.place?_isSome_of_mem_sprouts member
    rw [beq_iff_eq.mp hOrigin] at hPlace
    cases hPlace
  rw [h.tally_eq complete]
  rcases forest.rootSprout_origin with ⟨hPackage, hOrigin⟩ | ⟨hPackage, hOrigin⟩
  · simp [hNone, hOrigin, hPackage]
  · simp [hNone, hOrigin, hPackage]

/-- The root of a unit has one node. -/
theorem nodesOf_root : arena.nodesOf number 0 = 1 := by
  have hSum := sum_map_ite_const (List.range arena.size)
    (fun node => arena.origin node == .package) 1
  have hPackage := h.tally_package complete
  rw [tally] at hPackage
  rw [nodesOf, h.tally_eq complete]
  simp only [Forest.countP_sprouts_root hUnit, hSum, hPackage, Nat.mul_one]
  rcases forest.rootSprout_origin with ⟨hSome, hOrigin⟩ | ⟨hNone, hOrigin⟩
  · simp [hOrigin, hSome, Origin.isAt, Origin.place?]
  · have hPlace := (List.getElem?_eq_some_iff.mp hUnit).1
    rw [forest.standalone hNone] at hPlace
    have hFirst : number = 0 := Nat.lt_one_iff.mp hPlace
    simp [hOrigin, hNone, hFirst, Origin.isAt, Origin.place?]

/-- An inner element gets its share of nodes every time it is read. -/
theorem nodesOf_inner (inner : id ≠ 0) {element : Element}
    (found : unit.snapshot.get? id = some element) :
    arena.nodesOf number id = unit.share id * arena.tally (unit.reads number id) := by
  have hHere : ∀ origin, Origin.isAt number id origin → origin.place? = some (number, id) :=
    fun _ hAt => beq_iff_eq.mp hAt
  rw [nodesOf, h.tally_inner complete hUnit inner hHere, Forest.countP_sproutsOf_isAt inner found,
    Nat.mul_comm]

/-- A child is read as often as its lister has nodes; but a name below a split element only as often
as that element is read. -/
theorem tally_reads (lists : unit.snapshot.Lists id child) :
    arena.tally (unit.reads number child) =
      if unit.divided id && unit.isName child then arena.tally (unit.reads number id)
      else arena.nodesOf number id := by
  have hReads : ∀ node, node < arena.size → (unit.reads number child (arena.origin node) ↔
      (arena.origin node).isAt number id ∧ (unit.divided id → unit.isName child →
        arena.origin node = .split number id child)) :=
    fun node known => Forest.reads_iff hUnit (h.faithful known) lists
  split_ifs with hBoth
  -- one of the nodes of a split element reads the name, and one of them is made at every reading
  · obtain ⟨divided, named⟩ := Bool.and_eq_true_iff.mp hBoth
    have hInner : id ≠ 0 := bne_iff_ne.mp (Bool.and_eq_true_iff.mp divided).1
    have hSame : arena.tally (unit.reads number child) =
        arena.tally (· == .split number id child) := by
      refine tally_congr ?_
      intro node known
      rw [hReads node known, beq_iff_eq]
      refine ⟨fun hBelow => hBelow.2 divided named, fun hOrigin => ⟨?_, fun _ _ => hOrigin⟩⟩
      rw [hOrigin, Origin.isAt, Origin.place?, beq_self_eq_true]
    have hName : child ∈ unit.names id := List.mem_filter.mpr ⟨lists, named⟩
    rw [hSame, h.tally_inner complete hUnit hInner, Forest.countP_sproutsOf_name hUnit divided hName,
      Nat.mul_one]
    intro origin hOrigin
    rw [beq_iff_eq.mp hOrigin, Origin.place?]
  · refine tally_congr ?_
    intro node known
    rw [hReads node known]
    refine ⟨And.left, fun hAt => ⟨hAt, fun divided named => ?_⟩⟩
    exact absurd (Bool.and_eq_true_iff.mpr ⟨divided, named⟩) hBoth

/-- An element that is reached has as many nodes as its copies are counted. The induction goes down
from the root and carries along how often an element is read. -/
theorem nodesOf_reached (reached : unit.snapshot.Reached id) :
    arena.nodesOf number id = unit.copies id := by
  have hFormed := (forest.wellFormed (List.mem_of_getElem? hUnit)).2
  suffices hBoth : arena.nodesOf number id = unit.copies id ∧
      (id ≠ 0 → arena.tally (unit.reads number id) = unit.wraps id) from hBoth.1
  induction reached with
  | refl => exact ⟨(h.nodesOf_root complete hUnit).trans unit.copies_root.symm, absurd rfl⟩
  | @tail lister id _ lists ih =>
      obtain ⟨hBefore, hExists⟩ := hFormed.lt_of_lists lists
      have hInner : id ≠ 0 := Nat.ne_zero_of_lt hBefore
      obtain ⟨element, found⟩ := Snapshot.exists_get?_of_lt hExists
      have hReads : arena.tally (unit.reads number id) = unit.wraps id := by
        rw [h.tally_reads complete hUnit lists, ParsedUnit.wraps_of_lists hFormed lists, ih.1]
        split_ifs with hName
        · have hDivided := (Bool.and_eq_true_iff.mp hName).1
          exact ih.2 (bne_iff_ne.mp (Bool.and_eq_true_iff.mp hDivided).1)
        · rfl
      refine ⟨?_, fun _ => hReads⟩
      rw [h.nodesOf_inner complete hUnit hInner found, hReads, ParsedUnit.copies]

omit complete in
theorem nodesOf_unreached (unreached : ¬ unit.snapshot.Reached id) :
    arena.nodesOf number id = 0 := by
  refine List.countP_eq_zero.mpr ?_
  intro node member hAt
  obtain ⟨other, hOther, hReached⟩ :=
    h.grounded (List.mem_range.mp member) number id (beq_iff_eq.mp hAt)
  obtain rfl := Option.some.inj (hUnit.symm.trans hOther)
  exact unreached hReached

/-- Every element has as many nodes as its copies are counted. -/
theorem nodesOf_eq_copies (id : ElementId) : arena.nodesOf number id = unit.copies id := by
  have hFormed := (forest.wellFormed (List.mem_of_getElem? hUnit)).2
  by_cases hReached : unit.snapshot.Reached id
  · exact h.nodesOf_reached complete hUnit hReached
  · rw [h.nodesOf_unreached hUnit hReached, ParsedUnit.copies_eq_zero hFormed hReached]

omit hUnit in
/-- All nodes are counted by counting those of every place. -/
theorem size_eq :
    arena.size = (if forest.package.isSome then 1 else 0) + forest.sumCopies := by
  have hKeys : ∀ node ∈ List.range arena.size, (arena.origin node).place? ∈ forest.places :=
    fun node member => (h.grounded (List.mem_range.mp member)).mem_places
  have hCount := sum_map_countP_eq_length forest.nodup_places hKeys
  have hPackage : (List.range arena.size).countP (fun node => (arena.origin node).place? == none) =
      arena.tally (· == .package) := by
    refine List.countP_congr ?_
    intro node _
    cases arena.origin node <;> simp [Origin.place?]
  -- a count for every unit and number becomes one for every unit
  have hUnits : (forest.units.zipIdx.map fun entry => ((List.range entry.1.snapshot.size).map
        fun id => arena.nodesOf entry.2 id).sum) =
      forest.units.map fun unit => ((List.range unit.snapshot.size).map unit.copies).sum := by
    rw [← List.zipIdx_map_fst 0 forest.units, List.map_map, List.zipIdx_map_fst]
    refine List.map_congr_left ?_
    rintro ⟨unit, number⟩ member
    refine congrArg List.sum (List.map_congr_left ?_)
    intro id _
    exact h.nodesOf_eq_copies complete (List.mk_mem_zipIdx_iff_getElem?.mp member) id
  rw [List.length_range] at hCount
  rw [← hCount, Forest.places, List.map_cons, List.sum_cons, hPackage, h.tally_package complete,
    List.map_flatMap, List.flatMap_def, List.sum_flatten, Forest.sumCopies, ← hUnits]
  simp only [List.map_map]
  rfl

end Counts

end WellNumbered

/-- The nodes of an arena show the elements of a unit: all that are reached and no others, as often as
their copies are counted, and each below a node of its lister. -/
structure Renders (arena : Arena) (number : UnitId) (unit : ParsedUnit) : Prop where
  counted : ∀ id, unit.snapshot.Reached id →
    arena.nodesOf number id = unit.copies id ∧ 1 ≤ arena.nodesOf number id
  unreached : ∀ id, ¬ unit.snapshot.Reached id →
    arena.nodesOf number id = 0 ∧ unit.copies id = 0
  single : ∀ id, unit.snapshot.Reached id →
    (∀ upper, unit.snapshot.Above upper id → unit.divided upper = false) →
    arena.nodesOf number id = 1
  placed : ∀ node child, node < arena.size →
    (arena.origin node).place? = some (number, child) → child ≠ 0 →
    ∃ parent lister, arena.parent? node = some parent ∧
      (arena.origin parent).place? = some (number, lister) ∧ unit.snapshot.Lists lister child

theorem WellNumbered.renders {forest : Forest} {arena : Arena} (h : arena.WellNumbered forest)
    (complete : arena.Complete) {number : UnitId} {unit : ParsedUnit}
    (hUnit : forest.units[number]? = some unit) : arena.Renders number unit := by
  have hFormed := (forest.wellFormed (List.mem_of_getElem? hUnit)).2
  have hCopies := h.nodesOf_eq_copies complete hUnit
  refine ⟨?_, ?_, ?_, ?_⟩
  · intro id reached
    rw [hCopies]
    exact ⟨rfl, (ParsedUnit.one_le_copies hFormed reached).2⟩
  · intro id unreached
    rw [hCopies]
    exact ⟨ParsedUnit.copies_eq_zero hFormed unreached, ParsedUnit.copies_eq_zero hFormed unreached⟩
  · intro id reached whole
    rw [hCopies, ParsedUnit.copies_eq_one hFormed reached whole]
  · intro node child known place inner
    exact h.exists_parent_of_place hUnit known place inner

end Arena

/-- Asking for everything, after any history, loses no element and makes up none; the answer is the
sum of all copies, with the package. Whatever is asked afterwards makes no more nodes. -/
theorem Reachable.materializeAll_renders {forest : Forest} {session later : Session}
    (reached : Reachable forest session)
    (leads : Leads forest (forest.materializeAll.run session).2 later) :
    (forest.materializeAll.run session).1 =
        (if forest.package.isSome then 1 else 0) + forest.sumCopies ∧
      ∀ number unit, forest.units[number]? = some unit →
        unit.Multiplicities unit.wraps unit.copies ∧ later.arena.Renders number unit := by
  have hAll : session.Yields forest .all forest.materializeAll
      (fun later total => later.arena.Complete ∧ total = later.arena.size) :=
    Session.materializeAll_completes reached.sound
  obtain ⟨complete, hTotal⟩ := hAll.answer
  obtain ⟨hSound, hKeeps⟩ := leads.sound_extends hAll.sound
  have hComplete := complete.keep hAll.sound.arena hSound.arena hKeeps.arena
  refine ⟨?_, ?_⟩
  · rw [hTotal, hAll.sound.arena.size_eq complete]
  · intro number unit hUnit
    have hFormed := (forest.wellFormed (List.mem_of_getElem? hUnit)).2
    exact ⟨ParsedUnit.multiplicities hFormed, hSound.arena.renders hComplete hUnit⟩

namespace Sample

/-- A function with two parameters, the type of which declares two parameters itself. -/
def nestedUnit : ParsedUnit where
  source := ⟨"a.go", 0, "func f(a,b func(c,d int))\x7b\x7d"⟩
  snapshot := ⟨#[
    { kind := "source_file", span := ⟨0, 27⟩, children := [1] },
    { kind := "function_declaration", span := ⟨0, 27⟩, children := [2, 3, 13] },
    { kind := "identifier", span := ⟨5, 6⟩, field := some "name" },
    { kind := "parameter_list", span := ⟨6, 25⟩, field := some "parameters", children := [4] },
    { kind := "parameter_declaration", span := ⟨7, 24⟩, children := [5, 6, 7] },
    { kind := "identifier", span := ⟨7, 8⟩, field := some "name" },
    { kind := "identifier", span := ⟨9, 10⟩, field := some "name" },
    { kind := "function_type", span := ⟨11, 24⟩, field := some "type", children := [8] },
    { kind := "parameter_list", span := ⟨15, 24⟩, field := some "parameters", children := [9] },
    { kind := "parameter_declaration", span := ⟨16, 23⟩, children := [10, 11, 12] },
    { kind := "identifier", span := ⟨16, 17⟩, field := some "name" },
    { kind := "identifier", span := ⟨18, 19⟩, field := some "name" },
    { kind := "type_identifier", span := ⟨20, 23⟩, field := some "type" },
    { kind := "block", span := ⟨25, 27⟩, field := some "body" }]⟩

def nested : Forest where
  units := [nestedUnit]
  package := some ⟨"p", {}⟩
  accepted := by decide
  standalone := by decide

end Sample

/-- The inner parameters are there for both outer ones, each of their names once for each of these,
and their type for every pair of names. -/
theorem Reachable.materializeAll_renders_sample :
    let all := Sample.nested.materializeAll.run (.start Sample.nested)
    all.1 = 26 ∧ all.2.arena.nodesOf 0 9 = 4 ∧ all.2.arena.nodesOf 0 10 = 2 ∧
      all.2.arena.nodesOf 0 12 = 4 := by
  intro all
  obtain ⟨hTotal, hUnits⟩ := @Reachable.materializeAll_renders Sample.nested
    (.start Sample.nested) all.2 (.refl _) (.refl _)
  have hRenders := (hUnits 0 Sample.nestedUnit rfl).2
  have hInner : Sample.nestedUnit.snapshot.Reached 9 :=
    ((((((Snapshot.reached_root _).tail (by decide : Snapshot.Lists _ 0 1)).tail
      (by decide : Snapshot.Lists _ 1 3)).tail (by decide : Snapshot.Lists _ 3 4)).tail
      (by decide : Snapshot.Lists _ 4 7)).tail (by decide : Snapshot.Lists _ 7 8)).tail (by decide)
  have hName : Sample.nestedUnit.snapshot.Reached 10 := hInner.tail (by decide)
  have hType : Sample.nestedUnit.snapshot.Reached 12 := hInner.tail (by decide)
  refine ⟨hTotal.trans (by decide +kernel), ?_, ?_, ?_⟩
  · exact (hRenders.counted 9 hInner).1.trans (by decide +kernel)
  · exact (hRenders.counted 10 hName).1.trans (by decide +kernel)
  · exact (hRenders.counted 12 hType).1.trans (by decide +kernel)

end SyntaxAtlas
