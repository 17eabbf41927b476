import SyntaxAtlas.Proofs.Graph.Ancestry
import SyntaxAtlas.Proofs.Snapshot.Descent

/-! How far a forest reaches. Elements on a path have growing places, which bounds the levels below
an origin; and a session never numbers more nodes than the snapshots hold from the root down. -/
namespace SyntaxAtlas

theorem ParsedUnit.mem_sproutsOf {unit : ParsedUnit} {number : UnitId} {id : ElementId}
    {sprout : Sprout} (member : sprout ∈ unit.sproutsOf number id) :
    ∃ element, unit.snapshot.get? id = some element ∧
      (sprout = ⟨.classify element.kind, element.span.shift unit.source.base, .element number id⟩ ∨
        ∃ name ∈ unit.namesOf element, sprout = unit.splitSprout number id element name) := by
  unfold sproutsOf at member
  cases found : unit.snapshot.get? id with
  | none => simp [found] at member
  | some element =>
      simp only [found] at member
      refine ⟨element, rfl, ?_⟩
      split_ifs at member with hSplit
      · obtain ⟨name, hName, rfl⟩ := List.mem_map.mp member
        exact .inr ⟨name, hName, rfl⟩
      · exact .inl (List.mem_singleton.mp member)

theorem ParsedUnit.place?_of_mem_sproutsOf {unit : ParsedUnit} {number : UnitId} {id : ElementId}
    {sprout : Sprout} (member : sprout ∈ unit.sproutsOf number id) :
    sprout.origin.place? = some (number, id) := by
  obtain ⟨element, _, rfl | ⟨name, _, rfl⟩⟩ := mem_sproutsOf member
  · rfl
  · rfl

namespace Forest

/-- A bound for the levels from an origin down: the elements that may still follow on a path. -/
def rank (forest : Forest) (origin : Origin) : Nat :=
  match origin.place? with
  | none => forest.height
  | some (number, id) => (forest.units[number]?.elim 0 fun unit => unit.snapshot.size) - id

section Rank

variable {forest : Forest} {origin : Origin} {number : UnitId} {unit : ParsedUnit} {id : ElementId}
  {sprout : Sprout}

theorem le_foldl_max (sizes : List Nat) (start : Nat) :
    start ≤ sizes.foldl max start ∧ ∀ size ∈ sizes, size ≤ sizes.foldl max start := by
  induction sizes generalizing start with
  | nil => simp
  | cons head rest ih =>
      obtain ⟨hStart, hRest⟩ := ih (max start head)
      simp only [List.foldl_cons, List.forall_mem_cons]
      exact ⟨by omega, by omega, hRest⟩

theorem size_lt_height (hUnit : forest.units[number]? = some unit) :
    unit.snapshot.size < forest.height := by
  refine Nat.lt_succ_of_le ((le_foldl_max _ 0).2 _ ?_)
  exact List.mem_map_of_mem (List.mem_of_getElem? hUnit)

theorem rank_of_place (place : origin.place? = some (number, id))
    (hUnit : forest.units[number]? = some unit) :
    forest.rank origin = unit.snapshot.size - id := by
  simp [rank, place, hUnit]

theorem rank_le_height (forest : Forest) (origin : Origin) : forest.rank origin ≤ forest.height := by
  cases hPlace : origin.place? with
  | none => simp [rank, hPlace]
  | some place =>
      cases hUnit : forest.units[place.1]? with
      | none => simp [rank, hPlace, hUnit]
      | some unit =>
          have hSize := size_lt_height hUnit
          rw [rank_of_place hPlace hUnit]
          omega

/-- Every step down a path uses up a level. -/
theorem rank_lt_of_mem_sprouts (member : sprout ∈ forest.sprouts origin) :
    forest.rank sprout.origin < forest.rank origin := by
  cases hPlace : origin.place? with
  | none =>
      obtain rfl := Origin.eq_package_of_place? hPlace
      obtain ⟨number, unit, hUnit, rfl⟩ := of_mem_sprouts_package member
      have hSize := size_lt_height hUnit
      rw [rank_of_place rfl hUnit]
      exact Nat.lt_of_le_of_lt (Nat.sub_le _ _) hSize
  | some place =>
      obtain ⟨unit, child, hUnit, listed, hSprout⟩ := of_mem_sprouts hPlace member
      obtain ⟨element, found, listed⟩ := Snapshot.mem_children_iff.mp listed
      obtain ⟨hBehind, hInside⟩ :=
        (forest.wellFormed (List.mem_of_getElem? hUnit)).2.forward _ element found child listed
      rw [rank_of_place hPlace hUnit,
        rank_of_place (ParsedUnit.place?_of_mem_sproutsOf hSprout) hUnit]
      exact Nat.sub_lt_sub_left (Nat.lt_trans hBehind hInside) hBehind

theorem one_le_extentWithin (forest : Forest) (levels : Nat) (origin : Origin) :
    1 ≤ forest.extentWithin levels origin := by
  cases levels with
  | zero => exact Nat.le_refl 1
  | succ levels => exact Nat.le_add_right ..

theorem extentWithin_succ (forest : Forest) (levels : Nat) (origin : Origin) :
    forest.extentWithin (levels + 1) origin = 1 + (forest.sprouts origin).foldr
      (fun sprout total => forest.extentWithin levels sprout.origin + total) 0 :=
  congrArg (1 + ·) List.foldr_map

end Rank

end Forest

section Totals

variable {ids : List NodeId}

theorem foldr_add_ite (ids : List NodeId) (amount : NodeId → Nat) (test : NodeId → Prop)
    [DecidablePred test] :
    ids.foldr (fun id total => amount id + (if test id then 1 else 0) + total) 0 =
      ids.foldr (fun id total => amount id + total) 0 + ids.countP (test ·) := by
  induction ids with
  | nil => rfl
  | cons id ids ih =>
      simp only [List.foldr_cons, List.countP_cons, decide_eq_true_eq, ih]
      omega

theorem foldr_add_le {amount bound : NodeId → Nat} (h : ∀ id ∈ ids, amount id ≤ bound id) :
    ids.foldr (fun id total => amount id + total) 0 ≤
      ids.foldr (fun id total => bound id + total) 0 := by
  induction ids with
  | nil => exact Nat.le_refl 0
  | cons id ids ih =>
      exact Nat.add_le_add (h id List.mem_cons_self)
        (ih fun other member => h other (List.mem_cons_of_mem id member))

end Totals

namespace Arena.WellNumbered

variable {forest : Forest} {arena : Arena} {id : NodeId} {ids : List NodeId}

/-- What the children show is what their sprouts promised, in the same order. -/
theorem map_children {β : Type} (h : arena.WellNumbered forest) (known : id < arena.size)
    (children : arena.children? id = some ids) {seen : NodeId → β} {promised : Sprout → β}
    (same : ∀ child sprout, arena.Shows child sprout → seen child = promised sprout) :
    ids.map seen = (forest.sprouts (arena.origin id)).map promised := by
  refine List.ext_getElem? ?_
  intro place
  rw [List.getElem?_map, List.getElem?_map]
  cases hChild : ids[place]? with
  | none =>
      have hPlace := List.getElem?_eq_none_iff.mp hChild
      rw [h.length_children known children] at hPlace
      rw [List.getElem?_eq_none hPlace]
      rfl
  | some child =>
      obtain ⟨sprout, hSprout, hShows⟩ := h.shows_child known children hChild
      rw [hSprout]
      exact congrArg some (same child sprout hShows)

theorem map_origin_children (h : arena.WellNumbered forest) (known : id < arena.size)
    (children : arena.children? id = some ids) :
    ids.map arena.origin = (forest.sprouts (arena.origin id)).map Sprout.origin :=
  h.map_children known children fun _ _ shows => shows.origin

theorem rank_child_lt (h : arena.WellNumbered forest) {child : NodeId} (known : id < arena.size)
    (children : arena.children? id = some ids) (member : child ∈ ids) :
    forest.rank (arena.origin child) < forest.rank (arena.origin id) := by
  have hOrigin : arena.origin child ∈ ids.map arena.origin := List.mem_map_of_mem member
  rw [h.map_origin_children known children] at hOrigin
  obtain ⟨sprout, hSprout, hSame⟩ := List.mem_map.mp hOrigin
  rw [← hSame]
  exact Forest.rank_lt_of_mem_sprouts hSprout

theorem not_mem_ancestors_of_childless (h : arena.WellNumbered forest)
    (childless : arena.children? id = none) (node : NodeId) : id ∉ arena.ancestors node := by
  intro above
  induction node using Nat.strongRecOn with
  | ind node ih =>
      rcases arena.ancestors_cases node with hNone | ⟨parent, hParent, before, hAncestors⟩
      · simp [hNone] at above
      · rw [hAncestors] at above
        rcases mem_lineage.mp above with rfl | hFurther
        · obtain ⟨ids, _, hChildren, _⟩ := h.listed_by_parent hParent
          rw [childless] at hChildren
          cases hChildren
        · exact ih parent before hFurther

theorem countP_of_childless (h : arena.WellNumbered forest) (childless : arena.children? id = none)
    (nodes : List NodeId) : nodes.countP (id ∈ arena.lineage ·) = nodes.count id := by
  refine List.countP_congr ?_
  intro node _
  have hOutside := h.not_mem_ancestors_of_childless childless node
  simp only [mem_lineage, hOutside, or_false, decide_eq_true_eq, beq_iff_eq]
  exact eq_comm

/-- Nodes from a node down are the node itself and those from its children down. -/
theorem countP_lineage (h : arena.WellNumbered forest) (known : id < arena.size)
    (children : arena.children? id = some ids) (nodes : List NodeId) :
    nodes.countP (id ∈ arena.lineage ·) = nodes.count id +
      ids.foldr (fun child total => nodes.countP (child ∈ arena.lineage ·) + total) 0 := by
  induction nodes with
  | nil => simp
  | cons node rest ih =>
      have hShare := h.countP_children known children node
      have hSelf := arena.not_mem_ancestors_self id
      simp only [List.countP_cons, List.count_cons, decide_eq_true_eq, foldr_add_ite, hShare, ih,
        beq_iff_eq]
      by_cases hSame : node = id
      · subst hSame
        simp only [mem_lineage, hSelf, or_false, if_true, if_false]
        omega
      · simp only [mem_lineage, hSame, Ne.symm hSame, false_or, if_false]
        omega

/-- From a node down, no more nodes have a number than the snapshots hold there. -/
theorem countP_le_extentWithin (h : arena.WellNumbered forest) {nodes : List NodeId}
    (nodup : nodes.Nodup) (levels : Nat) (known : id < arena.size)
    (hRank : forest.rank (arena.origin id) ≤ levels) :
    nodes.countP (id ∈ arena.lineage ·) ≤ forest.extentWithin levels (arena.origin id) := by
  have hOnce : ∀ node, nodes.count node ≤ 1 := List.nodup_iff_count_le_one.mp nodup
  induction levels generalizing id with
  | zero =>
      cases hChildren : arena.children? id with
      | none => exact h.countP_of_childless hChildren nodes ▸ hOnce id
      | some ids =>
          -- no level is left, so that there are no children
          have hNone : ids = [] := by
            refine List.eq_nil_iff_forall_not_mem.mpr ?_
            intro child member
            have hLess := h.rank_child_lt known hChildren member
            omega
          rw [h.countP_lineage known hChildren, hNone]
          exact hOnce id
  | succ levels ih =>
      cases hChildren : arena.children? id with
      | none =>
          rw [h.countP_of_childless hChildren nodes]
          exact Nat.le_trans (hOnce id) (forest.one_le_extentWithin _ _)
      | some ids =>
          have hBelow : ∀ child ∈ ids, nodes.countP (child ∈ arena.lineage ·) ≤
              forest.extentWithin levels (arena.origin child) := by
            intro child member
            have hLess := h.rank_child_lt known hChildren member
            have hKnown := (h.of_mem_children known hChildren member).2.1
            exact ih hKnown (by omega)
          have hSprouts : ids.foldr
                (fun child total => forest.extentWithin levels (arena.origin child) + total) 0 =
              (forest.sprouts (arena.origin id)).foldr
                (fun sprout total => forest.extentWithin levels sprout.origin + total) 0 := by
            have hOrigins := congrArg
              (List.foldr (fun origin total => forest.extentWithin levels origin + total) 0)
              (h.map_origin_children known hChildren)
            rwa [List.foldr_map, List.foldr_map] at hOrigins
          rw [h.countP_lineage known hChildren, forest.extentWithin_succ, ← hSprouts]
          exact Nat.add_le_add (hOnce id) (foldr_add_le hBelow)

/-- No session numbers more nodes than the snapshots hold. -/
theorem length_le_extent (h : arena.WellNumbered forest) {nodes : List NodeId}
    (nodup : nodes.Nodup) (known : ∀ node ∈ nodes, node < arena.size) :
    nodes.length ≤ forest.extent forest.rootSprout.origin := by
  have hAll : nodes.countP (Arena.root ∈ arena.lineage ·) = nodes.length := by
    refine List.countP_eq_length.mpr ?_
    intro node member
    exact decide_eq_true (h.root_mem_lineage (known node member))
  rw [← hAll, ← h.root.origin]
  exact h.countP_le_extentWithin nodup _ h.nonempty (forest.rank_le_height _)

end Arena.WellNumbered

end SyntaxAtlas
