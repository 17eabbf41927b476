import SyntaxAtlas.Proofs.Graph.Declarations
import SyntaxAtlas.Proofs.Graph.Searches

/-! Containment, ancestors and searches. The question whether a node contains another one climbs and
stops at a level, the list of ancestors climbs up to the root, and a search goes down through children
that may have to be numbered first. All three are one relation, and it is a strict order. -/
namespace SyntaxAtlas

namespace Arena.WellNumbered

variable {forest : Forest} {arena : Arena} {id node : NodeId}

theorem eq_root_of_alone (h : arena.WellNumbered forest) (known : id < arena.size)
    (alone : arena.parent? id = none) : id = Arena.root := by
  by_contra hOther
  obtain ⟨_, _, _, _, _, above⟩ := h.exists_parent known hOther
  rw [alone] at above
  cases above

/-- There are as many nodes above a node as its level says. -/
theorem length_ancestors (h : arena.WellNumbered forest) (known : id < arena.size) :
    (arena.ancestors id).length = arena.level id := by
  induction id using Nat.strongRecOn with
  | ind id ih =>
      cases hParent : arena.parent? id with
      | none =>
          obtain rfl := h.eq_root_of_alone known hParent
          rw [ancestors_of_alone hParent, h.rootLevel]
          rfl
      | some parent =>
          rw [h.ancestors_child hParent, lineage, List.length_cons,
            ih parent (h.parent_lt hParent) (h.known_parent known hParent), h.level_child hParent]

/-- The way up ends at the root. -/
theorem getLast?_lineage (h : arena.WellNumbered forest) (known : id < arena.size) :
    (arena.lineage id).getLast? = some Arena.root := by
  induction id using Nat.strongRecOn with
  | ind id ih =>
      cases hParent : arena.parent? id with
      | none =>
          obtain rfl := h.eq_root_of_alone known hParent
          rw [lineage, ancestors_of_alone hParent]
          rfl
      | some parent =>
          have hRest := ih parent (h.parent_lt hParent) (h.known_parent known hParent)
          rw [lineage, h.ancestors_child hParent, List.getLast?_cons, hRest]
          rfl

theorem getLast?_ancestors (h : arena.WellNumbered forest) (known : id < arena.size)
    (other : id ≠ Arena.root) : (arena.ancestors id).getLast? = some Arena.root := by
  obtain ⟨parent, _, hParent, _, _, above⟩ := h.exists_parent known other
  rw [h.ancestors_child above]
  exact h.getLast?_lineage hParent

/-- Behind the node itself, the pre-order lists what is properly below it. -/
theorem mem_tail_preorder (h : arena.WellNumbered forest) :
    node ∈ (arena.preorder id).tail ↔ id ∈ arena.ancestors node := by
  obtain ⟨hCons, hApart⟩ := h.preorder_eq_cons id
  have hMember : node ∈ arena.preorder id ↔ id ∈ arena.lineage node := h.mem_preorder
  rw [hCons, List.mem_cons, mem_lineage] at hMember
  constructor
  · intro member
    rcases hMember.mp (.inr member) with rfl | above
    · exact absurd member hApart
    · exact above
  · intro above
    rcases hMember.mpr (.inr above) with rfl | member
    · exact absurd above (arena.not_mem_ancestors_self node)
    · exact member

/-- Containment is a strict order. -/
theorem isStrictOrder_contains (h : arena.WellNumbered forest) :
    IsStrictOrder NodeId fun upper lower => arena.contains upper lower where
  irrefl id inside := arena.not_mem_ancestors_self id (h.contains_iff.mp inside)
  trans _ _ _ first second :=
    h.contains_iff.mpr (mem_ancestors_trans (h.contains_iff.mp first) (h.contains_iff.mp second))

end Arena.WellNumbered

/-- The test that every node passes. -/
def Forest.anyNode : Forest.Test :=
  fun _ => pure true

namespace Session

variable {forest : Forest} {session last : Session} {id node : NodeId}

theorem judges_anyNode (session : Session) : session.Judges forest Forest.anyNode :=
  fun _ _ sound _ _ => .pure sound trivial

/-- A search without a test finds what is properly below a node. -/
theorem mem_treeNodes_anyNode (sound : session.Sound forest) (known : id < session.arena.size)
    (hLast : last.Sound forest)
    (since : ((forest.treeNodes Forest.anyNode id).run session).2.Extends last) :
    node ∈ ((forest.treeNodes Forest.anyNode id).run session).1 ↔
      id ∈ last.arena.ancestors node := by
  have hFound := (treeNodes_eq_filter session.judges_anyNode sound known hLast since).1
  have hAll : (last.arena.preorder id).tail.filter
      (fun node => ((Forest.anyNode node).run last).1) = (last.arena.preorder id).tail :=
    List.filter_true _
  rw [hFound, hAll, hLast.arena.mem_tail_preorder]

end Session

/-- Containment, the nodes above a node and the search below a node agree after any history. For two
nodes of a session they are asked in that session. For nodes that only the search numbers they are
asked at any later time. There are as many nodes above a node as its level says, the last of them is
the root, and containment is a strict order. -/
theorem Reachable.contains_agrees {forest : Forest} {session : Session}
    (reached : Reachable forest session) :
    (∀ upper, upper < session.arena.size →
      let searched := (forest.treeNodes Forest.anyNode upper).run session
      (∀ lower, lower < session.arena.size →
        (session.arena.contains upper lower ↔ upper ∈ session.arena.ancestors lower) ∧
          (session.arena.contains upper lower ↔ lower ∈ searched.1)) ∧
      ∀ later, Leads forest searched.2 later → ∀ lower,
        (later.arena.contains upper lower ↔ upper ∈ later.arena.ancestors lower) ∧
          (later.arena.contains upper lower ↔ lower ∈ searched.1)) ∧
    (∀ lower, lower < session.arena.size →
      (session.arena.ancestors lower).length = session.arena.level lower ∧
        (lower ≠ Arena.root →
          (session.arena.ancestors lower).getLast? = some Arena.root)) ∧
    IsStrictOrder NodeId fun upper lower => session.arena.contains upper lower := by
  have hArena := reached.sound.arena
  refine ⟨?_, ?_, hArena.isStrictOrder_contains⟩
  · intro upper hUpper searched
    have hSearch : session.Yields forest .all (forest.treeNodes Forest.anyNode upper)
        (fun later found => later.Knows found ∧
          later.Lasts forest (forest.treeNodes Forest.anyNode upper) found) :=
      (Session.fixing forest).treeNodes session.judges_anyNode reached.sound hUpper
    constructor
    · intro lower hLower
      have hKept := hSearch.allows.arena.ancestors hLower
      have hFound : lower ∈ searched.1 ↔ upper ∈ searched.2.arena.ancestors lower :=
        Session.mem_treeNodes_anyNode reached.sound hUpper hSearch.sound (.refl _)
      rw [hKept] at hFound
      exact ⟨hArena.contains_iff, hArena.contains_iff.trans hFound.symm⟩
    · intro later leads lower
      obtain ⟨hLater, since⟩ := leads.sound_extends hSearch.sound
      have hFound : lower ∈ searched.1 ↔ upper ∈ later.arena.ancestors lower :=
        Session.mem_treeNodes_anyNode reached.sound hUpper hLater since
      exact ⟨hLater.arena.contains_iff, hLater.arena.contains_iff.trans hFound.symm⟩
  · intro lower hLower
    exact ⟨hArena.length_ancestors hLower, hArena.getLast?_ancestors hLower⟩

/-- Only the package and its unit have numbers. The search from the unit numbers everything else: the
name of the second of the two split parameters is below the unit, and the unit is below the package. -/
theorem Reachable.contains_agrees_sample :
    let session := ((Sample.forest.children 0).run (.start Sample.forest)).2
    let searched := (Sample.forest.treeNodes Forest.anyNode 1).run session
    session.arena.size = 2 ∧ searched.1 = [2, 3, 7, 4, 8, 5, 6] ∧
      searched.2.arena.contains 1 8 ∧ 1 ∈ searched.2.arena.ancestors 8 ∧
      session.arena.contains 0 1 ∧ ¬ session.arena.contains 1 1 ∧
      (session.arena.ancestors 1).length = session.arena.level 1 ∧
      (session.arena.ancestors 1).getLast? = some Arena.root := by
  intro session searched
  have hReached : Reachable Sample.forest session :=
    .ask (.children 0) (.cons (by decide) (.nil _))
  have hSize : session.arena.size = 2 := by decide +kernel
  have hFound : searched.1 = [2, 3, 7, 4, 8, 5, 6] := by decide +kernel
  obtain ⟨hAgree, hClimb, hOrder⟩ := Reachable.contains_agrees hReached
  have hKnown : 1 < session.arena.size := by simp [hSize]
  obtain ⟨hBelow, hInside⟩ := (hAgree 1 hKnown).2 searched.2 (.refl _) 8
  have hEight : searched.2.arena.contains 1 8 := by
    apply hInside.mpr
    show 8 ∈ searched.1
    simp [hFound]
  obtain ⟨hLength, hLast⟩ := hClimb 1 hKnown
  have hUnit : session.arena.contains 0 1 :=
    ((hAgree 0 hReached.sound.arena.nonempty).1 1 hKnown).1.mpr (List.mem_of_getLast? (hLast (by decide)))
  exact ⟨hSize, hFound, hEight, hBelow.mp hEight, hUnit, hOrder.irrefl 1, hLength, hLast (by decide)⟩

end SyntaxAtlas
