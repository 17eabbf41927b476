import Mathlib.Algebra.Ring.Nat
import Mathlib.Data.List.Nodup
import SyntaxAtlas.Proofs.Graph.Extent
import SyntaxAtlas.Proofs.Graph.Walks

/-! Walks through everything. A walk from the root that leaves nothing out has enough budget to
come to its end, and then every numbered node knows its children. In such an arena nodes can be
counted by their origins: every node but the root is a sprout of exactly one other node. -/
namespace SyntaxAtlas

namespace Forest

variable {forest : Forest} {origin : Origin}

theorem sprouts_eq_nil (exhausted : forest.rank origin = 0) : forest.sprouts origin = [] := by
  refine List.eq_nil_iff_forall_not_mem.mpr ?_
  intro sprout member
  have hLess := rank_lt_of_mem_sprouts member
  omega

theorem extentWithin_eq_sum (forest : Forest) (levels : Nat) (origin : Origin) :
    forest.extentWithin (levels + 1) origin = 1 + ((forest.sprouts origin).map fun sprout =>
      forest.extentWithin levels sprout.origin).sum :=
  rfl

theorem extentWithin_of_exhausted (exhausted : forest.rank origin = 0) (levels : Nat) :
    forest.extentWithin levels origin = 1 := by
  cases levels with
  | zero => rfl
  | succ levels =>
      rw [extentWithin_eq_sum, sprouts_eq_nil exhausted]
      rfl

/-- More levels than there are below an origin make no difference. -/
theorem extentWithin_eq_of_rank_le {first second : Nat} (left : forest.rank origin ≤ first)
    (right : forest.rank origin ≤ second) :
    forest.extentWithin first origin = forest.extentWithin second origin := by
  induction first generalizing second origin with
  | zero =>
      have hNone := Nat.le_zero.mp left
      rw [extentWithin_of_exhausted hNone, extentWithin_of_exhausted hNone]
  | succ first ih =>
      cases second with
      | zero =>
          have hNone := Nat.le_zero.mp right
          rw [extentWithin_of_exhausted hNone, extentWithin_of_exhausted hNone]
      | succ second =>
          rw [extentWithin_eq_sum, extentWithin_eq_sum]
          congr 2
          refine List.map_congr_left ?_
          intro sprout member
          have hLess := rank_lt_of_mem_sprouts member
          exact ih (by omega) (by omega)

/-- From an origin down there is the node of the origin, and what is there from its sprouts down. -/
theorem extent_eq (forest : Forest) (origin : Origin) :
    forest.extent origin =
      1 + ((forest.sprouts origin).map fun sprout => forest.extent sprout.origin).sum := by
  have hRank := forest.rank_le_height origin
  exact extentWithin_eq_of_rank_le hRank (Nat.le_succ_of_le hRank)

/-- Asking for the children of a node numbers these children at most. -/
theorem known_or_mem_of_children {session : Session} {id node : NodeId}
    (known : node < ((forest.children id).run session).2.arena.size) :
    node < session.arena.size ∨ node ∈ ((forest.children id).run session).1 := by
  rw [children, Explore.run_read] at known ⊢
  cases hChildren : session.arena.children? id with
  | some ids =>
      rw [hChildren] at known
      exact .inl known
  | none =>
      rw [hChildren] at known
      rcases Arena.old_or_new_of_lt_grow known with hOld | ⟨place, sprout, rfl, found⟩
      · exact .inl hOld
      · right
        refine List.mem_range'_1.mpr ⟨Nat.le_add_right .., ?_⟩
        exact Nat.add_lt_add_left (List.getElem?_eq_some_iff.mp found).1 _

end Forest

namespace Arena

/-- Every numbered node was asked for its children. -/
def Complete (arena : Arena) : Prop :=
  ∀ id, id < arena.size → ∃ ids, arena.children? id = some ids

/-- Nodes that were not asked for their children lie from some given nodes down. -/
def CoveredBy (arena : Arena) (starts : List NodeId) : Prop :=
  ∀ id, id < arena.size → arena.children? id = none → ∃ start ∈ starts, start ∈ arena.lineage id

theorem CoveredBy.complete {arena : Arena} (covered : arena.CoveredBy []) : arena.Complete := by
  intro id known
  cases hChildren : arena.children? id with
  | some ids => exact ⟨ids, rfl⟩
  | none =>
      obtain ⟨start, member, _⟩ := covered id known hChildren
      cases member

namespace WellNumbered

variable {forest : Forest} {arena : Arena} {id node : NodeId} {ids : List NodeId}

/-- What is below a node is one of its children or below one of them. -/
theorem exists_child_in_lineage (h : arena.WellNumbered forest) (known : id < arena.size)
    (children : arena.children? id = some ids) (below : id ∈ arena.ancestors node) :
    ∃ child ∈ ids, child ∈ arena.lineage node := by
  have hCount := h.countP_children known children node
  rw [if_pos below] at hCount
  have hPositive : 0 < ids.countP (· ∈ arena.lineage node) := by omega
  simpa only [List.countP_pos_iff, decide_eq_true_eq] using hPositive

end WellNumbered

namespace Complete

variable {forest : Forest} {earlier later : Arena}

/-- A complete arena does not grow: a first new node would be a new child of an old one. -/
theorem size_eq (complete : earlier.Complete) (before : earlier.WellNumbered forest)
    (after : later.WellNumbered forest) (keeps : earlier.Extends later) :
    later.size = earlier.size := by
  refine Nat.le_antisymm (Nat.not_lt.mp fun hGrown => ?_) keeps.size_le
  have hNotRoot : earlier.size ≠ Arena.root := Nat.ne_of_gt before.nonempty
  obtain ⟨parent, ids, hParent, hChildren, member, _⟩ := after.exists_parent hGrown hNotRoot
  have hOld := (after.of_mem_children hParent hChildren member).1
  obtain ⟨olds, hOlds⟩ := complete parent hOld
  rw [keeps.children parent olds hOld hOlds] at hChildren
  cases hChildren
  exact Nat.lt_irrefl _ (before.of_mem_children hOld hOlds member).2.1

theorem keep (complete : earlier.Complete) (before : earlier.WellNumbered forest)
    (after : later.WellNumbered forest) (keeps : earlier.Extends later) : later.Complete := by
  intro id known
  rw [complete.size_eq before after keeps] at known
  obtain ⟨ids, hChildren⟩ := complete id known
  exact ⟨ids, keeps.children id ids known hChildren⟩

end Complete

end Arena

namespace Session

variable {forest : Forest} {session : Session}

/-- One step of a walk: the children of a visited node take its place. -/
theorem coveredBy_children {id : NodeId} {rest : List NodeId} (sound : session.Sound forest)
    (known : id < session.arena.size) (covered : session.arena.CoveredBy (id :: rest)) :
    ((forest.children id).run session).2.arena.CoveredBy
      (((forest.children id).run session).1 ++ rest) := by
  have hAsked := children_yields .nodes sound known
  have hKeeps := hAsked.allows.keeps.arena
  intro node hNode hFresh
  rcases Forest.known_or_mem_of_children hNode with hOld | hNew
  · have hBefore : session.arena.children? node = none := by
      cases hChildren : session.arena.children? node with
      | none => rfl
      | some ids =>
          rw [hKeeps.children node ids hOld hChildren] at hFresh
          cases hFresh
    -- an old node was covered before; if it was from the visited node down, a child takes over
    obtain ⟨start, member, hAbove⟩ := covered node hOld hBefore
    rw [Arena.lineage, ← hKeeps.ancestors hOld] at hAbove
    rcases List.mem_cons.mp member with rfl | hRest
    · rcases Arena.mem_lineage.mp hAbove with rfl | hBelow
      · rw [hAsked.answer] at hFresh
        cases hFresh
      · obtain ⟨child, hChild, hChildAbove⟩ := hAsked.sound.arena.exists_child_in_lineage
          (hKeeps.lt known) hAsked.answer hBelow
        exact ⟨child, List.mem_append_left _ hChild, hChildAbove⟩
    · exact ⟨start, List.mem_append_right _ hRest, hAbove⟩
  · exact ⟨node, List.mem_append_left _ hNew, Arena.mem_lineage_self _ node⟩

/-- The nodes that the snapshots hold from some nodes down. -/
def extents (forest : Forest) (session : Session) (nodes : List NodeId) : Nat :=
  (nodes.map fun id => forest.extent (session.arena.origin id)).sum

/-- One step of a walk uses up one node. -/
theorem extents_children {id : NodeId} {rest : List NodeId} (sound : session.Sound forest)
    (knows : session.Knows (id :: rest)) :
    ((forest.children id).run session).2.extents forest
        (((forest.children id).run session).1 ++ rest) + 1 =
      session.extents forest (id :: rest) := by
  have hAsked := children_yields .nodes sound knows.head
  have hKeeps := hAsked.allows.keeps.arena
  have hOrigins := hAsked.sound.arena.map_origin_children (hKeeps.lt knows.head) hAsked.answer
  have hBelow := congrArg (fun origins => (origins.map forest.extent).sum) hOrigins
  simp only [List.map_map, Function.comp_def, hKeeps.origin id knows.head] at hBelow
  have hRest : (rest.map fun other =>
        forest.extent (((forest.children id).run session).2.arena.origin other)) =
      rest.map fun other => forest.extent (session.arena.origin other) := by
    refine List.map_congr_left ?_
    intro other member
    rw [hKeeps.origin other (knows.tail other member)]
  simp only [extents, List.map_append, List.sum_append, List.map_cons, List.sum_cons, hBelow, hRest,
    forest.extent_eq (session.arena.origin id)]
  omega

/-- A walk that goes below every node leaves none without children, when its budget counts the nodes
from the pending ones down. Visits do not touch the session here. -/
theorem walkStack_completes {σ : Type} (next : σ → NodeId → σ) (budget : Nat)
    {pending : List NodeId} {state : σ} (sound : session.Sound forest)
    (knows : session.Knows pending) (covered : session.arena.CoveredBy pending)
    (enough : session.extents forest pending ≤ budget) :
    session.Yields forest .nodes
      (forest.walkStack (fun state id => pure (.descend, next state id)) budget pending state)
      (fun later _ => later.arena.Complete) := by
  induction budget generalizing session pending state with
  | zero =>
      cases pending with
      | nil => exact .pure sound covered.complete
      | cons id rest =>
          have hStep := extents_children sound knows
          omega
  | succ budget ih =>
      cases pending with
      | nil => exact .pure sound covered.complete
      | cons id rest =>
          have hStep := extents_children sound knows
          have hAsked : session.Yields forest .nodes (forest.children id) Knows :=
            children_knows sound knows.head
          have hKnows := hAsked.answer.append (knows.tail.keep hAsked.allows.keeps)
          have hTail : ((forest.children id).run session).2.Yields forest .nodes
              (forest.walkStack (fun state id => pure (.descend, next state id)) budget
                (((forest.children id).run session).1 ++ rest) (next state id))
              (fun later _ => later.arena.Complete) :=
            ih hAsked.sound hKnows (coveredBy_children sound knows.head covered) (by omega)
          exact ⟨hTail.sound, hAsked.allows.trans hTail.allows, hTail.answer⟩

/-- After everything was asked for, every numbered node knows its children, and the answer is the
number of nodes. -/
theorem materializeAll_completes {footprint : Footprint} (sound : session.Sound forest) :
    session.Yields forest footprint forest.materializeAll
      (fun later total => later.arena.Complete ∧ total = later.arena.size) := by
  have hRoot : session.Knows [Arena.root] := .cons sound.arena.nonempty (.nil session)
  have hCovered : session.arena.CoveredBy [Arena.root] := fun id known _ =>
    ⟨Arena.root, List.mem_singleton_self _, sound.arena.root_mem_lineage known⟩
  have hWalk : session.Yields forest .nodes
      (forest.walk Arena.root () fun _ _ => pure (.descend, ()))
      (fun later _ => later.arena.Complete) := by
    refine .read (walkStack_completes (fun _ _ => ()) _ sound hRoot hCovered ?_)
    simp [extents]
  refine .bind_nodes hWalk ?_
  intro later _ hSound _ complete
  exact .read (.pure hSound ⟨complete, rfl⟩)

end Session

namespace Arena

/-- The number of nodes whose origin has a property. -/
def tally (arena : Arena) (test : Origin → Bool) : Nat :=
  (List.range arena.size).countP fun node => test (arena.origin node)

/-- The children of a node, as far as they were asked for. -/
def childrenOf (arena : Arena) (id : NodeId) : List NodeId :=
  (arena.children? id).getD []

namespace WellNumbered

variable {forest : Forest} {arena : Arena}

theorem mem_childrenOf (h : arena.WellNumbered forest) {id child : NodeId} :
    child ∈ arena.childrenOf id ↔ arena.parent? child = some id := by
  constructor
  · intro member
    cases hChildren : arena.children? id with
    | none => simp [childrenOf, hChildren] at member
    | some ids =>
        have known := known_of_children hChildren
        rw [childrenOf, hChildren] at member
        exact (h.mem_children_iff known hChildren).mp member
  · intro above
    obtain ⟨ids, _, hChildren, member⟩ := h.listed_by_parent above
    rwa [childrenOf, hChildren]

/-- Every node but the root is a child of one node, and of no other. -/
theorem range_perm_root_cons_children (h : arena.WellNumbered forest) :
    (List.range arena.size).Perm (Arena.root :: (List.range arena.size).flatMap arena.childrenOf) := by
  have hNodup : ((List.range arena.size).flatMap arena.childrenOf).Nodup := by
    rw [List.nodup_flatMap]
    constructor
    · intro id member
      unfold childrenOf
      cases hChildren : arena.children? id with
      | none => exact List.nodup_nil
      | some ids => exact h.nodup_children (List.mem_range.mp member) hChildren
    · refine List.nodup_range.imp ?_
      intro first second hOther child inFirst inSecond
      have hLeft := h.mem_childrenOf.mp inFirst
      have hRight := h.mem_childrenOf.mp inSecond
      exact hOther (Option.some.inj (hLeft.symm.trans hRight))
  have hMember : ∀ node, node ∈ (List.range arena.size).flatMap arena.childrenOf ↔
      ∃ parent, arena.parent? node = some parent := by
    intro node
    simp only [List.mem_flatMap, List.mem_range, h.mem_childrenOf]
    constructor
    · rintro ⟨parent, _, above⟩
      exact ⟨parent, above⟩
    · rintro ⟨parent, above⟩
      exact ⟨parent, h.known_parent (known_of_parent above) above, above⟩
  have hRoot : Arena.root ∉ (List.range arena.size).flatMap arena.childrenOf := by
    rw [hMember, h.rootParent]
    rintro ⟨parent, above⟩
    cases above
  rw [List.perm_ext_iff_of_nodup List.nodup_range (List.nodup_cons.mpr ⟨hRoot, hNodup⟩)]
  intro node
  rw [List.mem_cons, hMember, List.mem_range]
  constructor
  · intro known
    by_cases hSame : node = Arena.root
    · exact .inl hSame
    · obtain ⟨parent, _, _, _, _, above⟩ := h.exists_parent known hSame
      exact .inr ⟨parent, above⟩
  · rintro (rfl | ⟨parent, above⟩)
    · exact h.nonempty
    · exact known_of_parent above

/-- Nodes are counted by counting the sprouts of all nodes, and the root. -/
theorem tally_eq (h : arena.WellNumbered forest) (complete : arena.Complete)
    (test : Origin → Bool) :
    arena.tally test = (if test forest.rootSprout.origin then 1 else 0) +
      ((List.range arena.size).map fun node =>
        (forest.sprouts (arena.origin node)).countP fun sprout => test sprout.origin).sum := by
  unfold tally
  rw [h.range_perm_root_cons_children.countP_eq, List.countP_cons, List.countP_flatMap,
    h.root.origin, Nat.add_comm]
  congr 2
  refine List.map_congr_left ?_
  intro node member
  obtain ⟨ids, hChildren⟩ := complete node (List.mem_range.mp member)
  have hOrigins := congrArg (List.countP test)
    (h.map_origin_children (List.mem_range.mp member) hChildren)
  rw [List.countP_map, List.countP_map] at hOrigins
  rw [Function.comp_apply, childrenOf, hChildren]
  exact hOrigins

end WellNumbered

end Arena

end SyntaxAtlas
