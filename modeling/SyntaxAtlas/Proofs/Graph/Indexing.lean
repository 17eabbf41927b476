import SyntaxAtlas.Proofs.Graph.Evolution
import SyntaxAtlas.Proofs.Graph.Recursion

/-! The index of identifiers. It is built by a walk through everything, the first time it is needed,
and after that no node can be added. So after any history it is missing, or it lists the identifiers
of the whole tree in pre-order. -/
namespace SyntaxAtlas

namespace Arena

/-- The identifiers from a node down, in pre-order. -/
def identifiers (arena : Arena) (id : NodeId) : List NodeId :=
  (arena.preorder id).filter fun node => (arena.kind node).isIdentifier

/-- The identifiers of the whole tree with their starts, in pre-order. -/
def identStarts (arena : Arena) : List (Nat × NodeId) :=
  (arena.identifiers root).map fun node => ((arena.span node).start, node)

/-- The first identifier of the whole tree that starts at a position. -/
def firstIdentAt? (arena : Arena) (pos : Nat) : Option NodeId :=
  (arena.identifiers root).find? fun node => (arena.span node).start == pos

theorem lookup_identStarts (arena : Arena) (pos : Nat) :
    arena.identStarts.lookup pos = arena.firstIdentAt? pos := by
  unfold identStarts firstIdentAt?
  induction arena.identifiers root with
  | nil => rfl
  | cons node rest ih =>
      rw [List.map_cons, List.lookup_cons, List.find?_cons, BEq.comm, ih]

theorem known_of_mem_ancestors {arena : Arena} {id upper : NodeId}
    (above : upper ∈ arena.ancestors id) : id < arena.size := by
  cases hParent : arena.parent? id with
  | some parent => exact known_of_parent hParent
  | none =>
      rw [ancestors_of_alone hParent] at above
      cases above

theorem WellNumbered.known_of_mem_preorder {forest : Forest} {arena : Arena}
    (h : arena.WellNumbered forest) {id node : NodeId} (known : id < arena.size)
    (member : node ∈ arena.preorder id) : node < arena.size := by
  rcases mem_lineage.mp (h.mem_preorder.mp member) with rfl | hBelow
  · exact known
  · exact known_of_mem_ancestors hBelow

namespace Complete

variable {forest : Forest} {earlier later : Arena}

/-- In a complete arena all nodes are known to stay what they are, so that the pre-order does not
change. -/
theorem preorder_eq (complete : earlier.Complete) (before : earlier.WellNumbered forest)
    (after : later.WellNumbered forest) (keeps : earlier.Extends later) {id : NodeId}
    (known : id < earlier.size) : later.preorder id = earlier.preorder id := by
  induction id using before.induction_down with
  | step id ih =>
      obtain ⟨ids, hChildren⟩ := complete id known
      have hKept := keeps.children id ids known hChildren
      rw [preorder, preorder, after.preorderBy_descend rfl, before.preorderBy_descend rfl,
        childrenOf_eq hKept, childrenOf_eq hChildren]
      apply congrArg (id :: ·)
      apply List.flatMap_congr
      intro child member
      rw [← childrenOf_eq hChildren] at member
      exact ih child member (before.lt_of_mem_childrenOf member).2

theorem identifiers_eq (complete : earlier.Complete) (before : earlier.WellNumbered forest)
    (after : later.WellNumbered forest) (keeps : earlier.Extends later) {id : NodeId}
    (known : id < earlier.size) : later.identifiers id = earlier.identifiers id := by
  rw [identifiers, identifiers, complete.preorder_eq before after keeps known]
  apply List.filter_congr
  intro node member
  rw [keeps.kind node (before.known_of_mem_preorder known member)]

theorem identStarts_eq (complete : earlier.Complete) (before : earlier.WellNumbered forest)
    (after : later.WellNumbered forest) (keeps : earlier.Extends later) :
    later.identStarts = earlier.identStarts := by
  rw [identStarts, identStarts, complete.identifiers_eq before after keeps before.nonempty]
  apply List.map_congr_left
  intro node member
  have hListed := List.mem_of_mem_filter member
  rw [keeps.span node (before.known_of_mem_preorder before.nonempty hListed)]

end Complete

end Arena

namespace Session

/-- An index of identifiers that is there lists those of the whole tree. -/
def Exact (session : Session) : Prop :=
  ∀ index, session.identIndex = some index →
    session.arena.Complete ∧ index = session.arena.identStarts

theorem exact_start (forest : Forest) : (Session.start forest).Exact :=
  fun _ h => nomatch h

section Keeping

variable {forest : Forest} {session earlier later : Session}

/-- An exact index stays exact: the tree was complete when it was built. -/
theorem Exact.keep (exact : earlier.Exact) (before : earlier.arena.WellNumbered forest)
    (after : later.arena.WellNumbered forest) (h : earlier.Extends later)
    (same : later.identIndex = earlier.identIndex) : later.Exact := by
  intro index hIndex
  rw [same] at hIndex
  obtain ⟨complete, hListed⟩ := exact index hIndex
  refine ⟨complete.keep before after h.arena, ?_⟩
  rw [complete.identStarts_eq before after h.arena]
  exact hListed

/-- A walk through everything lists the pre-order, and leaves nothing to be asked for. -/
theorem preorder_root_yields (sound : session.Sound forest) :
    session.Yields forest .nodes (forest.preorder Arena.root) (fun later ids =>
      later.arena.Complete ∧ ids = later.arena.preorder Arena.root) := by
  have hRoot : session.Knows [Arena.root] := .cons sound.arena.nonempty (.nil session)
  have hCovered : session.arena.CoveredBy [Arena.root] := fun id known _ =>
    ⟨Arena.root, List.mem_singleton_self _, sound.arena.root_mem_lineage known⟩
  have hWalk : session.Yields forest .nodes (forest.preorder Arena.root)
      (fun later _ => later.arena.Complete) := by
    apply Yields.read
    apply walkStack_completes (fun seen id => seen ++ [id]) _ sound hRoot hCovered
    simp [extents]
  have hListed := walk_listing (fun _ => .descend) sound sound.arena.nonempty hWalk.sound (.refl _)
  exact ⟨hWalk.sound, hWalk.allows, hWalk.answer, hListed.1⟩

/-- Building the index makes it exact, and nobody builds it twice. -/
theorem identIndex_exact (sound : session.Sound forest) (exact : session.Exact) :
    (forest.identIndex.run session).2.Exact := by
  cases hIndex : session.identIndex with
  | some index => rwa [Forest.identIndex_run_known hIndex]
  | none =>
      obtain ⟨complete, hListed⟩ := (preorder_root_yields sound).answer
      rw [Forest.identIndex_run_fresh hIndex]
      rintro _ ⟨⟩
      refine ⟨complete, ?_⟩
      dsimp only
      rw [hListed]
      rfl

/-- No step makes an exact index wrong: only one of them touches it. -/
theorem Evolves.exact (evolves : earlier.Evolves forest later)
    (numbered : earlier.arena.WellNumbered forest) (exact : earlier.Exact) : later.Exact := by
  induction evolves with
  | refl => exact exact
  | trans left _ ihLeft ihRight =>
      exact ihRight (left.keeps numbered).1 (ihLeft numbered exact)
  | nodes sound adds =>
      apply exact.keep numbered sound.arena adds.keeps
      rw [adds.2]
  | @remember earlier later arena spanIndex identIndex functionIndex =>
      have hEvolves : earlier.Evolves forest later :=
        .remember arena spanIndex identIndex functionIndex
      obtain ⟨hLater, hKeeps⟩ := hEvolves.keeps numbered
      exact exact.keep numbered hLater hKeeps identIndex
  | spanIndex sound =>
      obtain ⟨hSound, hKeeps⟩ := (spanIndex_yields sound).leaves
      exact exact.keep numbered hSound.arena hKeeps (spanIndex_leaves sound).1
  | identIndex sound => exact identIndex_exact sound exact
  | functionIndex sound =>
      obtain ⟨hSound, hKeeps⟩ := (functionIndex_yields sound).leaves
      exact exact.keep numbered hSound.arena hKeeps (functionIndex_leaves sound).2

end Keeping

end Session

/-- After any history, the index of identifiers is missing or lists those of the whole tree. -/
theorem Reachable.exact {forest : Forest} {session : Session} (reached : Reachable forest session) :
    session.Exact :=
  reached.evolves.exact (Session.sound_start forest).arena (Session.exact_start forest)

end SyntaxAtlas
