import SyntaxAtlas.Proofs.Graph.Declarations
import SyntaxAtlas.Proofs.Graph.PatternHits

/-! What the indexes answer. Building an index goes through the whole tree, so that no node can be added
afterwards, whatever was numbered before and in which order. What is looked up in an index is what a
scan of the tree in pre-order finds, at any later time. The index of spans passes over the root of a
package, and a scope that is as wide as its package is owned by a unit or by nobody. -/
namespace SyntaxAtlas

namespace Arena

/-- A node is the first one in pre-order with a property. -/
def FirstWith (arena : Arena) (property : NodeId → Prop) (id : NodeId) : Prop :=
  ∃ before after, arena.preorder root = before ++ id :: after ∧ property id ∧
    ∀ earlier ∈ before, ¬ property earlier

/-- A node other than the root of a package has exactly a given span. -/
def Spans (arena : Arena) (span : Span) (id : NodeId) : Prop :=
  arena.origin id ≠ .package ∧ arena.span id = span

instance (arena : Arena) (span : Span) : DecidablePred (arena.Spans span) :=
  fun _ => inferInstanceAs (Decidable (_ ∧ _))

/-- An identifier starts at a position. -/
def NamesAt (arena : Arena) (pos : Nat) (id : NodeId) : Prop :=
  (arena.kind id).isIdentifier ∧ (arena.span id).start = pos

instance (arena : Arena) (pos : Nat) : DecidablePred (arena.NamesAt pos) :=
  fun _ => inferInstanceAs (Decidable (_ ∧ _))

theorem withSpan_eq (arena : Arena) (span : Span) :
    arena.withSpan span = (arena.preorder root).filter fun id => decide (arena.Spans span id) := by
  rw [withSpan, inner, List.filter_filter]
  apply List.filter_congr
  intro id _
  rw [Bool.eq_iff_iff, decide_eq_true_iff]
  simp [Spans, and_comm]

theorem firstIdentAt?_eq (arena : Arena) (pos : Nat) :
    arena.firstIdentAt? pos = (arena.preorder root).find? fun id => decide (arena.NamesAt pos id) := by
  rw [firstIdentAt?, identifiers, List.find?_filter]
  apply List.find?_congr
  intro id _
  rw [decide_eq_decide, NamesAt, beq_iff_eq]

section Scan

variable {arena : Arena} {property : NodeId → Prop} [DecidablePred property] {id : NodeId}

theorem find?_preorder_eq_some_iff :
    (arena.preorder root).find? (fun id => decide (property id)) = some id ↔
      arena.FirstWith property id := by
  rw [List.find?_eq_some_iff_append]
  simp only [decide_eq_true_eq, Bool.not_eq_true', decide_eq_false_iff_not]
  constructor
  · rintro ⟨holds, before, after, hList, hBefore⟩
    exact ⟨before, after, hList, holds, hBefore⟩
  · rintro ⟨before, after, hList, holds, hBefore⟩
    exact ⟨holds, before, after, hList, hBefore⟩

namespace WellNumbered

variable {forest : Forest} {arena : Arena}

theorem mem_preorder_root (h : arena.WellNumbered forest) :
    id ∈ arena.preorder Arena.root ↔ id < arena.size :=
  ⟨h.known_of_mem_preorder h.nonempty, fun known => h.mem_preorder.mpr (h.root_mem_lineage known)⟩

theorem find?_preorder_eq_none_iff (h : arena.WellNumbered forest) :
    (arena.preorder Arena.root).find? (fun id => decide (property id)) = none ↔
      ∀ id, id < arena.size → ¬ property id := by
  rw [List.find?_eq_none]
  simp only [h.mem_preorder_root, decide_eq_true_eq]

/-- Nobody is listed before a node above it. Nodes below different children are not below each
other. -/
theorem pairwise_preorder (h : arena.WellNumbered forest) (id : NodeId) :
    (arena.preorder id).Pairwise fun first second => second ∉ arena.ancestors first := by
  induction id using h.induction_down with
  | step id ih =>
      have hPreorder : arena.preorder id = id :: (arena.childrenOf id).flatMap arena.preorder :=
        h.preorderBy_descend rfl
      rw [hPreorder, List.pairwise_cons, List.pairwise_flatMap]
      refine ⟨?_, ih, ?_⟩
      · intro node member above
        obtain ⟨child, hChild, hListed⟩ := List.mem_flatMap.mp member
        have hBelow := h.mem_ancestors_of_child hChild (h.mem_preorder.mp hListed)
        exact Nat.lt_asymm (lt_of_mem_ancestors hBelow) (lt_of_mem_ancestors above)
      · apply (h.nodup_childrenOf id).imp_of_mem
        intro child other hChild hOther apart node hNode upper hUpper above
        have hAbove : other ∈ arena.lineage node := by
          rcases mem_lineage.mp (h.mem_preorder.mp hUpper) with rfl | hInside
          · exact mem_lineage.mpr (.inr above)
          · exact mem_lineage.mpr (.inr (mem_ancestors_trans hInside above))
        exact apart (h.child_unique hChild hOther (h.mem_preorder.mp hNode) hAbove)

end WellNumbered

end Scan

end Arena

namespace Forest

variable {forest : Forest} {session : Session} {id : NodeId} {scope : Scope}

theorem enclosingScope?_run (hScope : forest.scope? session.arena id = some scope) :
    (forest.enclosingScope? id).run session =
      (((forest.nodesWithSpan scope.owner).run session).1.head?.map fun owner => (owner, scope),
        ((forest.nodesWithSpan scope.owner).run session).2) := by
  rw [enclosingScope?, Explore.run_read, hScope]
  rfl

end Forest

namespace Session

variable {forest : Forest} {session last : Session}

/-- Once the index of spans was used there is nothing left to be numbered. -/
theorem nodesWithSpan_completes (sound : session.Sound forest) (exact : session.SpansExact)
    (hLast : last.Sound forest) {span : Span}
    (since : ((forest.nodesWithSpan span).run session).2.Extends last) : last.arena.Complete := by
  have hIndexed := spanIndex_yields sound
  obtain ⟨hExact, hIndex⟩ := spanIndex_exact sound exact
  obtain ⟨complete, _⟩ := hExact _ hIndex
  exact complete.keep hIndexed.sound.arena hLast.arena since.arena

theorem identAt?_completes (sound : session.Sound forest) (exact : session.Exact)
    (hLast : last.Sound forest) {pos : Nat}
    (since : ((forest.identAt? pos).run session).2.Extends last) : last.arena.Complete := by
  have hIndexed := identIndex_yields sound
  obtain ⟨complete, _⟩ := identIndex_exact sound exact _ hIndexed.answer
  exact complete.keep hIndexed.sound.arena hLast.arena since.arena

end Session

namespace Reachable

variable {forest : Forest} {session later : Session}

/-- What the index of spans lists is what a scan of the finished tree keeps. -/
theorem nodesWithSpan_scans (reached : Reachable forest session) {span : Span}
    (leads : Leads forest ((forest.nodesWithSpan span).run session).2 later) :
    later.arena.Complete ∧ later.arena.WellNumbered forest ∧
      ((forest.nodesWithSpan span).run session).1 =
        (later.arena.preorder Arena.root).filter fun id => decide (later.arena.Spans span id) := by
  obtain ⟨hLater, since⟩ :=
    leads.sound_extends (Session.nodesWithSpan_yields reached.sound).sound
  refine ⟨Session.nodesWithSpan_completes reached.sound reached.spansExact hLater since,
    hLater.arena, ?_⟩
  rw [reached.spansExact.nodesWithSpan_eq reached.sound hLater since, Arena.withSpan_eq]

/-- What the index of identifiers answers is what a scan of the finished tree meets first. -/
theorem identAt?_scans (reached : Reachable forest session) {pos : Nat}
    (leads : Leads forest ((forest.identAt? pos).run session).2 later) :
    later.arena.Complete ∧ later.arena.WellNumbered forest ∧
      ((forest.identAt? pos).run session).1 =
        (later.arena.preorder Arena.root).find? fun id => decide (later.arena.NamesAt pos id) := by
  obtain ⟨hLater, since⟩ := leads.sound_extends (Session.identAt?_yields reached.sound).sound
  refine ⟨Session.identAt?_completes reached.sound reached.exact hLater since, hLater.arena, ?_⟩
  rw [reached.exact.identAt?_eq reached.sound hLater since, Arena.firstIdentAt?_eq]

/-- The owner of a scope is what a scan of the finished tree meets first. -/
theorem enclosingScope?_scans (reached : Reachable forest session) {id : NodeId} {scope : Scope}
    (hScope : forest.scope? session.arena id = some scope)
    (leads : Leads forest ((forest.enclosingScope? id).run session).2 later) :
    later.arena.Complete ∧ later.arena.WellNumbered forest ∧
      ((forest.enclosingScope? id).run session).1 =
        ((later.arena.preorder Arena.root).find? fun id =>
          decide (later.arena.Spans scope.owner id)).map fun owner => (owner, scope) := by
  rw [Forest.enclosingScope?_run hScope] at leads ⊢
  obtain ⟨complete, numbered, hListed⟩ := reached.nodesWithSpan_scans leads
  exact ⟨complete, numbered, by rw [hListed, List.head?_filter]⟩

/-- The indexes answer what a scan of the whole tree finds, and the whole tree is there by then. -/
theorem index_scans (reached : Reachable forest session) :
    (∀ span, let listed := (forest.nodesWithSpan span).run session
      ∀ later, Leads forest listed.2 later → let arena := later.arena
        arena.Complete ∧
          listed.1 = (arena.preorder Arena.root).filter (fun id => decide (arena.Spans span id)) ∧
          (∀ id, id ∈ listed.1 ↔ id < arena.size ∧ arena.Spans span id) ∧ listed.1.Nodup ∧
          listed.1.Pairwise fun first second => second ∉ arena.ancestors first) ∧
    (∀ pos, let found := (forest.identAt? pos).run session
      ∀ later, Leads forest found.2 later → let arena := later.arena
        arena.Complete ∧ (∀ id, found.1 = some id ↔ arena.FirstWith (arena.NamesAt pos) id) ∧
          (found.1 = none ↔ ∀ id, id < arena.size → ¬ arena.NamesAt pos id)) ∧
    ∀ id scope, forest.scope? session.arena id = some scope →
      let found := (forest.enclosingScope? id).run session
      ∀ later, Leads forest found.2 later → let arena := later.arena
        arena.Complete ∧
          (∀ answer, found.1 = some answer ↔
            answer.2 = scope ∧ arena.FirstWith (arena.Spans scope.owner) answer.1) ∧
          (found.1 = none ↔ ∀ id, id < arena.size → ¬ arena.Spans scope.owner id) := by
  refine ⟨?_, ?_, ?_⟩
  · intro span listed later leads arena
    obtain ⟨complete, numbered, hListed⟩ := reached.nodesWithSpan_scans leads
    refine ⟨complete, hListed, ?_⟩
    rw [hListed]
    refine ⟨fun id => ?_, (numbered.nodup_preorder _).filter _, (numbered.pairwise_preorder _).filter _⟩
    rw [List.mem_filter, numbered.mem_preorder_root, decide_eq_true_iff]
  · intro pos found later leads arena
    obtain ⟨complete, numbered, hFound⟩ := reached.identAt?_scans leads
    rw [hFound]
    exact ⟨complete, fun id => Arena.find?_preorder_eq_some_iff, numbered.find?_preorder_eq_none_iff⟩
  · intro id scope hScope found later leads arena
    obtain ⟨complete, numbered, hFound⟩ := reached.enclosingScope?_scans hScope leads
    rw [hFound, Option.map_eq_none_iff]
    refine ⟨complete, ?_, numbered.find?_preorder_eq_none_iff⟩
    rintro ⟨owner, owned⟩
    rw [Option.map_eq_some_iff]
    simp only [Arena.find?_preorder_eq_some_iff, Prod.mk.injEq]
    constructor
    · rintro ⟨_, first, rfl, rfl⟩
      exact ⟨rfl, first⟩
    · rintro ⟨rfl, first⟩
      exact ⟨owner, first, rfl, rfl⟩

end Reachable

namespace Sample

/-- The only scope of the package. It is as wide as its unit, and as the package. -/
def copiedScope : Scope := { owner := ⟨0, 25⟩, range := ⟨0, 25⟩ }

/-- The session after the nodes with the span of an inner parameter were listed. -/
def copiedListed : Session :=
  ((copied.nodesWithSpan ⟨16, 17⟩).run copiedSession).2

/-- The session after the identifier at the start of that parameter was looked up. -/
def copiedNamed : Session :=
  ((copied.identAt? 16).run copiedSession).2

/-- The session after the root was asked for its scope. -/
def copiedAsked : Session :=
  ((copied.enclosingScope? Arena.root).run copiedSession).2

/-- The name of the inner parameter is there twice, since the type it stands in was copied. -/
theorem answers_copied :
    ((copied.nodesWithSpan ⟨16, 17⟩).run copiedSession).1 = [12, 18] ∧
      ((copied.identAt? 16).run copiedSession).1 = some 12 ∧
      copied.scope? copiedSession.arena Arena.root = some copiedScope ∧
      ((copied.enclosingScope? Arena.root).run copiedSession).1 = some (1, copiedScope) ∧
      copiedAsked.arena.span Arena.root = copiedScope.owner := by
  decide +kernel

end Sample

/-- Both names have the span and the first one is answered for its start. The unit is the first node
that spans the scope, other than the root of the package. -/
theorem Reachable.index_scans_sample :
    (∀ id, id ∈ [12, 18] ↔
      id < Sample.copiedListed.arena.size ∧ Sample.copiedListed.arena.Spans ⟨16, 17⟩ id) ∧
    Sample.copiedNamed.arena.FirstWith (Sample.copiedNamed.arena.NamesAt 16) 12 ∧
    Sample.copiedAsked.arena.FirstWith (Sample.copiedAsked.arena.Spans Sample.copiedScope.owner) 1 := by
  obtain ⟨hListed, hIdent, hScope, hOwner, _⟩ := Sample.answers_copied
  obtain ⟨hSpans, hNames, hEnclosing⟩ := Reachable.index_scans Sample.reachable_copied
  obtain ⟨_, _, hMember, _⟩ := hSpans ⟨16, 17⟩ _ (.refl Sample.copiedListed)
  obtain ⟨_, hFirst, _⟩ := hNames 16 _ (.refl Sample.copiedNamed)
  obtain ⟨_, hOwners, _⟩ := hEnclosing Arena.root Sample.copiedScope hScope _ (.refl Sample.copiedAsked)
  rw [hListed] at hMember
  exact ⟨hMember, (hFirst 12).mp hIdent, ((hOwners (1, Sample.copiedScope)).mp hOwner).2⟩

/-- The root of the package is the first node with the span of the scope, and it is not the answer. -/
theorem Sample.package_root_owns_nothing :
    Reachable Sample.copied Sample.copiedSession ∧
      Sample.copied.scope? Sample.copiedSession.arena Arena.root = some Sample.copiedScope ∧
      Sample.copiedAsked.arena.FirstWith
        (fun id => Sample.copiedAsked.arena.span id = Sample.copiedScope.owner) Arena.root ∧
      ((Sample.copied.enclosingScope? Arena.root).run Sample.copiedSession).1 ≠
        some (Arena.root, Sample.copiedScope) := by
  obtain ⟨_, _, hScope, hOwner, hSpan⟩ := Sample.answers_copied
  have numbered := (Reachable.enclosingScope?_scans Sample.reachable_copied hScope
    (.refl Sample.copiedAsked)).2.1
  refine ⟨Sample.reachable_copied, hScope, ?_, ?_⟩
  · exact ⟨[], _, (numbered.preorder_eq_cons Arena.root).1, hSpan, by simp⟩
  · rw [hOwner]
    decide

end SyntaxAtlas
