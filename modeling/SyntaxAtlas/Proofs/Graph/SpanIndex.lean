import SyntaxAtlas.Proofs.Graph.Indexing
import SyntaxAtlas.Proofs.Graph.Nesting
import SyntaxAtlas.Proofs.Graph.Sprouting

/-! The index of spans. It is built by walks from the roots of all units, the first time it is
needed. Together with the root of a package these walks come to every node, so that the tree is
complete and nothing can be added later. After any history the index is missing, or it lists every
node but the root of a package with its span, in pre-order. -/
namespace SyntaxAtlas

namespace Arena

/-- The nodes that lie in a unit, in pre-order: all but the root of a package. -/
def inner (arena : Arena) : List NodeId :=
  (arena.preorder root).filter fun id => arena.origin id != .package

/-- These nodes with their spans. -/
def innerSpans (arena : Arena) : List (Span × NodeId) :=
  arena.inner.map fun id => (arena.span id, id)

/-- Those of them that have a given span. -/
def withSpan (arena : Arena) (span : Span) : List NodeId :=
  arena.inner.filter fun id => arena.span id == span

theorem map_filter_innerSpans (arena : Arena) (span : Span) :
    (arena.innerSpans.filter fun entry => entry.1 == span).map Prod.snd = arena.withSpan span := by
  rw [innerSpans, List.filter_map, List.map_map, withSpan]
  exact List.map_id _

/-- Nodes that are not skipped were asked for their children. -/
theorem Sequence.exists_children {arena : Arena} {nodes : List NodeId}
    {calls : List (NodeId × Verdict)} (sequence : arena.Sequence nodes calls) {id : NodeId}
    (member : (id, .descend) ∈ calls) : ∃ ids, arena.children? id = some ids := by
  induction sequence with
  | done => cases member
  | skip _ ih =>
      rcases List.mem_cons.mp member with hFirst | hRest
      · cases hFirst
      · exact ih hRest
  | descend children _ _ ihBelow ihNext =>
      rcases List.mem_cons.mp member with hFirst | hOthers
      · cases hFirst
        exact ⟨_, children⟩
      · rcases List.mem_append.mp hOthers with hBelow | hNext
        · exact ihBelow hBelow
        · exact ihNext hNext

namespace WellNumbered

variable {forest : Forest} {arena : Arena} {id : NodeId} {span : Span}

/-- Only the root can be that of a package. -/
theorem origin_ne_package (h : arena.WellNumbered forest) (known : id < arena.size)
    (other : id ≠ Arena.root) : arena.origin id ≠ .package := by
  obtain ⟨_, _, _, _, _, above⟩ := h.exists_parent known other
  obtain ⟨sprout, member, hShows⟩ := h.exists_sprout above
  intro hPackage
  have hPlace := Forest.place?_isSome_of_mem_sprouts member
  rw [← hShows.origin, hPackage] at hPlace
  cases hPlace

theorem mem_inner (h : arena.WellNumbered forest) :
    id ∈ arena.inner ↔ id < arena.size ∧ arena.origin id ≠ .package := by
  rw [inner, List.mem_filter, bne_iff_ne, and_congr_left_iff]
  intro _
  exact ⟨h.known_of_mem_preorder h.nonempty, fun known =>
    h.mem_preorder.mpr (h.root_mem_lineage known)⟩

theorem mem_withSpan (h : arena.WellNumbered forest) : id ∈ arena.withSpan span ↔
    id < arena.size ∧ arena.origin id ≠ .package ∧ arena.span id = span := by
  rw [withSpan, List.mem_filter, h.mem_inner, beq_iff_eq, and_assoc]

/-- Below the root everything lies in a unit. -/
theorem filter_tail_preorder (h : arena.WellNumbered forest) :
    ((arena.childrenOf Arena.root).flatMap arena.preorder).filter
        (fun id => arena.origin id != .package) =
      (arena.childrenOf Arena.root).flatMap arena.preorder := by
  refine List.filter_eq_self.mpr ?_
  intro id member
  obtain ⟨child, hChild, hListed⟩ := List.mem_flatMap.mp member
  have hKnown := h.known_of_mem_preorder (h.lt_of_mem_childrenOf hChild).2 hListed
  have hBelow := h.mem_ancestors_of_child hChild (h.mem_preorder.mp hListed)
  exact bne_iff_ne.mpr (h.origin_ne_package hKnown (Nat.ne_of_gt (lt_of_mem_ancestors hBelow)))

/-- What lies in a unit is listed from the roots of the units down: these are the children of the
root of a package, and otherwise the root itself. -/
theorem inner_eq (h : arena.WellNumbered forest) : arena.inner =
    match forest.package with
    | some _ => (arena.childrenOf Arena.root).flatMap arena.preorder
    | none => arena.preorder Arena.root := by
  have hPreorder : arena.preorder Arena.root =
      Arena.root :: (arena.childrenOf Arena.root).flatMap arena.preorder :=
    h.preorderBy_descend rfl
  have hOrigin := h.root.origin
  rw [inner, hPreorder, List.filter_cons, h.filter_tail_preorder]
  rcases forest.rootSprout_origin with ⟨hSome, hRoot⟩ | ⟨hNone, hRoot⟩
  · obtain ⟨package, hPackage⟩ := Option.isSome_iff_exists.mp hSome
    rw [hOrigin, hRoot, hPackage]
    rfl
  · rw [hOrigin, hRoot, hNone]
    rfl

end WellNumbered

namespace Complete

variable {forest : Forest} {earlier later : Arena}

/-- The nodes of a complete arena and their spans stay what they are. -/
theorem innerSpans_eq (complete : earlier.Complete) (before : earlier.WellNumbered forest)
    (after : later.WellNumbered forest) (keeps : earlier.Extends later) :
    later.innerSpans = earlier.innerSpans := by
  have hInner : later.inner = earlier.inner := by
    rw [inner, inner, complete.preorder_eq before after keeps before.nonempty]
    refine List.filter_congr ?_
    intro id member
    rw [keeps.origin id (before.known_of_mem_preorder before.nonempty member)]
  rw [innerSpans, innerSpans, hInner]
  refine List.map_congr_left ?_
  intro id member
  rw [keeps.span id (before.mem_inner.mp member).1]

end Complete

end Arena

namespace Session

variable {forest : Forest} {session last earlier later : Session} {start : NodeId} {span : Span}

/-- A walk through everything from a node down lists the pre-order and asks every node for its
children. -/
theorem preorder_lists (sound : session.Sound forest) (known : start < session.arena.size)
    (hLast : last.Sound forest) (since : ((forest.preorder start).run session).2.Extends last) :
    ((forest.preorder start).run session).1 = last.arena.preorder start ∧
      ∀ node ∈ last.arena.preorder start, ∃ ids, last.arena.children? node = some ids := by
  obtain ⟨hListed, hPruned⟩ := walk_listing (fun _ => .descend) sound known hLast since
  refine ⟨hListed, ?_⟩
  intro node member
  exact hPruned.recursive.exists_children (List.mem_map_of_mem member)

/-- So do several walks, one after the other. -/
theorem preorderAll_lists {starts : List NodeId} (sound : session.Sound forest)
    (knows : session.Knows starts) (hLast : last.Sound forest)
    (since : ((forest.preorderAll starts).run session).2.Extends last) :
    ((forest.preorderAll starts).run session).1 = starts.flatMap last.arena.preorder ∧
      ∀ node ∈ starts.flatMap last.arena.preorder, ∃ ids, last.arena.children? node = some ids := by
  induction starts generalizing session with
  | nil => exact ⟨rfl, fun _ member => nomatch member⟩
  | cons start rest ih =>
      have hFirst : session.Yields forest .all (forest.preorder start) Knows :=
        preorder_yields sound knows.head
      have hKnows := knows.tail.keep hFirst.allows
      have hRest : ((forest.preorder start).run session).2.Yields forest .all
          (forest.preorderAll rest) Knows := preorderAll_yields hFirst.sound hKnows
      rw [Forest.preorderAll, Explore.run_bind, Explore.run_bind, Explore.run_pure] at since ⊢
      obtain ⟨hHead, hAsked⟩ :=
        preorder_lists sound knows.head hLast (hRest.allows.keeps.trans since)
      obtain ⟨hTail, hOthers⟩ := ih hFirst.sound hKnows since
      refine ⟨?_, ?_⟩
      · rw [List.flatMap_cons, ← hHead, ← hTail]
      · intro node member
        rcases List.mem_append.mp (List.flatMap_cons ▸ member) with hHere | hThere
        · exact hAsked node hHere
        · exact hOthers node hThere

/-- From the roots of all units down is what lies in a unit. The root of a package was asked for its
children. -/
theorem unitRoots_lists (sound : session.Sound forest) (hLast : last.Sound forest)
    (since : (forest.unitRoots.run session).2.Extends last) :
    (forest.unitRoots.run session).1.flatMap last.arena.preorder = last.arena.inner ∧
      (last.arena.origin Arena.root = .package →
        ∃ ids, last.arena.children? Arena.root = some ids) := by
  rw [hLast.arena.inner_eq]
  cases hPackage : forest.package with
  | some package =>
      have hRun : forest.unitRoots.run session = (forest.children Arena.root).run session := by
        rw [Forest.unitRoots, hPackage]
      have hAsked := children_yields .all sound sound.arena.nonempty
      rw [hRun] at since ⊢
      have hChildren := since.arena.children Arena.root _ hAsked.sound.arena.nonempty hAsked.answer
      rw [Arena.childrenOf_eq hChildren]
      exact ⟨rfl, fun _ => ⟨_, hChildren⟩⟩
  | none =>
      have hRun : forest.unitRoots.run session = ([Arena.root], session) := by
        rw [Forest.unitRoots, hPackage]
        rfl
      rw [hRun]
      refine ⟨List.flatMap_singleton _ _, ?_⟩
      intro hOrigin
      rcases forest.rootSprout_origin with ⟨hSome, _⟩ | ⟨_, hRoot⟩
      · rw [hPackage] at hSome
        cases hSome
      · rw [hLast.arena.root.origin, hRoot] at hOrigin
        cases hOrigin

/-- The walks from the roots of all units leave nothing to be asked for, and list what lies in a
unit. -/
theorem walk_unitRoots_yields (sound : session.Sound forest) :
    session.Yields forest .nodes (forest.unitRoots >>= fun roots => forest.preorderAll roots)
      (fun later ids => later.arena.Complete ∧ ids = later.arena.inner) := by
  have hRoots : session.Yields forest .nodes forest.unitRoots Knows := unitRoots_yields sound
  have hWalk : (forest.unitRoots.run session).2.Yields forest .nodes
      (forest.preorderAll (forest.unitRoots.run session).1) Knows :=
    preorderAll_yields hRoots.sound hRoots.answer
  obtain ⟨hListed, hAsked⟩ :=
    preorderAll_lists hRoots.sound hRoots.answer hWalk.sound (.refl _)
  obtain ⟨hInner, hRoot⟩ := unitRoots_lists sound hWalk.sound hWalk.allows.keeps
  refine ⟨hWalk.sound, hRoots.allows.trans hWalk.allows, ?_, hListed.trans hInner⟩
  rw [hInner] at hAsked
  intro id known
  by_cases hPackage : (((forest.preorderAll (forest.unitRoots.run session).1).run
      (forest.unitRoots.run session).2).2.arena.origin id) = .package
  · have hSame : id = Arena.root := by
      by_contra hOther
      exact hWalk.sound.arena.origin_ne_package known hOther hPackage
    rw [hSame] at hPackage ⊢
    exact hRoot hPackage
  · exact hAsked id (hWalk.sound.arena.mem_inner.mpr ⟨known, hPackage⟩)

/-- An index of spans that is there lists everything that lies in a unit. -/
def SpansExact (session : Session) : Prop :=
  ∀ index, session.spanIndex = some index →
    session.arena.Complete ∧ index = session.arena.innerSpans

theorem spansExact_start (forest : Forest) : (Session.start forest).SpansExact :=
  fun _ h => nomatch h

/-- An exact index stays exact: the tree was complete when it was built. -/
theorem SpansExact.keep (exact : earlier.SpansExact) (before : earlier.arena.WellNumbered forest)
    (after : later.arena.WellNumbered forest) (h : earlier.Extends later)
    (same : later.spanIndex = earlier.spanIndex) : later.SpansExact := by
  intro index hIndex
  rw [same] at hIndex
  obtain ⟨complete, hListed⟩ := exact index hIndex
  refine ⟨complete.keep before after h.arena, ?_⟩
  rw [complete.innerSpans_eq before after h.arena]
  exact hListed

/-- Building the index makes it exact. -/
theorem spanIndex_exact (sound : session.Sound forest) (exact : session.SpansExact) :
    (forest.spanIndex.run session).2.SpansExact ∧
      (forest.spanIndex.run session).2.spanIndex = some (forest.spanIndex.run session).1 := by
  cases hIndex : session.spanIndex with
  | some index =>
      have hRun : forest.spanIndex.run session = (index, session) := by
        rw [Forest.spanIndex, Explore.run_read, hIndex]
        rfl
      rw [hRun]
      exact ⟨exact, hIndex⟩
  | none =>
      obtain ⟨complete, hListed⟩ := (walk_unitRoots_yields sound).answer
      rw [Forest.spanIndex_run_fresh hIndex]
      refine ⟨?_, rfl⟩
      rintro _ ⟨⟩
      refine ⟨complete, ?_⟩
      dsimp only
      rw [hListed]
      rfl

/-- No step makes an exact index wrong: only one of them touches it. -/
theorem Evolves.spansExact (evolves : earlier.Evolves forest later)
    (numbered : earlier.arena.WellNumbered forest) (exact : earlier.SpansExact) :
    later.SpansExact := by
  induction evolves with
  | refl => exact exact
  | trans left _ ihLeft ihRight =>
      exact ihRight (left.keeps numbered).1 (ihLeft numbered exact)
  | nodes sound adds =>
      refine exact.keep numbered sound.arena adds.keeps ?_
      rw [adds.2]
  | @remember earlier later arena spanIndex identIndex functionIndex =>
      have hEvolves : earlier.Evolves forest later :=
        .remember arena spanIndex identIndex functionIndex
      obtain ⟨hLater, hKeeps⟩ := hEvolves.keeps numbered
      exact exact.keep numbered hLater hKeeps spanIndex
  | spanIndex sound => exact (spanIndex_exact sound exact).1
  | identIndex sound =>
      obtain ⟨hSound, hKeeps⟩ := (identIndex_yields sound).leaves
      exact exact.keep numbered hSound.arena hKeeps (identIndex_leaves sound).1
  | functionIndex sound =>
      obtain ⟨hSound, hKeeps⟩ := (functionIndex_yields sound).leaves
      exact exact.keep numbered hSound.arena hKeeps (functionIndex_leaves sound).1

/-- What the index answers is read off the tree, at any later time. -/
theorem SpansExact.nodesWithSpan_eq (exact : session.SpansExact) (sound : session.Sound forest)
    (hLast : last.Sound forest)
    (since : ((forest.nodesWithSpan span).run session).2.Extends last) :
    ((forest.nodesWithSpan span).run session).1 = last.arena.withSpan span := by
  have hIndexed := spanIndex_yields sound
  obtain ⟨hExact, hIndex⟩ := spanIndex_exact sound exact
  obtain ⟨complete, hListed⟩ := hExact _ hIndex
  have hAnswer : ((forest.nodesWithSpan span).run session).1 =
      ((forest.spanIndex.run session).1.filter fun entry => entry.1 == span).map Prod.snd := rfl
  rw [hAnswer, hListed, ← complete.innerSpans_eq hIndexed.sound.arena hLast.arena since.arena]
  exact last.arena.map_filter_innerSpans span

end Session

/-- After any history, the index of spans is missing or lists everything that lies in a unit. -/
theorem Reachable.spansExact {forest : Forest} {session : Session}
    (reached : Reachable forest session) : session.SpansExact :=
  reached.evolves.spansExact (Session.sound_start forest).arena (Session.spansExact_start forest)

end SyntaxAtlas
