import SyntaxAtlas.Proofs.Graph.QuestionLogic

/-! Children, walks and indexes keep a session sound. A walk may be given any visitor that does, and
an index is built by a walk that adds nodes only. -/
namespace SyntaxAtlas

namespace Session

section Navigation

variable {forest : Forest} {footprint : Footprint} {session : Session} {id : NodeId}

/-- The children of a node have numbers. -/
theorem children_knows (sound : session.Sound forest) (known : id < session.arena.size) :
    session.Yields forest footprint (forest.children id) Knows :=
  (yielding forest footprint).childrenKnown sound known

theorem siblings_yields (sound : session.Sound forest) (known : id < session.arena.size) :
    session.Yields forest footprint (forest.siblings id) Knows := by
  refine .read ?_
  cases hParent : session.arena.parent? id with
  | none => exact .pure sound (.nil session)
  | some parent =>
      refine (children_knows sound (sound.arena.known_parent known hParent)).bind ?_
      intro later ids sound _ knows
      exact .pure sound (knows.subset (List.filter_subset_self ids))

end Navigation

section Walk

variable {forest : Forest} {footprint : Footprint} {session : Session} {σ : Type}
  {good : Session → σ → Prop} {visit : σ → NodeId → Explore (Verdict × σ)}

theorem walk_yields {start : NodeId} {state : σ} (stable : Stable good)
    (visits : (yielding forest footprint).Visits session good visit) (sound : session.Sound forest)
    (known : start < session.arena.size) (first : good session state) :
    session.Yields forest footprint (forest.walk start state visit) good :=
  (yielding forest footprint).walk stable visits sound known first

/-- A walk whose visitor does anything sound. -/
theorem walk_any {start : NodeId} {state : σ}
    (visits : ∀ later state id, later.Sound forest → footprint.Allows session later →
      id < later.arena.size →
      later.Yields forest footprint (visit state id) (fun _ _ => True))
    (sound : session.Sound forest) (known : start < session.arena.size) :
    session.Yields forest footprint (forest.walk start state visit) (fun _ _ => True) :=
  walk_yields (fun _ _ _ _ h => h)
    (fun later state id hSound since hId _ => visits later state id hSound since hId)
    sound known trivial

theorem preorder_yields {start : NodeId} (sound : session.Sound forest)
    (known : start < session.arena.size) :
    session.Yields forest footprint (forest.preorder start) Knows := by
  refine walk_yields stable_knows ?_ sound known (.nil session)
  intro later seen id sound _ hId knows
  exact .pure sound (knows.append (.cons hId (.nil later)))

theorem materializeAll_yields (sound : session.Sound forest) :
    session.Yields forest footprint forest.materializeAll (fun _ _ => True) := by
  refine (walk_any (fun later _ id hSound _ _ => .pure hSound trivial) sound
    sound.arena.nonempty).bind ?_
  intro later _ sound _ _
  exact .read (.pure sound trivial)

theorem preorderAll_yields {starts : List NodeId} (sound : session.Sound forest)
    (knows : session.Knows starts) :
    session.Yields forest footprint (forest.preorderAll starts) Knows := by
  induction starts generalizing session with
  | nil => exact .pure sound (.nil session)
  | cons start rest ih =>
      refine (preorder_yields sound knows.head).bind ?_
      intro later ids sound walked hIds
      have hRest := knows.tail.keep walked.keeps
      refine (ih sound hRest).bind ?_
      intro after more sound walked hMore
      exact .pure sound ((hIds.keep walked.keeps).append hMore)

theorem unitRoots_yields (sound : session.Sound forest) :
    session.Yields forest footprint forest.unitRoots Knows := by
  unfold Forest.unitRoots
  cases forest.package with
  | some package => exact children_knows sound sound.arena.nonempty
  | none => exact .pure sound (.cons sound.arena.nonempty (.nil session))

end Walk

section Indexes

variable {forest : Forest} {session : Session}

/-- The span index lists nodes with their spans, whether it was there or is built now. The walk that
builds it adds nodes only, so that the index is still missing when it is stored. -/
theorem spanIndex_yields (sound : session.Sound forest) :
    session.Yields forest .all forest.spanIndex
      (fun later index => ∀ entry ∈ index, later.ListsSpan entry) := by
  refine .read ?_
  cases hIndex : session.spanIndex with
  | some index => exact .pure sound (sound.spanIndex index hIndex)
  | none =>
      refine .bind_nodes (unitRoots_yields sound) ?_
      intro later roots sound grown hRoots
      refine .bind_nodes (preorderAll_yields sound hRoots) ?_
      intro after ids sound walked knows
      have hMissing : after.spanIndex = none := by
        rw [(grown.trans walked).2]
        exact hIndex
      let index := ids.map fun id => (after.arena.span id, id)
      have hKeeps : after.Extends { after with spanIndex := some index } :=
        ⟨.refl _, fun _ h => (nomatch hMissing.symm.trans h), fun _ h => h, fun _ h => h⟩
      have hLists : ∀ entry ∈ index,
          ListsSpan { after with spanIndex := some index } entry := by
        intro entry member
        obtain ⟨id, hId, rfl⟩ := List.mem_map.mp member
        exact ⟨knows id hId, rfl⟩
      refine .read (.write hKeeps (.pure ?_ hLists))
      refine sound.update hKeeps sound.arena ?_ (fun _ h => .inl h) (fun _ h => .inl h)
        (fun _ h => .inl h) (fun _ h => .inl h)
      rintro _ ⟨⟩
      exact .inr hLists

theorem nodesWithSpan_yields {span : Span} (sound : session.Sound forest) :
    session.Yields forest .all (forest.nodesWithSpan span) Knows := by
  refine (spanIndex_yields sound).bind ?_
  intro later index sound _ lists
  refine .pure sound ?_
  intro id member
  obtain ⟨entry, hEntry, rfl⟩ := List.mem_map.mp member
  exact (lists entry (List.mem_of_mem_filter hEntry)).1

/-- The identifier index lists identifiers with their starts, and it is kept. -/
theorem identIndex_yields (sound : session.Sound forest) :
    session.Yields forest .all forest.identIndex
      (fun later index => later.identIndex = some index) := by
  refine .read ?_
  cases hIndex : session.identIndex with
  | some index => exact .pure sound hIndex
  | none =>
      refine .bind_nodes (preorder_yields sound sound.arena.nonempty) ?_
      intro later ids sound walked knows
      have hMissing : later.identIndex = none := by
        rw [walked.2]
        exact hIndex
      let index := (ids.filter fun id => (later.arena.kind id).isIdentifier).map
        fun id => ((later.arena.span id).start, id)
      have hKeeps : later.Extends { later with identIndex := some index } :=
        ⟨.refl _, fun _ h => h, fun _ h => (nomatch hMissing.symm.trans h), fun _ h => h⟩
      refine .read (.write hKeeps (.pure ?_ rfl))
      refine sound.update hKeeps sound.arena (fun _ h => .inl h) ?_ (fun _ h => .inl h)
        (fun _ h => .inl h) (fun _ h => .inl h)
      rintro _ ⟨⟩
      refine .inr ?_
      intro entry member
      obtain ⟨id, hId, rfl⟩ := List.mem_map.mp member
      obtain ⟨hId, hKind⟩ := List.mem_filter.mp hId
      exact ⟨knows id hId, hKind, rfl⟩

theorem identAt?_yields {pos : Nat} (sound : session.Sound forest) :
    session.Yields forest .all (forest.identAt? pos)
      (fun later found => ∀ id, found = some id → later.ListsIdent (pos, id)) := by
  refine (identIndex_yields sound).bind ?_
  intro later index sound _ hIndex
  refine .pure sound ?_
  intro id found
  exact sound.identIndex index hIndex _ (mem_of_lookup found)

theorem identsAt_yields {positions : List Nat} (sound : session.Sound forest) :
    session.Yields forest .all (forest.identsAt positions) Knows := by
  induction positions generalizing session with
  | nil => exact .pure sound (.nil session)
  | cons pos rest ih =>
      refine (identAt?_yields sound).bind ?_
      intro later found sound _ lists
      refine (ih sound).bind ?_
      intro after ids sound grown knows
      refine .pure sound (.append ?_ knows)
      intro id member
      exact grown.keeps.arena.lt (lists id (Option.mem_toList.mp member)).1

end Indexes

end Session

end SyntaxAtlas
