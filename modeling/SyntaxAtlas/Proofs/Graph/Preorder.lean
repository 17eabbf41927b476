import SyntaxAtlas.Proofs.Graph.Completion

/-! Pre-order. The nodes from a node down are listed parents first and children in order, and below
some nodes nothing is listed. The list is a function of the numbered nodes; what a walk visits is
compared with it. -/
namespace SyntaxAtlas

namespace Arena

/-- The nodes from a node down, parents first, without those below a node that is skipped. Children
have larger numbers than their parents, so the descent ends. -/
def preorderBy (arena : Arena) (verdict : NodeId → Verdict) (id : NodeId) : List NodeId :=
  match verdict id with
  | .skip => [id]
  | .descend => id :: (arena.childrenOf id).flatMap fun child =>
      if id < child ∧ child < arena.size then arena.preorderBy verdict child else []
termination_by arena.size - id
decreasing_by
  rename_i behind
  exact Nat.sub_lt_sub_left (Nat.lt_trans behind.1 behind.2) behind.1

/-- All nodes from a node down, parents first. -/
def preorder (arena : Arena) (id : NodeId) : List NodeId :=
  arena.preorderBy (fun _ => .descend) id

section Lists

variable {arena : Arena} {verdict : NodeId → Verdict} {id : NodeId}

theorem childrenOf_eq {ids : List NodeId} (children : arena.children? id = some ids) :
    arena.childrenOf id = ids := by
  rw [childrenOf, children]
  rfl

theorem preorderBy_skip (skipped : verdict id = .skip) : arena.preorderBy verdict id = [id] := by
  rw [preorderBy, skipped]

theorem not_mem_lineage_of_mem_ancestors {upper : NodeId} (above : upper ∈ arena.ancestors id) :
    id ∉ arena.lineage upper := by
  intro below
  have hBefore := lt_of_mem_ancestors above
  rcases mem_lineage.mp below with rfl | hFurther
  · exact Nat.lt_irrefl _ hBefore
  · exact Nat.lt_asymm hBefore (lt_of_mem_ancestors hFurther)

end Lists

namespace WellNumbered

variable {forest : Forest} {arena : Arena} {verdict : NodeId → Verdict} {id child node : NodeId}

theorem lt_of_mem_childrenOf (h : arena.WellNumbered forest) (member : child ∈ arena.childrenOf id) :
    id < child ∧ child < arena.size := by
  have hParent := h.mem_childrenOf.mp member
  exact ⟨h.parent_lt hParent, known_of_parent hParent⟩

theorem nodup_childrenOf (h : arena.WellNumbered forest) (id : NodeId) :
    (arena.childrenOf id).Nodup := by
  unfold childrenOf
  cases hChildren : arena.children? id with
  | none => exact List.nodup_nil
  | some ids => exact h.nodup_children (known_of_children hChildren) hChildren

theorem mem_ancestors_of_child (h : arena.WellNumbered forest)
    (member : child ∈ arena.childrenOf id) (below : child ∈ arena.lineage node) :
    id ∈ arena.ancestors node := by
  have hAbove : id ∈ arena.ancestors child := by
    rw [h.ancestors_child (h.mem_childrenOf.mp member)]
    exact mem_lineage_self arena id
  rcases mem_lineage.mp below with rfl | hBelow
  · exact hAbove
  · exact mem_ancestors_trans hAbove hBelow

/-- Nothing is below two children of one node. -/
theorem child_unique (h : arena.WellNumbered forest) {other : NodeId}
    (first : child ∈ arena.childrenOf id) (second : other ∈ arena.childrenOf id)
    (below : child ∈ arena.lineage node) (belowOther : other ∈ arena.lineage node) :
    child = other := by
  have hApart : ∀ {upper lower}, upper ∈ arena.childrenOf id → lower ∈ arena.childrenOf id →
      upper ∉ arena.ancestors lower := by
    intro upper lower hUpper hLower above
    rw [h.ancestors_child (h.mem_childrenOf.mp hLower)] at above
    exact not_mem_lineage_of_mem_ancestors
      (h.mem_ancestors_of_child hUpper (mem_lineage_self arena upper)) above
  rcases mem_lineage_or_mem_lineage below belowOther with hAbove | hAbove
  · rcases mem_lineage.mp hAbove with hSame | hInside
    · exact hSame
    · exact absurd hInside (hApart first second)
  · rcases mem_lineage.mp hAbove with hSame | hInside
    · exact hSame.symm
    · exact absurd hInside (hApart second first)

theorem exists_childrenOf_in_lineage (h : arena.WellNumbered forest)
    (below : id ∈ arena.ancestors node) :
    ∃ child ∈ arena.childrenOf id, child ∈ arena.lineage node := by
  cases hChildren : arena.children? id with
  | none => exact absurd below (h.not_mem_ancestors_of_childless hChildren node)
  | some ids =>
      rw [childrenOf_eq hChildren]
      exact h.exists_child_in_lineage (known_of_children hChildren) hChildren below

theorem preorderBy_descend (h : arena.WellNumbered forest) (descends : verdict id = .descend) :
    arena.preorderBy verdict id =
      id :: (arena.childrenOf id).flatMap (arena.preorderBy verdict) := by
  rw [preorderBy, descends]
  apply congrArg (id :: ·)
  apply List.flatMap_congr
  intro child member
  rw [if_pos (h.lt_of_mem_childrenOf member)]

/-- What holds of a node as soon as it holds of its children holds of every node. -/
theorem induction_down (h : arena.WellNumbered forest) {motive : NodeId → Prop}
    (step : ∀ id, (∀ child ∈ arena.childrenOf id, motive child) → motive id) (id : NodeId) :
    motive id := by
  induction hMeasure : arena.size - id using Nat.strongRecOn generalizing id with
  | ind measure ih =>
      apply step
      intro child member
      obtain ⟨hBehind, hKnown⟩ := h.lt_of_mem_childrenOf member
      have hLess : arena.size - child < measure := by
        rw [← hMeasure]
        exact Nat.sub_lt_sub_left (Nat.lt_trans hBehind hKnown) hBehind
      exact ih _ hLess child rfl

/-- A node from a child down is one from the node down, with the same nodes on the way but for the node
itself. -/
theorem clear_of_child (h : arena.WellNumbered forest) (member : child ∈ arena.childrenOf id)
    (below : child ∈ arena.lineage node) {clear : NodeId → Prop} :
    (∀ upper ∈ arena.ancestors node, id ∈ arena.lineage upper → clear upper) ↔
      clear id ∧ ∀ upper ∈ arena.ancestors node, child ∈ arena.lineage upper → clear upper := by
  constructor
  · intro hClear
    refine ⟨hClear id (h.mem_ancestors_of_child member below) (mem_lineage_self arena id), ?_⟩
    intro upper above hChild
    exact hClear upper above (mem_lineage.mpr (.inr (h.mem_ancestors_of_child member hChild)))
  · rintro ⟨hSelf, hClear⟩ upper above hBelow
    rcases mem_lineage.mp hBelow with rfl | hFurther
    · exact hSelf
    · -- the child and the upper node are on one way, and nothing lies between the node and its child
      rcases mem_lineage_or_mem_lineage below (mem_lineage.mpr (.inr above)) with hChild | hChild
      · exact hClear upper above hChild
      · rcases mem_lineage.mp hChild with rfl | hBetween
        · exact hClear upper above (mem_lineage_self arena upper)
        · rw [h.ancestors_child (h.mem_childrenOf.mp member)] at hBetween
          exact absurd hBetween (not_mem_lineage_of_mem_ancestors hFurther)

/-- A node is listed when it is the first one or below it, and no node on the way is skipped. -/
theorem mem_preorderBy (h : arena.WellNumbered forest) :
    node ∈ arena.preorderBy verdict id ↔ id ∈ arena.lineage node ∧
      ∀ upper ∈ arena.ancestors node, id ∈ arena.lineage upper → verdict upper = .descend := by
  induction id using h.induction_down with
  | step id ih =>
      -- nothing above a node is on the way to it
      have hSelf : id ∈ arena.lineage id ∧
          ∀ upper ∈ arena.ancestors id, id ∈ arena.lineage upper → verdict upper = .descend :=
        ⟨mem_lineage_self arena id,
          fun upper above below => absurd below (not_mem_lineage_of_mem_ancestors above)⟩
      cases hVerdict : verdict id with
      | skip =>
          rw [preorderBy_skip hVerdict, List.mem_singleton]
          constructor
          · rintro rfl
            exact hSelf
          · rintro ⟨below, clear⟩
            rcases mem_lineage.mp below with hSame | hBelow
            · exact hSame.symm
            · have hDescends := clear id hBelow (mem_lineage_self arena id)
              rw [hVerdict] at hDescends
              cases hDescends
      | descend =>
          rw [h.preorderBy_descend hVerdict, List.mem_cons, List.mem_flatMap]
          constructor
          · rintro (rfl | ⟨child, member, listed⟩)
            · exact hSelf
            · obtain ⟨below, clear⟩ := (ih child member).mp listed
              exact ⟨mem_lineage.mpr (.inr (h.mem_ancestors_of_child member below)),
                (h.clear_of_child member below).mpr ⟨hVerdict, clear⟩⟩
          · rintro ⟨below, clear⟩
            rcases mem_lineage.mp below with hSame | hBelow
            · exact .inl hSame.symm
            · obtain ⟨child, member, hChild⟩ := h.exists_childrenOf_in_lineage hBelow
              have hClear := ((h.clear_of_child member hChild).mp clear).2
              exact .inr ⟨child, member, (ih child member).mpr ⟨hChild, hClear⟩⟩

/-- No node is listed twice. -/
theorem nodup_preorderBy (h : arena.WellNumbered forest) (verdict : NodeId → Verdict) (id : NodeId) :
    (arena.preorderBy verdict id).Nodup := by
  induction id using h.induction_down with
  | step id ih =>
      cases hVerdict : verdict id with
      | skip =>
          rw [preorderBy_skip hVerdict]
          exact List.nodup_singleton id
      | descend =>
          rw [h.preorderBy_descend hVerdict, List.nodup_cons, List.nodup_flatMap]
          refine ⟨?_, ih, ?_⟩
          · intro listed
            obtain ⟨child, member, hListed⟩ := List.mem_flatMap.mp listed
            have hBelow := h.mem_ancestors_of_child member (h.mem_preorderBy.mp hListed).1
            exact arena.not_mem_ancestors_self id hBelow
          · refine (h.nodup_childrenOf id).imp_of_mem ?_
            intro first second hFirst hSecond distinct node inFirst inSecond
            exact distinct (h.child_unique hFirst hSecond (h.mem_preorderBy.mp inFirst).1
              (h.mem_preorderBy.mp inSecond).1)

theorem mem_preorder (h : arena.WellNumbered forest) :
    node ∈ arena.preorder id ↔ id ∈ arena.lineage node := by
  rw [preorder, h.mem_preorderBy]
  simp

theorem nodup_preorder (h : arena.WellNumbered forest) (id : NodeId) :
    (arena.preorder id).Nodup :=
  h.nodup_preorderBy _ id

/-- The list starts with the node itself; the rest is properly below it. -/
theorem preorder_eq_cons (h : arena.WellNumbered forest) (id : NodeId) :
    arena.preorder id = id :: (arena.preorder id).tail ∧ id ∉ (arena.preorder id).tail := by
  have hCons : arena.preorder id = id :: (arena.preorder id).tail := by
    rw [preorder, h.preorderBy_descend rfl]
    rfl
  have hNodup := h.nodup_preorder id
  rw [hCons] at hNodup
  exact ⟨hCons, (List.nodup_cons.mp hNodup).1⟩

end WellNumbered

/-- Nodes with verdicts in recursive order: each of some nodes is followed, unless it is skipped, by
what comes from its children in order. The children of a node that is not skipped were asked for. -/
inductive Sequence (arena : Arena) : List NodeId → List (NodeId × Verdict) → Prop where
  | done : Sequence arena [] []
  | skip {id : NodeId} {rest : List NodeId} {calls : List (NodeId × Verdict)}
      (next : Sequence arena rest calls) : Sequence arena (id :: rest) ((id, .skip) :: calls)
  | descend {id : NodeId} {rest ids : List NodeId} {inner calls : List (NodeId × Verdict)}
      (children : arena.children? id = some ids) (below : Sequence arena ids inner)
      (next : Sequence arena rest calls) :
      Sequence arena (id :: rest) ((id, .descend) :: (inner ++ calls))

namespace Sequence

variable {forest : Forest} {arena : Arena} {nodes : List NodeId} {calls : List (NodeId × Verdict)}

theorem eq_preorderBy (sequence : arena.Sequence nodes calls) (h : arena.WellNumbered forest)
    {verdict : NodeId → Verdict} (agrees : ∀ call ∈ calls, verdict call.1 = call.2) :
    calls = (nodes.flatMap (arena.preorderBy verdict)).map fun id => (id, verdict id) := by
  induction sequence with
  | done => rfl
  | skip _ ih =>
      obtain ⟨hSkip, hRest⟩ := List.forall_mem_cons.mp agrees
      rw [List.flatMap_cons, preorderBy_skip hSkip, List.map_append, ← ih hRest]
      simp [hSkip]
  | descend children _ _ ihBelow ihNext =>
      obtain ⟨hDescend, hOthers⟩ := List.forall_mem_cons.mp agrees
      obtain ⟨hInner, hRest⟩ := List.forall_mem_append.mp hOthers
      rw [List.flatMap_cons, h.preorderBy_descend hDescend, childrenOf_eq children,
        List.cons_append, List.map_cons, List.map_append, ← ihBelow hInner, ← ihNext hRest]
      simp [hDescend]

/-- Skipping leaves the order of the other nodes as it is. -/
theorem sublist_preorder (sequence : arena.Sequence nodes calls) (h : arena.WellNumbered forest) :
    (calls.map Prod.fst).Sublist (nodes.flatMap arena.preorder) := by
  have hPreorder : ∀ id, arena.preorder id =
      id :: (arena.childrenOf id).flatMap arena.preorder := fun id => h.preorderBy_descend rfl
  induction sequence with
  | done => exact .slnil
  | skip _ ih =>
      rw [List.flatMap_cons, hPreorder, List.cons_append, List.map_cons]
      exact (ih.trans (List.sublist_append_right _ _)).cons_cons _
  | descend children _ _ ihBelow ihNext =>
      rw [List.flatMap_cons, hPreorder, childrenOf_eq children, List.cons_append, List.map_cons,
        List.map_append]
      exact (ihBelow.append ihNext).cons_cons _

/-- As no node comes twice, the verdicts are those of one function. -/
theorem exists_verdict {id : NodeId} (sequence : arena.Sequence [id] calls)
    (h : arena.WellNumbered forest) :
    ∃ verdict : NodeId → Verdict, ∀ call ∈ calls, verdict call.1 = call.2 := by
  have hNodup : (calls.map Prod.fst).Nodup := by
    apply (sequence.sublist_preorder h).nodup
    simpa using h.nodup_preorder id
  clear sequence
  induction calls with
  | nil => exact ⟨fun _ => .skip, fun _ member => nomatch member⟩
  | cons first rest ih =>
      obtain ⟨hFresh, hRest⟩ := List.nodup_cons.mp hNodup
      obtain ⟨verdict, agrees⟩ := ih hRest
      refine ⟨fun node => if node = first.1 then first.2 else verdict node, ?_⟩
      rw [List.forall_mem_cons]
      refine ⟨if_pos rfl, ?_⟩
      intro call member
      have hOther : call.1 ≠ first.1 := by
        intro hSame
        apply hFresh
        rw [← hSame]
        exact List.mem_map_of_mem member
      dsimp only
      rw [if_neg hOther]
      exact agrees call member

end Sequence

/-- The pre-order from a node that is pruned by verdicts: it is the recursive order, no node comes
twice, and a node comes exactly when it is the first one or below it and no node on the way is
skipped. -/
structure PrunedPreorder (arena : Arena) (verdict : NodeId → Verdict) (start : NodeId)
    (nodes : List NodeId) : Prop where
  recursive : arena.Sequence [start] (nodes.map fun id => (id, verdict id))
  once : nodes.Nodup
  exactly : ∀ node, node ∈ nodes ↔ start ∈ arena.lineage node ∧
    ∀ upper ∈ arena.ancestors node, start ∈ arena.lineage upper → verdict upper = .descend

/-- Such a list is a function of the arena. -/
theorem Sequence.prunedPreorder {forest : Forest} {arena : Arena} {start : NodeId}
    {calls : List (NodeId × Verdict)} {verdict : NodeId → Verdict}
    (sequence : arena.Sequence [start] calls) (h : arena.WellNumbered forest)
    (agrees : ∀ call ∈ calls, verdict call.1 = call.2) :
    calls.map Prod.fst = arena.preorderBy verdict start ∧
      arena.PrunedPreorder verdict start (calls.map Prod.fst) := by
  have hCalls : calls = (arena.preorderBy verdict start).map fun id => (id, verdict id) := by
    have hAll := sequence.eq_preorderBy h agrees
    rwa [List.flatMap_singleton] at hAll
  have hNodes : calls.map Prod.fst = arena.preorderBy verdict start := by
    rw [hCalls, List.map_map]
    exact List.map_id _
  refine ⟨hNodes, ?_, ?_, ?_⟩
  · rw [hNodes, ← hCalls]
    exact sequence
  · rw [hNodes]
    exact h.nodup_preorderBy verdict start
  · intro node
    rw [hNodes]
    exact h.mem_preorderBy

end Arena

end SyntaxAtlas
