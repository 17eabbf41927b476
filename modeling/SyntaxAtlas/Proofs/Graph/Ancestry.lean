import SyntaxAtlas.Graph.Node
import SyntaxAtlas.Proofs.Graph.Arena

/-! The nodes above a node. They form a chain, which no growth changes once the node has a number.
Children share out what is below their parent: a node is below the parent exactly when it is one of
the children or below one of them, and then there is only one such child. -/
namespace SyntaxAtlas.Arena

/-- A node together with the nodes above it, the nearest first. -/
def lineage (arena : Arena) (id : NodeId) : List NodeId :=
  id :: arena.ancestors id

section Chains

variable {arena : Arena} {id parent upper other : NodeId}

theorem mem_lineage : upper ∈ arena.lineage id ↔ upper = id ∨ upper ∈ arena.ancestors id :=
  List.mem_cons

theorem mem_lineage_self (arena : Arena) (id : NodeId) : id ∈ arena.lineage id :=
  List.mem_cons_self

theorem data_of_unknown (unknown : ¬ id < arena.size) : arena.data id = default := by
  simp [data, Array.getD_eq_getD_getElem?, Array.getElem?_eq_none (Nat.not_lt.mp unknown)]

theorem known_of_parent (above : arena.parent? id = some parent) : id < arena.size := by
  by_contra hUnknown
  rw [parent?, data_of_unknown hUnknown] at above
  cases above

theorem known_of_children {ids : List NodeId} (children : arena.children? id = some ids) :
    id < arena.size := by
  by_contra hUnknown
  rw [children?, data_of_unknown hUnknown] at children
  cases children

theorem ancestors_of_alone (alone : arena.parent? id = none) : arena.ancestors id = [] := by
  rw [ancestors, alone]

theorem ancestors_of_parent (above : arena.parent? id = some parent) (before : parent < id) :
    arena.ancestors id = arena.lineage parent := by
  rw [ancestors, above]
  simp [before, lineage]

/-- A node has nothing above it, or its parent with everything above that. -/
theorem ancestors_cases (arena : Arena) (id : NodeId) :
    arena.ancestors id = [] ∨
      ∃ parent, arena.parent? id = some parent ∧ parent < id ∧
        arena.ancestors id = arena.lineage parent := by
  cases hParent : arena.parent? id with
  | none => exact .inl (ancestors_of_alone hParent)
  | some parent =>
      by_cases before : parent < id
      · exact .inr ⟨parent, rfl, before, ancestors_of_parent hParent before⟩
      · left
        rw [ancestors, hParent]
        simp [before]

theorem lt_of_mem_ancestors (above : upper ∈ arena.ancestors id) : upper < id := by
  induction id using Nat.strongRecOn with
  | ind id ih =>
      rcases arena.ancestors_cases id with hNone | ⟨parent, _, before, hParent⟩
      · simp [hNone] at above
      · rw [hParent] at above
        rcases mem_lineage.mp above with rfl | hFurther
        · exact before
        · exact Nat.lt_trans (ih parent before hFurther) before

theorem not_mem_ancestors_self (arena : Arena) (id : NodeId) : id ∉ arena.ancestors id :=
  fun above => Nat.lt_irrefl id (lt_of_mem_ancestors above)

theorem mem_ancestors_trans (above : upper ∈ arena.ancestors other)
    (below : other ∈ arena.ancestors id) : upper ∈ arena.ancestors id := by
  induction id using Nat.strongRecOn with
  | ind id ih =>
      rcases arena.ancestors_cases id with hNone | ⟨parent, _, before, hParent⟩
      · simp [hNone] at below
      · rw [hParent] at below ⊢
        rcases mem_lineage.mp below with rfl | hFurther
        · exact mem_lineage.mpr (.inr above)
        · exact mem_lineage.mpr (.inr (ih parent before hFurther))

/-- Of two nodes that have something in common, one is below the other. -/
theorem mem_lineage_or_mem_lineage (first : upper ∈ arena.lineage id)
    (second : other ∈ arena.lineage id) :
    upper ∈ arena.lineage other ∨ other ∈ arena.lineage upper := by
  induction id using Nat.strongRecOn with
  | ind id ih =>
      rcases mem_lineage.mp first with rfl | hFirst
      · exact .inr second
      · rcases mem_lineage.mp second with rfl | hSecond
        · exact .inl first
        · rcases arena.ancestors_cases id with hNone | ⟨parent, _, before, hParent⟩
          · simp [hNone] at hFirst
          · rw [hParent] at hFirst hSecond
            exact ih parent before hFirst hSecond

/-- What is above a numbered node never changes. -/
theorem Extends.ancestors {later : Arena} (keeps : arena.Extends later) (known : id < arena.size) :
    later.ancestors id = arena.ancestors id := by
  induction id using Nat.strongRecOn with
  | ind id ih =>
      have hSame := keeps.parent id known
      rw [Arena.ancestors, Arena.ancestors, hSame]
      cases arena.parent? id with
      | none => rfl
      | some parent =>
          by_cases before : parent < id
          · simp [before, ih parent before (Nat.lt_trans before known)]
          · simp [before]

end Chains

namespace WellNumbered

variable {forest : Forest} {arena : Arena} {id parent child : NodeId} {ids : List NodeId}

theorem listed_by_parent (h : arena.WellNumbered forest) (above : arena.parent? id = some parent) :
    ∃ ids, parent < arena.size ∧ arena.children? parent = some ids ∧ id ∈ ids := by
  have hNotRoot : id ≠ Arena.root := by
    rintro rfl
    rw [h.rootParent] at above
    cases above
  obtain ⟨lister, ids, hLister, hChildren, member, hParent⟩ :=
    h.exists_parent (known_of_parent above) hNotRoot
  obtain rfl := Option.some.inj (hParent.symm.trans above)
  exact ⟨ids, hLister, hChildren, member⟩

/-- A child is listed by its parent and by nobody else. -/
theorem mem_children_iff (h : arena.WellNumbered forest) (known : id < arena.size)
    (children : arena.children? id = some ids) :
    child ∈ ids ↔ arena.parent? child = some id := by
  constructor
  · intro member
    exact (h.of_mem_children known children member).2.2.1
  · intro above
    obtain ⟨others, _, hOthers, member⟩ := h.listed_by_parent above
    obtain rfl := Option.some.inj (hOthers.symm.trans children)
    exact member

theorem parent_lt (h : arena.WellNumbered forest) (above : arena.parent? id = some parent) :
    parent < id := by
  obtain ⟨ids, hParent, hChildren, member⟩ := h.listed_by_parent above
  exact (h.of_mem_children hParent hChildren member).1

theorem ancestors_child (h : arena.WellNumbered forest)
    (above : arena.parent? id = some parent) : arena.ancestors id = arena.lineage parent :=
  ancestors_of_parent above (h.parent_lt above)

theorem root_mem_lineage (h : arena.WellNumbered forest) (known : id < arena.size) :
    Arena.root ∈ arena.lineage id := by
  induction id using Nat.strongRecOn with
  | ind id ih =>
      by_cases hRoot : id = Arena.root
      · exact mem_lineage.mpr (.inl hRoot.symm)
      · obtain ⟨parent, _, hParent, _, _, above⟩ := h.exists_parent known hRoot
        refine mem_lineage.mpr (.inr ?_)
        rw [h.ancestors_child above]
        exact ih parent (h.parent_lt above) hParent

theorem nodup_children (h : arena.WellNumbered forest) (known : id < arena.size)
    (children : arena.children? id = some ids) : ids.Nodup := by
  obtain ⟨first, _, rfl⟩ := h.family id ids known children
  exact List.nodup_range'

/-- What is below a node is below exactly one of its children, or is that child. -/
theorem countP_children (h : arena.WellNumbered forest) (known : id < arena.size)
    (children : arena.children? id = some ids) (node : NodeId) :
    ids.countP (· ∈ arena.lineage node) = if id ∈ arena.ancestors node then 1 else 0 := by
  induction node using Nat.strongRecOn with
  | ind node ih =>
      have hListed : node ∈ ids ↔ arena.parent? node = some id := h.mem_children_iff known children
      cases hParent : arena.parent? node with
      | none =>
          have hAbsent : node ∉ ids := by
            rw [hListed, hParent]
            exact nofun
          have hZero : ids.countP (· ∈ [node]) = 0 := by
            refine List.countP_eq_zero.mpr ?_
            intro child member
            have hOther : child ≠ node := fun hSame => hAbsent (hSame ▸ member)
            simp [hOther]
          rw [lineage, ancestors_of_alone hParent, hZero]
          simp
      | some parent =>
          rw [lineage, h.ancestors_child hParent]
          by_cases hSelf : parent = id
          · subst hSelf
            have hOnly : ids.countP (· ∈ node :: arena.lineage parent) = ids.count node := by
              refine List.countP_congr ?_
              intro child member
              -- a child is behind its parent, and what is above the parent is before it
              have hBehind := (h.of_mem_children known children member).1
              have hOutside : child ∉ arena.lineage parent := by
                intro above
                rcases mem_lineage.mp above with rfl | hFurther
                · exact Nat.lt_irrefl _ hBehind
                · exact Nat.lt_asymm hBehind (lt_of_mem_ancestors hFurther)
              simp [hOutside]
            rw [hOnly, List.count_eq_one_of_mem (h.nodup_children known children)
              (hListed.mpr hParent)]
            simp [lineage]
          · have hAbsent : node ∉ ids := by
              rw [hListed, hParent]
              exact fun hSame => hSelf (Option.some.inj hSame)
            have hSame : ids.countP (· ∈ node :: arena.lineage parent) =
                ids.countP (· ∈ arena.lineage parent) := by
              refine List.countP_congr ?_
              intro child member
              have hOther : child ≠ node := fun hSame => hAbsent (hSame ▸ member)
              simp [hOther]
            rw [hSame, ih parent (h.parent_lt hParent)]
            simp [lineage, Ne.symm hSelf]

end WellNumbered

/-- A node that lies in no function. -/
structure Exposed (arena : Arena) (id : NodeId) : Prop where
  known : id < arena.size
  clear : ∀ upper ∈ arena.ancestors id, ¬ (arena.kind upper).isFuncDeclaration

/-- A function that lies in no other one. -/
structure Outermost (arena : Arena) (id : NodeId) : Prop extends arena.Exposed id where
  function : (arena.kind id).isFuncDeclaration

section Outermost

variable {forest : Forest} {arena later : Arena} {id other node : NodeId}

theorem Extends.exposed_iff (keeps : arena.Extends later) (known : id < arena.size) :
    later.Exposed id ↔ arena.Exposed id := by
  have hKinds : ∀ upper ∈ arena.ancestors id, later.kind upper = arena.kind upper := fun upper above =>
    keeps.kind upper (Nat.lt_trans (lt_of_mem_ancestors above) known)
  constructor
  · rintro ⟨_, clear⟩
    rw [keeps.ancestors known] at clear
    exact ⟨known, fun upper above => hKinds upper above ▸ clear upper above⟩
  · rintro ⟨_, clear⟩
    refine ⟨keeps.lt known, ?_⟩
    rw [keeps.ancestors known]
    exact fun upper above => (hKinds upper above).symm ▸ clear upper above

theorem Extends.outermost_iff (keeps : arena.Extends later) (known : id < arena.size) :
    later.Outermost id ↔ arena.Outermost id := by
  have hKind := keeps.kind id known
  have hExposed := keeps.exposed_iff known
  constructor
  · rintro ⟨exposed, function⟩
    exact ⟨hExposed.mp exposed, hKind ▸ function⟩
  · rintro ⟨exposed, function⟩
    exact ⟨hExposed.mpr exposed, hKind.symm ▸ function⟩

theorem Exposed.keep (exposed : arena.Exposed id) (keeps : arena.Extends later) :
    later.Exposed id :=
  (keeps.exposed_iff exposed.known).mpr exposed

theorem Outermost.keep (outermost : arena.Outermost id) (keeps : arena.Extends later) :
    later.Outermost id :=
  (keeps.outermost_iff outermost.known).mpr outermost

/-- Nothing is above the root. -/
theorem WellNumbered.exposed_root (h : arena.WellNumbered forest) : arena.Exposed Arena.root := by
  refine ⟨h.nonempty, ?_⟩
  simp [ancestors_of_alone h.rootParent]

/-- The children of an exposed node that is no function are exposed as well. -/
theorem Exposed.child (exposed : arena.Exposed id) (h : arena.WellNumbered forest)
    (above : arena.parent? node = some id) (other : ¬ (arena.kind id).isFuncDeclaration) :
    arena.Exposed node := by
  refine ⟨known_of_parent above, ?_⟩
  intro upper hUpper
  rw [h.ancestors_child above] at hUpper
  rcases mem_lineage.mp hUpper with rfl | hFurther
  · exact other
  · exact exposed.clear upper hFurther

/-- No node lies in two outermost functions. -/
theorem Outermost.unique (first : arena.Outermost id) (second : arena.Outermost other)
    (inFirst : id ∈ arena.lineage node) (inSecond : other ∈ arena.lineage node) : id = other := by
  rcases mem_lineage_or_mem_lineage inFirst inSecond with hBelow | hAbove
  · rcases mem_lineage.mp hBelow with hSame | hInside
    · exact hSame
    · exact absurd first.function (second.clear id hInside)
  · rcases mem_lineage.mp hAbove with hSame | hInside
    · exact hSame.symm
    · exact absurd second.function (first.clear other hInside)

theorem countP_outermost_le_one {functions : List NodeId} (nodup : functions.Nodup)
    (outermost : ∀ function ∈ functions, arena.Outermost function) (node : NodeId) :
    functions.countP (· ∈ arena.lineage node) ≤ 1 := by
  by_cases hNone : ∃ function ∈ functions, function ∈ arena.lineage node
  · obtain ⟨function, member, above⟩ := hNone
    have hOnly : functions.countP (· ∈ arena.lineage node) = functions.count function := by
      refine List.countP_congr ?_
      intro other hOther
      simp only [decide_eq_true_eq, beq_iff_eq]
      constructor
      · exact fun hAbove => (outermost other hOther).unique (outermost function member) hAbove above
      · rintro rfl
        exact above
    exact Nat.le_of_eq (hOnly.trans (List.count_eq_one_of_mem nodup member))
  · push Not at hNone
    have hZero : functions.countP (· ∈ arena.lineage node) = 0 := by
      simpa [List.countP_eq_zero] using hNone
    omega

end Outermost

end SyntaxAtlas.Arena
