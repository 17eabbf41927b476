import SyntaxAtlas.Proofs.Graph.Histories

/-! The tree that numbered nodes form at any time. It is read off the arena alone: parents, levels
and cached lists agree with each other, whatever was asked so far and in whatever order. -/
namespace SyntaxAtlas

namespace Arena

/-- Parents, levels and children of the numbered nodes fit together, and everything that they point
at is there. -/
structure Coherent (forest : Forest) (arena : Arena) : Prop where
  /-- The root is there. -/
  nonempty : Arena.root < arena.size
  /-- No other node is without a parent. -/
  root_iff : ∀ id, id < arena.size → (arena.parent? id = none ↔ id = Arena.root)
  rootLevel : arena.level Arena.root = 0
  /-- A node that is not the root is listed once, by its parent, and by nobody else. -/
  below : ∀ id, id < arena.size → id ≠ Arena.root →
    ∃ parent ids, arena.parent? id = some parent ∧ parent < id ∧
      arena.level id = arena.level parent + 1 ∧
      arena.children? parent = some ids ∧ ids.count id = 1 ∧
      ∀ other others, other < arena.size → other ≠ parent →
        arena.children? other = some others → id ∉ others
  /-- Lists of children are runs of consecutive numbers. -/
  run : ∀ id ids, id < arena.size → arena.children? id = some ids →
    ∃ first, ids = List.range' first ids.length
  disjoint : ∀ id other ids others, id < arena.size → other < arena.size → id ≠ other →
    arena.children? id = some ids → arena.children? other = some others → ids.Disjoint others
  /-- Together the lists hold every number but that of the root. -/
  covered : ∀ id, (id < arena.size ∧ id ≠ Arena.root) ↔
    ∃ parent ids, parent < arena.size ∧ arena.children? parent = some ids ∧ id ∈ ids
  /-- No look-up for a unit, an element or a root fails. -/
  backed : ∀ id, id < arena.size → forest.Backs (arena.origin id)

namespace WellNumbered

variable {forest : Forest} {arena : Arena}

/-- Two lists with a common node belong to the same parent. -/
theorem lister_unique (h : arena.WellNumbered forest) {id first second : NodeId}
    {firsts seconds : List NodeId} (hFirst : first < arena.size) (hSecond : second < arena.size)
    (left : arena.children? first = some firsts) (right : arena.children? second = some seconds)
    (inFirst : id ∈ firsts) (inSecond : id ∈ seconds) : first = second := by
  have hLeft := (h.of_mem_children hFirst left inFirst).2.2.1
  have hRight := (h.of_mem_children hSecond right inSecond).2.2.1
  exact Option.some.inj (hLeft.symm.trans hRight)

/-- What growth keeps is enough for the tree to fit together. -/
theorem coherent (h : arena.WellNumbered forest) : arena.Coherent forest where
  nonempty := h.nonempty
  root_iff id known := by
    refine ⟨?_, ?_⟩
    · intro hNone
      by_contra other
      obtain ⟨parent, ids, _, _, _, hParent⟩ := h.exists_parent known other
      rw [hNone] at hParent
      cases hParent
    · rintro rfl
      exact h.rootParent
  rootLevel := h.rootLevel
  below id known other := by
    obtain ⟨parent, ids, hKnown, hChildren, member, hParent⟩ := h.exists_parent known other
    obtain ⟨hBehind, _, _, hLevel⟩ := h.of_mem_children hKnown hChildren member
    refine ⟨parent, ids, hParent, hBehind, hLevel, hChildren, ?_, ?_⟩
    · obtain ⟨first, _, rfl⟩ := h.family parent ids hKnown hChildren
      exact List.count_eq_one_of_mem List.nodup_range' member
    · intro lister others hLister hOther hOthers hMember
      exact hOther (h.lister_unique hLister hKnown hOthers hChildren hMember member)
  run id ids known hChildren := by
    obtain ⟨first, _, rfl⟩ := h.family id ids known hChildren
    exact ⟨first, by rw [List.length_range']⟩
  disjoint id other ids others known hOther hNe hChildren hOthers node inFirst inSecond :=
    hNe (h.lister_unique known hOther hChildren hOthers inFirst inSecond)
  covered id := by
    refine ⟨?_, ?_⟩
    · rintro ⟨known, other⟩
      obtain ⟨parent, ids, hParent, hChildren, member, _⟩ := h.exists_parent known other
      exact ⟨parent, ids, hParent, hChildren, member⟩
    · rintro ⟨parent, ids, hParent, hChildren, member⟩
      obtain ⟨hBehind, known, _, _⟩ := h.of_mem_children hParent hChildren member
      exact ⟨known, Nat.ne_of_gt (Nat.lt_of_le_of_lt (Nat.zero_le parent) hBehind)⟩
  backed := h.backed

end WellNumbered

end Arena

/-- After every history the numbered nodes fit together, and no continuation takes back anything
that was said about one of them. -/
theorem Reachable.coherent_and_kept {forest : Forest} {session : Session}
    (reached : Reachable forest session) :
    session.arena.Coherent forest ∧
      ∀ later, Leads forest session later → session.arena.Extends later.arena := by
  refine ⟨reached.sound.arena.coherent, ?_⟩
  intro later leads
  exact (leads.keeps reached.sound).arena

theorem Reachable.coherent_and_kept_sample :
    let session := Query.after Sample.forest (.start Sample.forest) .functionIndex
    session.arena.size = 9 ∧ session.arena.Coherent Sample.forest ∧
      ∀ later, Leads Sample.forest session later → session.arena.Extends later.arena :=
  ⟨by decide +kernel, Reachable.coherent_and_kept (.ask .functionIndex (Session.Knows.nil _))⟩

end SyntaxAtlas
