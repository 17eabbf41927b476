import SyntaxAtlas.Proofs.Snapshot.Descent
import SyntaxAtlas.Proofs.Snapshot.Layout

/-! How a snapshot grows. An element is put behind the others and entered in the list of its parent,
which may be any of them, so that branches may grow in turns. Seen from the lists, one push adds one
link, from the parent to the new element, and leaves the other links alone. That is all that is needed:
from a root without children, pushes make one tree and nothing else. All places that are given out or
listed stay below the number of elements, so that whatever can count the elements can hold the places.
Spans are not looked at. -/
namespace SyntaxAtlas

namespace Snapshot

/-- An element that is to be appended below a parent. -/
structure Push where
  parent : ElementId
  element : Element

/-- The snapshot after some pushes. -/
def afterPushes (snapshot : Snapshot) (pushes : List Push) : Snapshot :=
  pushes.foldl (fun snapshot push => (snapshot.pushChild push.parent push.element).1) snapshot

/-- Every push has a parent that exists when its turn comes. -/
def KnowsParents (snapshot : Snapshot) : List Push → Prop
  | [] => True
  | push :: rest =>
    push.parent < snapshot.size ∧
      (snapshot.pushChild push.parent push.element).1.KnowsParents rest

/-- What a push leads to: the element stands at the next place, as it was handed over but without
children; the parent lists it behind its other children; and every other element is what it was. -/
structure Appends (snapshot : Snapshot) (push : Push) (answer : Snapshot × ElementId) : Prop where
  next : answer.2 = snapshot.size
  size : answer.1.size = snapshot.size + 1
  leaf : answer.1.get? answer.2 = some { push.element with children := [] }
  listed : ∃ parent, snapshot.get? push.parent = some parent ∧
    answer.1.get? push.parent = some { parent with children := parent.children ++ [answer.2] }
  others : ∀ other, other ≠ answer.2 → other ≠ push.parent →
    answer.1.get? other = snapshot.get? other

/-- The elements make one tree below the first one, with the children of each in the order of their
places. -/
structure Treelike (snapshot : Snapshot) : Prop extends snapshot.Branching where
  rooted : 0 < snapshot.size
  listed : ∀ child, 0 < child → child < snapshot.size → ∃ lister, snapshot.Lists lister child
  increasing : ∀ id, (snapshot.children id).Pairwise (· < ·)

section Push

variable {snapshot : Snapshot} {parent : ElementId} {element : Element}

@[simp]
theorem size_ofRoot (root : Element) : (ofRoot root).size = 1 :=
  rfl

theorem get?_pushChild (known : parent < snapshot.size) (id : ElementId) :
    (snapshot.pushChild parent element).1.get? id =
      if id = snapshot.size then some { element with children := [] }
      else if id = parent then (snapshot.get? id).map (Element.adopt · [snapshot.size])
      else snapshot.get? id := by
  simp only [pushChild, get?, Array.getElem?_modify, Array.getElem?_push]
  by_cases hNew : id = snapshot.size
  · have hApart : parent ≠ id := hNew ▸ Nat.ne_of_lt known
    rw [if_neg hApart, if_pos hNew]
    exact if_pos hNew
  · have hOld : ¬ id = snapshot.elements.size := hNew
    rw [if_neg hOld, if_neg hNew]
    by_cases hParent : id = parent
    · rw [if_pos hParent.symm, if_pos hParent]
      rfl
    · rw [if_neg (Ne.symm hParent), if_neg hParent]

theorem appends_pushChild {push : Push} (known : push.parent < snapshot.size) :
    snapshot.Appends push (snapshot.pushChild push.parent push.element) where
  next := rfl
  size := size_pushChild ..
  leaf := by
    rw [get?_pushChild known]
    exact if_pos rfl
  listed := by
    obtain ⟨parent, found⟩ := exists_get?_of_lt known
    refine ⟨parent, found, ?_⟩
    rw [get?_pushChild known, if_neg (Nat.ne_of_lt known), if_pos rfl, found]
    rfl
  others := by
    intro other hPlace hParent
    rw [get?_pushChild known, if_neg hParent]
    exact if_neg hPlace

theorem children_eq_nil_of_size_le {id : ElementId} (absent : snapshot.size ≤ id) :
    snapshot.children id = [] := by
  rw [children, get?, Array.getElem?_eq_none absent]
  rfl

theorem children_pushChild (known : parent < snapshot.size) (id : ElementId) :
    (snapshot.pushChild parent element).1.children id =
      if id = parent then snapshot.children id ++ [snapshot.size] else snapshot.children id := by
  by_cases hNew : id = snapshot.size
  · have hApart : id ≠ parent := hNew ▸ Nat.ne_of_gt known
    rw [if_neg hApart, children_eq_nil_of_size_le (Nat.le_of_eq hNew.symm), children,
      get?_pushChild known, if_pos hNew]
    rfl
  · rw [children, get?_pushChild known, if_neg hNew]
    split_ifs with hParent
    · obtain ⟨element, found⟩ := exists_get?_of_lt (hParent ▸ known)
      simp [children, found, Element.adopt]
    · rfl

/-- A push adds one link. -/
theorem lists_pushChild_iff (known : parent < snapshot.size) {lister child : ElementId} :
    (snapshot.pushChild parent element).1.Lists lister child ↔
      snapshot.Lists lister child ∨ lister = parent ∧ child = snapshot.size := by
  unfold Lists
  rw [children_pushChild known]
  split_ifs with hParent <;> simp [hParent]

/-- No list mentions the place that is given out next. -/
theorem Branching.pushChild (h : snapshot.Branching) (known : parent < snapshot.size)
    (element : Element) : (snapshot.pushChild parent element).1.Branching := by
  have hFresh : ∀ lister, ¬ snapshot.Lists lister snapshot.size :=
    fun lister lists => Nat.lt_irrefl _ (h.forward lists).2
  constructor
  · intro lister child lists
    rw [size_pushChild]
    rcases (lists_pushChild_iff known).mp lists with hOld | ⟨rfl, rfl⟩
    · exact ⟨(h.forward hOld).1, Nat.lt_succ_of_lt (h.forward hOld).2⟩
    · exact ⟨known, Nat.lt_succ_self _⟩
  · intro lister other child first second
    rcases (lists_pushChild_iff known).mp first with hFirst | ⟨rfl, rfl⟩ <;>
      rcases (lists_pushChild_iff known).mp second with hSecond | ⟨rfl, hChild⟩
    · exact h.alone hFirst hSecond
    · exact absurd (hChild ▸ hFirst) (hFresh lister)
    · exact absurd hSecond (hFresh other)
    · rfl

end Push

namespace Treelike

variable {snapshot : Snapshot}

theorem ofRoot {root : Element} (bare : root.children = []) : (ofRoot root).Treelike := by
  have hChildren : ∀ id, (Snapshot.ofRoot root).children id = [] := by
    intro id
    cases id with
    | zero => exact bare
    | succ id => exact children_eq_nil_of_size_le (Nat.le_add_left 1 id)
  have hNone : ∀ lister child, ¬ (Snapshot.ofRoot root).Lists lister child := by
    intro lister child lists
    rw [Lists, hChildren] at lists
    cases lists
  constructor
  · exact ⟨fun lists => absurd lists (hNone _ _), fun lists => absurd lists (hNone _ _)⟩
  · exact Nat.one_pos
  · intro child hPositive hChild
    exact absurd hChild (Nat.not_lt.mpr hPositive)
  · intro id
    rw [hChildren]
    exact .nil

/-- One push. The new element is behind all that were listed so far. -/
theorem pushChild (tree : snapshot.Treelike) {parent : ElementId} (known : parent < snapshot.size)
    (element : Element) : (snapshot.pushChild parent element).1.Treelike := by
  constructor
  · exact tree.toBranching.pushChild known element
  · rw [size_pushChild]
    exact Nat.succ_pos _
  · intro child hPositive hChild
    rw [size_pushChild] at hChild
    rcases Nat.lt_succ_iff_lt_or_eq.mp hChild with hOld | rfl
    · obtain ⟨lister, lists⟩ := tree.listed child hPositive hOld
      exact ⟨lister, (lists_pushChild_iff known).mpr (.inl lists)⟩
    · exact ⟨parent, (lists_pushChild_iff known).mpr (.inr ⟨rfl, rfl⟩)⟩
  · intro id
    rw [children_pushChild known]
    split_ifs with hParent
    · refine List.pairwise_append.mpr ⟨tree.increasing id, List.pairwise_singleton .., ?_⟩
      intro child lists new member
      obtain rfl := List.mem_singleton.mp member
      exact (tree.forward lists).2
    · exact tree.increasing id

/-- A run, by induction on the pushes that are still to come. -/
theorem afterPushes (tree : snapshot.Treelike) {pushes : List Push}
    (known : snapshot.KnowsParents pushes) : (snapshot.afterPushes pushes).Treelike := by
  induction pushes generalizing snapshot with
  | nil => exact tree
  | cons push rest ih => exact ih (tree.pushChild known.1 push.element) known.2

/-- Going up from any element leads to the root. -/
theorem reached (tree : snapshot.Treelike) {id : ElementId} (known : id < snapshot.size) :
    snapshot.Reached id := by
  induction id using Nat.strongRecOn with
  | ind id ih =>
      rcases Nat.eq_zero_or_pos id with rfl | hPositive
      · exact reached_root snapshot
      · obtain ⟨lister, lists⟩ := tree.listed id hPositive known
        have hBefore := (tree.forward lists).1
        exact (ih lister hBefore (Nat.lt_trans hBefore known)).tail lists

end Treelike

theorem size_afterPushes (snapshot : Snapshot) (pushes : List Push) :
    (snapshot.afterPushes pushes).size = snapshot.size + pushes.length := by
  induction pushes generalizing snapshot with
  | nil => rfl
  | cons push rest ih =>
      rw [afterPushes, List.foldl_cons, ← afterPushes, ih, size_pushChild, List.length_cons]
      omega

/-- In the middle of a run, the parent of the next push is there. -/
theorem KnowsParents.lt_size {snapshot : Snapshot} {push : Push} {before after : List Push}
    (known : snapshot.KnowsParents (before ++ push :: after)) :
    push.parent < (snapshot.afterPushes before).size := by
  induction before generalizing snapshot with
  | nil => exact known.1
  | cons first rest ih => exact ih known.2

/-- Pushes below elements that exist, from a root without children. Each of them gets the next place
and changes nothing but the list of its parent. In the end the root is listed by no element, and every
other element by exactly one, which comes before it; the lists of children are strictly increasing; all
elements are below the root; and the table of listers inverts the lists. -/
theorem afterPushes_tree {root : Element} (bare : root.children = []) {pushes : List Push}
    (known : (ofRoot root).KnowsParents pushes) :
    (∀ before push after, pushes = before ++ push :: after →
      let snapshot := (ofRoot root).afterPushes before
      snapshot.size = before.length + 1 ∧
        snapshot.Appends push (snapshot.pushChild push.parent push.element)) ∧
    let snapshot := (ofRoot root).afterPushes pushes
    snapshot.root? = some 0 ∧ snapshot.size = pushes.length + 1 ∧
      (∀ lister, ¬ snapshot.Lists lister 0) ∧
      (∀ child, 0 < child → child < snapshot.size → ∃! lister, snapshot.Lists lister child) ∧
      (∀ lister child, snapshot.Lists lister child → lister < child ∧ child < snapshot.size) ∧
      (∀ id, (snapshot.children id).Pairwise (· < ·)) ∧
      (∀ id, id < snapshot.size → snapshot.Reached id) ∧
      ∃ parents, snapshot.parents? = some parents ∧ parents.length = snapshot.size ∧
        ∀ child lister, parents[child]? = some (some lister) ↔ snapshot.Lists lister child := by
  have hSize : ∀ pushes, ((ofRoot root).afterPushes pushes).size = pushes.length + 1 := by
    intro pushes
    rw [size_afterPushes, size_ofRoot, Nat.add_comm]
  constructor
  · rintro before push after rfl
    exact ⟨hSize before, appends_pushChild known.lt_size⟩
  · intro snapshot
    have hTree : snapshot.Treelike := (Treelike.ofRoot bare).afterPushes known
    refine ⟨if_neg (Nat.ne_of_gt hTree.rooted), hSize pushes, ?_, ?_, ?_, hTree.increasing, ?_, ?_⟩
    · intro lister lists
      exact Nat.not_lt_zero lister (hTree.forward lists).1
    · intro child hPositive hChild
      obtain ⟨lister, lists⟩ := hTree.listed child hPositive hChild
      exact ⟨lister, lists, fun other hOther => hTree.alone hOther lists⟩
    · intro lister child lists
      exact hTree.forward lists
    · intro id hKnown
      exact hTree.reached hKnown
    · exact hTree.parents?_inverts

end Snapshot

namespace Sample

def pushedRoot : Element :=
  { kind := "source_file", span := ⟨0, 30⟩ }

/-- Two declarations that grow in turns. Some elements come with children of their own. -/
def turnedPushes : List Snapshot.Push := [
  ⟨0, { kind := "function_declaration", span := ⟨0, 13⟩, children := [0, 3] }⟩,
  ⟨0, { kind := "type_declaration", span := ⟨14, 30⟩ }⟩,
  ⟨1, { kind := "identifier", span := ⟨5, 6⟩, field := some "name", children := [9] }⟩,
  ⟨2, { kind := "type_spec", span := ⟨19, 30⟩ }⟩,
  ⟨1, { kind := "block", span := ⟨9, 13⟩, field := some "body" }⟩]

end Sample

/-- The function lists its name and its block, although the type has grown in between. -/
theorem Snapshot.afterPushes_tree_sample :
    let snapshot := (Snapshot.ofRoot Sample.pushedRoot).afterPushes Sample.turnedPushes
    Sample.pushedRoot.children = [] ∧
      (Snapshot.ofRoot Sample.pushedRoot).KnowsParents Sample.turnedPushes ∧
      snapshot.children 1 = [3, 5] ∧ (∃! lister, snapshot.Lists lister 5) ∧
      ∃ parents, snapshot.parents? = some parents ∧ parents[5]? = some (some 1) := by
  intro snapshot
  have hKnown : (Snapshot.ofRoot Sample.pushedRoot).KnowsParents Sample.turnedPushes := by
    simp [Snapshot.KnowsParents, Sample.turnedPushes]
  have hChildren : snapshot.children 1 = [3, 5] := by decide
  obtain ⟨_, _, hSize, _, hAlone, _, _, _, parents, hParents, _, hInverse⟩ :=
    Snapshot.afterPushes_tree rfl hKnown
  refine ⟨rfl, hKnown, hChildren, hAlone 5 (by decide) ?_, parents, hParents, ?_⟩
  · rw [hSize]
    decide
  · exact (hInverse 5 1).mpr (by decide)

end SyntaxAtlas
