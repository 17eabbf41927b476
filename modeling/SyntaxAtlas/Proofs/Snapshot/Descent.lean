import Mathlib.Logic.Relation
import SyntaxAtlas.Proofs.Snapshot.Flaws

/-! Descent in a snapshot. An element may be listed by another one; in a well-formed snapshot there is
at most one such lister, and it comes before the element. Wherever this is so, whatever the spans are,
the look-up of listers inverts the lists of children, although it only ever looks for the last lister.
Where a walk from the root visits every element once, in the order of the places, the lists of children
are those of one tree. -/
namespace SyntaxAtlas.Snapshot

variable {snapshot : Snapshot} {textLength : Nat} {id child lister other : ElementId}

/-- An element lists another one. -/
def Lists (snapshot : Snapshot) (id child : ElementId) : Prop :=
  child ∈ snapshot.children id

instance (snapshot : Snapshot) (id child : ElementId) : Decidable (snapshot.Lists id child) :=
  inferInstanceAs (Decidable (child ∈ snapshot.children id))

/-- An element is above another one, or is that element. -/
def Above (snapshot : Snapshot) (upper lower : ElementId) : Prop :=
  Relation.ReflTransGen snapshot.Lists upper lower

/-- An element that is found by going down from the root. -/
def Reached (snapshot : Snapshot) (id : ElementId) : Prop :=
  snapshot.Above 0 id

theorem mem_children_iff :
    child ∈ snapshot.children id ↔
      ∃ element, snapshot.get? id = some element ∧ child ∈ element.children := by
  unfold children
  cases snapshot.get? id <;> simp

theorem reached_root (snapshot : Snapshot) : snapshot.Reached 0 :=
  .refl

theorem Reached.tail (reached : snapshot.Reached id) (lists : snapshot.Lists id child) :
    snapshot.Reached child :=
  Relation.ReflTransGen.tail reached lists

/-- An element that is reached is the root, or it is listed by one that is reached. -/
theorem Reached.cases (reached : snapshot.Reached id) :
    id = 0 ∨ ∃ lister, snapshot.Reached lister ∧ snapshot.Lists lister id := by
  rcases Relation.ReflTransGen.cases_tail reached with hRoot | ⟨lister, hLister, lists⟩
  · exact .inl hRoot
  · exact .inr ⟨lister, hLister, lists⟩

/-- The lists of children are those of trees: a listed element exists, comes after the one that lists
it, and is listed by no other one. -/
structure Branching (snapshot : Snapshot) : Prop where
  forward : ∀ {id child}, snapshot.Lists id child → id < child ∧ child < snapshot.size
  alone : ∀ {id other child}, snapshot.Lists id child → snapshot.Lists other child → id = other

namespace Branching

/-- The look-up of a lister finds the only one. -/
theorem lister?_eq_some_iff (h : snapshot.Branching) :
    snapshot.lister? child = some lister ↔ snapshot.Lists lister child := by
  have hSound : ∀ found, snapshot.lister? child = some found → snapshot.Lists found child := by
    intro found hFound
    have hContains := List.find?_some (show List.find? _ _ = _ from hFound)
    exact List.contains_iff_mem.mp hContains
  constructor
  · exact hSound lister
  · intro lists
    obtain ⟨hBefore, hExists⟩ := h.forward lists
    have hMember : lister ∈ (List.range snapshot.size).reverse :=
      List.mem_reverse.mpr (List.mem_range.mpr (Nat.lt_trans hBefore hExists))
    have hSome : (snapshot.lister? child).isSome :=
      List.find?_isSome.mpr ⟨lister, hMember, List.contains_iff_mem.mpr lists⟩
    obtain ⟨found, hFound⟩ := Option.isSome_iff_exists.mp hSome
    rw [hFound, h.alone (hSound found hFound) lists]

/-- The table of listers inverts the lists of children. -/
theorem parents?_inverts (h : snapshot.Branching) :
    ∃ parents, snapshot.parents? = some parents ∧ parents.length = snapshot.size ∧
      ∀ child lister, parents[child]? = some (some lister) ↔ child ∈ snapshot.children lister := by
  have hExist : (snapshot.elements.all fun element => element.children.all (· < snapshot.size)) := by
    simp only [Array.all_eq_true_iff_forall_mem, List.all_eq_true, decide_eq_true_eq]
    intro element member child listed
    obtain ⟨id, hId, rfl⟩ := Array.mem_iff_getElem.mp member
    exact (h.forward (mem_children_iff.mpr ⟨_, Array.getElem?_eq_getElem hId, listed⟩)).2
  refine ⟨_, if_pos hExist, by simp, ?_⟩
  intro child lister
  rw [List.getElem?_map, Option.map_eq_some_iff]
  constructor
  · rintro ⟨place, hPlace, hLister⟩
    obtain ⟨_, rfl⟩ := List.getElem?_eq_some_iff.mp hPlace
    rw [List.getElem_range] at hLister
    exact h.lister?_eq_some_iff.mp hLister
  · intro lists
    exact ⟨child, List.getElem?_range (h.forward lists).2, h.lister?_eq_some_iff.mpr lists⟩

end Branching

namespace WellFormed

/-- A listed element exists and comes after the one that lists it. -/
theorem lt_of_lists (h : snapshot.WellFormed textLength) (lists : snapshot.Lists id child) :
    id < child ∧ child < snapshot.size := by
  obtain ⟨element, found, listed⟩ := mem_children_iff.mp lists
  exact h.forward id element found child listed

/-- What is reached exists, when there is a root. -/
theorem lt_size_of_reached (h : snapshot.WellFormed textLength) (hRoot : snapshot.root?.isSome)
    (reached : snapshot.Reached id) : id < snapshot.size := by
  rcases reached.cases with rfl | ⟨lister, _, lists⟩
  · unfold root? at hRoot
    split_ifs at hRoot with hEmpty
    · cases hRoot
    · exact Nat.pos_of_ne_zero hEmpty
  · exact (h.lt_of_lists lists).2

theorem nodup_children (h : snapshot.WellFormed textLength) (id : ElementId) :
    (snapshot.children id).Nodup := by
  unfold children
  cases found : snapshot.get? id with
  | none => exact List.nodup_nil
  | some element => exact ((unshared_iff snapshot).mp h.unshared id element found).1

/-- No element has two listers. -/
theorem lister_unique (h : snapshot.WellFormed textLength) (first : snapshot.Lists id child)
    (second : snapshot.Lists other child) : id = other := by
  have hUnshared := (unshared_iff snapshot).mp h.unshared
  obtain ⟨element, found, listed⟩ := mem_children_iff.mp first
  obtain ⟨rival, hRival, hListed⟩ := mem_children_iff.mp second
  rcases Nat.lt_trichotomy id other with hBefore | hSame | hBehind
  · exact absurd ⟨id, element, hBefore, found, listed⟩ ((hUnshared other rival hRival).2 child hListed)
  · exact hSame
  · exact absurd ⟨other, rival, hBehind, hRival, hListed⟩ ((hUnshared id element found).2 child listed)

theorem branching (h : snapshot.WellFormed textLength) : snapshot.Branching where
  forward := h.lt_of_lists
  alone := h.lister_unique

end WellFormed

/-- A walk that visits elements with everything below them, parents first. -/
inductive DepthFirst (snapshot : Snapshot) : List ElementId → List ElementId → Prop where
  | nil : DepthFirst snapshot [] []
  | cons {id : ElementId} {rest below after : List ElementId}
      (inner : DepthFirst snapshot (snapshot.children id) below)
      (outer : DepthFirst snapshot rest after) :
      DepthFirst snapshot (id :: rest) (id :: (below ++ after))

namespace DepthFirst

variable {starts order : List ElementId}

/-- Every visited element is a start or a child of a visited one, and only once. -/
theorem perm (walk : snapshot.DepthFirst starts order) :
    (starts ++ order.flatMap snapshot.children).Perm order := by
  induction walk with
  | nil => exact .refl _
  | @cons id rest below after _ _ ihInner ihOuter =>
      rw [List.flatMap_cons, List.flatMap_append, List.cons_append]
      refine List.Perm.cons id ?_
      calc rest ++ (snapshot.children id ++ (below.flatMap snapshot.children ++
            after.flatMap snapshot.children))
        _ = rest ++ ((snapshot.children id ++ below.flatMap snapshot.children) ++
            after.flatMap snapshot.children) := by rw [List.append_assoc]
        List.Perm _ (rest ++ (below ++ after.flatMap snapshot.children)) :=
          (ihInner.append_right _).append_left _
        List.Perm _ (below ++ (rest ++ after.flatMap snapshot.children)) :=
          List.perm_append_comm_assoc ..
        List.Perm _ (below ++ after) := ihOuter.append_left _

theorem mem_of_lists (walk : snapshot.DepthFirst starts order) (member : id ∈ order)
    (lists : snapshot.Lists id child) : child ∈ order :=
  walk.perm.mem_iff.mp (List.mem_append_right _ (List.mem_flatMap.mpr ⟨id, member, lists⟩))

/-- Children are visited after their parents. -/
theorem lt_of_lists (walk : snapshot.DepthFirst starts order)
    (increasing : order.Pairwise (· < ·)) (member : id ∈ order)
    (lists : snapshot.Lists id child) : id < child := by
  induction walk with
  | nil => cases member
  | @cons top rest below after inner outer ihInner ihOuter =>
      obtain ⟨hTop, hRest⟩ := List.pairwise_cons.mp increasing
      obtain ⟨hBelow, hAfter, _⟩ := List.pairwise_append.mp hRest
      rcases List.mem_cons.mp member with rfl | hMember
      · have hChild := inner.perm.mem_iff.mp (List.mem_append_left _ lists)
        exact hTop child (List.mem_append_left _ hChild)
      · rcases List.mem_append.mp hMember with hInner | hOuter
        · exact ihInner hBelow hInner
        · exact ihOuter hAfter hOuter

/-- What holds of the starts and is handed down to children holds of everything visited. -/
theorem all_visited {good : ElementId → Prop} (walk : snapshot.DepthFirst starts order)
    (first : ∀ start ∈ starts, good start)
    (step : ∀ id child, good id → snapshot.Lists id child → good child) :
    ∀ id ∈ order, good id := by
  induction walk with
  | nil => exact first
  | @cons top rest below after _ _ ihInner ihOuter =>
      have hTop := first top List.mem_cons_self
      have hInner := ihInner fun child lists => step top child hTop lists
      have hOuter := ihOuter fun start member => first start (List.mem_cons_of_mem top member)
      intro id member
      rcases List.mem_cons.mp member with rfl | hMember
      · exact hTop
      · rcases List.mem_append.mp hMember with hBelow | hAfter
        · exact hInner id hBelow
        · exact hOuter id hAfter

end DepthFirst

end SyntaxAtlas.Snapshot
