import Mathlib.Data.List.Forall2
import SyntaxAtlas.Graph.Naming
import SyntaxAtlas.Proofs.Graph.Containment

/-! Two histories of one forest. The same node may have different numbers in two arenas, but it stands
at the same place of the tree and shows the same. What is listed by walks that ask for the same children
in both arenas is the same node by node. -/
namespace SyntaxAtlas

namespace Arena

/-- Two nodes of two arenas that stand at the same place of the tree, and show the same there. -/
structure Alike (forest : Forest) (first second : Arena) (id other : NodeId) : Prop where
  known : id < first.size
  known' : other < second.size
  address : second.address other = first.address id
  kind : second.kind other = first.kind id
  span : second.span other = first.span id
  origin : second.origin other = first.origin id
  field : forest.field? second other = forest.field? first id

section Addresses

variable {forest : Forest} {arena later : Arena} {id child : NodeId} {ids : List NodeId}
  {place : Nat}

theorem address_eq (arena : Arena) (id : NodeId) :
    arena.address id = ((arena.lineage id).reverse.drop 1).map arena.childIndex :=
  rfl

namespace WellNumbered

theorem address_root (h : arena.WellNumbered forest) : arena.address Arena.root = [] := by
  rw [address_eq, lineage, ancestors_of_alone h.rootParent]
  rfl

/-- One place more for every step down. -/
theorem address_child (h : arena.WellNumbered forest) (known : id < arena.size)
    (children : arena.children? id = some ids) (found : ids[place]? = some child) :
    arena.address child = arena.address id ++ [place] := by
  obtain ⟨hPlace, hChild⟩ := List.getElem?_eq_some_iff.mp found
  have hParent := (h.of_mem_children known children (List.mem_of_getElem? found)).2.2.1
  have hIndex : arena.childIndex child = place := by
    rw [childIndex, hParent]
    simp only [children, Option.getD_some]
    rw [← hChild]
    exact (h.nodup_children known children).idxOf_getElem place hPlace
  have hLine : (arena.lineage child).reverse = (arena.lineage id).reverse ++ [child] := by
    rw [lineage, h.ancestors_child hParent, List.reverse_cons]
  have hOne : 1 ≤ (arena.lineage id).reverse.length := by simp [lineage]
  rw [address_eq, address_eq, hLine, List.drop_append_of_le_length hOne, List.map_append,
    List.map_singleton, hIndex]

/-- A place below which a node stands. -/
theorem exists_place (h : arena.WellNumbered forest) (known : child < arena.size)
    (other : child ≠ Arena.root) :
    ∃ (id : NodeId) (ids : List NodeId) (place : Nat), id < child ∧ id < arena.size ∧
      arena.children? id = some ids ∧ ids[place]? = some child := by
  obtain ⟨id, ids, hKnown, hChildren, member, hParent⟩ := h.exists_parent known other
  obtain ⟨place, found⟩ := List.mem_iff_getElem?.mp member
  exact ⟨id, ids, place, h.parent_lt hParent, hKnown, hChildren, found⟩

/-- An address belongs to one node. -/
theorem address_injective (h : arena.WellNumbered forest) {other : NodeId} (known : id < arena.size)
    (known' : other < arena.size) (same : arena.address id = arena.address other) : id = other := by
  induction id using Nat.strongRecOn generalizing other with
  | ind id ih =>
      by_cases hRoot : id = Arena.root
      · by_contra hOther
        obtain ⟨_, _, _, _, hKnown, hChildren, found⟩ :=
          h.exists_place known' (hRoot ▸ Ne.symm hOther)
        rw [hRoot, h.address_root, h.address_child hKnown hChildren found] at same
        simp at same
      · obtain ⟨parent, ids, place, before, hKnown, hChildren, found⟩ := h.exists_place known hRoot
        rw [h.address_child hKnown hChildren found] at same
        by_cases hRoot' : other = Arena.root
        · rw [hRoot', h.address_root] at same
          simp at same
        · obtain ⟨parent', ids', place', _, hKnown', hChildren', found'⟩ :=
            h.exists_place known' hRoot'
          rw [h.address_child hKnown' hChildren' found'] at same
          obtain ⟨hParents, hPlaces⟩ := List.append_inj' same rfl
          obtain rfl := ih parent before hKnown hKnown' hParents
          obtain rfl := Option.some.inj (hChildren.symm.trans hChildren')
          obtain rfl := List.singleton_inj.mp hPlaces
          exact Option.some.inj (found.symm.trans found')

end WellNumbered

/-- The place of a numbered node never changes. -/
theorem Extends.address (keeps : arena.Extends later) (h : arena.WellNumbered forest)
    (known : id < arena.size) : later.address id = arena.address id := by
  rw [address_eq, address_eq, lineage, lineage, keeps.ancestors known]
  apply List.map_congr_left
  intro node member
  have hNode : node ∈ arena.lineage id :=
    List.mem_reverse.mp (List.mem_of_mem_drop member)
  have hKnown : node < arena.size := by
    rcases mem_lineage.mp hNode with rfl | above
    · exact known
    · exact Nat.lt_trans (lt_of_mem_ancestors above) known
  rw [childIndex, childIndex, keeps.parent node hKnown]
  cases hParent : arena.parent? node with
  | none => rfl
  | some parent =>
      obtain ⟨ids, hListed, hChildren, _⟩ := h.listed_by_parent hParent
      dsimp only
      rw [hChildren, keeps.children parent ids hListed hChildren]

end Addresses

namespace Alike

variable {forest : Forest} {first second laterFirst laterSecond : Arena} {id other : NodeId}

/-- Alike nodes of one arena are one node. -/
theorem eq (h : first.WellNumbered forest) (alike : Alike forest first first id other) :
    id = other :=
  h.address_injective alike.known alike.known' alike.address.symm

theorem keep (alike : Alike forest first second id other) (before : first.WellNumbered forest)
    (after : second.WellNumbered forest) (left : first.Extends laterFirst)
    (right : second.Extends laterSecond) : Alike forest laterFirst laterSecond id other where
  known := left.lt alike.known
  known' := right.lt alike.known'
  address := by
    rw [left.address before alike.known, right.address after alike.known', alike.address]
  kind := by rw [left.kind id alike.known, right.kind other alike.known', alike.kind]
  span := by rw [left.span id alike.known, right.span other alike.known', alike.span]
  origin := by rw [left.origin id alike.known, right.origin other alike.known', alike.origin]
  field := by
    rw [forest.field?_extends left alike.known, forest.field?_extends right alike.known',
      alike.field]

theorem root (before : first.WellNumbered forest) (after : second.WellNumbered forest) :
    Alike forest first second Arena.root Arena.root where
  known := before.nonempty
  known' := after.nonempty
  address := by rw [before.address_root, after.address_root]
  kind := by rw [before.root.kind, after.root.kind]
  span := by rw [before.root.span, after.root.span]
  origin := by rw [before.root.origin, after.root.origin]
  field := by rw [Forest.field?, Forest.field?, before.rootParent, after.rootParent]

theorem sourceText (alike : Alike forest first second id other) :
    forest.sourceText second other = forest.sourceText first id := by
  simp only [Forest.sourceText, Forest.unit?, alike.origin, alike.span]

/-- Alike nodes have the same children in the same order. -/
theorem children (alike : Alike forest first second id other)
    (before : first.WellNumbered forest) (after : second.WellNumbered forest)
    {ids others : List NodeId} (children : first.children? id = some ids)
    (children' : second.children? other = some others) :
    List.Forall₂ (Alike forest first second) ids others := by
  rw [List.forall₂_iff_get]
  constructor
  · rw [before.length_children alike.known children,
      after.length_children alike.known' children', alike.origin]
  · intro place hPlace hPlace'
    have found := List.getElem?_eq_getElem hPlace
    have found' := List.getElem?_eq_getElem hPlace'
    obtain ⟨sprout, hSprout, shows⟩ := before.shows_child alike.known children found
    obtain ⟨sprout', hSprout', shows'⟩ := after.shows_child alike.known' children' found'
    rw [alike.origin, hSprout] at hSprout'
    obtain rfl := Option.some.inj hSprout'
    obtain ⟨_, hKnown, hParent, _⟩ :=
      before.of_mem_children alike.known children (List.mem_of_getElem? found)
    obtain ⟨_, hKnown', hParent', _⟩ :=
      after.of_mem_children alike.known' children' (List.mem_of_getElem? found')
    refine ⟨hKnown, hKnown', ?_, ?_, ?_, ?_, ?_⟩
    · rw [List.get_eq_getElem, List.get_eq_getElem,
        before.address_child alike.known children found,
        after.address_child alike.known' children' found', alike.address]
    · exact shows'.kind.trans shows.kind.symm
    · exact shows'.span.trans shows.span.symm
    · exact shows'.origin.trans shows.origin.symm
    · simp only [Forest.field?, Forest.element?, List.get_eq_getElem, hParent, hParent',
        shows.origin, shows'.origin]

end Alike

/-- Walks with the same verdicts list alike nodes. -/
theorem Sequence.alike {forest : Forest} {first second : Arena} {nodes others : List NodeId}
    {calls calls' : List (NodeId × Verdict)} {verdict verdict' : NodeId → Verdict}
    (sequence : first.Sequence nodes calls) (sequence' : second.Sequence others calls')
    (before : first.WellNumbered forest) (after : second.WellNumbered forest)
    (start : List.Forall₂ (Alike forest first second) nodes others)
    (agrees : ∀ call ∈ calls, verdict call.1 = call.2)
    (agrees' : ∀ call ∈ calls', verdict' call.1 = call.2)
    (same : ∀ id other, Alike forest first second id other → verdict' other = verdict id) :
    List.Forall₂ (Alike forest first second) (calls.map Prod.fst) (calls'.map Prod.fst) := by
  induction sequence generalizing others calls' with
  | done =>
      cases start
      cases sequence'
      exact .nil
  | skip next ih =>
      obtain ⟨hSkip, hRest⟩ := List.forall_mem_cons.mp agrees
      obtain _ | ⟨alike, rest⟩ := start
      cases sequence' with
      | skip next' => exact .cons alike (ih next' rest hRest (List.forall_mem_cons.mp agrees').2)
      | descend children' below' next' =>
          have hDescend := (List.forall_mem_cons.mp agrees').1
          rw [same _ _ alike, hSkip] at hDescend
          cases hDescend
  | descend children below next ihBelow ihNext =>
      obtain ⟨hDescend, hRest⟩ := List.forall_mem_cons.mp agrees
      obtain ⟨hInner, hNext⟩ := List.forall_mem_append.mp hRest
      obtain _ | ⟨alike, rest⟩ := start
      cases sequence' with
      | skip next' =>
          have hSkip := (List.forall_mem_cons.mp agrees').1
          rw [same _ _ alike, hDescend] at hSkip
          cases hSkip
      | descend children' below' next' =>
          obtain ⟨hInner', hNext'⟩ :=
            List.forall_mem_append.mp (List.forall_mem_cons.mp agrees').2
          rw [List.map_cons, List.map_cons, List.map_append, List.map_append]
          exact .cons alike (List.rel_append
            (ihBelow below' (alike.children before after children children') hInner hInner')
            (ihNext next' rest hNext hNext'))

/-- Pruned pre-orders from the root with the same verdicts list alike nodes. -/
theorem PrunedPreorder.alike {forest : Forest} {first second : Arena} {nodes others : List NodeId}
    {verdict verdict' : NodeId → Verdict} (pruned : first.PrunedPreorder verdict Arena.root nodes)
    (pruned' : second.PrunedPreorder verdict' Arena.root others)
    (before : first.WellNumbered forest) (after : second.WellNumbered forest)
    (same : ∀ id other, Alike forest first second id other → verdict' other = verdict id) :
    List.Forall₂ (Alike forest first second) nodes others := by
  have hAlike := pruned.recursive.alike pruned'.recursive before after
    (.cons (.root before after) .nil) (by simp) (by simp) same
  simpa using hAlike

section Choices

variable {forest : Forest} {first second : Arena} {ids others : List NodeId}
  {test test' : NodeId → Bool} (alike : List.Forall₂ (Alike forest first second) ids others)
  (same : ∀ id other, Alike forest first second id other → test' other = test id)

include alike

theorem head?_alike : Option.Rel (Alike forest first second) ids.head? others.head? := by
  cases alike with
  | nil => exact .none
  | cons head _ => exact .some head

include same

theorem filter_alike :
    List.Forall₂ (Alike forest first second) (ids.filter test) (others.filter test') := by
  apply List.rel_filter _ alike
  intro id other hAlike
  simp [same id other hAlike]

/-- A choice by what alike nodes have in common. -/
theorem find?_alike :
    Option.Rel (Alike forest first second) (ids.find? test) (others.find? test') := by
  rw [← List.head?_filter, ← List.head?_filter]
  exact head?_alike (filter_alike alike same)

omit alike same in
/-- A second choice counts when the first one fails, and it fails in both arenas or in none. -/
theorem or_alike {found found' rest rest' : Option NodeId}
    (head : Option.Rel (Alike forest first second) found found')
    (tail : Option.Rel (Alike forest first second) rest rest') :
    Option.Rel (Alike forest first second) (found.or rest) (found'.or rest') := by
  cases head with
  | none =>
      rw [Option.none_or, Option.none_or]
      exact tail
  | some alike => exact .some alike

end Choices

end Arena

end SyntaxAtlas
