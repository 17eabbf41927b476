import Mathlib.Data.List.Forall2
import Mathlib.Data.List.Nodup
import SyntaxAtlas.Proofs.Graph.Acceptance
import SyntaxAtlas.Proofs.Snapshot.Descent
import SyntaxAtlas.Proofs.Snapshot.Layout

/-! Snapshots of concrete trees. Two things are read off the layout: the elements mirror the tree, less
what is not kept, and their places are the order in which a walk through the children comes by. The
rest follows from these: what a parser hands over makes a forest, and every element stands for one
node. -/
namespace SyntaxAtlas

namespace ConcreteTree

/-- Every span is ordered and encloses the spans right below it. -/
inductive Nested : ConcreteTree → Prop where
  | node {label : ConcreteLabel} {children : List ConcreteTree}
      (ordered : label.span.start ≤ label.span.stop)
      (inside : ∀ child ∈ children, label.span.Encloses child.label.span)
      (below : ∀ child ∈ children, Nested child) : Nested (.node label children)

/-- A tree over a text with a given number of bytes. -/
structure Fits (tree : ConcreteTree) (textLength : Nat) : Prop where
  nested : tree.Nested
  inside : (Span.mk 0 textLength).Encloses tree.label.span

/-- A node is reached along a path of places, through kept nodes only. The start need not be kept. -/
inductive Reaches : ConcreteTree → List Nat → ConcreteTree → Prop where
  | here (tree : ConcreteTree) : Reaches tree [] tree
  | step {tree child target : ConcreteTree} {place : Nat} {path : List Nat}
      (found : tree.children[place]? = some child) (kept : child.isKept)
      (further : Reaches child path target) : Reaches tree (place :: path) target

mutual

/-- The nodes of a tree that are reached from the node above it, parents first, with their paths from
there. The tree has a given place below that node. -/
def survivors (place : Nat) : ConcreteTree → List (List Nat × ConcreteTree)
  | .node label children =>
    if (node label children).isKept then
      ([place], .node label children) :: (survivorsAll 0 children).map (Prod.map (place :: ·) id)
    else
      []

def survivorsAll (place : Nat) : List ConcreteTree → List (List Nat × ConcreteTree)
  | [] => []
  | tree :: rest => tree.survivors place ++ survivorsAll (place + 1) rest

end

end ConcreteTree

namespace Snapshot

/-- An element has the properties of a node and lists, in order, elements that mirror the kept ones of
the nodes right below. -/
inductive Mirrors (snapshot : Snapshot) : Option String → ElementId → ConcreteTree → Prop where
  | node {field : Option String} {id : ElementId} {tree : ConcreteTree} {ids : List ElementId}
      (found : snapshot.get? id = some { tree.element field with children := ids })
      (below : List.Forall₂ (fun child inner => Mirrors snapshot inner.label.field child inner) ids
        (tree.children.filter ConcreteTree.isKept)) : Mirrors snapshot field id tree

theorem exists_mem_of_forall₂ {α β : Type} {related : α → β → Prop} {left : List α} {right : List β}
    (pairs : List.Forall₂ related left right) {item : α} (member : item ∈ left) :
    ∃ other ∈ right, related item other := by
  induction pairs with
  | nil => cases member
  | @cons first second _ _ hRelated _ ih =>
      rcases List.mem_cons.mp member with rfl | hMember
      · exact ⟨second, List.mem_cons_self, hRelated⟩
      · obtain ⟨other, hOther, hRest⟩ := ih hMember
        exact ⟨other, List.mem_cons_of_mem _ hOther, hRest⟩

namespace Mirrors

variable {snapshot : Snapshot} {field : Option String} {id child : ElementId} {tree : ConcreteTree}

theorem span_eq (mirrors : snapshot.Mirrors field id tree) {element : Element}
    (found : snapshot.get? id = some element) : element.span = tree.label.span := by
  cases mirrors with
  | node hFound _ =>
      cases found.symm.trans hFound
      rfl

/-- A child mirrors one of the nodes right below. -/
theorem of_lists (mirrors : snapshot.Mirrors field id tree) (lists : snapshot.Lists id child) :
    ∃ inner ∈ tree.children, snapshot.Mirrors inner.label.field child inner := by
  cases mirrors with
  | @node _ _ _ ids found below =>
      have hMember : child ∈ ids := by simpa [Lists, children, found] using lists
      obtain ⟨inner, hInner, hMirrors⟩ := exists_mem_of_forall₂ below hMember
      exact ⟨inner, List.mem_of_mem_filter hInner, hMirrors⟩

end Mirrors

theorem flatMap_children (snapshot : Snapshot) :
    snapshot.elements.toList.flatMap Element.children =
      (List.range snapshot.size).flatMap snapshot.children := by
  have hChildren : ∀ elements : List Element, elements.flatMap Element.children =
      (List.range elements.length).flatMap
        fun id => (elements[id]?.map Element.children).getD [] := by
    intro elements
    induction elements with
    | nil => rfl
    | cons element elements ih =>
        simp [List.range_succ_eq_map, List.flatMap_map, ih]
  rw [hChildren, ← size_eq_length]
  refine congrArg (List.flatMap · _) (funext fun id => ?_)
  rw [children, get?_eq_getElem?]

/-- Elements that mirror a tree over a text and are placed as they are visited are well formed. -/
theorem Mirrors.wellFormed {snapshot : Snapshot} {tree : ConcreteTree} {textLength : Nat}
    (mirrors : snapshot.Mirrors none 0 tree) (fits : tree.Fits textLength)
    (walk : snapshot.DepthFirst [0] (List.range snapshot.size)) : snapshot.WellFormed textLength := by
  -- every element is visited, so that all of them mirror nested nodes
  have hNested : ∀ id ∈ List.range snapshot.size, ∃ field node, snapshot.Mirrors field id node ∧
      node.Nested := by
    refine walk.all_visited ?_ ?_
    · intro start member
      obtain rfl := List.mem_singleton.mp member
      exact ⟨none, tree, mirrors, fits.nested⟩
    · rintro id child ⟨field, node, hMirrors, hNested⟩ lists
      obtain ⟨inner, hInner, hChild⟩ := hMirrors.of_lists lists
      cases hNested with
      | node _ _ below => exact ⟨_, inner, hChild, below inner hInner⟩
  have hVisited : ∀ id element, snapshot.get? id = some element →
      id ∈ List.range snapshot.size := by
    intro id element found
    exact List.mem_range.mpr (Array.getElem?_eq_some_iff.mp found).1
  refine ⟨?_, ?_, ?_, ?_, ?_⟩
  · intro id element found
    obtain ⟨_, node, hMirrors, hNode⟩ := hNested id (hVisited id element found)
    rw [hMirrors.span_eq found]
    cases hNode with
    | node ordered _ _ => exact ordered
  · intro id element found child listed
    have hLists : snapshot.Lists id child := mem_children_iff.mpr ⟨element, found, listed⟩
    have hId := hVisited id element found
    exact ⟨walk.lt_of_lists List.pairwise_lt_range hId hLists,
      List.mem_range.mp (walk.mem_of_lists hId hLists)⟩
  · have hNodup := walk.perm.nodup_iff.mpr List.nodup_range
    rw [flatMap_children]
    exact hNodup.of_append_right
  · intro root found
    rw [mirrors.span_eq found]
    exact fits.inside
  · intro id element found child listed inner hInner
    obtain ⟨_, node, hMirrors, hNode⟩ := hNested id (hVisited id element found)
    obtain ⟨below, hBelow, hChild⟩ :=
      hMirrors.of_lists (mem_children_iff.mpr ⟨element, found, listed⟩)
    rw [hMirrors.span_eq found, hChild.span_eq hInner]
    cases hNode with
    | node _ inside _ => exact inside below hBelow

/-- From a place on, a snapshot has some elements. -/
def HasFrom (snapshot : Snapshot) (first : ElementId) (elements : List Element) : Prop :=
  ∃ after, snapshot.elements.toList.drop first = elements ++ after

namespace HasFrom

variable {snapshot : Snapshot} {first : ElementId} {element : Element} {these more : List Element}

theorem get?_eq (has : snapshot.HasFrom first (element :: more)) :
    snapshot.get? first = some element := by
  obtain ⟨after, hDrop⟩ := has
  rw [get?_eq_getElem?, ← List.head?_drop, hDrop]
  rfl

theorem left (has : snapshot.HasFrom first (these ++ more)) : snapshot.HasFrom first these := by
  obtain ⟨after, hDrop⟩ := has
  exact ⟨more ++ after, by rw [hDrop, List.append_assoc]⟩

theorem right (has : snapshot.HasFrom first (these ++ more)) :
    snapshot.HasFrom (first + these.length) more := by
  obtain ⟨after, hDrop⟩ := has
  refine ⟨after, ?_⟩
  rw [← List.drop_drop, hDrop, List.append_assoc, List.drop_left]

/-- Where a kept tree is laid out, there is its element, then what is below it, and then the other
trees. -/
theorem of_layoutAll {label : ConcreteLabel} {below rest : List ConcreteTree}
    (kept : (ConcreteTree.node label below).isKept)
    (has : snapshot.HasFrom first (ConcreteTree.layoutAll first (.node label below :: rest))) :
    snapshot.get? first = some { (ConcreteTree.node label below).element label.field with
        children := ConcreteTree.tops (first + 1) below } ∧
      snapshot.HasFrom (first + 1) (ConcreteTree.layoutAll (first + 1) below) ∧
      snapshot.HasFrom (first + 1 + ConcreteTree.weightAll below)
        (ConcreteTree.layoutAll (first + 1 + ConcreteTree.weightAll below) rest) := by
  rw [ConcreteTree.layoutAll_cons_kept kept] at has
  have hTail := @HasFrom.right snapshot first [_] _ has
  refine ⟨has.get?_eq, hTail.left, ?_⟩
  have hRest := hTail.right
  rwa [ConcreteTree.length_layoutAll] at hRest

/-- What is laid out mirrors the kept ones of the trees. -/
theorem mirrors (trees : List ConcreteTree)
    (has : snapshot.HasFrom first (ConcreteTree.layoutAll first trees)) :
    List.Forall₂ (fun id tree => snapshot.Mirrors tree.label.field id tree)
      (ConcreteTree.tops first trees) (trees.filter ConcreteTree.isKept) := by
  induction trees using ConcreteTree.forest_induction generalizing first with
  | nil =>
      rw [ConcreteTree.tops]
      exact .nil
  | cons label below rest ihBelow ihRest =>
      cases hKept : (ConcreteTree.node label below).isKept with
      | true =>
          obtain ⟨hFound, hBelow, hRest⟩ := has.of_layoutAll hKept
          rw [ConcreteTree.tops_cons_kept hKept, List.filter_cons_of_pos hKept]
          exact .cons (.node hFound (ihBelow hBelow)) (ihRest hRest)
      | false =>
          rw [ConcreteTree.layoutAll_cons_dropped hKept] at has
          rw [ConcreteTree.tops_cons_dropped hKept, List.filter_cons_of_neg (by simp [hKept])]
          exact ihRest has

/-- What is laid out is visited from place to place. -/
theorem depthFirst (trees : List ConcreteTree)
    (has : snapshot.HasFrom first (ConcreteTree.layoutAll first trees)) :
    snapshot.DepthFirst (ConcreteTree.tops first trees)
      (List.range' first (ConcreteTree.weightAll trees)) := by
  induction trees using ConcreteTree.forest_induction generalizing first with
  | nil =>
      rw [ConcreteTree.tops, ConcreteTree.weightAll]
      exact .nil
  | cons label below rest ihBelow ihRest =>
      cases hKept : (ConcreteTree.node label below).isKept with
      | true =>
          obtain ⟨hFound, hBelow, hRest⟩ := has.of_layoutAll hKept
          have hChildren : snapshot.children first = ConcreteTree.tops (first + 1) below := by
            rw [children, hFound]
            rfl
          have hRange : ∀ inner outer, List.range' first (1 + inner + outer) =
              first :: (List.range' (first + 1) inner ++ List.range' (first + 1 + inner) outer) := by
            intro inner outer
            rw [List.range'_append_1, Nat.add_assoc, Nat.add_comm 1, List.range'_succ]
          rw [ConcreteTree.tops_cons_kept hKept, ConcreteTree.weightAll_cons_kept hKept, hRange]
          exact .cons (hChildren ▸ ihBelow hBelow) (ihRest hRest)
      | false =>
          rw [ConcreteTree.layoutAll_cons_dropped hKept] at has
          rw [ConcreteTree.tops_cons_dropped hKept, ConcreteTree.weightAll_cons_dropped hKept]
          exact ihRest has

end HasFrom

end Snapshot

namespace ConcreteTree

section Survivors

variable {label : ConcreteLabel} {below rest : List ConcreteTree} {place : Nat} {path : List Nat}
  {target : ConcreteTree}

theorem reaches_node_iff :
    (node label below).Reaches path target ↔ (path = [] ∧ target = node label below) ∨
      ∃ offset child further, below[offset]? = some child ∧ child.isKept ∧
        path = offset :: further ∧ child.Reaches further target := by
  constructor
  · intro reaches
    cases reaches with
    | here => exact .inl ⟨rfl, rfl⟩
    | step found kept further => exact .inr ⟨_, _, _, found, kept, rfl, further⟩
  · rintro (⟨rfl, rfl⟩ | ⟨offset, child, further, found, kept, rfl, hFurther⟩)
    · exact .here _
    · exact .step found kept hFurther

theorem survivorsAll_cons_kept (kept : (node label below).isKept) :
    survivorsAll place (.node label below :: rest) = ([place], .node label below) ::
      ((survivorsAll 0 below).map (Prod.map (place :: ·) id) ++ survivorsAll (place + 1) rest) := by
  rw [survivorsAll, survivors, if_pos kept, List.cons_append]

theorem survivorsAll_cons_dropped (dropped : (node label below).isKept = false) :
    survivorsAll place (.node label below :: rest) = survivorsAll (place + 1) rest := by
  simp [survivorsAll, survivors, dropped]

/-- What survives below a node is what is reached from the kept ones of the trees there. -/
theorem mem_survivorsAll (trees : List ConcreteTree) :
    (path, target) ∈ survivorsAll place trees ↔ ∃ offset child further,
      trees[offset]? = some child ∧ child.isKept ∧ path = (place + offset) :: further ∧
        child.Reaches further target := by
  induction trees using forest_induction generalizing place path with
  | nil => simp [survivorsAll]
  | cons label below rest ihBelow ihRest =>
      -- the first tree stands at the place itself, the others behind it
      rw [← Nat.or_exists_add_one]
      have hRest : (path, target) ∈ survivorsAll (place + 1) rest ↔ ∃ offset child further,
          (node label below :: rest)[offset + 1]? = some child ∧ child.isKept ∧
            path = (place + (offset + 1)) :: further ∧ child.Reaches further target := by
        simp only [ihRest, List.getElem?_cons_succ, Nat.add_assoc, Nat.add_comm 1]
      rw [← hRest]
      cases hKept : (node label below).isKept with
      | true =>
          have hFirst : (∃ child further, (node label below :: rest)[0]? = some child ∧
                child.isKept ∧ path = (place + 0) :: further ∧ child.Reaches further target) ↔
              ∃ further, path = place :: further ∧ (node label below).Reaches further target := by
            simp [hKept]
          rw [hFirst, survivorsAll_cons_kept hKept, List.mem_cons, List.mem_append, ← or_assoc]
          have hBelow : ∀ further, (node label below).Reaches further target ↔
              (further = [] ∧ target = node label below) ∨
                (further, target) ∈ survivorsAll 0 below := by
            intro further
            rw [reaches_node_iff, ihBelow]
            simp only [Nat.zero_add]
          simp only [hBelow]
          refine or_congr ?_ Iff.rfl
          constructor
          · rintro (hTop | hMember)
            · cases hTop
              exact ⟨[], rfl, .inl ⟨rfl, rfl⟩⟩
            · obtain ⟨⟨further, _⟩, hFurther, hSame⟩ := List.mem_map.mp hMember
              cases hSame
              exact ⟨further, rfl, .inr hFurther⟩
          · rintro ⟨further, rfl, ⟨rfl, rfl⟩ | hFurther⟩
            · exact .inl rfl
            · exact .inr (List.mem_map.mpr ⟨(further, target), hFurther, rfl⟩)
      | false =>
          simp [survivorsAll_cons_dropped hKept, hKept]

theorem exists_head_of_mem_survivorsAll {trees : List ConcreteTree}
    (member : path ∈ (survivorsAll place trees).map Prod.fst) :
    ∃ offset further, path = (place + offset) :: further := by
  obtain ⟨⟨_, target⟩, hMember, rfl⟩ := List.mem_map.mp member
  obtain ⟨offset, _, further, _, _, hPath, _⟩ := (mem_survivorsAll trees).mp hMember
  exact ⟨offset, further, hPath⟩

/-- No path is listed twice. -/
theorem nodup_survivorsAll (trees : List ConcreteTree) :
    ((survivorsAll place trees).map Prod.fst).Nodup := by
  induction trees using forest_induction generalizing place with
  | nil => simp [survivorsAll]
  | cons label below rest ihBelow ihRest =>
      cases hKept : (node label below).isKept with
      | true =>
          have hPaths : (survivorsAll place (.node label below :: rest)).map Prod.fst =
              [place] :: (((survivorsAll 0 below).map Prod.fst).map (place :: ·) ++
                (survivorsAll (place + 1) rest).map Prod.fst) := by
            rw [survivorsAll_cons_kept hKept]
            simp [Function.comp_def]
          have hBehind : ∀ path ∈ (survivorsAll (place + 1) rest).map Prod.fst, ∀ further,
              path ≠ place :: further := by
            rintro path member further rfl
            obtain ⟨offset, _, hHead⟩ := exists_head_of_mem_survivorsAll member
            have hPlace := (List.cons.inj hHead).1
            omega
          rw [hPaths, List.nodup_cons, List.mem_append, List.nodup_append]
          refine ⟨?_, ihBelow.map (List.cons_injective), ihRest, ?_⟩
          · rintro (hBelow | hRest)
            · obtain ⟨path, member, hSame⟩ := List.mem_map.mp hBelow
              obtain ⟨_, _, rfl⟩ := exists_head_of_mem_survivorsAll member
              cases hSame
            · exact hBehind _ hRest [] rfl
          · intro path hBelow other hRest hSame
            obtain ⟨further, _, rfl⟩ := List.mem_map.mp hBelow
            exact hBehind other hRest further hSame.symm
      | false =>
          rw [survivorsAll_cons_dropped hKept]
          exact ihRest

/-- Elements follow one another as the nodes do that they stand for. -/
theorem map_layoutAll (first : ElementId) (trees : List ConcreteTree) :
    (layoutAll first trees).map (fun element => (element.kind, element.span)) =
      (survivorsAll place trees).map fun entry => (entry.2.label.kind, entry.2.label.span) := by
  induction trees using forest_induction generalizing first place with
  | nil => simp [layoutAll, survivorsAll]
  | cons label below rest ihBelow ihRest =>
      cases hKept : (node label below).isKept with
      | true =>
          rw [layoutAll_cons_kept hKept, survivorsAll_cons_kept hKept, List.map_cons, List.map_cons,
            List.map_append, List.map_append, ihBelow, ihRest, List.map_map]
          rfl
      | false => rw [layoutAll_cons_dropped hKept, survivorsAll_cons_dropped hKept, ihRest]

end Survivors

end ConcreteTree

/-- A snapshot shows a tree: its elements stand for the root and the nodes that are reached through
kept nodes, one for each; they are linked as these are; their places are the order in which they are
visited; and the look-up of listers inverts the links. -/
structure Snapshot.Depicts (snapshot : Snapshot) (tree : ConcreteTree) : Prop where
  nodes : ∃ nodes : List (List Nat × ConcreteTree), (nodes.map Prod.fst).Nodup ∧
    (∀ path node, (path, node) ∈ nodes ↔ tree.Reaches path node) ∧
    snapshot.elements.toList.map (fun element => (element.kind, element.span)) =
      nodes.map fun entry => (entry.2.label.kind, entry.2.label.span)
  mirrors : snapshot.Mirrors none 0 tree
  depthFirst : snapshot.DepthFirst [0] (List.range snapshot.size)
  inverse : ∃ parents, snapshot.parents? = some parents ∧ parents.length = snapshot.size ∧
    ∀ child lister, parents[child]? = some (some lister) ↔ child ∈ snapshot.children lister

namespace ConcreteTree

theorem size_toSnapshot (tree : ConcreteTree) :
    tree.toSnapshot.size = 1 + weightAll tree.children := by
  rw [Snapshot.size_eq_length, toList_toSnapshot, List.length_cons, length_layoutAll, Nat.add_comm]

/-- Behind the root, everything is laid out. -/
theorem toSnapshot_hasFrom (tree : ConcreteTree) :
    tree.toSnapshot.get? 0 =
        some { tree.element none with children := tops 1 tree.children } ∧
      tree.toSnapshot.HasFrom 1 (layoutAll 1 tree.children) := by
  constructor
  · rw [Snapshot.get?_eq_getElem?, toList_toSnapshot]
    rfl
  · exact ⟨[], by rw [toList_toSnapshot, List.append_nil]; rfl⟩

theorem toSnapshot_mirrors (tree : ConcreteTree) : tree.toSnapshot.Mirrors none 0 tree := by
  obtain ⟨hRoot, hRest⟩ := tree.toSnapshot_hasFrom
  exact .node hRoot (hRest.mirrors tree.children)

theorem toSnapshot_depthFirst (tree : ConcreteTree) :
    tree.toSnapshot.DepthFirst [0] (List.range tree.toSnapshot.size) := by
  obtain ⟨hRoot, hRest⟩ := tree.toSnapshot_hasFrom
  have hChildren : tree.toSnapshot.children 0 = tops 1 tree.children := by
    rw [Snapshot.children, hRoot]
    rfl
  have hRange : List.range tree.toSnapshot.size =
      0 :: (List.range' 1 (weightAll tree.children) ++ []) := by
    rw [size_toSnapshot, List.range_eq_range', Nat.add_comm, List.range'_succ, List.append_nil]
  rw [hRange]
  exact .cons (hChildren ▸ hRest.depthFirst tree.children) .nil

theorem Fits.wellFormed {tree : ConcreteTree} {textLength : Nat} (fits : tree.Fits textLength) :
    tree.toSnapshot.WellFormed textLength :=
  tree.toSnapshot_mirrors.wellFormed fits tree.toSnapshot_depthFirst

theorem Fits.depicts {tree : ConcreteTree} {textLength : Nat} (fits : tree.Fits textLength) :
    tree.toSnapshot.Depicts tree where
  nodes := by
    obtain ⟨label, below⟩ := tree
    refine ⟨([], node label below) :: survivorsAll 0 below, ?_, ?_, ?_⟩
    · refine List.nodup_cons.mpr ⟨?_, nodup_survivorsAll below⟩
      intro member
      obtain ⟨_, _, hPath⟩ := exists_head_of_mem_survivorsAll member
      cases hPath
    · intro path target
      rw [List.mem_cons, mem_survivorsAll, reaches_node_iff, Prod.mk.injEq]
      simp only [Nat.zero_add]
    · rw [toList_toSnapshot, List.map_cons, List.map_cons]
      exact congrArg _ (map_layoutAll 1 below)
  mirrors := tree.toSnapshot_mirrors
  depthFirst := tree.toSnapshot_depthFirst
  inverse := fits.wellFormed.branching.parents?_inverts

/-- A parsed unit is accepted. -/
theorem Fits.unit_wellFormed {source : SourceUnit} {tree : ConcreteTree}
    (fits : tree.Fits source.length) : (ParsedUnit.mk source tree.toSnapshot).WellFormed := by
  refine ⟨?_, fits.wellFormed⟩
  have hSize : tree.toSnapshot.size ≠ 0 := by
    rw [size_toSnapshot]
    omega
  simp [Snapshot.root?, hSize]

end ConcreteTree

/-- Sources with trees over their texts make forests, each on its own and all of them as a package. The
snapshots have no defect, and they show the trees. -/
theorem Forest.accepts_parsed_sources (parsed : List (SourceUnit × ConcreteTree))
    (fits : ∀ entry ∈ parsed, entry.2.Fits entry.1.length) :
    (∀ package, ∃ forest, Forest.ofPackage package ⟨parsed.map Prod.fst⟩
      (parsed.map fun entry => entry.2.toSnapshot) = .ok forest) ∧
    ∀ entry ∈ parsed, entry.2.toSnapshot.firstDefect? entry.1.length = none ∧
      (∃ forest, Forest.ofFile entry.1 entry.2.toSnapshot = .ok forest) ∧
      entry.2.toSnapshot.Depicts entry.2 := by
  have hUnits : List.zipWith ParsedUnit.mk (parsed.map Prod.fst)
      (parsed.map fun entry => entry.2.toSnapshot) =
        parsed.map fun entry => ⟨entry.1, entry.2.toSnapshot⟩ := by
    rw [List.zipWith_map, List.zipWith_self]
  refine ⟨?_, ?_⟩
  · intro package
    have hAnswers := @Forest.ofPackage_answers package ⟨parsed.map Prod.fst⟩
      (parsed.map fun entry => entry.2.toSnapshot) (by simp [SourceMap.size])
    refine hAnswers.exists_ok_iff.mpr ?_
    intro unit member
    rw [hUnits] at member
    obtain ⟨entry, hEntry, rfl⟩ := List.mem_map.mp member
    exact (fits entry hEntry).unit_wellFormed
  · intro entry member
    have hFits := fits entry member
    refine ⟨(Snapshot.firstDefect?_eq_none_iff ..).mpr hFits.wellFormed, ?_, hFits.depicts⟩
    refine (Forest.ofFile_answers entry.1 entry.2.toSnapshot).exists_ok_iff.mpr ?_
    intro unit hUnit
    obtain rfl := List.mem_singleton.mp hUnit
    exact hFits.unit_wellFormed

namespace Sample

/-- A text that breaks off, with a name that the parser supposed and a character that it could not
place. -/
def brokenSource : SourceUnit :=
  ⟨"a.go", 0, "x=;"⟩

def brokenTree : ConcreteTree :=
  .node ⟨"source_file", true, false, false, ⟨0, 3⟩, none⟩ [
    .node ⟨"assignment_statement", true, false, false, ⟨0, 2⟩, none⟩ [
      .node ⟨"identifier", true, false, false, ⟨0, 1⟩, some "left"⟩ [],
      .node ⟨"=", false, false, false, ⟨1, 2⟩, some "operator"⟩ [],
      .node ⟨"identifier", true, false, true, ⟨2, 2⟩, some "right"⟩ []],
    .node ⟨"ERROR", true, true, false, ⟨2, 3⟩, none⟩ [
      .node ⟨";", false, false, false, ⟨2, 3⟩, none⟩ []]]

theorem brokenTree_fits : brokenTree.Fits brokenSource.length := by
  have hLeaf : ∀ label : ConcreteLabel, label.span.start ≤ label.span.stop →
      (ConcreteTree.node label []).Nested :=
    fun _ ordered => .node ordered (by simp) (by simp)
  refine ⟨.node (by decide) (by decide) ?_, by decide⟩
  simp only [List.forall_mem_cons]
  refine ⟨.node (by decide) (by decide) ?_, .node (by decide) (by decide) ?_, by simp⟩
  · simp only [List.forall_mem_cons]
    exact ⟨hLeaf _ (by decide), hLeaf _ (by decide), hLeaf _ (by decide), by simp⟩
  · simp only [List.forall_mem_cons]
    exact ⟨hLeaf _ (by decide), by simp⟩

end Sample

/-- Of six nodes below the root, three get elements. -/
theorem Forest.accepts_parsed_sources_sample :
    (∃ forest, Forest.ofFile Sample.brokenSource Sample.brokenTree.toSnapshot = .ok forest) ∧
      Sample.brokenTree.toSnapshot.DepthFirst [0] [0, 1, 2, 3] := by
  obtain ⟨_, hEach⟩ := Forest.accepts_parsed_sources [(Sample.brokenSource, Sample.brokenTree)]
    (by
      intro entry member
      obtain rfl := List.mem_singleton.mp member
      exact Sample.brokenTree_fits)
  obtain ⟨_, hForest, hDepicts⟩ := hEach _ List.mem_cons_self
  have hRange : List.range Sample.brokenTree.toSnapshot.size = [0, 1, 2, 3] := by decide +kernel
  exact ⟨hForest, hRange ▸ hDepicts.depthFirst⟩

end SyntaxAtlas
