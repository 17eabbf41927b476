import SyntaxAtlas.Snapshot.Concrete

/-! How a snapshot is laid out. Appending works on the whole snapshot: every step adds an element at
the end and changes the list of its parent further up. What comes out is simple all the same: the kept
nodes of the appended trees follow one another, parents first, and one element of the old snapshot has
got new children. -/
namespace SyntaxAtlas

/-- The element with more children behind its own. -/
def Element.adopt (element : Element) (ids : List ElementId) : Element :=
  { element with children := element.children ++ ids }

theorem Element.adopt_nil : (Element.adopt · []) = id := by
  funext element
  simp [adopt]

theorem Element.adopt_comp_adopt (first second : List ElementId) :
    (Element.adopt · second) ∘ (Element.adopt · first) = (Element.adopt · (first ++ second)) := by
  funext element
  simp [adopt]

section Modify

variable {α : Type} {change : α → α}

theorem modify_append_of_lt {items more : List α} {place : Nat} (before : place < items.length) :
    (items ++ more).modify place change = items.modify place change ++ more := by
  induction items generalizing place with
  | nil => cases before
  | cons item items ih =>
      cases place with
      | zero => rfl
      | succ place =>
          have hTail := ih (Nat.lt_of_succ_lt_succ before)
          simp only [List.cons_append, List.modify_succ_cons, hTail]

theorem modify_concat_length (items : List α) (item : α) :
    (items ++ [item]).modify items.length change = items ++ [change item] := by
  induction items with
  | nil => rfl
  | cons first items ih => simp only [List.cons_append, List.length_cons, List.modify_succ_cons, ih]

end Modify

theorem Snapshot.size_eq_length (snapshot : Snapshot) :
    snapshot.size = snapshot.elements.toList.length :=
  Array.length_toList.symm

@[simp]
theorem Snapshot.size_pushChild (snapshot : Snapshot) (parent : ElementId) (element : Element) :
    (snapshot.pushChild parent element).1.size = snapshot.size + 1 := by
  simp [pushChild, size]

/-- One step: the new element stands at the end, and its parent lists it last. -/
theorem Snapshot.toList_pushChild {snapshot : Snapshot} {parent : ElementId}
    (known : parent < snapshot.size) (element : Element) :
    (snapshot.pushChild parent element).1.elements.toList =
      snapshot.elements.toList.modify parent (Element.adopt · [snapshot.size]) ++
        [{ element with children := [] }] := by
  have hBefore : parent < snapshot.elements.toList.length := known
  simp only [pushChild, Array.toList_modify, Array.toList_push]
  exact modify_append_of_lt hBefore

namespace ConcreteTree

/-- Induction over lists of trees: the trees below the first one are a list of trees again. -/
theorem forest_induction {motive : List ConcreteTree → Prop} (nil : motive [])
    (cons : ∀ label children rest, motive children → motive rest →
      motive (.node label children :: rest)) : ∀ trees, motive trees
  | [] => nil
  | .node label children :: rest => cons label children rest
    (forest_induction nil cons children) (forest_induction nil cons rest)

mutual

/-- The number of elements that a tree gets. -/
def weight : ConcreteTree → Nat
  | .node label children =>
    if (node label children).isKept then 1 + weightAll children else 0

def weightAll : List ConcreteTree → Nat
  | [] => 0
  | tree :: rest => tree.weight + weightAll rest

end

/-- The places of the kept trees among several ones, when elements are placed from some place on. -/
def tops (first : ElementId) : List ConcreteTree → List ElementId
  | [] => []
  | tree :: rest =>
    if tree.isKept then first :: tops (first + tree.weight) rest else tops (first + tree.weight) rest

mutual

/-- The elements of a tree that is placed from some place on. -/
def layout (first : ElementId) : ConcreteTree → List Element
  | .node label children =>
    if (node label children).isKept then
      ((node label children).element label.field).adopt (tops (first + 1) children) ::
        layoutAll (first + 1) children
    else
      []

def layoutAll (first : ElementId) : List ConcreteTree → List Element
  | [] => []
  | tree :: rest => tree.layout first ++ layoutAll (first + tree.weight) rest

end

variable {label : ConcreteLabel} {children rest : List ConcreteTree}

theorem weight_kept (kept : (node label children).isKept) :
    (node label children).weight = 1 + weightAll children := by
  rw [weight, if_pos kept]

theorem weight_dropped (dropped : (node label children).isKept = false) :
    (node label children).weight = 0 := by
  simp [weight, dropped]

theorem weightAll_cons_kept (kept : (node label children).isKept) :
    weightAll (.node label children :: rest) = 1 + weightAll children + weightAll rest := by
  rw [weightAll, weight_kept kept]

theorem weightAll_cons_dropped (dropped : (node label children).isKept = false) :
    weightAll (.node label children :: rest) = weightAll rest := by
  rw [weightAll, weight_dropped dropped, Nat.zero_add]

theorem tops_cons_kept (kept : (node label children).isKept) (first : ElementId) :
    tops first (.node label children :: rest) =
      first :: tops (first + 1 + weightAll children) rest := by
  rw [tops, if_pos kept, weight_kept kept, Nat.add_assoc]

theorem tops_cons_dropped (dropped : (node label children).isKept = false) (first : ElementId) :
    tops first (.node label children :: rest) = tops first rest := by
  simp [tops, dropped, weight_dropped]

theorem layoutAll_cons_kept (kept : (node label children).isKept) (first : ElementId) :
    layoutAll first (.node label children :: rest) =
      ((node label children).element label.field).adopt (tops (first + 1) children) ::
        (layoutAll (first + 1) children ++ layoutAll (first + 1 + weightAll children) rest) := by
  rw [layoutAll, layout, if_pos kept, weight_kept kept, Nat.add_assoc, List.cons_append]

theorem layoutAll_cons_dropped (dropped : (node label children).isKept = false) (first : ElementId) :
    layoutAll first (.node label children :: rest) = layoutAll first rest := by
  simp [layoutAll, layout, dropped, weight_dropped]

theorem length_layoutAll (first : ElementId) (trees : List ConcreteTree) :
    (layoutAll first trees).length = weightAll trees := by
  induction trees using forest_induction generalizing first with
  | nil => simp [layoutAll, weightAll]
  | cons label children rest ihChildren ihRest =>
      cases hKept : (node label children).isKept with
      | true =>
          rw [layoutAll_cons_kept hKept, weightAll_cons_kept hKept, List.length_cons,
            List.length_append, ihChildren, ihRest]
          omega
      | false => rw [layoutAll_cons_dropped hKept, weightAll_cons_dropped hKept, ihRest]

/-- A whole run: the parent gets the kept trees as children, and their elements follow at the end. -/
theorem toList_appendAll {snapshot : Snapshot} {parent : ElementId} (known : parent < snapshot.size)
    (trees : List ConcreteTree) :
    (appendAll parent snapshot trees).elements.toList =
      snapshot.elements.toList.modify parent (Element.adopt · (tops snapshot.size trees)) ++
        layoutAll snapshot.size trees := by
  induction trees using forest_induction generalizing snapshot parent with
  | nil => simp [appendAll, tops, layoutAll, Element.adopt_nil]
  | cons label children rest ihChildren ihRest =>
      cases hKept : (node label children).isKept with
      | true =>
          let element := (node label children).element label.field
          let olds := snapshot.elements.toList.modify parent (Element.adopt · [snapshot.size])
          let grown := (snapshot.pushChild parent element).1
          have hOlds : olds.length = snapshot.size := by
            rw [List.length_modify, Array.length_toList, Snapshot.size]
          have hGrown : grown.elements.toList = olds ++ [element] :=
            Snapshot.toList_pushChild known element
          have hGrownSize : grown.size = snapshot.size + 1 :=
            Snapshot.size_pushChild ..
          -- the children go below the new element, which is the last one so far
          let middle := appendAll snapshot.size grown children
          have hMiddle : middle.elements.toList =
              olds ++ (element.adopt (tops (snapshot.size + 1) children) ::
                layoutAll (snapshot.size + 1) children) := by
            have hLast : snapshot.size < grown.size := hGrownSize ▸ Nat.lt_succ_self _
            rw [ihChildren hLast, hGrownSize, hGrown, ← hOlds, modify_concat_length,
              List.append_assoc, List.singleton_append]
          have hMiddleSize : middle.size = snapshot.size + 1 + weightAll children := by
            rw [Snapshot.size_eq_length, hMiddle, List.length_append, hOlds, List.length_cons,
              length_layoutAll]
            omega
          -- the remaining trees go below the parent again
          have hRun : appendAll parent snapshot (node label children :: rest) =
              appendAll parent middle rest := by
            rw [appendAll, append, if_pos hKept]
            rfl
          have hParent : parent < middle.size := Nat.lt_of_lt_of_le known (by omega)
          have hBefore : parent < olds.length := hOlds ▸ known
          rw [hRun, ihRest hParent, hMiddleSize, hMiddle, modify_append_of_lt hBefore,
            List.modify_modify_eq, Element.adopt_comp_adopt, tops_cons_kept hKept,
            layoutAll_cons_kept hKept, List.append_assoc, List.cons_append]
          rfl
      | false =>
          rw [appendAll, append, if_neg (by simp [hKept]), ihRest known, tops_cons_dropped hKept,
            layoutAll_cons_dropped hKept]

/-- The snapshot of a tree. -/
theorem toList_toSnapshot (tree : ConcreteTree) :
    tree.toSnapshot.elements.toList =
      (tree.element none).adopt (tops 1 tree.children) :: layoutAll 1 tree.children :=
  toList_appendAll Nat.one_pos tree.children

end ConcreteTree

end SyntaxAtlas
