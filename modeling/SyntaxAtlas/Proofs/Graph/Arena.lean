import SyntaxAtlas.Graph.Session
import SyntaxAtlas.Proofs.Graph.Acceptance

/-! Arenas that grow. A node gets its number together with all of its siblings, and nothing that was
said about a numbered node is ever taken back. The order in which parents were asked for their
children is arbitrary here: numbers depend on it, and the facts below do not. -/
namespace SyntaxAtlas

namespace Origin

/-- The element that an origin stands for, as a whole or for one of its names. -/
def place? : Origin → Option (UnitId × ElementId)
  | .package => none
  | .element number id | .split number id _ => some (number, id)

theorem eq_package_of_place? {origin : Origin} (nowhere : origin.place? = none) :
    origin = .package := by
  cases origin with
  | package => rfl
  | element => cases nowhere
  | split => cases nowhere

end Origin

namespace Forest

/-- Everything that an origin points at is there, and so is every child that is going to be read
below it. Hence no look-up on the way to the children of such an origin fails. -/
def Backs (forest : Forest) : Origin → Prop
  | .package => ∀ unit ∈ forest.units, ∃ root, unit.snapshot.get? 0 = some root
  | .element number id =>
    ∃ unit element, forest.units[number]? = some unit ∧ unit.snapshot.get? id = some element ∧
      ∀ child ∈ element.children, ∃ inner, unit.snapshot.get? child = some inner
  | .split number id name =>
    ∃ unit element, forest.units[number]? = some unit ∧ unit.snapshot.get? id = some element ∧
      name ∈ unit.namesOf element ∧
      ∀ child ∈ element.children, ∃ inner, unit.snapshot.get? child = some inner

/-- Every unit has a root. -/
theorem exists_root (forest : Forest) {unit : ParsedUnit} (member : unit ∈ forest.units) :
    ∃ root, unit.snapshot.get? 0 = some root := by
  have hRoot := (forest.wellFormed member).1
  apply Snapshot.exists_get?_of_lt
  by_contra hEmpty
  rw [Snapshot.root?, if_pos (Nat.eq_zero_of_not_pos hEmpty)] at hRoot
  cases hRoot

/-- Every listed child exists. -/
theorem exists_child (forest : Forest) {unit : ParsedUnit} {id child : ElementId}
    {element : Element} (member : unit ∈ forest.units)
    (found : unit.snapshot.get? id = some element) (listed : child ∈ element.children) :
    ∃ inner, unit.snapshot.get? child = some inner :=
  Snapshot.exists_get?_of_lt ((forest.wellFormed member).2.forward id element found child listed).2

theorem backs_element {forest : Forest} {number : UnitId} {unit : ParsedUnit} {id : ElementId}
    {element : Element} (hUnit : forest.units[number]? = some unit)
    (found : unit.snapshot.get? id = some element) : forest.Backs (.element number id) :=
  ⟨unit, element, hUnit, found,
    fun _ listed => forest.exists_child (List.mem_of_getElem? hUnit) found listed⟩

/-- The nodes that an element sprouts come from that element. -/
theorem backs_of_mem_sproutsOf {forest : Forest} {number : UnitId} {unit : ParsedUnit}
    {id : ElementId} {sprout : Sprout} (hUnit : forest.units[number]? = some unit)
    (member : sprout ∈ unit.sproutsOf number id) : forest.Backs sprout.origin := by
  unfold ParsedUnit.sproutsOf at member
  cases found : unit.snapshot.get? id with
  | none => simp [found] at member
  | some element =>
      simp only [found] at member
      split_ifs at member with hSplit
      · obtain ⟨name, hName, rfl⟩ := List.mem_map.mp member
        exact ⟨unit, element, hUnit, found, hName,
          fun _ listed => forest.exists_child (List.mem_of_getElem? hUnit) found listed⟩
      · obtain rfl := List.mem_singleton.mp member
        exact backs_element hUnit found

/-- Below the package are the roots of the units. -/
theorem of_mem_sprouts_package {forest : Forest} {sprout : Sprout}
    (member : sprout ∈ forest.sprouts .package) :
    ∃ (number : UnitId) (unit : ParsedUnit), forest.units[number]? = some unit ∧
      sprout = unit.rootSprout number := by
  obtain ⟨⟨unit, number⟩, hUnit, rfl⟩ := List.mem_map.mp member
  exact ⟨number, unit, List.mk_mem_zipIdx_iff_getElem?.mp hUnit, rfl⟩

/-- Below an element, or below one of its names, is what the children of the element sprout. -/
theorem of_mem_sprouts {forest : Forest} {origin : Origin} {number : UnitId} {id : ElementId}
    {sprout : Sprout} (place : origin.place? = some (number, id))
    (member : sprout ∈ forest.sprouts origin) :
    ∃ (unit : ParsedUnit) (child : ElementId), forest.units[number]? = some unit ∧
      child ∈ unit.snapshot.children id ∧
      sprout ∈ unit.sproutsOf number child := by
  cases origin with
  | package => cases place
  | element =>
      cases place
      cases hUnit : forest.units[number]? with
      | none => simp [sprouts, hUnit] at member
      | some unit =>
          simp only [sprouts, hUnit, List.mem_flatMap] at member
          obtain ⟨child, listed, hSprout⟩ := member
          exact ⟨unit, child, rfl, listed, hSprout⟩
  | split =>
      cases place
      cases hUnit : forest.units[number]? with
      | none => simp [sprouts, hUnit] at member
      | some unit =>
          simp only [sprouts, hUnit, List.mem_flatMap] at member
          obtain ⟨child, listed, hSprout⟩ := member
          exact ⟨unit, child, rfl, List.mem_of_mem_filter listed, hSprout⟩

/-- Whatever sprouts is backed. -/
theorem backs_of_mem_sprouts {forest : Forest} {origin : Origin} {sprout : Sprout}
    (member : sprout ∈ forest.sprouts origin) : forest.Backs sprout.origin := by
  cases hPlace : origin.place? with
  | none =>
      obtain rfl := Origin.eq_package_of_place? hPlace
      obtain ⟨number, unit, hUnit, rfl⟩ := of_mem_sprouts_package member
      obtain ⟨root, hRoot⟩ := forest.exists_root (List.mem_of_getElem? hUnit)
      exact backs_element hUnit hRoot
  | some place =>
      obtain ⟨unit, child, hUnit, _, hSprout⟩ := of_mem_sprouts hPlace member
      exact backs_of_mem_sproutsOf hUnit hSprout

/-- The root of the tree is backed. -/
theorem backs_rootSprout (forest : Forest) : forest.Backs forest.rootSprout.origin := by
  unfold rootSprout
  split
  · rename_i unit rest hPackage hUnits
    have hUnit : forest.units[0]? = some unit := by simp [hUnits]
    obtain ⟨root, hRoot⟩ := forest.exists_root (List.mem_of_getElem? hUnit)
    exact backs_element hUnit hRoot
  · exact fun unit member => forest.exists_root member

end Forest

namespace Arena

/-- What a node looks like is what its sprout promised. -/
structure Shows (arena : Arena) (id : NodeId) (sprout : Sprout) : Prop where
  kind : arena.kind id = sprout.kind
  span : arena.span id = sprout.span
  origin : arena.origin id = sprout.origin

/-- A later arena keeps everything that an earlier one says about its nodes. It may only have more
nodes, and know the children of nodes whose children were not asked for before. -/
structure Extends (earlier later : Arena) : Prop where
  size_le : earlier.size ≤ later.size
  kind : ∀ id, id < earlier.size → later.kind id = earlier.kind id
  span : ∀ id, id < earlier.size → later.span id = earlier.span id
  parent : ∀ id, id < earlier.size → later.parent? id = earlier.parent? id
  level : ∀ id, id < earlier.size → later.level id = earlier.level id
  origin : ∀ id, id < earlier.size → later.origin id = earlier.origin id
  children : ∀ id ids, id < earlier.size → earlier.children? id = some ids →
    later.children? id = some ids

theorem Extends.refl (arena : Arena) : arena.Extends arena :=
  ⟨Nat.le_refl _, fun _ _ => rfl, fun _ _ => rfl, fun _ _ => rfl, fun _ _ => rfl, fun _ _ => rfl,
    fun _ _ _ h => h⟩

theorem Extends.lt {earlier later : Arena} (h : earlier.Extends later) {id : NodeId}
    (known : id < earlier.size) : id < later.size :=
  Nat.lt_of_lt_of_le known h.size_le

theorem Extends.trans {first second third : Arena} (left : first.Extends second)
    (right : second.Extends third) : first.Extends third where
  size_le := Nat.le_trans left.size_le right.size_le
  kind id known := (right.kind id (left.lt known)).trans (left.kind id known)
  span id known := (right.span id (left.lt known)).trans (left.span id known)
  parent id known := (right.parent id (left.lt known)).trans (left.parent id known)
  level id known := (right.level id (left.lt known)).trans (left.level id known)
  origin id known := (right.origin id (left.lt known)).trans (left.origin id known)
  children id ids known h := right.children id ids (left.lt known) (left.children id ids known h)

theorem Extends.shows {earlier later : Arena} (h : earlier.Extends later) {id : NodeId}
    {sprout : Sprout} (known : id < earlier.size) (shows : earlier.Shows id sprout) :
    later.Shows id sprout :=
  ⟨(h.kind id known).trans shows.kind, (h.span id known).trans shows.span,
    (h.origin id known).trans shows.origin⟩

section Grow

variable {arena : Arena} {id : NodeId} {sprouts : List Sprout}

@[simp]
theorem size_grow (arena : Arena) (id : NodeId) (sprouts : List Sprout) :
    (arena.grow id sprouts).1.size = arena.size + sprouts.length := by
  simp [grow, size]

/-- A node that was there before learns its children if it is the parent, and nothing else. -/
theorem data_grow_old {old : NodeId} (known : old < arena.size) :
    (arena.grow id sprouts).1.data old =
      if id = old then
        { arena.data old with children := some (List.range' arena.size sprouts.length) }
      else arena.data old := by
  have hOld : (arena.nodes ++ (sprouts.map fun sprout =>
      { sprout with parent := some id, level := arena.level id + 1 : NodeData }).toArray)[old]? =
      some (arena.data old) := by
    rw [Array.getElem?_append_left known, data, Array.getD_eq_getD_getElem?,
      Array.getElem?_eq_getElem known, Option.getD_some]
  rw [data, Array.getD_eq_getD_getElem?, grow, Array.getElem?_modify, hOld]
  split_ifs <;> rfl

/-- A new node is what its sprout promised, one level below its parent. -/
theorem data_grow_new {place : Nat} {sprout : Sprout} (known : id < arena.size)
    (found : sprouts[place]? = some sprout) :
    (arena.grow id sprouts).1.data (arena.size + place) =
      { sprout with parent := some id, level := arena.level id + 1 } := by
  have hOther : id ≠ arena.size + place := by lia
  have hBehind : arena.nodes.size ≤ arena.size + place := Nat.le_add_right ..
  rw [data, Array.getD_eq_getD_getElem?, grow, Array.getElem?_modify, if_neg hOther,
    Array.getElem?_append_right hBehind]
  simp [size, found]

/-- A number in a grown arena was there before, or it is that of a sprout. -/
theorem old_or_new_of_lt_grow {any : NodeId} (known : any < (arena.grow id sprouts).1.size) :
    any < arena.size ∨
      ∃ place sprout, any = arena.size + place ∧ sprouts[place]? = some sprout := by
  rw [size_grow] at known
  rcases Nat.lt_or_ge any arena.size with hOld | hNew
  · exact .inl hOld
  · have hPlace : any - arena.size < sprouts.length := by lia
    exact .inr ⟨any - arena.size, _, by lia, List.getElem?_eq_getElem hPlace⟩

/-- Numbering the children of a node that has none yet takes nothing back. -/
theorem extends_grow (sprouts : List Sprout) (fresh : arena.children? id = none) :
    arena.Extends (arena.grow id sprouts).1 where
  size_le := by simp
  kind old known := by rw [kind, data_grow_old known]; split_ifs <;> rfl
  span old known := by rw [span, data_grow_old known]; split_ifs <;> rfl
  parent old known := by rw [parent?, data_grow_old known]; split_ifs <;> rfl
  level old known := by rw [level, data_grow_old known]; split_ifs <;> rfl
  origin old known := by rw [origin, data_grow_old known]; split_ifs <;> rfl
  children old ids known h := by
    have hOther : id ≠ old := by
      rintro rfl
      rw [fresh] at h
      cases h
    rw [children?, data_grow_old known, if_neg hOther]
    exact h

theorem children?_grow_self (known : id < arena.size) :
    (arena.grow id sprouts).1.children? id = some (List.range' arena.size sprouts.length) := by
  rw [children?, data_grow_old known, if_pos rfl]

theorem children?_grow_old {old : NodeId} (known : old < arena.size) (other : id ≠ old) :
    (arena.grow id sprouts).1.children? old = arena.children? old := by
  rw [children?, data_grow_old known, if_neg other, children?]

end Grow

/-- The children of a node were numbered in one go, from a first number on: one for each sprout, in
order, all of them behind the node itself. -/
structure Family (forest : Forest) (arena : Arena) (id first : NodeId) : Prop where
  behind : id < first
  fits : first + (forest.sprouts (arena.origin id)).length ≤ arena.size
  shows : ∀ place sprout, (forest.sprouts (arena.origin id))[place]? = some sprout →
    arena.Shows (first + place) sprout
  parent : ∀ place, place < (forest.sprouts (arena.origin id)).length →
    arena.parent? (first + place) = some id
  level : ∀ place, place < (forest.sprouts (arena.origin id)).length →
    arena.level (first + place) = arena.level id + 1

/-- The numbers of an arena follow the tree of a forest, as far as it was looked at. This is what
every growth keeps. -/
structure WellNumbered (forest : Forest) (arena : Arena) : Prop where
  nonempty : Arena.root < arena.size
  root : arena.Shows root forest.rootSprout
  rootParent : arena.parent? Arena.root = none
  rootLevel : arena.level Arena.root = 0
  backed : ∀ id, id < arena.size → forest.Backs (arena.origin id)
  family : ∀ id ids, id < arena.size → arena.children? id = some ids →
    ∃ first, Family forest arena id first ∧
      ids = List.range' first (forest.sprouts (arena.origin id)).length
  listed : ∀ id, id ≠ Arena.root → id < arena.size →
    ∃ parent ids, parent < arena.size ∧ arena.children? parent = some ids ∧ id ∈ ids

/-- Growth leaves a family as it is. -/
theorem Family.keep {forest : Forest} {earlier later : Arena} {id first : NodeId}
    (family : Family forest earlier id first) (h : earlier.Extends later)
    (known : id < earlier.size) : Family forest later id first := by
  have hOrigin := h.origin id known
  have hMember : ∀ place, place < (forest.sprouts (earlier.origin id)).length →
      first + place < earlier.size := by
    intro place hPlace
    exact Nat.lt_of_lt_of_le (Nat.add_lt_add_left hPlace first) family.fits
  refine ⟨family.behind, ?_, ?_, ?_, ?_⟩
  · rw [hOrigin]
    exact Nat.le_trans family.fits h.size_le
  · intro place sprout found
    rw [hOrigin] at found
    have hPlace := (List.getElem?_eq_some_iff.mp found).1
    exact h.shows (hMember place hPlace) (family.shows place sprout found)
  · intro place hPlace
    rw [hOrigin] at hPlace
    rw [h.parent _ (hMember place hPlace)]
    exact family.parent place hPlace
  · intro place hPlace
    rw [hOrigin] at hPlace
    rw [h.level _ (hMember place hPlace), h.level id known]
    exact family.level place hPlace

/-- Sprouts that are numbered behind everything else make a family. -/
theorem family_grow (forest : Forest) {arena : Arena} {id : NodeId} (known : id < arena.size)
    (fresh : arena.children? id = none) :
    Family forest (arena.grow id (forest.sprouts (arena.origin id))).1 id arena.size := by
  have hExtends := extends_grow (forest.sprouts (arena.origin id)) fresh
  have hNew : ∀ place, place < (forest.sprouts (arena.origin id)).length →
      ∃ sprout, (forest.sprouts (arena.origin id))[place]? = some sprout :=
    fun place hPlace => ⟨_, List.getElem?_eq_getElem hPlace⟩
  refine ⟨known, ?_, ?_, ?_, ?_⟩
  · refine Nat.le_of_eq ?_
    rw [hExtends.origin id known, size_grow]
  · intro place sprout found
    rw [hExtends.origin id known] at found
    have hData := data_grow_new known found
    exact ⟨congrArg NodeData.kind hData, congrArg NodeData.span hData,
      congrArg NodeData.origin hData⟩
  · intro place hPlace
    rw [hExtends.origin id known] at hPlace
    obtain ⟨sprout, found⟩ := hNew place hPlace
    rw [parent?, data_grow_new known found]
  · intro place hPlace
    rw [hExtends.origin id known] at hPlace
    obtain ⟨sprout, found⟩ := hNew place hPlace
    rw [hExtends.level id known, level, data_grow_new known found]

/-- The arena of a root alone. -/
theorem wellNumbered_ofRoot (forest : Forest) :
    (Arena.ofRoot forest.rootSprout).WellNumbered forest where
  nonempty := Nat.zero_lt_one
  root := ⟨rfl, rfl, rfl⟩
  rootParent := rfl
  rootLevel := rfl
  backed id known := by
    obtain rfl : id = 0 := Nat.lt_one_iff.mp known
    exact forest.backs_rootSprout
  family id ids known h := by
    obtain rfl : id = 0 := Nat.lt_one_iff.mp known
    cases h
  listed id other known := absurd (Nat.lt_one_iff.mp known) other

/-- Numbering the children of a node keeps the numbers right. -/
theorem WellNumbered.grow {forest : Forest} {arena : Arena} {id : NodeId}
    (h : arena.WellNumbered forest) (known : id < arena.size)
    (fresh : arena.children? id = none) :
    (arena.grow id (forest.sprouts (arena.origin id))).1.WellNumbered forest := by
  have hExtends := extends_grow (forest.sprouts (arena.origin id)) fresh
  have hFamily := family_grow forest known fresh
  refine ⟨hExtends.lt h.nonempty, hExtends.shows h.nonempty h.root, ?_, ?_, ?_, ?_, ?_⟩
  · rw [hExtends.parent _ h.nonempty, h.rootParent]
  · rw [hExtends.level _ h.nonempty, h.rootLevel]
  · intro any hAny
    rcases old_or_new_of_lt_grow hAny with hOld | ⟨place, sprout, rfl, found⟩
    · rw [hExtends.origin any hOld]
      exact h.backed any hOld
    · rw [← hExtends.origin id known] at found
      rw [(hFamily.shows place sprout found).origin]
      exact Forest.backs_of_mem_sprouts (List.mem_of_getElem? found)
  · intro any ids hAny hChildren
    rcases old_or_new_of_lt_grow hAny with hOld | ⟨place, sprout, rfl, found⟩
    · by_cases hSelf : id = any
      · subst hSelf
        rw [children?_grow_self known] at hChildren
        refine ⟨arena.size, hFamily, ?_⟩
        rw [hExtends.origin id known]
        exact (Option.some.inj hChildren).symm
      · rw [children?_grow_old hOld hSelf] at hChildren
        obtain ⟨first, hOldFamily, rfl⟩ := h.family any ids hOld hChildren
        exact ⟨first, hOldFamily.keep hExtends hOld, by rw [hExtends.origin any hOld]⟩
    · rw [children?, data_grow_new known found] at hChildren
      cases hChildren
  · intro any hNotRoot hAny
    rcases old_or_new_of_lt_grow hAny with hOld | ⟨place, sprout, rfl, found⟩
    · obtain ⟨parent, ids, hParent, hChildren, hMember⟩ := h.listed any hNotRoot hOld
      exact ⟨parent, ids, hExtends.lt hParent, hExtends.children parent ids hParent hChildren,
        hMember⟩
    · refine ⟨id, _, hExtends.lt known, children?_grow_self known, ?_⟩
      rw [List.mem_range'_1]
      exact ⟨Nat.le_add_right .., Nat.add_lt_add_left (List.getElem?_eq_some_iff.mp found).1 _⟩

namespace WellNumbered

variable {forest : Forest} {arena : Arena}

/-- A listed child is behind its parent, points back at it, and is one level below it. -/
theorem of_mem_children (h : arena.WellNumbered forest) {id child : NodeId} {ids : List NodeId}
    (known : id < arena.size) (children : arena.children? id = some ids) (member : child ∈ ids) :
    id < child ∧ child < arena.size ∧ arena.parent? child = some id ∧
      arena.level child = arena.level id + 1 := by
  obtain ⟨first, family, rfl⟩ := h.family id ids known children
  obtain ⟨hFirst, hLast⟩ := List.mem_range'_1.mp member
  obtain ⟨place, rfl⟩ := Nat.exists_eq_add_of_le hFirst
  have hPlace : place < (forest.sprouts (arena.origin id)).length := by lia
  refine ⟨Nat.lt_of_lt_of_le family.behind hFirst, Nat.lt_of_lt_of_le hLast family.fits,
    family.parent place hPlace, family.level place hPlace⟩

/-- A node that is not the root has a parent, which lists it. -/
theorem exists_parent (h : arena.WellNumbered forest) {id : NodeId} (known : id < arena.size)
    (other : id ≠ Arena.root) :
    ∃ parent ids, parent < arena.size ∧ arena.children? parent = some ids ∧ id ∈ ids ∧
      arena.parent? id = some parent := by
  obtain ⟨parent, ids, hParent, hChildren, member⟩ := h.listed id other known
  exact ⟨parent, ids, hParent, hChildren, member,
    (h.of_mem_children hParent hChildren member).2.2.1⟩

theorem known_parent (h : arena.WellNumbered forest) {id parent : NodeId} (known : id < arena.size)
    (above : arena.parent? id = some parent) : parent < arena.size := by
  have hNotRoot : id ≠ Arena.root := by
    rintro rfl
    rw [h.rootParent] at above
    cases above
  obtain ⟨other, ids, hKnown, _, _, hParent⟩ := h.exists_parent known hNotRoot
  obtain rfl : other = parent := Option.some.inj (hParent.symm.trans above)
  exact hKnown

/-- The child at a place is the node of the sprout at that place. -/
theorem shows_child (h : arena.WellNumbered forest) {id child : NodeId} {ids : List NodeId}
    {place : Nat} (known : id < arena.size) (children : arena.children? id = some ids)
    (found : ids[place]? = some child) :
    ∃ sprout, (forest.sprouts (arena.origin id))[place]? = some sprout ∧
      arena.Shows child sprout := by
  obtain ⟨first, family, rfl⟩ := h.family id ids known children
  obtain ⟨hPlace, rfl⟩ := List.getElem?_eq_some_iff.mp found
  rw [List.length_range'] at hPlace
  have hSprout := List.getElem?_eq_getElem hPlace
  refine ⟨_, hSprout, ?_⟩
  rw [List.getElem_range', Nat.one_mul]
  exact family.shows place _ hSprout

/-- There are as many children as sprouts. -/
theorem length_children (h : arena.WellNumbered forest) {id : NodeId} {ids : List NodeId}
    (known : id < arena.size) (children : arena.children? id = some ids) :
    ids.length = (forest.sprouts (arena.origin id)).length := by
  obtain ⟨first, _, rfl⟩ := h.family id ids known children
  exact List.length_range'

end WellNumbered

end Arena

end SyntaxAtlas
