import SyntaxAtlas.Proofs.Graph.Copies
import SyntaxAtlas.Proofs.Graph.SourceOrder

/-! Declarations with several names. Such a declaration stands among the children of its parent as a
row of nodes, one for each name in order, and each of these nodes sees the declaration as if its own
name were the only one. A declaration with one name, or with none, stands there as it is. -/
namespace SyntaxAtlas

namespace ParsedUnit

variable {unit : ParsedUnit} {number : UnitId} {id : ElementId} {element : Element}

/-- The nodes of an element below one parent, told by where they come from. -/
def origins (unit : ParsedUnit) (number : UnitId) (id : ElementId) : List Origin :=
  if unit.splits id then (unit.names id).map (.split number id) else [.element number id]

/-- The text of an element. It is empty when an end of the element is inside a character. -/
def textOf (unit : ParsedUnit) (id : ElementId) : String :=
  let text? := do
    let element ← unit.snapshot.get? id
    let text ← Text.slice? element.span.start element.span.stop unit.source.chars
    return String.ofList text
  text?.getD ""

/-- An element that is a plain identifier. -/
def isIdentifier (unit : ParsedUnit) (id : ElementId) : Bool :=
  (unit.snapshot.get? id).any fun element => (Kind.classify element.kind).isIdentifier

theorem map_origin_sproutsOf (found : unit.snapshot.get? id = some element) :
    (unit.sproutsOf number id).map Sprout.origin = unit.origins number id := by
  unfold origins
  cases hSplit : unit.splits id with
  | true =>
      rw [sproutsOf_of_splits found hSplit, if_pos rfl, List.map_map]
      rfl
  | false =>
      rw [sproutsOf_of_not_splits found hSplit]
      rfl

theorem map_origin_flatMap_sproutsOf {ids : List ElementId}
    (present : ∀ id ∈ ids, ∃ element, unit.snapshot.get? id = some element) :
    (ids.flatMap (unit.sproutsOf number)).map Sprout.origin =
      ids.flatMap (unit.origins number) := by
  rw [List.map_flatMap]
  refine List.flatMap_congr ?_
  intro id member
  obtain ⟨element, found⟩ := present id member
  exact map_origin_sproutsOf found

/-- What is no name is read below every node of the element that lists it. -/
theorem mem_kept_of_not_name {origin : Origin} {child : ElementId}
    (place : origin.place? = some (number, id)) (listed : child ∈ unit.snapshot.children id)
    (other : unit.isName child = false) : child ∈ unit.kept origin := by
  cases origin with
  | package => cases place
  | element =>
      cases place
      exact listed
  | split =>
      cases place
      exact List.mem_filter.mpr ⟨listed, by simp [other]⟩

/-- An identifier is one node, whatever is below it. -/
theorem splits_of_isIdentifier (found : unit.snapshot.get? id = some element)
    (identifier : unit.isIdentifier id) : unit.splits id = false := by
  have hIdentifier : (Kind.classify element.kind).isIdentifier := by
    simpa [isIdentifier, found] using identifier
  have hWhole : (Kind.classify element.kind).isSplittable = false := by
    cases hKind : Kind.classify element.kind <;> simp_all [Kind.isIdentifier, Kind.isSplittable]
  simp [splits, found, hWhole]

theorem slice?_shift_getD (found : unit.snapshot.get? id = some element) :
    (unit.source.slice? (element.span.shift unit.source.base)).getD "" = unit.textOf id := by
  simp [SourceUnit.slice?, textOf, found]

end ParsedUnit

namespace Forest

variable {forest : Forest} {origin : Origin} {number : UnitId} {unit : ParsedUnit} {id : ElementId}

/-- An origin stands for the element at its place. -/
theorem elementOf?_of_place? (place : origin.place? = some (number, id))
    (hUnit : forest.units[number]? = some unit) :
    forest.elementOf? origin = unit.snapshot.get? id := by
  cases origin with
  | package => cases place
  | element =>
      cases place
      simp [elementOf?, hUnit]
  | split =>
      cases place
      simp [elementOf?, hUnit]

theorem exists_of_mem_children (hUnit : forest.units[number]? = some unit) {child : ElementId}
    (listed : child ∈ unit.snapshot.children id) :
    ∃ element, unit.snapshot.get? child = some element := by
  obtain ⟨element, found, listed⟩ := Snapshot.mem_children_iff.mp listed
  exact forest.exists_child (List.mem_of_getElem? hUnit) found listed

/-- The children of an origin come from the elements that are read below it, in order. -/
theorem map_origin_sprouts (place : origin.place? = some (number, id))
    (hUnit : forest.units[number]? = some unit) :
    (forest.sprouts origin).map Sprout.origin =
      (unit.kept origin).flatMap (unit.origins number) := by
  rw [sprouts_eq_flatMap_kept place hUnit]
  refine ParsedUnit.map_origin_flatMap_sproutsOf ?_
  intro child member
  exact exists_of_mem_children hUnit ((kept_sublist place).subset member)

end Forest

namespace Arena

/-- What a node shows, as the sprout that it grew from. -/
def shown (arena : Arena) (id : NodeId) : Sprout :=
  ⟨arena.kind id, arena.span id, arena.origin id⟩

theorem shown_eq_iff {arena : Arena} {id : NodeId} {sprout : Sprout} :
    arena.shown id = sprout ↔ arena.Shows id sprout := by
  constructor
  · rintro rfl
    exact ⟨rfl, rfl, rfl⟩
  · intro shows
    rw [shown, shows.kind, shows.span, shows.origin]

namespace WellNumbered

variable {forest : Forest} {arena : Arena} {parent : NodeId} {ids : List NodeId}
  {number : UnitId} {unit : ParsedUnit} {id child : ElementId}

/-- The children show what sprouts from their parent. -/
theorem map_shown (h : arena.WellNumbered forest) (known : parent < arena.size)
    (children : arena.children? parent = some ids) :
    ids.map arena.shown = forest.sprouts (arena.origin parent) := by
  rw [← List.map_id (forest.sprouts (arena.origin parent))]
  exact h.map_children known children fun _ _ => shown_eq_iff.mpr

/-- A child in a role is a node of an element in that role. -/
theorem field?_child (h : arena.WellNumbered forest) (known : parent < arena.size)
    (children : arena.children? parent = some ids) {node : NodeId} (member : node ∈ ids)
    (hUnit : forest.units[number]? = some unit)
    (place : (arena.origin node).place? = some (number, id)) :
    (forest.field? arena node == some "name") = unit.isName id := by
  have above := (h.of_mem_children known children member).2.2.1
  simp only [Forest.field?, above, Forest.element?, Forest.elementOf?_of_place? place hUnit,
    ParsedUnit.isName]

/-- An element that is read below a node has a row of nodes among its children. In front of the row
and behind it are the nodes of the elements that are read before and after it. -/
theorem children_around (h : arena.WellNumbered forest) (known : parent < arena.size)
    (children : arena.children? parent = some ids)
    (place : (arena.origin parent).place? = some (number, id))
    (hUnit : forest.units[number]? = some unit) (read : child ∈ unit.kept (arena.origin parent)) :
    ∃ earlier later before row after,
      unit.kept (arena.origin parent) = earlier ++ child :: later ∧ child ∉ earlier ++ later ∧
        ids = before ++ row ++ after ∧
        before.map arena.shown = earlier.flatMap (unit.sproutsOf number) ∧
        row.map arena.shown = unit.sproutsOf number child ∧
        after.map arena.shown = later.flatMap (unit.sproutsOf number) := by
  have hFormed := (forest.wellFormed (List.mem_of_getElem? hUnit)).2
  have hNodup : (unit.kept (arena.origin parent)).Nodup :=
    (Forest.kept_sublist place).nodup (hFormed.nodup_children id)
  have hShown := h.map_shown known children
  obtain ⟨earlier, later, hKept⟩ := List.append_of_mem read
  rw [hKept] at hNodup
  have hOnce : child ∉ earlier ++ later := (List.nodup_middle.mp hNodup).notMem
  rw [Forest.sprouts_eq_flatMap_kept place hUnit, hKept, List.flatMap_append, List.flatMap_cons,
    ← List.append_assoc] at hShown
  obtain ⟨front, after, rfl, hFront, hAfter⟩ := List.map_eq_append_iff.mp hShown
  obtain ⟨before, row, rfl, hBefore, hRow⟩ := List.map_eq_append_iff.mp hFront
  exact ⟨earlier, later, before, row, after, hKept, hOnce, rfl, hBefore, hRow, hAfter⟩

/-- Nodes of other elements come from elsewhere. -/
theorem place?_of_map_shown {others : List ElementId} {nodes : List NodeId} {node : NodeId}
    (shown : nodes.map arena.shown = others.flatMap (unit.sproutsOf number))
    (member : node ∈ nodes) :
    ∃ other ∈ others, (arena.origin node).place? = some (number, other) := by
  have hSprout : arena.shown node ∈ others.flatMap (unit.sproutsOf number) :=
    shown ▸ List.mem_map_of_mem member
  obtain ⟨other, hOther, hSprout⟩ := List.mem_flatMap.mp hSprout
  exact ⟨other, hOther, ParsedUnit.place?_of_mem_sproutsOf hSprout⟩

end WellNumbered

end Arena

/-- The node for one name of a declaration, and what it answers at any later time: among its
children is one in the role of a name, which is the node of this name and which names the
declaration. The others are the nodes of everything in the declaration that is no name. -/
structure Forest.StandsForName (forest : Forest) (session : Session) (number : UnitId)
    (unit : ParsedUnit) (declaration : ElementId) (element : Element) (node : NodeId)
    (name : ElementId) : Prop where
  kind : session.arena.kind node = .classify element.kind
  span : ∃ label, unit.snapshot.get? name = some label ∧ session.arena.span node =
    Span.shift ⟨label.span.start, element.span.stop⟩ unit.source.base
  origin : session.arena.origin node = .split number declaration name
  parts : ∀ later, Leads forest session later →
    let asked := (forest.children node).run later
    ∃ before ident after, asked.1 = before ++ ident :: after ∧
      asked.2.arena.origin ident = .element number name ∧
      forest.field? asked.2.arena ident = some "name" ∧
      (∀ other ∈ before ++ after, forest.field? asked.2.arena other ≠ some "name") ∧
      (before ++ after).map asked.2.arena.origin =
        (element.children.filter fun child => !unit.isName child).flatMap (unit.origins number) ∧
      ((forest.ident? node).run later).1 = some ident ∧
      ((forest.name? node).run later).1 = some (unit.textOf name)

/-- The one node for a declaration, with everything in the declaration below it. -/
structure Forest.StandsForAll (forest : Forest) (session : Session) (number : UnitId)
    (unit : ParsedUnit) (declaration : ElementId) (element : Element) (node : NodeId) : Prop where
  kind : session.arena.kind node = .classify element.kind
  span : session.arena.span node = element.span.shift unit.source.base
  origin : session.arena.origin node = .element number declaration
  parts : ∀ later, Leads forest session later →
    let asked := (forest.children node).run later
    asked.1.map asked.2.arena.origin = element.children.flatMap (unit.origins number)

namespace Forest

variable {forest : Forest} {session : Session} {number : UnitId} {unit : ParsedUnit}
  {declaration name : ElementId} {element : Element} {node : NodeId}

/-- A declaration that can have several names is named by its first child in that role. -/
theorem ident?_run_splittable (splittable : (session.arena.kind node).isSplittable) :
    (forest.ident? node).run session = (forest.childInField? "name" node).run session := by
  rw [ident?, Explore.run_read]
  cases hKind : session.arena.kind node <;> simp_all [Kind.isSplittable]

theorem name?_run_splittable (splittable : (session.arena.kind node).isSplittable) :
    (forest.name? node).run session =
      (forest.ident? node >>= fun ident => forest.textOf? ident).run session := by
  rw [name?, Explore.run_read]
  cases hKind : session.arena.kind node <;> simp_all [Kind.isSplittable]

/-- The node of a whole element has the text of the element. -/
theorem sourceText_of_whole {arena : Arena} {label : Element}
    (hUnit : forest.units[number]? = some unit) (found : unit.snapshot.get? name = some label)
    (hOrigin : arena.origin node = .element number name)
    (hSpan : arena.span node = label.span.shift unit.source.base) :
    forest.sourceText arena node = unit.textOf name := by
  rw [← ParsedUnit.slice?_shift_getD found, ← hSpan, sourceText, hOrigin]
  simp [unit?, hOrigin, Origin.unit?, hUnit]

/-- Below one name of a declaration are this name and everything that is no name. -/
theorem filter_kept_split {earlier later : List ElementId}
    (hKept : unit.kept (.split number declaration name) = earlier ++ name :: later)
    (once : name ∉ earlier ++ later) (named : unit.isName name) :
    earlier ++ later =
      (unit.snapshot.children declaration).filter fun child => !unit.isName child := by
  have hOthers :
      (earlier ++ later).filter (fun child => !unit.isName child) = earlier ++ later := by
    refine List.filter_eq_self.mpr ?_
    intro child member
    have hListed : child ∈ unit.kept (.split number declaration name) := by
      rw [hKept]
      exact (List.sublist_append_right [name] later).append_left earlier |>.subset member
    have hTest := (List.mem_filter.mp hListed).2
    have hOther : (child == name) = false := by
      refine beq_eq_false_iff_ne.mpr ?_
      rintro rfl
      exact once member
    rwa [hOther, Bool.false_or] at hTest
  calc earlier ++ later
      = (earlier ++ later).filter fun child => !unit.isName child := hOthers.symm
    _ = (earlier ++ name :: later).filter fun child => !unit.isName child := by simp [named]
    _ = (unit.snapshot.children declaration).filter fun child => !unit.isName child := by
      rw [← hKept, ParsedUnit.kept, List.filter_filter]
      refine List.filter_congr ?_
      intro child _
      cases unit.isName child <;> simp

end Forest

namespace Arena.WellNumbered

variable {forest : Forest} {arena : Arena} {node : NodeId} {ids : List NodeId} {number : UnitId}
  {unit : ParsedUnit} {declaration name : ElementId}

/-- Among the children of the node for one name of a declaration is one node in the role of a name,
that of this name. The others are the nodes of what is no name. -/
theorem children_of_split (h : arena.WellNumbered forest) (known : node < arena.size)
    (children : arena.children? node = some ids) (hUnit : forest.units[number]? = some unit)
    (hOrigin : arena.origin node = .split number declaration name)
    (identifier : unit.isIdentifier name) :
    ∃ before ident after, ids = before ++ ident :: after ∧
      arena.origin ident = .element number name ∧ forest.sourceText arena ident = unit.textOf name ∧
      forest.field? arena ident = some "name" ∧
      (∀ other ∈ before ++ after, forest.field? arena other ≠ some "name") ∧
      (before ++ after).map arena.origin =
        ((unit.snapshot.children declaration).filter fun child => !unit.isName child).flatMap
          (unit.origins number) := by
  have hPlace : (arena.origin node).place? = some (number, declaration) := by
    rw [hOrigin]
    rfl
  have hFaithful := h.faithful known
  rw [hOrigin] at hFaithful
  obtain ⟨hListed, hNamed⟩ := List.mem_filter.mp (hFaithful unit hUnit).2
  obtain ⟨label, hLabel⟩ := ParsedUnit.exists_of_isName hNamed
  have hRead : name ∈ unit.kept (arena.origin node) := by
    rw [hOrigin]
    exact List.mem_filter.mpr ⟨hListed, by simp⟩
  obtain ⟨earlier, later, before, row, after, hKept, hOnce, rfl, hBefore, hRow, hAfter⟩ :=
    h.children_around known children hPlace hUnit hRead
  -- the name is an identifier, so that its row is one node
  rw [ParsedUnit.sproutsOf_of_not_splits hLabel
    (ParsedUnit.splits_of_isIdentifier hLabel identifier)] at hRow
  obtain ⟨ident, rfl, hIdent⟩ := List.map_eq_singleton_iff.mp hRow
  have hShows := shown_eq_iff.mp hIdent
  rw [hOrigin] at hKept
  have hOthers := Forest.filter_kept_split hKept hOnce hNamed
  have hShown : (before ++ after).map arena.shown =
      (earlier ++ later).flatMap (unit.sproutsOf number) := by
    rw [List.map_append, List.flatMap_append, hBefore, hAfter]
  rw [hOthers] at hShown
  have hRole : ∀ {other child}, other ∈ before ++ [ident] ++ after →
      (arena.origin other).place? = some (number, child) →
      (forest.field? arena other == some "name") = unit.isName child :=
    fun member place => h.field?_child known children member hUnit place
  refine ⟨before, ident, after, by simp, hShows.origin,
    Forest.sourceText_of_whole hUnit hLabel hShows.origin hShows.span, ?_, ?_, ?_⟩
  · have hIdentPlace : (arena.origin ident).place? = some (number, name) := by
      rw [hShows.origin]
      rfl
    have hMember : ident ∈ before ++ [ident] ++ after := by simp
    have hTest := hRole hMember hIdentPlace
    rwa [hNamed, beq_iff_eq] at hTest
  · intro other member
    obtain ⟨child, hChild, hPlace⟩ := place?_of_map_shown hShown member
    have hOther : unit.isName child = false := by simpa using List.of_mem_filter hChild
    have hMember : other ∈ before ++ [ident] ++ after := by
      simp only [List.mem_append] at member ⊢
      tauto
    exact beq_eq_false_iff_ne.mp ((hRole hMember hPlace).trans hOther)
  · calc (before ++ after).map arena.origin
        = ((before ++ after).map arena.shown).map Sprout.origin := by rw [List.map_map]; rfl
      _ = _ := by
        rw [hShown]
        refine ParsedUnit.map_origin_flatMap_sproutsOf ?_
        intro child member
        exact Forest.exists_of_mem_children hUnit (List.mem_of_mem_filter member)

end Arena.WellNumbered

namespace Session

variable {forest : Forest} {session : Session} {number : UnitId} {unit : ParsedUnit}
  {declaration name : ElementId} {element : Element} {node : NodeId}

/-- The first child in the role of a name names its parent, when the parent is a declaration that
can have several names. -/
theorem names_of_children {before after : List NodeId} {ident : NodeId}
    (splittable : (session.arena.kind node).isSplittable)
    (children : ((forest.children node).run session).1 = before ++ ident :: after)
    (role : forest.field? ((forest.children node).run session).2.arena ident = some "name")
    (first : ∀ other ∈ before,
      forest.field? ((forest.children node).run session).2.arena other ≠ some "name") :
    ((forest.ident? node).run session).1 = some ident ∧
      ((forest.name? node).run session).1 =
        some (forest.sourceText ((forest.children node).run session).2.arena ident) := by
  let asked := (forest.children node).run session
  have hFound : asked.1.find? (fun child => forest.field? asked.2.arena child == some "name") =
      some ident := by
    refine List.find?_eq_some_iff_append.mpr ⟨by simpa using role, before, after, children, ?_⟩
    intro other member
    simpa using first other member
  have hIdent : (forest.ident? node).run session = (some ident, asked.2) := by
    rw [Forest.ident?_run_splittable splittable, ← hFound]
    rfl
  constructor
  · rw [hIdent]
  · rw [Forest.name?_run_splittable splittable, Explore.run_bind, hIdent]
    rfl

/-- What a node for one name of a declaration has in a session, it answers from then on. -/
theorem Sound.standsForName (sound : session.Sound forest) (known : node < session.arena.size)
    (hUnit : forest.units[number]? = some unit)
    (found : unit.snapshot.get? declaration = some element)
    (splittable : (Kind.classify element.kind).isSplittable)
    (shows : session.arena.Shows node (unit.splitSprout number declaration element name))
    (identifier : unit.isIdentifier name) :
    forest.StandsForName session number unit declaration element node name where
  kind := shows.kind
  span := by
    have hFaithful := sound.arena.faithful known
    rw [shows.origin] at hFaithful
    obtain ⟨label, hLabel⟩ :=
      ParsedUnit.exists_of_isName (List.of_mem_filter (hFaithful unit hUnit).2)
    exact ⟨label, hLabel, shows.span.trans (ParsedUnit.splitSprout_span hLabel)⟩
  origin := shows.origin
  parts := by
    intro later leads asked
    obtain ⟨hSound, hKeeps⟩ := leads.sound_extends sound
    have hKnown := hKeeps.arena.lt known
    have hAsked := children_yields .all hSound hKnown
    have hSplittable : (later.arena.kind node).isSplittable := by
      rw [hKeeps.arena.kind node known, shows.kind]
      exact splittable
    have hOrigin : asked.2.arena.origin node = .split number declaration name := by
      rw [hAsked.allows.arena.origin node hKnown, hKeeps.arena.origin node known]
      exact shows.origin
    obtain ⟨before, ident, after, hAll, hIdent, hText, hRole, hOthers, hParts⟩ :=
      hAsked.sound.arena.children_of_split (hAsked.allows.arena.lt hKnown) hAsked.answer hUnit
        hOrigin identifier
    obtain ⟨hNames, hName⟩ := names_of_children hSplittable hAll hRole
      fun other member => hOthers other (List.mem_append_left _ member)
    rw [hText] at hName
    rw [ParsedUnit.children_of_get? found] at hParts
    exact ⟨before, ident, after, hAll, hIdent, hRole, hOthers, hParts, hNames, hName⟩

/-- The same for a declaration that is one node. -/
theorem Sound.standsForAll (sound : session.Sound forest) (known : node < session.arena.size)
    (hUnit : forest.units[number]? = some unit)
    (found : unit.snapshot.get? declaration = some element)
    (shows : session.arena.Shows node
      ⟨.classify element.kind, element.span.shift unit.source.base, .element number declaration⟩) :
    forest.StandsForAll session number unit declaration element node where
  kind := shows.kind
  span := shows.span
  origin := shows.origin
  parts := by
    intro later leads asked
    obtain ⟨hSound, hKeeps⟩ := leads.sound_extends sound
    have hKnown := hKeeps.arena.lt known
    have hAsked := children_yields .all hSound hKnown
    have hOrigin : asked.2.arena.origin node = .element number declaration := by
      rw [hAsked.allows.arena.origin node hKnown, hKeeps.arena.origin node known]
      exact shows.origin
    rw [hAsked.sound.arena.map_origin_children (hAsked.allows.arena.lt hKnown) hAsked.answer,
      hOrigin, Forest.map_origin_sprouts rfl hUnit, ParsedUnit.kept,
      ParsedUnit.children_of_get? found]

end Session

/-- A declaration of parameters, type parameters or fields that is read below a node stands among
the children of this node as one row. When it has several names, all of them identifiers, the row
has one node for each name, in order; otherwise it is one node for all. The root of a unit is never
listed, and a declaration that is a name itself is not read below the other names beside it. -/
theorem Reachable.declaration_row {forest : Forest} {session : Session}
    (reached : Reachable forest session) {parent : NodeId} (known : parent < session.arena.size)
    {number : UnitId} {unit : ParsedUnit} {lister declaration : ElementId} {element : Element}
    (hUnit : forest.units[number]? = some unit)
    (place : (session.arena.origin parent).place? = some (number, lister))
    (listed : declaration ∈ unit.snapshot.children lister)
    (found : unit.snapshot.get? declaration = some element)
    (kind : Kind.classify element.kind ∈ [.parameter, .typeParameter, .field])
    (other : unit.isName declaration = false) :
    let asked := (forest.children parent).run session
    ∃ before row after, asked.1 = before ++ row ++ after ∧
      (∀ node ∈ before ++ after,
        (asked.2.arena.origin node).place? ≠ some (number, declaration)) ∧
      (1 < (unit.names declaration).length →
        (∀ name ∈ unit.names declaration, unit.isIdentifier name) →
        List.Forall₂ (forest.StandsForName asked.2 number unit declaration element) row
          (unit.names declaration)) ∧
      ((unit.names declaration).length ≤ 1 →
        ∃ node, row = [node] ∧
          forest.StandsForAll asked.2 number unit declaration element node) := by
  intro asked
  have hAsked := Session.children_yields .all reached.sound known
  have hArena := hAsked.sound.arena
  have hKnown := hAsked.allows.arena.lt known
  have hOrigin := hAsked.allows.arena.origin parent known
  have hPlace : (asked.2.arena.origin parent).place? = some (number, lister) := hOrigin ▸ place
  have hSplittable : (Kind.classify element.kind).isSplittable := by
    simp only [List.mem_cons, List.not_mem_nil, or_false] at kind
    rcases kind with hKind | hKind | hKind <;> rw [hKind] <;> rfl
  have hRead : declaration ∈ unit.kept (asked.2.arena.origin parent) :=
    ParsedUnit.mem_kept_of_not_name hPlace listed other
  obtain ⟨earlier, later, before, row, after, _, hOnce, hAll, hBefore, hRow, hAfter⟩ :=
    hArena.children_around hKnown hAsked.answer hPlace hUnit hRead
  have hMember : ∀ node ∈ row, node < asked.2.arena.size := by
    intro node member
    have hListed : node ∈ asked.1 :=
      hAll ▸ List.mem_append_left after (List.mem_append_right before member)
    exact (hArena.of_mem_children hKnown hAsked.answer hListed).2.1
  refine ⟨before, row, after, hAll, ?_, ?_, ?_⟩
  · intro node member hHere
    have hShown : (before ++ after).map asked.2.arena.shown =
        (earlier ++ later).flatMap (unit.sproutsOf number) := by
      rw [List.map_append, List.flatMap_append, hBefore, hAfter]
    obtain ⟨child, hChild, hThere⟩ := Arena.WellNumbered.place?_of_map_shown hShown member
    rw [hHere] at hThere
    cases hThere
    exact hOnce hChild
  · intro several identifiers
    have hSplit : unit.splits declaration := by
      simp [ParsedUnit.splits, found, hSplittable, several]
    rw [ParsedUnit.sproutsOf_of_splits found hSplit] at hRow
    have hRows : List.Forall₂ (· = ·) (row.map asked.2.arena.shown)
        ((unit.names declaration).map (unit.splitSprout number declaration element)) := by
      rw [List.forall₂_eq_eq_eq]
      exact hRow
    rw [List.forall₂_map_left_iff, List.forall₂_map_right_iff] at hRows
    refine ((List.forall₂_and_left row _).mpr ⟨hMember, hRows⟩).imp ?_
    rintro node name ⟨hNode, hShown⟩
    have hShows := Arena.shown_eq_iff.mp hShown
    have hFaithful := hArena.faithful hNode
    rw [hShows.origin] at hFaithful
    exact hAsked.sound.standsForName hNode hUnit found hSplittable hShows
      (identifiers name (hFaithful unit hUnit).2)
  · intro single
    have hWhole : unit.splits declaration = false := by
      simp [ParsedUnit.splits, found, Nat.not_lt.mpr single]
    rw [ParsedUnit.sproutsOf_of_not_splits found hWhole] at hRow
    obtain ⟨node, rfl, hNode⟩ := List.map_eq_singleton_iff.mp hRow
    exact ⟨node, rfl, hAsked.sound.standsForAll (hMember node (by simp)) hUnit found
      (Arena.shown_eq_iff.mp hNode)⟩

/-- Two parameters of one type with a comment between their names are two nodes, the second of which
is named `b`. -/
theorem Reachable.declaration_row_sample :
    let asked := (Sample.commented.children 4).run Sample.commentedSession
    let element : Element :=
      { kind := "parameter_declaration", span := ⟨7, 18⟩, children := [5, 6, 7, 8] }
    asked.1 = [6, 7] ∧
      Sample.commented.StandsForName asked.2 0 Sample.commentedUnit 4 element 6 5 ∧
      Sample.commented.StandsForName asked.2 0 Sample.commentedUnit 4 element 7 7 ∧
      Sample.commentedUnit.textOf 7 = "b" := by
  intro asked element
  have hAsked : asked.1 = [6, 7] := by decide +kernel
  obtain ⟨before, row, after, hAll, _, hSeveral, _⟩ :=
    @Reachable.declaration_row Sample.commented Sample.commentedSession
      Sample.reachable_commentedSession 4 (by decide +kernel) 0 Sample.commentedUnit 3 4 element rfl
      (by decide +kernel) (by decide +kernel) (by decide +kernel) (by decide +kernel)
      (by decide +kernel)
  have hNames : Sample.commentedUnit.names 4 = [5, 7] := by decide +kernel
  rw [hNames] at hSeveral
  have hRow := hSeveral (by decide) (by decide +kernel)
  rw [hAsked] at hAll
  -- there is no room for other nodes
  have hLength := congrArg List.length hAll
  simp only [List.length_append, hRow.length_eq, List.length_cons, List.length_nil] at hLength
  obtain rfl : before = [] := List.eq_nil_of_length_eq_zero (by omega)
  obtain rfl : after = [] := List.eq_nil_of_length_eq_zero (by omega)
  rw [List.append_nil, List.nil_append] at hAll
  rw [← hAll] at hRow
  obtain ⟨hFirst, hRest⟩ := List.forall₂_cons.mp hRow
  exact ⟨hAsked, hFirst, (List.forall₂_cons.mp hRest).1, by decide +kernel⟩

end SyntaxAtlas
