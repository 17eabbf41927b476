import SyntaxAtlas.Proofs.Graph.Histories
import SyntaxAtlas.Proofs.Graph.Lasting
import SyntaxAtlas.Proofs.Graph.Preorder

/-! Comments among the parts of statements. A comment may stand between any two children of a node. A
part with a role of its own is told from it by the role; but the sides of an assignment, the variables
of a range loop, the receiver of a method and the condition of a loop without a clause are counted off
among the children of one node, and comments are counted with them. -/
namespace SyntaxAtlas

/-- The parts of statements and functions at which children may be counted. -/
inductive Part where
  | lhs
  | rhs
  | forCond
  | rangeKey
  | rangeValue
  | receiver

namespace Part

/-- The nodes that are answered for a part. -/
def ask (forest : Forest) (id : NodeId) : Part → Explore (List NodeId)
  | lhs => forest.lhs id
  | rhs => forest.rhs id
  | forCond => return (← forest.forCond? id).toList
  | rangeKey => return (← forest.rangeKey? id).toList
  | rangeValue => return (← forest.rangeValue? id).toList
  | receiver => return (← forest.receiver? id).toList

/-- Which of the counted nodes is the part. All of them make up the side of an assignment. -/
def place? : Part → Option Nat
  | lhs | rhs => none
  | forCond | rangeKey | receiver => some 0
  | rangeValue => some 1

/-- The part among the counted nodes. -/
def pick (part : Part) (counted : List NodeId) : List NodeId :=
  match part.place? with
  | none => counted
  | some place => counted[place]?.toList

variable {part : Part} {counted : List NodeId} {node : NodeId} {keep : NodeId → Bool}

/-- The part is at a place among the counted nodes, or it is made up of all of them. -/
def Takes (part : Part) (place : Nat) : Prop :=
  ∀ taken, part.place? = some taken → place = taken

/-- A place is counted before the part is found. -/
def Reaches (part : Part) (place : Nat) : Prop :=
  ∀ taken, part.place? = some taken → place ≤ taken

theorem mem_pick : node ∈ part.pick counted ↔
    ∃ place, part.Takes place ∧ counted[place]? = some node := by
  unfold pick Takes
  cases part.place? with
  | none => simpa using List.mem_iff_getElem?
  | some taken => simp

/-- What is left of a list has at a place what has as many left before it. -/
theorem getElem?_filter_eq_some_iff {items : List NodeId} {place : Nat} :
    (items.filter keep)[place]? = some node ↔ ∃ before after, items = before ++ node :: after ∧
      keep node ∧ (before.filter keep).length = place := by
  constructor
  · intro found
    obtain ⟨hPlace, hNode⟩ := List.getElem?_eq_some_iff.mp found
    have hSplit : items.filter keep =
        (items.filter keep).take place ++ node :: (items.filter keep).drop (place + 1) := by
      rw [← hNode, ← List.drop_eq_getElem_cons, List.take_append_drop]
    obtain ⟨front, back, rfl, hFront, hBack⟩ := List.filter_eq_append_iff.mp hSplit
    obtain ⟨gap, after, rfl, hGap, hKeep, _⟩ := List.filter_eq_cons_iff.mp hBack
    refine ⟨front ++ gap, after, (List.append_assoc ..).symm, hKeep, ?_⟩
    rw [List.filter_append, List.filter_eq_nil_iff.mpr hGap, List.append_nil, hFront,
      List.length_take_of_le (Nat.le_of_lt hPlace)]
  · rintro ⟨before, after, rfl, hKeep, rfl⟩
    rw [List.filter_append, List.filter_cons_of_pos hKeep, List.getElem?_append_right (Nat.le_refl _),
      Nat.sub_self]
    rfl

theorem getElem?_filter_of_kept {taken : Nat}
    (kept : ∀ place ≤ taken, ∀ node, counted[place]? = some node → keep node) :
    (counted.filter keep)[taken]? = counted[taken]? := by
  induction counted generalizing taken with
  | nil => rfl
  | cons first rest ih =>
      rw [List.filter_cons_of_pos (kept 0 (Nat.zero_le taken) first rfl)]
      cases taken with
      | zero => rfl
      | succ taken =>
          refine ih ?_
          intro place hPlace node found
          exact kept (place + 1) (Nat.succ_le_succ hPlace) node found

/-- What stands behind the part does not matter. -/
theorem pick_filter (kept : ∀ place node, part.Reaches place → counted[place]? = some node →
    keep node) : part.pick (counted.filter keep) = part.pick counted := by
  unfold pick
  unfold Reaches at kept
  cases hPlace : part.place? with
  | none =>
      refine List.filter_eq_self.mpr ?_
      intro node member
      obtain ⟨place, found⟩ := List.mem_iff_getElem?.mp member
      refine kept place node ?_ found
      simp [hPlace]
  | some taken =>
      refine congrArg Option.toList (getElem?_filter_of_kept ?_)
      intro place before node found
      refine kept place node ?_ found
      simpa [hPlace] using before

end Part

namespace Forest

/-- The first child in a role, as the tree shows it. -/
def inRole? (forest : Forest) (arena : Arena) (field : String) (id : NodeId) : Option NodeId :=
  (arena.childrenOf id).find? fun child => forest.field? arena child == some field

/-- The same for nodes of certain kinds. -/
def inRoleOf? (forest : Forest) (arena : Arena) (kinds : List Kind) (field : String) (id : NodeId) :
    Option NodeId :=
  if kinds.contains (arena.kind id) then forest.inRole? arena field id else none

/-- The clause of a loop, as the tree shows it. -/
def clauseIn? (arena : Arena) (clause : Kind) (id : NodeId) : Option NodeId :=
  if arena.kind id = clause then some id
  else if arena.kind id = .forStmt then
    (arena.childrenOf id).find? fun child => arena.kind child == clause
  else none

/-- The nodes of a list, as the tree shows them. -/
def itemsIn (arena : Arena) : Option NodeId → List NodeId
  | none => []
  | some id => if arena.kind id = .expressionList then arena.childrenOf id else [id]

/-- What may be the condition of a loop without a clause. -/
def mayBeCondition (forest : Forest) (arena : Arena) (child : NodeId) : Bool :=
  forest.field? arena child != some "body" && arena.kind child != .rangeClause

/-- The nodes among which a part is counted off. -/
def counted (forest : Forest) (arena : Arena) (id : NodeId) : Part → List NodeId
  | .lhs => itemsIn arena (forest.inRoleOf? arena [.assignStmt, .shortVarDecl] "left" id)
  | .rhs => itemsIn arena (forest.inRoleOf? arena [.assignStmt, .shortVarDecl] "right" id)
  | .forCond =>
    match clauseIn? arena .forClause id with
    | some clause => (forest.inRole? arena "condition" clause).toList
    | none =>
      if arena.kind id = .forStmt then
        (arena.childrenOf id).filter (forest.mayBeCondition arena)
      else []
  | .rangeKey | .rangeValue =>
    itemsIn arena ((clauseIn? arena .rangeClause id).bind (forest.inRole? arena "left"))
  | .receiver => (forest.inRoleOf? arena [.methodDecl] "receiver" id).elim [] arena.childrenOf

/-- The node at which a part is found: the child in its role, or the loop whose children are looked
through for a condition. -/
def holder? (forest : Forest) (arena : Arena) (id : NodeId) : Part → Option NodeId
  | .lhs => forest.inRoleOf? arena [.assignStmt, .shortVarDecl] "left" id
  | .rhs => forest.inRoleOf? arena [.assignStmt, .shortVarDecl] "right" id
  | .forCond =>
    match clauseIn? arena .forClause id with
    | some clause => forest.inRole? arena "condition" clause
    | none => if arena.kind id = .forStmt then some id else none
  | .rangeKey | .rangeValue =>
    (clauseIn? arena .rangeClause id).bind (forest.inRole? arena "left")
  | .receiver => forest.inRoleOf? arena [.methodDecl] "receiver" id

/-- The part is counted off among the children of that node, and is not the node itself. -/
def countsChildren (arena : Arena) (id holder : NodeId) : Part → Bool
  | .lhs | .rhs | .rangeKey | .rangeValue => arena.kind holder == .expressionList
  | .forCond => (clauseIn? arena .forClause id).isNone
  | .receiver => true

/-- A child that is counted. -/
def counts (forest : Forest) (arena : Arena) (child : NodeId) : Part → Bool
  | .forCond => forest.mayBeCondition arena child
  | _ => true

/-- A comment stands at such a place where a part is counted off: as a child with so many counted
ones in front of it, or as the part itself. -/
inductive CommentAt (forest : Forest) (arena : Arena) (id : NodeId) (part : Part)
    (place : Nat → Prop) : Prop where
  | child {holder child : NodeId} {before after : List NodeId}
      (holds : forest.holder? arena id part = some holder)
      (inside : countsChildren arena id holder part)
      (children : arena.childrenOf holder = before ++ child :: after)
      (counted : forest.counts arena child part)
      (here : place (before.filter fun other => forest.counts arena other part).length)
      (comment : arena.kind child = .comment)
  | alone {holder : NodeId} (holds : forest.holder? arena id part = some holder)
      (inside : ¬ countsChildren arena id holder part) (here : place 0)
      (comment : arena.kind holder = .comment)

section CommentAt

variable {forest : Forest} {arena : Arena} {id : NodeId} {part : Part} {place : Nat → Prop}

theorem counted_eq (forest : Forest) (arena : Arena) (id : NodeId) (part : Part) :
    forest.counted arena id part = (forest.holder? arena id part).elim [] fun holder =>
      if countsChildren arena id holder part then
        (arena.childrenOf holder).filter fun child => forest.counts arena child part
      else [holder] := by
  have hItems : ∀ found : Option NodeId, itemsIn arena found = found.elim [] fun holder =>
      if arena.kind holder == .expressionList then
        (arena.childrenOf holder).filter fun _ => true
      else [holder] := by
    rintro (_ | holder)
    · rfl
    · simp [itemsIn]
  cases part with
  | lhs => exact hItems _
  | rhs => exact hItems _
  | rangeKey => exact hItems _
  | rangeValue => exact hItems _
  | receiver =>
      unfold counted holder? countsChildren counts
      cases forest.inRoleOf? arena [.methodDecl] "receiver" id with
      | none => rfl
      | some holder => simp
  | forCond =>
      unfold counted holder? countsChildren counts
      cases clauseIn? arena .forClause id with
      | none => split_ifs <;> rfl
      | some clause =>
          dsimp only
          cases forest.inRole? arena "condition" clause <;> rfl

theorem commentAt_iff : forest.CommentAt arena id part place ↔
    ∃ taken node, place taken ∧ (forest.counted arena id part)[taken]? = some node ∧
      arena.kind node = .comment := by
  rw [counted_eq]
  constructor
  · rintro (⟨holds, inside, children, counted, here, comment⟩ | ⟨holds, inside, here, comment⟩)
    · refine ⟨_, _, here, ?_, comment⟩
      rw [holds, Option.elim_some, if_pos inside]
      exact Part.getElem?_filter_eq_some_iff.mpr ⟨_, _, children, counted, rfl⟩
    · refine ⟨0, _, here, ?_, comment⟩
      rw [holds, Option.elim_some, if_neg inside]
      rfl
  · rintro ⟨taken, node, here, found, comment⟩
    cases holds : forest.holder? arena id part with
    | none =>
        rw [holds] at found
        cases found
    | some holder =>
        rw [holds, Option.elim_some] at found
        split_ifs at found with inside
        · obtain ⟨before, after, children, counted, rfl⟩ :=
            Part.getElem?_filter_eq_some_iff.mp found
          exact .child holds inside children counted here comment
        · obtain ⟨rfl, rfl⟩ : taken = 0 ∧ holder = node := by
            simpa [List.getElem?_singleton] using found
          exact .alone holds inside here comment

end CommentAt

end Forest

namespace Session

section Sees

variable {α : Type} {forest : Forest} {session : Session} {id : NodeId}

/-- An answer that can be read off the tree from now on. -/
def Sees (forest : Forest) (session : Session) (reading : Arena → α) (answer : α) : Prop :=
  ∀ last : Session, last.Sound forest → session.Extends last → answer = reading last.arena

/-- A question for nodes that can be read off the tree once they were numbered. -/
abbrev Reveals (forest : Forest) (session : Session) (question : Explore α)
    (good : Session → α → Prop) (reading : Arena → α) : Prop :=
  session.Yields forest .nodes question fun later answer =>
    good later answer ∧ later.Sees forest reading answer

theorem Reveals.pure {answer : α} {good : Session → α → Prop} {reading : Arena → α}
    (sound : session.Sound forest) (hGood : good session answer)
    (h : ∀ last : Session, last.Sound forest → session.Extends last →
      answer = reading last.arena) : session.Reveals forest (Pure.pure answer) good reading :=
  Yields.pure sound ⟨hGood, h⟩

/-- Another way to read the answer off. -/
theorem Reveals.congr {question : Explore α} {good : Session → α → Prop} {reading other : Arena → α}
    (h : session.Reveals forest question good reading)
    (same : ∀ last : Session, last.Sound forest → session.Extends last →
      reading last.arena = other last.arena) : session.Reveals forest question good other := by
  obtain ⟨hGood, hSees⟩ := h.answer
  refine ⟨h.sound, h.allows, hGood, ?_⟩
  intro last hLast since
  exact (hSees last hLast since).trans (same last hLast (h.allows.keeps.trans since))

theorem children_reveals (sound : session.Sound forest) (known : id < session.arena.size) :
    session.Reveals forest (forest.children id) Knows (fun arena => arena.childrenOf id) := by
  have hChildren := children_yields .nodes sound known
  have hKnows : session.Yields forest .nodes (forest.children id) Knows :=
    children_knows sound known
  refine ⟨hChildren.sound, hChildren.allows, hKnows.answer, ?_⟩
  intro last _ since
  have hKnown := hChildren.allows.keeps.arena.lt known
  exact (Arena.childrenOf_eq (since.arena.children id _ hKnown hChildren.answer)).symm

theorem findChild?_reveals {test : Arena → NodeId → Bool}
    (same : ∀ earlier later : Arena, earlier.Extends later → ∀ child, child < earlier.size →
      test later child = test earlier child)
    (sound : session.Sound forest) (known : id < session.arena.size) :
    session.Reveals forest (forest.findChild? id test) Finds
      (fun arena => (arena.childrenOf id).find? (test arena)) := by
  refine (children_reveals sound known).bind ?_
  rintro later ids sound _ ⟨knows, sees⟩
  refine .read (Reveals.pure sound ?_ ?_)
  · intro child found
    exact knows child (List.mem_of_find?_eq_some found)
  · intro last hLast since
    have hIds : ids = last.arena.childrenOf id := sees last hLast since
    rw [← hIds]
    exact List.find?_congr fun child member =>
      (same _ _ since.arena child (knows child member)).symm

theorem childInField?_reveals {field : String} (sound : session.Sound forest)
    (known : id < session.arena.size) :
    session.Reveals forest (forest.childInField? field id) Finds
      (fun arena => forest.inRole? arena field id) := by
  refine findChild?_reveals ?_ sound known
  intro earlier later keeps child hChild
  rw [forest.field?_extends keeps hChild]

theorem childByKind?_reveals {kind : Kind} (sound : session.Sound forest)
    (known : id < session.arena.size) :
    session.Reveals forest (forest.childByKind? kind id) Finds
      (fun arena => (arena.childrenOf id).find? fun child => arena.kind child == kind) := by
  refine findChild?_reveals ?_ sound known
  intro earlier later keeps child hChild
  rw [keeps.kind child hChild]

theorem partOf?_reveals {kinds : List Kind} {field : String} (sound : session.Sound forest)
    (known : id < session.arena.size) :
    session.Reveals forest (forest.partOf? kinds field id) Finds
      (fun arena => forest.inRoleOf? arena kinds field id) := by
  refine .read ?_
  split_ifs with hKind
  · refine Reveals.congr (childInField?_reveals sound known) ?_
    intro last _ since
    rw [Forest.inRoleOf?, since.arena.kind id known, if_pos hKind]
  · refine Reveals.pure sound (finds_none session) ?_
    intro last _ since
    rw [Forest.inRoleOf?, since.arena.kind id known, if_neg hKind]

/-- One question for nodes after another. -/
theorem partOfSome?_reveals {field : String} {node : Option NodeId} {reading : Arena → Option NodeId}
    (sound : session.Sound forest) (finds : session.Finds node)
    (sees : session.Sees forest reading node) :
    session.Reveals forest (forest.partOfSome? field node) Finds
      (fun arena => (reading arena).bind (forest.inRole? arena field)) := by
  cases node with
  | none =>
      refine Reveals.pure sound (finds_none session) ?_
      intro last hLast since
      rw [← sees last hLast since, Option.bind_none]
  | some id =>
      refine Reveals.congr (childInField?_reveals sound (finds id rfl)) ?_
      intro last hLast since
      rw [← sees last hLast since, Option.bind_some]

theorem listItems_reveals {node : Option NodeId} {reading : Arena → Option NodeId}
    (sound : session.Sound forest) (finds : session.Finds node)
    (sees : session.Sees forest reading node) :
    session.Reveals forest (forest.listItems node) Knows
      (fun arena => Forest.itemsIn arena (reading arena)) := by
  cases node with
  | none =>
      refine Reveals.pure sound (.nil session) ?_
      intro last hLast since
      rw [← sees last hLast since, Forest.itemsIn]
  | some id =>
      have hKnown := finds id rfl
      refine .read ?_
      split_ifs with hList
      · refine Reveals.congr (children_reveals sound hKnown) ?_
        intro last hLast since
        rw [← sees last hLast since, Forest.itemsIn, since.arena.kind id hKnown, if_pos hList]
      · refine Reveals.pure sound (.cons hKnown (.nil session)) ?_
        intro last hLast since
        rw [← sees last hLast since, Forest.itemsIn, since.arena.kind id hKnown, if_neg hList]

theorem loopClause?_reveals {clause : Kind} (sound : session.Sound forest)
    (known : id < session.arena.size) :
    session.Reveals forest (forest.loopClause? clause id) Finds
      (fun arena => Forest.clauseIn? arena clause id) := by
  refine .read ?_
  dsimp only
  split_ifs with hClause hLoop
  · refine Reveals.pure sound (finds_some known) ?_
    intro last _ since
    rw [Forest.clauseIn?, since.arena.kind id known, if_pos hClause]
  · refine Reveals.congr (childByKind?_reveals sound known) ?_
    intro last _ since
    rw [Forest.clauseIn?, since.arena.kind id known, if_neg hClause, if_pos hLoop]
  · refine Reveals.pure sound (finds_none session) ?_
    intro last _ since
    rw [Forest.clauseIn?, since.arena.kind id known, if_neg hClause, if_neg hLoop]

end Sees

section Parts

variable {forest : Forest} {session : Session} {id : NodeId}

theorem side_reveals {field : String} (sound : session.Sound forest)
    (known : id < session.arena.size) :
    session.Reveals forest
      (forest.partOf? [.assignStmt, .shortVarDecl] field id >>= forest.listItems) Knows
      (fun arena => Forest.itemsIn arena
        (forest.inRoleOf? arena [.assignStmt, .shortVarDecl] field id)) := by
  refine (partOf?_reveals sound known).bind ?_
  rintro later node sound _ ⟨finds, sees⟩
  exact listItems_reveals sound finds sees

theorem rangeVariables_reveals (sound : session.Sound forest) (known : id < session.arena.size) :
    session.Reveals forest (forest.rangeVariables id) Knows (fun arena => Forest.itemsIn arena
      ((Forest.clauseIn? arena .rangeClause id).bind (forest.inRole? arena "left"))) := by
  refine (loopClause?_reveals sound known).bind ?_
  rintro later clause sound _ ⟨finds, sees⟩
  refine (partOfSome?_reveals sound finds sees).bind ?_
  rintro later node sound _ ⟨finds, sees⟩
  exact listItems_reveals sound finds sees

theorem forCond?_reveals (sound : session.Sound forest) (known : id < session.arena.size) :
    session.Reveals forest (forest.forCond? id) Finds
      (fun arena => (forest.counted arena id .forCond)[0]?) := by
  refine (loopClause?_reveals sound known).bind ?_
  rintro later (_ | clause) sound grown ⟨finds, sees⟩
  · have hKnown := grown.keeps.arena.lt known
    have hNone : ∀ last : Session, last.Sound forest → later.Extends last →
        none = Forest.clauseIn? last.arena .forClause id := sees
    refine .read ?_
    split_ifs with hLoop
    · refine Reveals.congr (findChild?_reveals ?_ sound hKnown) ?_
      · intro earlier last keeps child hChild
        rw [forest.field?_extends keeps hChild, keeps.kind child hChild]
      · intro last hLast since
        rw [Forest.counted, ← hNone last hLast since, since.arena.kind id hKnown]
        dsimp only
        rw [if_pos hLoop, ← List.head?_eq_getElem?, List.head?_filter]
        rfl
    · refine Reveals.pure sound (finds_none later) ?_
      intro last hLast since
      rw [Forest.counted, ← hNone last hLast since, since.arena.kind id hKnown]
      dsimp only
      rw [if_neg hLoop, List.getElem?_nil]
  · refine Reveals.congr (childInField?_reveals sound (finds clause rfl)) ?_
    intro last hLast since
    have hClause : some clause = Forest.clauseIn? last.arena .forClause id :=
      sees last hLast since
    rw [Forest.counted, ← hClause, ← List.head?_eq_getElem?, Option.head?_toList]

theorem receiver?_reveals (sound : session.Sound forest) (known : id < session.arena.size) :
    session.Reveals forest (forest.receiver? id) Finds
      (fun arena => (forest.counted arena id .receiver)[0]?) := by
  refine (partOf?_reveals sound known).bind ?_
  rintro later list sound _ ⟨finds, sees⟩
  have hList : ∀ last : Session, last.Sound forest → later.Extends last →
      list = forest.inRoleOf? last.arena [.methodDecl] "receiver" id := sees
  cases list with
  | none =>
      refine Reveals.pure sound (finds_none later) ?_
      intro last hLast since
      rw [Forest.counted, ← hList last hLast since, Option.elim_none, List.getElem?_nil]
  | some list =>
      refine (children_reveals sound (finds list rfl)).bind ?_
      rintro after ids sound grown ⟨knows, hIds⟩
      refine Reveals.pure sound ?_ ?_
      · intro child found
        exact knows child (List.mem_of_head? found)
      · intro last hLast since
        have hChildren : ids = last.arena.childrenOf list := hIds last hLast since
        rw [Forest.counted, ← hList last hLast (grown.keeps.trans since), Option.elim_some,
          ← hChildren, List.head?_eq_getElem?]

theorem rangeVariable_reveals {place : Nat} (sound : session.Sound forest)
    (known : id < session.arena.size) :
    session.Reveals forest (forest.rangeVariables id >>= fun ids => pure ids[place]?) Finds
      (fun arena => (Forest.itemsIn arena
        ((Forest.clauseIn? arena .rangeClause id).bind (forest.inRole? arena "left")))[place]?) := by
  refine (rangeVariables_reveals sound known).bind ?_
  rintro later ids sound _ ⟨knows, sees⟩
  refine Reveals.pure sound ?_ ?_
  · intro node found
    exact knows node (List.mem_of_getElem? found)
  · intro last hLast since
    exact congrArg (·[place]?) (sees last hLast since)

theorem toList_reveals {question : Explore (Option NodeId)} {reading : Arena → Option NodeId}
    (h : session.Reveals forest question Finds reading) :
    session.Reveals forest (question >>= fun found => pure found.toList) Knows
      (fun arena => (reading arena).toList) := by
  refine h.bind ?_
  rintro later found sound _ ⟨finds, sees⟩
  refine Reveals.pure sound ?_ ?_
  · intro node member
    exact finds node (Option.mem_toList.mp member)
  · intro last hLast since
    exact congrArg Option.toList (sees last hLast since)

theorem part_reveals (sound : session.Sound forest) (known : id < session.arena.size) (part : Part) :
    session.Reveals forest (part.ask forest id) Knows
      (fun arena => part.pick (forest.counted arena id part)) := by
  cases part with
  | lhs => exact side_reveals sound known
  | rhs => exact side_reveals sound known
  | forCond => exact toList_reveals (forCond?_reveals sound known)
  | rangeKey => exact toList_reveals (rangeVariable_reveals sound known)
  | rangeValue => exact toList_reveals (rangeVariable_reveals sound known)
  | receiver => exact toList_reveals (receiver?_reveals sound known)

end Parts

end Session

/-- When a comment is taken for a part, as the tree shows at any later time. The part is counted off
among nodes of the tree. A comment is answered exactly when it stands at the place of the part among
the children of the list, the clause or the loop, and the answer is the one without any comments
unless a comment is counted there before the part is found. -/
theorem Reachable.part_comment_iff {forest : Forest} {session : Session}
    (reached : Reachable forest session) {id : NodeId} (known : id < session.arena.size)
    (part : Part) :
    let asked := (part.ask forest id).run session
    ∀ last, Leads forest asked.2 last →
      let arena := last.arena
      let counted := forest.counted arena id part
      asked.1 = part.pick counted ∧
        ((∃ node ∈ asked.1, arena.kind node = .comment) ↔
          forest.CommentAt arena id part part.Takes) ∧
        (¬ forest.CommentAt arena id part part.Reaches →
          asked.1 = part.pick (counted.filter fun node => arena.kind node != .comment)) := by
  intro asked last leads arena counted
  have hReveals := Session.part_reveals reached.sound known part
  obtain ⟨hSound, hKeeps⟩ := leads.sound_extends hReveals.sound
  have hAnswer : asked.1 = part.pick counted := hReveals.answer.2 last hSound hKeeps
  rw [hAnswer, Forest.commentAt_iff, Forest.commentAt_iff]
  refine ⟨rfl, ?_, ?_⟩
  · constructor
    · rintro ⟨node, member, hComment⟩
      obtain ⟨place, hTakes, hFound⟩ := Part.mem_pick.mp member
      exact ⟨place, node, hTakes, hFound, hComment⟩
    · rintro ⟨place, node, hTakes, hFound, hComment⟩
      exact ⟨node, Part.mem_pick.mpr ⟨place, hTakes, hFound⟩, hComment⟩
  · intro clear
    refine (Part.pick_filter ?_).symm
    intro place node before found
    exact bne_iff_ne.mpr fun hComment => clear ⟨place, node, before, found, hComment⟩

namespace Sample

/-- A loop with a comment in front of its condition. -/
def remarkUnit : ParsedUnit where
  source := ⟨"a.go", 0, "package p\n\nfunc f(x int) \x7b\n\tfor /* c */ x < 3 \x7b\n\t\x7d\n\x7d\n"⟩
  snapshot := ⟨#[
    { kind := "source_file", span := ⟨0, 53⟩, children := [1, 3] },
    { kind := "package_clause", span := ⟨0, 9⟩, children := [2] },
    { kind := "package_identifier", span := ⟨8, 9⟩ },
    { kind := "function_declaration", span := ⟨11, 52⟩, children := [4, 5, 9] },
    { kind := "identifier", span := ⟨16, 17⟩, field := some "name" },
    { kind := "parameter_list", span := ⟨17, 24⟩, field := some "parameters", children := [6] },
    { kind := "parameter_declaration", span := ⟨18, 23⟩, children := [7, 8] },
    { kind := "identifier", span := ⟨18, 19⟩, field := some "name" },
    { kind := "type_identifier", span := ⟨20, 23⟩, field := some "type" },
    { kind := "block", span := ⟨25, 52⟩, field := some "body", children := [10] },
    { kind := "statement_list", span := ⟨28, 51⟩, children := [11] },
    { kind := "for_statement", span := ⟨28, 50⟩, children := [12, 13, 16] },
    { kind := "comment", span := ⟨32, 39⟩ },
    { kind := "binary_expression", span := ⟨40, 45⟩, operator := some "<", children := [14, 15] },
    { kind := "identifier", span := ⟨40, 41⟩, field := some "left" },
    { kind := "int_literal", span := ⟨44, 45⟩, field := some "right" },
    { kind := "block", span := ⟨46, 50⟩, field := some "body" }]⟩

def remark : Forest where
  units := [remarkUnit]
  package := some ⟨"p", {}⟩
  accepted := by decide
  standalone := by decide

def remarkSession : Session :=
  Query.after remark (.start remark) .materializeAll

theorem reachable_remarkSession : Reachable remark remarkSession :=
  .ask .materializeAll (Session.Knows.nil _)

end Sample

/-- The comment is the first child of the loop. -/
theorem Reachable.part_comment_iff_sample :
    let asked := (Part.forCond.ask Sample.remark 12).run Sample.remarkSession
    asked.2.arena.childrenOf 12 = [13, 14, 15] ∧
      ∃ node ∈ asked.1, asked.2.arena.kind node = .comment := by
  intro asked
  have hKnown : 12 < Sample.remarkSession.arena.size := by decide +kernel
  obtain ⟨hHolder, hInside, hChildren, hCounted, hComment⟩ :
      Sample.remark.holder? asked.2.arena 12 .forCond = some 12 ∧
      Forest.countsChildren asked.2.arena 12 12 .forCond ∧
      asked.2.arena.childrenOf 12 = [13, 14, 15] ∧
      Sample.remark.counts asked.2.arena 13 .forCond ∧ asked.2.arena.kind 13 = .comment := by
    decide +kernel
  have hTakes : Part.forCond.Takes 0 := by
    intro taken hPlace
    cases hPlace
    rfl
  obtain ⟨_, hTaken, _⟩ := Reachable.part_comment_iff Sample.reachable_remarkSession hKnown .forCond
    asked.2 (.refl _)
  have hFirst : asked.2.arena.childrenOf 12 = [] ++ 13 :: [14, 15] := hChildren
  exact ⟨hChildren, hTaken.mpr (.child hHolder hInside hFirst hCounted hTakes hComment)⟩

/-- The loop runs while a number is small, and the comment in front of that is answered. -/
theorem Sample.comment_taken_for_condition :
    let asked := (Sample.remark.forCond? 12).run Sample.remarkSession
    Reachable Sample.remark Sample.remarkSession ∧ asked.1 = some 13 ∧
      asked.2.arena.kind 13 = .comment ∧
      asked.2.arena.children? 12 = some [13, 14, 15] ∧ asked.2.arena.kind 14 = .binaryExpr := by
  refine ⟨Sample.reachable_remarkSession, ?_⟩
  decide +kernel

end SyntaxAtlas
