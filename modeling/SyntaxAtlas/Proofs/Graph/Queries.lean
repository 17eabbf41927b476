import SyntaxAtlas.Graph.Parts
import SyntaxAtlas.Graph.Query
import SyntaxAtlas.Graph.Resolve
import SyntaxAtlas.Proofs.Graph.Walks

/-! Every question about names, types, parts and neighbours of a node keeps a session sound. Each
lemma is about one question and cites the lemmas of the questions that it asks in turn. -/
namespace SyntaxAtlas.Session

section Naming

variable {forest : Forest} {footprint : Footprint} {session : Session} {id : NodeId}

theorem findChild?_yields {test : Arena → NodeId → Bool} (sound : session.Sound forest)
    (known : id < session.arena.size) :
    session.Yields forest footprint (forest.findChild? id test) Finds := by
  refine (children_knows sound known).bind ?_
  intro later ids sound _ knows
  refine .read (.pure sound ?_)
  intro child found
  exact knows child (List.mem_of_find?_eq_some found)

theorem childInField?_yields {field : String} (sound : session.Sound forest)
    (known : id < session.arena.size) :
    session.Yields forest footprint (forest.childInField? field id) Finds :=
  findChild?_yields sound known

theorem childByKind?_yields {kind : Kind} (sound : session.Sound forest)
    (known : id < session.arena.size) :
    session.Yields forest footprint (forest.childByKind? kind id) Finds :=
  findChild?_yields sound known

/-- Picking among found nodes finds nothing new. -/
theorem Finds.filter {session : Session} {found : Option NodeId} (finds : session.Finds found)
    (test : NodeId → Bool) : session.Finds (found.filter test) :=
  fun id hFound => finds id (Option.eq_some_of_filter_eq_some hFound)

theorem elementIdent?_yields (sound : session.Sound forest) (known : id < session.arena.size) :
    session.Yields forest footprint (forest.elementIdent? id) Finds := by
  refine (childInField?_yields sound known).bind ?_
  intro later found sound _ finds
  exact .read (.pure sound (finds.filter _))

theorem callTarget?_yields (sound : session.Sound forest) (known : id < session.arena.size) :
    session.Yields forest footprint (forest.callTarget? id) Finds := by
  refine .read ?_
  split
  · exact childInField?_yields sound known
  · exact childInField?_yields sound known
  · exact .pure sound (finds_none session)

theorem targetIdent?_yields (sound : session.Sound forest) (known : id < session.arena.size) :
    session.Yields forest footprint (forest.targetIdent? id) Finds := by
  refine .read ?_
  split
  · exact .pure sound (finds_some known)
  · exact elementIdent?_yields sound known
  · exact elementIdent?_yields sound known
  · exact .pure sound (finds_none session)

theorem ident?_yields (sound : session.Sound forest) (known : id < session.arena.size) :
    session.Yields forest footprint (forest.ident? id) Finds := by
  refine .read ?_
  split
  -- identifiers name themselves
  iterate 5 exact .pure sound (finds_some known)
  -- declarations and labels are named by a child
  iterate 11 exact childInField?_yields sound known
  iterate 3 exact childByKind?_yields sound known
  · refine (childByKind?_yields sound known).bind ?_
    rintro later (_ | clause) sound _ finds
    · exact .pure sound (finds_none later)
    · exact childByKind?_yields sound (finds clause rfl)
  · exact childInField?_yields sound known
  iterate 2
    refine (callTarget?_yields sound known).bind ?_
    rintro later (_ | target) sound _ finds
    · exact .pure sound (finds_none later)
    · exact targetIdent?_yields sound (finds target rfl)
  iterate 2 exact elementIdent?_yields sound known
  · exact .pure sound (finds_none session)

theorem textOf?_yields {node : Option NodeId} (sound : session.Sound forest) :
    session.Yields forest footprint (forest.textOf? node) (fun _ _ => True) :=
  .read (.pure sound trivial)

theorem elementName?_yields (sound : session.Sound forest) (known : id < session.arena.size) :
    session.Yields forest footprint (forest.elementName? id) (fun _ _ => True) := by
  refine (elementIdent?_yields sound known).bind ?_
  intro later found sound _ _
  refine (textOf?_yields sound).bind ?_
  intro after text sound _ _
  exact .pure sound trivial

theorem identText?_yields (sound : session.Sound forest) (known : id < session.arena.size) :
    session.Yields forest footprint (forest.ident? id >>= fun ident => forest.textOf? ident)
      (fun _ _ => True) := by
  refine (ident?_yields sound known).bind ?_
  intro later found sound _ _
  exact textOf?_yields sound

theorem name?_yields (sound : session.Sound forest) (known : id < session.arena.size) :
    session.Yields forest footprint (forest.name? id) (fun _ _ => True) := by
  refine .read ?_
  split
  · refine (ident?_yields sound known).bind ?_
    intro later found sound grown _
    have known := grown.keeps.arena.lt known
    refine (textOf?_yields sound).bind ?_
    rintro later (_ | field) sound grown _
    · exact .pure sound trivial
    · refine (childInField?_yields sound (grown.keeps.arena.lt known)).bind ?_
      intro later operand sound _ _
      refine .read ?_
      dsimp only
      split
      · exact .pure sound trivial
      · exact .pure sound trivial
  iterate 2
    refine (callTarget?_yields sound known).bind ?_
    rintro later (_ | target) sound grown finds
    · exact .pure sound trivial
    · have known := grown.keeps.arena.lt known
      refine .read ?_
      split
      iterate 2 exact elementName?_yields sound (finds target rfl)
      · exact identText?_yields sound known
  iterate 2 exact elementName?_yields sound known
  · exact identText?_yields sound known

theorem display_yields (sound : session.Sound forest) (known : id < session.arena.size) :
    session.Yields forest footprint (forest.display id) (fun _ _ => True) := by
  refine .read ?_
  refine (name?_yields sound known).bind ?_
  rintro later (_ | name) sound _ _
  · exact .pure sound trivial
  · exact .pure sound trivial

/-- Asking for a type may build the index of types, which nothing else depends on. -/
theorem recordedType?_yields {package : Package} (sound : session.Sound forest) :
    session.Yields forest .all (Forest.recordedType? package id) (fun _ _ => True) := by
  refine .read ?_
  have hKeeps : ∀ index, session.Extends { session with typeIndex := index } :=
    fun _ => ⟨.refl _, fun _ h => h, fun _ h => h, fun _ h => h⟩
  refine .write (hKeeps _) (.pure ?_ trivial)
  exact sound.update (hKeeps _) sound.arena (fun _ h => .inl h) (fun _ h => .inl h)
    (fun _ h => .inl h) (fun _ h => .inl h) (fun _ h => .inl h)

theorem identType?_yields {package : Package} (sound : session.Sound forest) :
    session.Yields forest .all (forest.identType? package id) (fun _ _ => True) := by
  refine (recordedType?_yields sound).bind ?_
  rintro later (_ | type) sound _ _
  · exact .read (.pure sound trivial)
  · exact .pure sound trivial

theorem valueType?_yields (sound : session.Sound forest) (known : id < session.arena.size) :
    session.Yields forest .all (forest.valueType? id) (fun _ _ => True) := by
  unfold Forest.valueType?
  cases forest.package with
  | none => exact .pure sound trivial
  | some package =>
      refine (recordedType?_yields sound).bind ?_
      rintro later (_ | type) sound grown _
      · have known := grown.keeps.arena.lt known
        refine .read ?_
        dsimp only
        split
        iterate 5 exact .pure sound trivial
        iterate 7
          refine (childInField?_yields sound known).bind ?_
          rintro later (_ | type) sound _ _
          · exact .pure sound trivial
          · refine .read ?_
            split_ifs
            · exact identType?_yields sound
            · exact .pure sound trivial
        · exact .pure sound trivial
      · exact .pure sound trivial

end Naming

section Parts

variable {forest : Forest} {footprint : Footprint} {session : Session} {id : NodeId}

theorem partOf?_yields {kinds : List Kind} {field : String} (sound : session.Sound forest)
    (known : id < session.arena.size) :
    session.Yields forest footprint (forest.partOf? kinds field id) Finds := by
  refine .read ?_
  split_ifs
  · exact childInField?_yields sound known
  · exact .pure sound (finds_none session)

theorem partOfSome?_yields {field : String} {node : Option NodeId} (sound : session.Sound forest)
    (finds : session.Finds node) :
    session.Yields forest footprint (forest.partOfSome? field node) Finds := by
  cases node with
  | none => exact .pure sound (finds_none session)
  | some id => exact childInField?_yields sound (finds id rfl)

theorem listItems_yields {node : Option NodeId} (sound : session.Sound forest)
    (finds : session.Finds node) :
    session.Yields forest footprint (forest.listItems node) Knows := by
  cases node with
  | none => exact .pure sound (.nil session)
  | some id =>
      refine .read ?_
      split_ifs
      · exact children_knows sound (finds id rfl)
      · exact .pure sound (.cons (finds id rfl) (.nil session))

theorem lhs_yields (sound : session.Sound forest) (known : id < session.arena.size) :
    session.Yields forest footprint (forest.lhs id) Knows :=
  (partOf?_yields sound known).bind fun _ _ sound _ finds => listItems_yields sound finds

theorem rhs_yields (sound : session.Sound forest) (known : id < session.arena.size) :
    session.Yields forest footprint (forest.rhs id) Knows :=
  (partOf?_yields sound known).bind fun _ _ sound _ finds => listItems_yields sound finds

theorem loopClause?_yields {clause : Kind} (sound : session.Sound forest)
    (known : id < session.arena.size) :
    session.Yields forest footprint (forest.loopClause? clause id) Finds := by
  refine .read ?_
  dsimp only
  split_ifs
  · exact .pure sound (finds_some known)
  · exact childByKind?_yields sound known
  · exact .pure sound (finds_none session)

/-- A part of the clause of a loop. -/
theorem clausePart?_yields {clause : Kind} {field : String} (sound : session.Sound forest)
    (known : id < session.arena.size) :
    session.Yields forest footprint
      (forest.loopClause? clause id >>= fun found => forest.partOfSome? field found) Finds :=
  (loopClause?_yields sound known).bind fun _ _ sound _ finds => partOfSome?_yields sound finds

theorem forCond?_yields (sound : session.Sound forest) (known : id < session.arena.size) :
    session.Yields forest footprint (forest.forCond? id) Finds := by
  refine (loopClause?_yields sound known).bind ?_
  rintro later (_ | clause) sound grown finds
  · refine .read ?_
    split_ifs
    · exact findChild?_yields sound (grown.keeps.arena.lt known)
    · exact .pure sound (finds_none later)
  · exact childInField?_yields sound (finds clause rfl)

theorem rangeVariables_yields (sound : session.Sound forest) (known : id < session.arena.size) :
    session.Yields forest footprint (forest.rangeVariables id) Knows := by
  refine (loopClause?_yields sound known).bind ?_
  intro later clause sound _ finds
  refine (partOfSome?_yields sound finds).bind ?_
  intro later part sound _ finds
  exact listItems_yields sound finds

/-- One of the variables of a range loop. -/
theorem rangeVariable_yields {place : Nat} (sound : session.Sound forest)
    (known : id < session.arena.size) :
    session.Yields forest footprint
      (forest.rangeVariables id >>= fun ids => pure ids[place]?) Finds := by
  refine (rangeVariables_yields sound known).bind ?_
  intro later ids sound _ knows
  exact .pure sound fun node found => knows node (List.mem_of_getElem? found)

theorem receiver?_yields (sound : session.Sound forest) (known : id < session.arena.size) :
    session.Yields forest footprint (forest.receiver? id) Finds := by
  refine (partOf?_yields sound known).bind ?_
  rintro later (_ | list) sound _ finds
  · exact .pure sound (finds_none later)
  · refine (children_knows sound (finds list rfl)).bind ?_
    intro later ids sound _ knows
    exact .pure sound fun node found => knows node (List.mem_of_head? found)

theorem packageName?_yields (sound : session.Sound forest) (known : id < session.arena.size) :
    session.Yields forest footprint (forest.packageName? id) Finds := by
  refine (partOf?_yields sound known).bind ?_
  intro later operand sound _ finds
  exact .read (.pure sound (finds.filter _))

end Parts

section Scopes

variable {forest : Forest} {footprint : Footprint} {session : Session} {id : NodeId}

theorem enclosingScope?_yields (sound : session.Sound forest) :
    session.Yields forest .all (forest.enclosingScope? id)
      (fun later found => later.Finds (found.map Prod.fst)) := by
  refine .read ?_
  split
  · exact .pure sound (finds_none session)
  · refine (nodesWithSpan_yields sound).bind ?_
    intro later owners sound _ knows
    refine .pure sound ?_
    intro owner found
    refine knows owner (List.mem_of_head? ?_)
    simpa [Function.comp_def] using found

/-- A search for a position holds on to numbered nodes only. -/
def FindsNear (session : Session) (search : Forest.PositionSearch) : Prop :=
  session.Finds search.exact ∧ session.Finds (search.nearest.map Prod.snd)

theorem FindsNear.step {search : Forest.PositionSearch} {pos start : Nat}
    (finds : session.FindsNear search) (known : id < session.arena.size) :
    session.FindsNear (search.step pos start id).2 := by
  unfold Forest.PositionSearch.step
  dsimp only
  split_ifs
  · exact finds
  · exact ⟨finds_some known, finds.2⟩
  · exact ⟨finds.1, finds_some known⟩
  · exact finds

theorem findByPosition?_yields {pos : Nat} (sound : session.Sound forest)
    (known : id < session.arena.size) :
    session.Yields forest footprint (forest.findByPosition? pos id) Finds := by
  refine .read ?_
  split
  · exact .pure sound (finds_none session)
  · split_ifs
    · have hWalk : session.Yields forest footprint
          (forest.walk id {} fun (search : Forest.PositionSearch) node => do
            return search.step pos ((← get).arena.span node).start node) FindsNear := by
        refine walk_yields (fun _ _ _ keeps finds => ⟨finds.1.keep keeps, finds.2.keep keeps⟩) ?_
          sound known ⟨finds_none session, finds_none session⟩
        intro later search node sound _ hNode finds
        exact .read (.pure sound (finds.step hNode))
      refine hWalk.bind ?_
      intro later search sound _ finds
      refine .pure sound ?_
      intro node found
      rcases Option.or_eq_some_iff.mp found with hExact | ⟨_, hNearest⟩
      · exact finds.1 node hExact
      · exact finds.2 node hNearest
    · exact .pure sound (finds_none session)

end Scopes

end SyntaxAtlas.Session
