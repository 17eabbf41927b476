import SyntaxAtlas.Graph.PatternHits
import SyntaxAtlas.Proofs.Graph.Queries

/-! Function indexes, callees and pattern searches keep a session sound. -/
namespace SyntaxAtlas.Session

section Functions

variable {forest : Forest} {session : Session} {id : NodeId}

/-- An index of functions lists functions that lie in no other one. -/
def ListsFunctions (session : Session) (index : List (String × NodeId)) : Prop :=
  ∀ entry ∈ index, session.arena.Outermost entry.2

theorem stable_listsFunctions : Stable ListsFunctions :=
  fun _ _ _ keeps lists entry member => (lists entry member).keep keeps.arena

theorem stable_exposed : Stable fun session id => session.arena.Exposed id :=
  fun _ _ _ keeps exposed => exposed.keep keeps.arena

theorem ListsFunctions.index {index : List (String × NodeId)} {name : String} (arena : Arena)
    (lists : session.ListsFunctions index) (outermost : session.arena.Outermost id) :
    session.ListsFunctions (Forest.indexFunction arena index name id) := by
  have hCons : session.ListsFunctions ((name, id) :: index) := by
    intro entry member
    rcases List.mem_cons.mp member with rfl | hOld
    · exact outermost
    · exact lists entry hOld
  unfold Forest.indexFunction
  split
  · exact hCons
  · split_ifs
    · exact hCons
    · exact lists

/-- An index of functions may be stored where there was none. -/
theorem extends_functionIndex (missing : session.functionIndex = none)
    (index : List (String × NodeId)) :
    session.Extends { session with functionIndex := some index } :=
  ⟨.refl _, fun _ h => h, fun _ h => h, fun _ h => (nomatch missing.symm.trans h)⟩

/-- The function index lists outermost functions. The walk goes below a node only when it is no
function, and the names that are asked for on the way add nodes below functions and nothing else. -/
theorem functionIndex_yields (sound : session.Sound forest) :
    session.Yields forest .all forest.functionIndex ListsFunctions := by
  refine .read ?_
  cases hIndex : session.functionIndex with
  | some index => exact .pure sound (sound.functionIndex index hIndex)
  | none =>
      refine .bind_nodes (.read ((yielding forest .nodes).walkStack_within stable_exposed
        stable_listsFunctions ?_ _ sound (.refl .nodes session)
        (.cons sound.arena.nonempty (.nil session)) ?_ ?_)) ?_
      · intro later index node sound _ hNode exposed lists
        refine .read ?_
        split_ifs with hKind
        · refine (name?_yields sound hNode).bind ?_
          rintro after (_ | name) sound named _
          · exact .pure sound ⟨stable_listsFunctions _ _ _ named.keeps lists, nofun⟩
          · have hOutermost : later.arena.Outermost node := ⟨exposed, hKind⟩
            exact .read (.pure sound ⟨.index _ (stable_listsFunctions _ _ _ named.keeps lists)
              (hOutermost.keep named.keeps.arena), nofun⟩)
        · refine .pure sound ⟨lists, ?_⟩
          intro _ last child hLast keeps hParent
          refine (exposed.keep keeps.arena).child hLast.arena hParent ?_
          rwa [keeps.arena.kind node hNode]
      · exact fun id member => List.mem_singleton.mp member ▸ sound.arena.exposed_root
      · exact fun _ member => nomatch member
      · intro later index sound walked lists
        have hMissing : later.functionIndex = none := by
          rw [walked.2]
          exact hIndex
        have hKeeps := extends_functionIndex hMissing index
        refine .change hKeeps (.pure ?_ lists)
        refine sound.update hKeeps sound.arena (fun _ h => .inl h) (fun _ h => .inl h) ?_
          (fun _ h => .inl h) (fun _ h => .inl h)
        rintro _ ⟨⟩
        exact .inr lists

theorem declarationByName?_yields {name : String} (sound : session.Sound forest) :
    session.Yields forest .all (forest.declarationByName? name) Finds := by
  unfold Forest.declarationByName?
  cases forest.package with
  | none => exact .pure sound (finds_none session)
  | some package =>
      refine (functionIndex_yields sound).bind ?_
      intro later index sound _ lists
      exact .pure sound fun node found => (lists _ (mem_of_lookup found)).known

theorem callee?_yields (sound : session.Sound forest) (known : id < session.arena.size) :
    session.Yields forest .all (forest.callee? id) Finds := by
  refine (callTarget?_yields sound known).bind ?_
  rintro later (_ | target) sound _ finds
  · exact .pure sound (finds_none later)
  · refine (targetIdent?_yields sound (finds target rfl)).bind ?_
    rintro later (_ | ident) sound _ _
    · exact .pure sound (finds_none later)
    · exact .read (declarationByName?_yields sound)

/-- The plain logic of questions that may look for callees. A callee is a declared function, so that
it has a number, although it need not be below the node that calls it. -/
def calling (forest : Forest) : CallLogic forest where
  toQuestionLogic := yielding forest .all
  callee := callee?_yields

end Functions

section Patterns

variable {forest : Forest} {session : Session} {id : NodeId} {engine : PatternEngine}
  {pattern : String}

theorem nodeForMatch?_yields {span : Span} {kind : String} (sound : session.Sound forest) :
    session.Yields forest .all (forest.nodeForMatch? span kind) Finds := by
  refine (nodesWithSpan_yields sound).bind ?_
  intro later candidates sound _ knows
  refine .read (.pure sound ?_)
  intro node found
  rcases Option.or_eq_some_iff.mp found with hSame | ⟨_, hFirst⟩
  · exact knows node (List.mem_of_find?_eq_some hSame)
  · exact knows node (List.mem_of_head? hFirst)

theorem hitsOf_yields {base : Nat} {reported : List PatternMatch} (sound : session.Sound forest) :
    session.Yields forest .all (forest.hitsOf id base reported)
      (fun later hits => later.Knows (hits.map PatternHit.node)) := by
  induction reported generalizing session with
  | nil => exact .pure sound (.nil session)
  | cons found rest ih =>
      refine (nodeForMatch?_yields sound).bind ?_
      intro later node sound _ finds
      refine .read ((ih sound).bind ?_)
      intro after hits sound grown knows
      refine .pure sound ?_
      rw [List.map_append]
      refine .append ?_ knows
      intro hit member
      obtain ⟨_, hHit, rfl⟩ := List.mem_map.mp member
      obtain ⟨node, hNode, rfl⟩ := Option.map_eq_some_iff.mp (Option.mem_toList.mp hHit)
      exact grown.keeps.arena.lt ((finds.filter _) node hNode)

/-- Hits that were found, if the pattern was not refused. -/
def KnowsHits (session : Session) (hits : Except PatternError (List PatternHit)) : Prop :=
  ∀ found, hits = .ok found → session.Knows (found.map PatternHit.node)

theorem hitsIn_yields {part : NodeId} (sound : session.Sound forest) :
    session.Yields forest .all (forest.hitsIn engine pattern id part) KnowsHits := by
  refine .read ?_
  dsimp only
  split
  · refine .pure sound ?_
    rintro _ ⟨⟩
    exact .nil session
  · split
    · exact .pure sound fun _ h => nomatch h
    · refine (hitsOf_yields sound).bind ?_
      intro later hits sound _ knows
      refine .pure sound ?_
      rintro _ ⟨⟩
      exact knows

theorem hitsInAll_yields {parts : List NodeId} (sound : session.Sound forest) :
    session.Yields forest .all (forest.hitsInAll engine pattern id parts) KnowsHits := by
  induction parts generalizing session with
  | nil =>
      refine .pure sound ?_
      rintro _ ⟨⟩
      exact .nil session
  | cons part rest ih =>
      refine (hitsIn_yields sound).bind ?_
      rintro later (error | hits) sound _ knows
      · exact .pure sound fun _ h => nomatch h
      · refine (ih sound).bind ?_
        rintro after (error | more) sound grown hMore
        · exact .pure sound fun _ h => nomatch h
        · refine .pure sound ?_
          rintro _ ⟨⟩
          rw [List.map_append]
          exact ((knows hits rfl).keep grown).append (hMore more rfl)

theorem findByPattern_yields (sound : session.Sound forest) (known : id < session.arena.size) :
    session.Yields forest .all (forest.findByPattern engine pattern id) KnowsHits := by
  refine .read ?_
  split_ifs
  · refine (children_knows sound known).bind ?_
    intro later parts sound _ _
    exact hitsInAll_yields sound
  · exact hitsInAll_yields sound

end Patterns

end SyntaxAtlas.Session
