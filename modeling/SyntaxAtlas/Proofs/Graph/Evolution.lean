import SyntaxAtlas.Proofs.Graph.Histories
import SyntaxAtlas.Proofs.Graph.Lasting

/-! How sessions evolve. A session changes in few ways: nodes are numbered, answers are remembered, and
one of the three indexes is asked for. Every history is made of such steps. So what an index is like
after any history is shown for these steps, and not for one question after the other. -/
namespace SyntaxAtlas

namespace Forest

variable {forest : Forest} {session : Session}

/-- The first question for the index of spans builds it by a walk through all units. -/
theorem spanIndex_run_fresh (fresh : session.spanIndex = none) :
    forest.spanIndex.run session =
      let walked := (forest.unitRoots >>= fun roots => forest.preorderAll roots).run session
      let index := walked.1.map fun id => (walked.2.arena.span id, id)
      (index, { walked.2 with spanIndex := some index }) := by
  rw [spanIndex, Explore.run_read, fresh]
  rfl

/-- The visitor that puts functions into an index, and does not look inside them. -/
def gatherFunction (forest : Forest) (index : List (String × NodeId)) (node : NodeId) :
    Explore (Verdict × List (String × NodeId)) := do
  if ((← get).arena.kind node).isFuncDeclaration then
    match ← forest.name? node with
    | some name => return (.skip, indexFunction (← get).arena index name node)
    | none => return (.skip, index)
  else
    return (.descend, index)

/-- The first question for the index of functions builds it by a walk with this visitor. -/
theorem functionIndex_run_fresh (fresh : session.functionIndex = none) :
    forest.functionIndex.run session =
      let walked := (forest.walk Arena.root [] forest.gatherFunction).run session
      (walked.1, { walked.2 with functionIndex := some walked.1 }) := by
  rw [functionIndex, Explore.run_read, fresh]
  rfl

theorem mem_indexFunction {arena : Arena} {index : List (String × NodeId)} {name : String}
    {id : NodeId} {entry : String × NodeId} (member : entry ∈ indexFunction arena index name id) :
    entry = (name, id) ∨ entry ∈ index := by
  unfold indexFunction at member
  split at member
  · exact List.mem_cons.mp member
  · split_ifs at member
    · exact List.mem_cons.mp member
    · exact .inr member

end Forest

namespace Session

section Indexes

variable {forest : Forest} {footprint : Footprint} {session : Session}

/-- The entries of an index of functions have numbers. -/
def KnowsFunctions (session : Session) (index : List (String × NodeId)) : Prop :=
  session.Knows (index.map Prod.snd)

theorem stable_knowsFunctions : Stable KnowsFunctions :=
  fun _ _ _ keeps knows => knows.keep keeps

theorem gatherFunction_visits :
    (yielding forest footprint).Visits session KnowsFunctions forest.gatherFunction := by
  intro later index node sound _ known knows
  apply Yields.read
  split_ifs
  · apply (name?_yields sound known).bind
    rintro after (_ | name) sound named _
    · exact .pure sound (knows.keep named.keeps)
    · apply Yields.read
      apply Yields.pure sound
      intro other member
      obtain ⟨entry, hEntry, rfl⟩ := List.mem_map.mp member
      rcases Forest.mem_indexFunction hEntry with rfl | hOld
      · exact named.keeps.arena.lt known
      · exact knows.keep named.keeps entry.2 (List.mem_map_of_mem hOld)
  · exact .pure sound knows

/-- The walk that builds the index of functions adds nodes only. -/
theorem walk_gatherFunction_yields (sound : session.Sound forest) :
    session.Yields forest .nodes (forest.walk Arena.root [] forest.gatherFunction)
      KnowsFunctions :=
  walk_yields stable_knowsFunctions gatherFunction_visits sound sound.arena.nonempty (.nil session)

/-- Asking for an index leaves the other two as they are. -/
theorem spanIndex_leaves (sound : session.Sound forest) :
    (forest.spanIndex.run session).2.identIndex = session.identIndex ∧
      (forest.spanIndex.run session).2.functionIndex = session.functionIndex := by
  cases hIndex : session.spanIndex with
  | some index =>
      rw [Forest.spanIndex, Explore.run_read, hIndex]
      exact ⟨rfl, rfl⟩
  | none =>
      have hWalk : session.Yields forest .nodes
          (forest.unitRoots >>= fun roots => forest.preorderAll roots) Knows := by
        apply (unitRoots_yields sound).bind
        intro later roots sound _ knows
        exact preorderAll_yields sound knows
      rw [Forest.spanIndex_run_fresh hIndex]
      dsimp only
      rw [hWalk.allows.2]
      exact ⟨rfl, rfl⟩

theorem identIndex_leaves (sound : session.Sound forest) :
    (forest.identIndex.run session).2.spanIndex = session.spanIndex ∧
      (forest.identIndex.run session).2.functionIndex = session.functionIndex := by
  cases hIndex : session.identIndex with
  | some index =>
      rw [Forest.identIndex_run_known hIndex]
      exact ⟨rfl, rfl⟩
  | none =>
      have hWalk : session.Yields forest .nodes (forest.preorder Arena.root) Knows :=
        preorder_yields sound sound.arena.nonempty
      rw [Forest.identIndex_run_fresh hIndex]
      dsimp only
      rw [hWalk.allows.2]
      exact ⟨rfl, rfl⟩

theorem functionIndex_leaves (sound : session.Sound forest) :
    (forest.functionIndex.run session).2.spanIndex = session.spanIndex ∧
      (forest.functionIndex.run session).2.identIndex = session.identIndex := by
  cases hIndex : session.functionIndex with
  | some index =>
      rw [Forest.functionIndex_run_known hIndex]
      exact ⟨rfl, rfl⟩
  | none =>
      rw [Forest.functionIndex_run_fresh hIndex]
      dsimp only
      rw [(walk_gatherFunction_yields sound).allows.2]
      exact ⟨rfl, rfl⟩

end Indexes

/-- One session comes from another by steps that number nodes, remember answers or ask for an
index. -/
inductive Evolves (forest : Forest) : Session → Session → Prop where
  | refl (session : Session) : Evolves forest session session
  | trans {first second third : Session} (left : Evolves forest first second)
      (right : Evolves forest second third) : Evolves forest first third
  | nodes {earlier later : Session} (sound : later.Sound forest)
      (adds : Footprint.nodes.Allows earlier later) : Evolves forest earlier later
  | remember {earlier later : Session} (arena : later.arena = earlier.arena)
      (spanIndex : later.spanIndex = earlier.spanIndex)
      (identIndex : later.identIndex = earlier.identIndex)
      (functionIndex : later.functionIndex = earlier.functionIndex) :
      Evolves forest earlier later
  | spanIndex {session : Session} (sound : session.Sound forest) :
      Evolves forest session (forest.spanIndex.run session).2
  | identIndex {session : Session} (sound : session.Sound forest) :
      Evolves forest session (forest.identIndex.run session).2
  | functionIndex {session : Session} (sound : session.Sound forest) :
      Evolves forest session (forest.functionIndex.run session).2

/-- Whatever happens, nodes stay well numbered and nothing is taken back. -/
theorem Evolves.keeps {forest : Forest} {earlier later : Session}
    (evolves : earlier.Evolves forest later) (numbered : earlier.arena.WellNumbered forest) :
    later.arena.WellNumbered forest ∧ earlier.Extends later := by
  induction evolves with
  | refl session => exact ⟨numbered, .refl session⟩
  | trans left right ihLeft ihRight =>
      obtain ⟨hMiddle, hLeft⟩ := ihLeft numbered
      obtain ⟨hLast, hRight⟩ := ihRight hMiddle
      exact ⟨hLast, hLeft.trans hRight⟩
  | nodes sound adds => exact ⟨sound.arena, adds.keeps⟩
  | remember arena spanIndex identIndex functionIndex =>
      rw [arena]
      refine ⟨numbered, ?_, ?_, ?_, ?_⟩
      · rw [arena]
        exact .refl _
      · rw [spanIndex]
        exact fun _ h => h
      · rw [identIndex]
        exact fun _ h => h
      · rw [functionIndex]
        exact fun _ h => h
  | spanIndex sound =>
      obtain ⟨hSound, hKeeps⟩ := (spanIndex_yields sound).leaves
      exact ⟨hSound.arena, hKeeps⟩
  | identIndex sound =>
      obtain ⟨hSound, hKeeps⟩ := (identIndex_yields sound).leaves
      exact ⟨hSound.arena, hKeeps⟩
  | functionIndex sound =>
      obtain ⟨hSound, hKeeps⟩ := (functionIndex_yields sound).leaves
      exact ⟨hSound.arena, hKeeps⟩

section Rules

variable {α β : Type} {forest : Forest} {session : Session} {question : Explore α}
  {next : α → Explore β}

/-- A question that does nothing to a session but such steps. -/
def Advances (forest : Forest) (session : Session) (question : Explore α) : Prop :=
  session.Evolves forest (question.run session).2

namespace Advances

theorem pure (answer : α) : session.Advances forest (Pure.pure answer) :=
  .refl session

theorem read {next : Session → Explore β} (h : session.Advances forest (next session)) :
    session.Advances forest (get >>= next) :=
  h

/-- Storing a session with the same nodes and indexes. -/
theorem write {new : Session} {next : PUnit → Explore β} (arena : new.arena = session.arena)
    (spanIndex : new.spanIndex = session.spanIndex)
    (identIndex : new.identIndex = session.identIndex)
    (functionIndex : new.functionIndex = session.functionIndex)
    (h : new.Advances forest (next ⟨⟩)) : session.Advances forest (set new >>= next) :=
  .trans (.remember arena spanIndex identIndex functionIndex) h

theorem change {update : Session → Session} {next : PUnit → Explore β}
    (arena : (update session).arena = session.arena)
    (spanIndex : (update session).spanIndex = session.spanIndex)
    (identIndex : (update session).identIndex = session.identIndex)
    (functionIndex : (update session).functionIndex = session.functionIndex)
    (h : (update session).Advances forest (next ⟨⟩)) :
    session.Advances forest (modify update >>= next) :=
  .trans (.remember arena spanIndex identIndex functionIndex) h

theorem bind (first : session.Advances forest question)
    (second : ∀ (later : Session) (answer : α), later.Advances forest (next answer)) :
    session.Advances forest (question >>= next) :=
  .trans first (second _ _)

/-- What the answer is like may matter for what is asked next. -/
theorem bind_yields {middle : Session → α → Prop} (first : session.Advances forest question)
    (asked : session.Yields forest .all question middle)
    (second : ∀ (later : Session) (answer : α), later.Sound forest → session.Extends later →
      middle later answer → later.Advances forest (next answer)) :
    session.Advances forest (question >>= next) :=
  .trans first (second _ _ asked.sound asked.allows asked.answer)

/-- A question that adds nodes only. -/
theorem of_nodes {good : Session → α → Prop}
    (asked : session.Yields forest .nodes question good) : session.Advances forest question :=
  .nodes asked.sound asked.allows

theorem bind_nodes {middle : Session → α → Prop}
    (asked : session.Yields forest .nodes question middle)
    (second : ∀ (later : Session) (answer : α), later.Sound forest → session.Extends later →
      middle later answer → later.Advances forest (next answer)) :
    session.Advances forest (question >>= next) :=
  .trans (of_nodes asked) (second _ _ asked.sound asked.allows.keeps asked.answer)

end Advances

end Rules

section Lookups

variable {forest : Forest} {session : Session} {id : NodeId}

theorem nodesWithSpan_advances {span : Span} (sound : session.Sound forest) :
    session.Advances forest (forest.nodesWithSpan span) :=
  .bind (.spanIndex sound) fun _ _ => .pure _

theorem enclosingScope?_advances (sound : session.Sound forest) :
    session.Advances forest (forest.enclosingScope? id) := by
  apply Advances.read
  split
  · exact .pure _
  · exact (nodesWithSpan_advances sound).bind fun _ _ => .pure _

theorem identsAt_advances {positions : List Nat} (sound : session.Sound forest) :
    session.Advances forest (forest.identsAt positions) := by
  cases positions with
  | nil => exact .pure []
  | cons pos rest =>
      unfold Advances
      rw [Forest.identsAt_run_cons]
      exact .identIndex sound

theorem declarationByName?_advances {name : String} (sound : session.Sound forest) :
    session.Advances forest (forest.declarationByName? name) := by
  unfold Forest.declarationByName?
  cases forest.package with
  | none => exact .pure none
  | some package => exact .bind (.functionIndex sound) fun _ _ => .pure _

theorem callee?_advances (sound : session.Sound forest) (known : id < session.arena.size) :
    session.Advances forest (forest.callee? id) := by
  apply Advances.bind_nodes (callTarget?_yields sound known)
  rintro later (_ | target) sound _ finds
  · exact .pure none
  · apply Advances.bind_nodes (targetIdent?_yields sound (finds target rfl))
    rintro after (_ | ident) sound _ _
    · exact .pure none
    · exact .read (declarationByName?_advances sound)

end Lookups

section Types

variable {forest : Forest} {package : Package} {session : Session} {id : NodeId}

theorem recordedType?_advances : session.Advances forest (Forest.recordedType? package id) :=
  .read (.write rfl rfl rfl rfl (.pure _))

theorem identType?_advances : session.Advances forest (forest.identType? package id) := by
  apply recordedType?_advances.bind
  rintro later (_ | type)
  · exact .read (.pure _)
  · exact .pure _

theorem valueType?_advances (sound : session.Sound forest) (known : id < session.arena.size) :
    session.Advances forest (forest.valueType? id) := by
  unfold Forest.valueType?
  cases forest.package with
  | none => exact .pure none
  | some package =>
      apply recordedType?_advances.bind_yields (recordedType?_yields sound)
      rintro later (_ | type) sound grown _
      · apply Advances.read
        dsimp only
        split
        iterate 5 exact .pure _
        iterate 7
          apply Advances.bind_nodes (childInField?_yields sound (grown.arena.lt known))
          rintro later (_ | type) sound _ _
          · exact .pure none
          · apply Advances.read
            split_ifs
            · exact identType?_advances
            · exact .pure none
        · exact .pure none
      · exact .pure _

end Types

section Patterns

variable {forest : Forest} {session : Session} {id : NodeId} {engine : PatternEngine}
  {pattern : String}

theorem nodeForMatch?_advances {span : Span} {kind : String} (sound : session.Sound forest) :
    session.Advances forest (forest.nodeForMatch? span kind) :=
  (nodesWithSpan_advances sound).bind fun _ _ => .read (.pure _)

theorem hitsOf_advances {base : Nat} {reported : List PatternMatch}
    (sound : session.Sound forest) : session.Advances forest (forest.hitsOf id base reported) := by
  induction reported generalizing session with
  | nil => exact .pure []
  | cons found rest ih =>
      apply (nodeForMatch?_advances sound).bind_yields (nodeForMatch?_yields sound)
      intro later node sound _ _
      exact .read ((ih sound).bind fun _ _ => .pure _)

theorem hitsIn_advances {part : NodeId} (sound : session.Sound forest) :
    session.Advances forest (forest.hitsIn engine pattern id part) := by
  apply Advances.read
  dsimp only
  split
  · exact .pure _
  · split
    · exact .pure _
    · exact (hitsOf_advances sound).bind fun _ _ => .pure _

theorem hitsInAll_advances {parts : List NodeId} (sound : session.Sound forest) :
    session.Advances forest (forest.hitsInAll engine pattern id parts) := by
  induction parts generalizing session with
  | nil => exact .pure _
  | cons part rest ih =>
      apply (hitsIn_advances sound).bind_yields (hitsIn_yields sound)
      rintro later (error | hits) sound _ _
      · exact .pure _
      · apply (ih sound).bind
        rintro after (error | more)
        · exact .pure _
        · exact .pure _

theorem findByPattern_advances (sound : session.Sound forest) (known : id < session.arena.size) :
    session.Advances forest (forest.findByPattern engine pattern id) := by
  apply Advances.read
  split_ifs
  · apply Advances.bind_nodes (children_knows sound known)
    intro later parts sound _ _
    exact hitsInAll_advances sound
  · exact hitsInAll_advances sound

end Patterns

section Resolution

variable {forest : Forest} {package : Package} {session : Session} {id : NodeId}

theorem findDeclarations_advances (sound : session.Sound forest) :
    session.Advances forest (forest.findDeclarations id) := by
  unfold Forest.findDeclarations
  cases forest.package with
  | none => exact .pure []
  | some package => exact .read ((identsAt_advances sound).bind fun _ _ => .read (.pure _))

theorem findDeclarationsOfKinds_advances {kinds : List Kind} (sound : session.Sound forest) :
    session.Advances forest (forest.findDeclarationsOfKinds kinds id) :=
  (findDeclarations_advances sound).bind fun _ _ => .read (.pure _)

theorem resolveDeclaration?_advances (sound : session.Sound forest) :
    session.Advances forest (forest.resolveDeclaration? package id) := by
  unfold Advances
  rw [Forest.resolveDeclaration?_run]
  split_ifs
  · exact .refl session
  · exact identsAt_advances sound

theorem declaration?_advances (sound : session.Sound forest) :
    session.Advances forest (forest.declaration? id) := by
  apply Advances.read
  cases forest.package with
  | none => exact .pure none
  | some package =>
      dsimp only
      split_ifs
      · cases session.declarations.lookup id with
        | some found => exact .pure found
        | none =>
            exact (resolveDeclaration?_advances sound).bind fun _ _ =>
              .change rfl rfl rfl rfl (.pure _)
      · exact .pure none

theorem resolveUsages_advances (sound : session.Sound forest) :
    session.Advances forest (forest.resolveUsages package id) := by
  unfold Advances
  rw [Forest.resolveUsages_run]
  split
  · exact .refl session
  · split_ifs
    · exact .refl session
    · exact identsAt_advances sound

theorem usages_advances (sound : session.Sound forest) :
    session.Advances forest (forest.usages id) := by
  apply Advances.read
  cases forest.package with
  | none => exact .pure []
  | some package =>
      dsimp only
      split_ifs
      · cases session.usages.lookup id with
        | some ids => exact .pure ids
        | none =>
            exact (resolveUsages_advances sound).bind fun _ _ => .change rfl rfl rfl rfl (.pure _)
      · exact .pure []

theorem firstUsage?_advances (sound : session.Sound forest) :
    session.Advances forest (forest.firstUsage? id) :=
  (usages_advances sound).bind fun _ _ => .read (.pure _)

end Resolution

/-- The logic of questions that only take such steps. -/
def advancing (forest : Forest) : CallLogic forest where
  Holds session question good :=
    session.Yields forest .all question good ∧ session.Advances forest question
  pure sound good := ⟨.pure sound good, .pure _⟩
  bind := by
    rintro α β session question next middle good ⟨asked, advances⟩ second
    constructor
    · apply asked.bind
      intro later answer sound since holds
      exact (second later answer sound since holds).1
    · apply advances.bind_yields asked
      intro later answer sound since holds
      exact (second later answer sound since holds).2
  read _ h := ⟨.read h.1, .read h.2⟩
  children sound known :=
    ⟨children_yields .all sound known, .of_nodes (children_yields .nodes sound known)⟩
  callee sound known := ⟨callee?_yields sound known, callee?_advances sound known⟩

end Session

/-- Every question about numbered nodes makes a session evolve. -/
theorem Query.after_evolves {forest : Forest} {session : Session} (query : Query)
    (sound : session.Sound forest) (knows : session.Knows query.about) :
    session.Evolves forest (query.after forest session) := by
  have known : ∀ {id : NodeId}, id ∈ query.about → id < session.arena.size :=
    fun member => knows _ member
  have addsNodes : ∀ {α : Type} {question : Explore α} {good : Session → α → Prop},
      session.Yields forest .nodes question good →
        session.Evolves forest (question.run session).2 :=
    fun asked => Session.Advances.of_nodes asked
  cases query with
  | spanIndex => exact .spanIndex sound
  | nodesWithSpan span => exact Session.nodesWithSpan_advances sound
  | identIndex => exact .identIndex sound
  | identAt pos => exact .identIndex sound
  | functionIndex => exact .functionIndex sound
  | declarationByName name => exact Session.declarationByName?_advances sound
  | valueType id => exact Session.valueType?_advances sound (known (.head _))
  | enclosingScope id => exact Session.enclosingScope?_advances sound
  | findDeclarations id => exact Session.findDeclarations_advances sound
  | findDeclarationsOfKinds kinds id => exact Session.findDeclarationsOfKinds_advances sound
  | declaration id => exact Session.declaration?_advances sound
  | usages id => exact Session.usages_advances sound
  | firstUsage id => exact Session.firstUsage?_advances sound
  | callee id => exact Session.callee?_advances sound (known (.head _))
  | findByPattern engine pattern id => exact Session.findByPattern_advances sound (known (.head _))
  | children id => exact addsNodes (Session.children_knows sound (known (.head _)))
  | siblings id => exact addsNodes (Session.siblings_yields sound (known (.head _)))
  | preorder id => exact addsNodes (Session.preorder_yields sound (known (.head _)))
  | materializeAll => exact addsNodes (Session.materializeAll_yields sound)
  | childInField field id => exact addsNodes (Session.childInField?_yields sound (known (.head _)))
  | childByKind kind id => exact addsNodes (Session.childByKind?_yields sound (known (.head _)))
  | ident id => exact addsNodes (Session.ident?_yields sound (known (.head _)))
  | name id => exact addsNodes (Session.name?_yields sound (known (.head _)))
  | display id => exact addsNodes (Session.display_yields sound (known (.head _)))
  | left id | right id | params id | results id =>
      exact addsNodes (Session.partOf?_yields sound (known (.head _)))
  | lhs id => exact addsNodes (Session.lhs_yields sound (known (.head _)))
  | rhs id => exact addsNodes (Session.rhs_yields sound (known (.head _)))
  | forInit id | forPost id | rangeExpr id =>
      exact addsNodes (Session.clausePart?_yields sound (known (.head _)))
  | forCond id => exact addsNodes (Session.forCond?_yields sound (known (.head _)))
  | rangeKey id | rangeValue id =>
      exact addsNodes (Session.rangeVariable_yields sound (known (.head _)))
  | receiver id => exact addsNodes (Session.receiver?_yields sound (known (.head _)))
  | packageName id => exact addsNodes (Session.packageName?_yields sound (known (.head _)))
  | findByPosition pos id =>
      exact addsNodes (Session.findByPosition?_yields sound (known (.head _)))

/-- A search makes a session evolve when every test does. -/
theorem Search.after_evolves {forest : Forest} {session : Session} {test : Forest.Test}
    {id : NodeId} (search : Search) (admits : (Session.advancing forest).Admits session test)
    (sound : session.Sound forest) (known : id < session.arena.size) :
    session.Evolves forest (search.after forest session test id) := by
  cases search with
  | treeNodes => exact (QuestionLogic.treeNodes admits sound known).2
  | treeNode => exact (QuestionLogic.treeNode? admits sound known).2
  | childNodes => exact (QuestionLogic.childNodes admits sound known).2
  | childNode => exact (QuestionLogic.childNode? admits sound known).2
  | callTreeNodes => exact (CallLogic.callTreeNodes admits sound known).2
  | callTreeNode => exact (CallLogic.callTreeNode? admits sound known).2

/-- A history is made of such steps. -/
theorem Leads.evolves {forest : Forest} {earlier later : Session}
    (leads : Leads forest earlier later) (sound : earlier.Sound forest) :
    earlier.Evolves forest later := by
  induction leads with
  | refl session => exact .refl session
  | trans left right ihLeft ihRight =>
      exact (ihLeft sound).trans (ihRight (left.sound_extends sound).1)
  | ask query knows => exact query.after_evolves sound knows
  | search search known tests ih =>
      apply search.after_evolves _ sound known
      intro later node hSound since hNode
      obtain ⟨hAfter, hKeeps⟩ := (tests later node hSound since hNode).sound_extends hSound
      exact ⟨⟨hAfter, hKeeps, trivial⟩, ih later node hSound since hNode hSound⟩
  | @walk session σ visit good start state known stable first visits holds ih =>
      have hVisits : (Session.advancing forest).Visits session good visit := by
        intro later state id hSound since hId hState
        obtain ⟨hAfter, hKeeps⟩ :=
          (visits later state id hSound since hId hState).sound_extends hSound
        exact ⟨⟨hAfter, hKeeps, holds later state id hSound since hId hState⟩,
          ih later state id hSound since hId hState hSound⟩
      exact ((Session.advancing forest).walk stable hVisits sound known first).2

theorem Reachable.evolves {forest : Forest} {session : Session}
    (reached : Reachable forest session) : (Session.start forest).Evolves forest session :=
  Leads.evolves reached (Session.sound_start forest)

end SyntaxAtlas
