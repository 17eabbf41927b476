import SyntaxAtlas.Proofs.Graph.Calls
import SyntaxAtlas.Proofs.Graph.Recall

/-! Histories of questions. A client asks one question after another, each time about nodes that
were handed out before, and may give visitors and tests that ask questions themselves. Nothing is
assumed about the order of questions or about their number. -/
namespace SyntaxAtlas

/-- The questions that take no visitor and no test. -/
inductive Query where
  | children (id : NodeId)
  | siblings (id : NodeId)
  | preorder (id : NodeId)
  | materializeAll
  | spanIndex
  | nodesWithSpan (span : Span)
  | identIndex
  | identAt (pos : Nat)
  | functionIndex
  | declarationByName (name : String)
  | childInField (field : String) (id : NodeId)
  | childByKind (kind : Kind) (id : NodeId)
  | ident (id : NodeId)
  | name (id : NodeId)
  | display (id : NodeId)
  | valueType (id : NodeId)
  | left (id : NodeId)
  | right (id : NodeId)
  | lhs (id : NodeId)
  | rhs (id : NodeId)
  | forInit (id : NodeId)
  | forCond (id : NodeId)
  | forPost (id : NodeId)
  | rangeKey (id : NodeId)
  | rangeValue (id : NodeId)
  | rangeExpr (id : NodeId)
  | params (id : NodeId)
  | results (id : NodeId)
  | receiver (id : NodeId)
  | packageName (id : NodeId)
  | enclosingScope (id : NodeId)
  | findByPosition (pos : Nat) (id : NodeId)
  | findDeclarations (id : NodeId)
  | findDeclarationsOfKinds (kinds : List Kind) (id : NodeId)
  | declaration (id : NodeId)
  | usages (id : NodeId)
  | firstUsage (id : NodeId)
  | callee (id : NodeId)
  | findByPattern (engine : PatternEngine) (pattern : String) (id : NodeId)

namespace Query

/-- The nodes that a question is about. -/
def about : Query → List NodeId
  | materializeAll | spanIndex | nodesWithSpan _ | identIndex | identAt _ | functionIndex
  | declarationByName _ => []
  | children id | siblings id | preorder id | childInField _ id | childByKind _ id | ident id
  | name id | display id | valueType id | left id | right id | lhs id | rhs id | forInit id
  | forCond id | forPost id | rangeKey id | rangeValue id | rangeExpr id | params id | results id
  | receiver id | packageName id | enclosingScope id | findByPosition _ id | findDeclarations id
  | findDeclarationsOfKinds _ id | declaration id | usages id | firstUsage id | callee id
  | findByPattern _ _ id => [id]

/-- The session that a question leaves. The answer does not matter here. -/
def after (forest : Forest) (session : Session) : Query → Session
  | children id => ((forest.children id).run session).2
  | siblings id => ((forest.siblings id).run session).2
  | preorder id => ((forest.preorder id).run session).2
  | materializeAll => (forest.materializeAll.run session).2
  | spanIndex => (forest.spanIndex.run session).2
  | nodesWithSpan span => ((forest.nodesWithSpan span).run session).2
  | identIndex => (forest.identIndex.run session).2
  | identAt pos => ((forest.identAt? pos).run session).2
  | functionIndex => (forest.functionIndex.run session).2
  | declarationByName text => ((forest.declarationByName? text).run session).2
  | childInField field id => ((forest.childInField? field id).run session).2
  | childByKind kind id => ((forest.childByKind? kind id).run session).2
  | ident id => ((forest.ident? id).run session).2
  | name id => ((forest.name? id).run session).2
  | display id => ((forest.display id).run session).2
  | valueType id => ((forest.valueType? id).run session).2
  | left id => ((forest.left? id).run session).2
  | right id => ((forest.right? id).run session).2
  | lhs id => ((forest.lhs id).run session).2
  | rhs id => ((forest.rhs id).run session).2
  | forInit id => ((forest.forInit? id).run session).2
  | forCond id => ((forest.forCond? id).run session).2
  | forPost id => ((forest.forPost? id).run session).2
  | rangeKey id => ((forest.rangeKey? id).run session).2
  | rangeValue id => ((forest.rangeValue? id).run session).2
  | rangeExpr id => ((forest.rangeExpr? id).run session).2
  | params id => ((forest.params? id).run session).2
  | results id => ((forest.results? id).run session).2
  | receiver id => ((forest.receiver? id).run session).2
  | packageName id => ((forest.packageName? id).run session).2
  | enclosingScope id => ((forest.enclosingScope? id).run session).2
  | findByPosition pos id => ((forest.findByPosition? pos id).run session).2
  | findDeclarations id => ((forest.findDeclarations id).run session).2
  | findDeclarationsOfKinds kinds id => ((forest.findDeclarationsOfKinds kinds id).run session).2
  | declaration id => ((forest.declaration? id).run session).2
  | usages id => ((forest.usages id).run session).2
  | firstUsage id => ((forest.firstUsage? id).run session).2
  | callee id => ((forest.callee? id).run session).2
  | findByPattern engine pattern id => ((forest.findByPattern engine pattern id).run session).2

/-- What every question about numbered nodes does to a sound session. -/
theorem after_sound {forest : Forest} {session : Session} (query : Query)
    (sound : session.Sound forest) (knows : session.Knows query.about) :
    (query.after forest session).Sound forest ∧ session.Extends (query.after forest session) := by
  have known : ∀ {id : NodeId}, id ∈ query.about → id < session.arena.size :=
    fun member => knows _ member
  cases query with
  | children id => exact (Session.children_knows sound (known (.head _))).leaves
  | siblings id => exact (Session.siblings_yields sound (known (.head _))).leaves
  | preorder id => exact (Session.preorder_yields sound (known (.head _))).leaves
  | materializeAll => exact (Session.materializeAll_yields sound).leaves
  | spanIndex => exact (Session.spanIndex_yields sound).leaves
  | nodesWithSpan span => exact (Session.nodesWithSpan_yields sound).leaves
  | identIndex => exact (Session.identIndex_yields sound).leaves
  | identAt pos => exact (Session.identAt?_yields sound).leaves
  | functionIndex => exact (Session.functionIndex_yields sound).leaves
  | declarationByName name => exact (Session.declarationByName?_yields sound).leaves
  | childInField field id => exact (Session.childInField?_yields sound (known (.head _))).leaves
  | childByKind kind id => exact (Session.childByKind?_yields sound (known (.head _))).leaves
  | ident id => exact (Session.ident?_yields sound (known (.head _))).leaves
  | name id => exact (Session.name?_yields sound (known (.head _))).leaves
  | display id => exact (Session.display_yields sound (known (.head _))).leaves
  | valueType id => exact (Session.valueType?_yields sound (known (.head _))).leaves
  | left id => exact (Session.partOf?_yields sound (known (.head _))).leaves
  | right id => exact (Session.partOf?_yields sound (known (.head _))).leaves
  | lhs id => exact (Session.lhs_yields sound (known (.head _))).leaves
  | rhs id => exact (Session.rhs_yields sound (known (.head _))).leaves
  | forInit id => exact (Session.clausePart?_yields sound (known (.head _))).leaves
  | forCond id => exact (Session.forCond?_yields sound (known (.head _))).leaves
  | forPost id => exact (Session.clausePart?_yields sound (known (.head _))).leaves
  | rangeKey id => exact (Session.rangeVariable_yields sound (known (.head _))).leaves
  | rangeValue id => exact (Session.rangeVariable_yields sound (known (.head _))).leaves
  | rangeExpr id => exact (Session.clausePart?_yields sound (known (.head _))).leaves
  | params id => exact (Session.partOf?_yields sound (known (.head _))).leaves
  | results id => exact (Session.partOf?_yields sound (known (.head _))).leaves
  | receiver id => exact (Session.receiver?_yields sound (known (.head _))).leaves
  | packageName id => exact (Session.packageName?_yields sound (known (.head _))).leaves
  | enclosingScope id => exact (Session.enclosingScope?_yields sound).leaves
  | findByPosition pos id => exact (Session.findByPosition?_yields sound (known (.head _))).leaves
  | findDeclarations id => exact (Session.findDeclarations_yields sound).leaves
  | findDeclarationsOfKinds kinds id => exact (Session.findDeclarationsOfKinds_yields sound).leaves
  | declaration id => exact (Session.declaration?_yields sound (known (.head _))).leaves
  | usages id => exact (Session.usages_yields sound (known (.head _))).leaves
  | firstUsage id => exact (Session.firstUsage?_yields sound (known (.head _))).leaves
  | callee id => exact (Session.callee?_yields sound (known (.head _))).leaves
  | findByPattern engine pattern id =>
      exact (Session.findByPattern_yields sound (known (.head _))).leaves

end Query

/-- The questions that take a test. -/
inductive Search where
  | treeNodes
  | treeNode
  | childNodes
  | childNode
  | callTreeNodes
  | callTreeNode

namespace Search

/-- The session that a search from a node leaves. -/
def after (forest : Forest) (session : Session) (test : Forest.Test) (id : NodeId) :
    Search → Session
  | treeNodes => ((forest.treeNodes test id).run session).2
  | treeNode => ((forest.treeNode? test id).run session).2
  | childNodes => ((forest.childNodes test id).run session).2
  | childNode => ((forest.childNode? test id).run session).2
  | callTreeNodes => ((forest.callTreeNodes test id).run session).2
  | callTreeNode => ((forest.callTreeNode? test id).run session).2

/-- What a search does to a sound session, when every test keeps sessions sound. -/
theorem after_sound {forest : Forest} {session : Session} {test : Forest.Test} {id : NodeId}
    (search : Search) (admits : (Session.calling forest).Admits session test)
    (sound : session.Sound forest) (known : id < session.arena.size) :
    (search.after forest session test id).Sound forest ∧
      session.Extends (search.after forest session test id) := by
  cases search with
  | treeNodes => exact Session.Yields.leaves (QuestionLogic.treeNodes admits sound known)
  | treeNode => exact Session.Yields.leaves (QuestionLogic.treeNode? admits sound known)
  | childNodes => exact Session.Yields.leaves (QuestionLogic.childNodes admits sound known)
  | childNode => exact Session.Yields.leaves (QuestionLogic.childNode? admits sound known)
  | callTreeNodes => exact Session.Yields.leaves (CallLogic.callTreeNodes admits sound known)
  | callTreeNode => exact Session.Yields.leaves (CallLogic.callTreeNode? admits sound known)

end Search

/-- One session comes from another by a history of questions. A question is only asked about nodes
that have a number. A visitor or a test may ask questions itself, about the node it is called with
and about nodes it holds on to; what it holds on to is described by a property of its state. It has
to keep to this only when it is called in a sound session and with a node that has a number. -/
inductive Leads (forest : Forest) : Session → Session → Prop where
  | refl (session : Session) : Leads forest session session
  | trans {first second third : Session} (left : Leads forest first second)
      (right : Leads forest second third) : Leads forest first third
  | ask {session : Session} (query : Query) (knows : session.Knows query.about) :
      Leads forest session (query.after forest session)
  | search {session : Session} {test : Forest.Test} {id : NodeId} (search : Search)
      (known : id < session.arena.size)
      (tests : ∀ later node, later.Sound forest → session.Extends later →
        node < later.arena.size → Leads forest later ((test node).run later).2) :
      Leads forest session (search.after forest session test id)
  | walk {session : Session} {σ : Type} {visit : σ → NodeId → Explore (Verdict × σ)}
      {good : Session → σ → Prop} {start : NodeId} {state : σ} (known : start < session.arena.size)
      (stable : Session.Stable good) (first : good session state)
      (visits : ∀ later state id, later.Sound forest → session.Extends later →
        id < later.arena.size → good later state →
        Leads forest later ((visit state id).run later).2)
      (holds : ∀ later state id, later.Sound forest → session.Extends later →
        id < later.arena.size → good later state →
        good ((visit state id).run later).2 ((visit state id).run later).1.2) :
      Leads forest session ((forest.walk start state visit).run session).2

/-- A session that some history of questions leads to. -/
def Reachable (forest : Forest) (session : Session) : Prop :=
  Leads forest (.start forest) session

/-- Every history keeps a session sound and takes nothing back. -/
theorem Leads.sound_extends {forest : Forest} {earlier later : Session}
    (leads : Leads forest earlier later) (sound : earlier.Sound forest) :
    later.Sound forest ∧ earlier.Extends later := by
  induction leads with
  | refl session => exact ⟨sound, .refl session⟩
  | trans left right ihLeft ihRight =>
      obtain ⟨hMiddle, hLeft⟩ := ihLeft sound
      obtain ⟨hLast, hRight⟩ := ihRight hMiddle
      exact ⟨hLast, hLeft.trans hRight⟩
  | ask query knows => exact query.after_sound sound knows
  | search search known tests ih =>
      refine search.after_sound ?_ sound known
      intro later node hSound since hNode
      obtain ⟨hAfter, hKeeps⟩ := ih later node hSound since hNode hSound
      exact ⟨hAfter, hKeeps, trivial⟩
  | walk known stable first visits holds ih =>
      refine (Session.walk_yields stable ?_ sound known first).leaves
      intro later state id hSound since hId hState
      obtain ⟨hAfter, hKeeps⟩ := ih later state id hSound since hId hState hSound
      exact ⟨hAfter, hKeeps, holds later state id hSound since hId hState⟩

theorem Leads.keeps {forest : Forest} {earlier later : Session} (leads : Leads forest earlier later)
    (sound : earlier.Sound forest) : earlier.Extends later :=
  (leads.sound_extends sound).2

theorem Reachable.sound {forest : Forest} {session : Session} (reached : Reachable forest session) :
    session.Sound forest :=
  (Leads.sound_extends reached (Session.sound_start forest)).1

namespace Sample

/-- A unit in which one name is declared twice: once outside, and once inside the braces, together
with a second name. -/
def unit : ParsedUnit where
  source := ⟨"a.go", 0, "x\x7bx,y:x\x7dx"⟩
  snapshot := ⟨#[
    { kind := "source_file", span := ⟨0, 9⟩, children := [1, 2, 5, 6] },
    { kind := "identifier", span := ⟨0, 1⟩ },
    { kind := "parameter_declaration", span := ⟨2, 5⟩, children := [3, 4] },
    { kind := "identifier", span := ⟨2, 3⟩, field := some "name" },
    { kind := "identifier", span := ⟨4, 5⟩, field := some "name" },
    { kind := "identifier", span := ⟨6, 7⟩ },
    { kind := "identifier", span := ⟨8, 9⟩ }]⟩

/-- The package of the unit. The inner scope is that of the braces. -/
def package : Package where
  name := "a"
  symbols := {
    defs := .ofEntries [(0, ⟨"x", .var, none⟩), (2, ⟨"x", .var, none⟩), (4, ⟨"y", .var, none⟩)]
    uses := .ofEntries [(6, ⟨"x", .var, none⟩), (8, ⟨"x", .var, none⟩)]
    scopes := [{ owner := ⟨0, 9⟩, range := ⟨0, 9⟩ }, { owner := ⟨2, 5⟩, range := ⟨1, 8⟩ }] }

/-- A small package, on which the theorems about histories can be tried. -/
def forest : Forest where
  units := [unit]
  package := some package
  accepted := by decide
  standalone := by decide

end Sample

end SyntaxAtlas
