import SyntaxAtlas.Graph.CallTree
import SyntaxAtlas.Graph.Query
import SyntaxAtlas.Proofs.Graph.Sessions

/-! Logics of questions. What is shown of a walk, a search or a tour from what its visitor does is
always shown the same way: along the loop, from one question to the next. So it is shown once, for any
property of questions that goes from parts to wholes and that holds for the few questions which the
loops themselves ask. That sessions stay sound is the first of these properties. -/
namespace SyntaxAtlas

/-- A property of questions in sessions, with a condition on the answer, that goes from parts to
wholes. The questions stay within a footprint. -/
structure QuestionLogic (forest : Forest) (footprint : Footprint) where
  Holds : {α : Type} → Session → Explore α → (Session → α → Prop) → Prop
  pure : ∀ {α : Type} {session : Session} {answer : α} {good : Session → α → Prop},
    session.Sound forest → good session answer → Holds session (Pure.pure answer) good
  bind : ∀ {α β : Type} {session : Session} {question : Explore α} {next : α → Explore β}
    {middle : Session → α → Prop} {good : Session → β → Prop}, Holds session question middle →
    (∀ later answer, later.Sound forest → footprint.Allows session later → middle later answer →
      Holds later (next answer) good) → Holds session (question >>= next) good
  /-- Of the session itself, only things count that never change. -/
  read : ∀ {β : Type} {session : Session} {next : Session → Explore β} {good : Session → β → Prop},
    (∀ later, session.Extends later → next later = next session) →
    Holds session (next session) good → Holds session (get >>= next) good
  children : ∀ {session : Session} {id : NodeId}, session.Sound forest → id < session.arena.size →
    Holds session (forest.children id) (fun later ids => later.arena.children? id = some ids)

/-- Such a property that also holds when a callee is looked for. -/
structure CallLogic (forest : Forest) extends QuestionLogic forest .all where
  callee : ∀ {session : Session} {id : NodeId}, session.Sound forest → id < session.arena.size →
    Holds session (forest.callee? id) Session.Finds

/-- A property of what a visitor collects that later questions do not destroy. -/
def Session.Stable {σ : Type} (good : Session → σ → Prop) : Prop :=
  ∀ earlier later state, earlier.Extends later → good earlier state → good later state

theorem Session.stable_knows : Stable Knows :=
  fun _ _ _ keeps knows => knows.keep keeps

theorem Session.stable_finds : Stable Finds :=
  fun _ _ _ keeps finds => finds.keep keeps

namespace QuestionLogic

open Session (Stable Knows Finds stable_knows stable_finds finds_none finds_some)

section Rules

variable {forest : Forest} {footprint : Footprint} (logic : QuestionLogic forest footprint)
  {session : Session}

/-- Less may be said about an answer. -/
theorem weaken {α : Type} {question : Explore α} {good weaker : Session → α → Prop}
    (h : logic.Holds session question good)
    (follows : ∀ later answer, later.Sound forest → footprint.Allows session later →
      good later answer → weaker later answer) : logic.Holds session question weaker := by
  rw [← bind_pure question]
  exact logic.bind h fun later answer sound since hGood =>
    logic.pure sound (follows later answer sound since hGood)

/-- The children of a node have numbers. -/
theorem childrenKnown {id : NodeId} (sound : session.Sound forest)
    (known : id < session.arena.size) : logic.Holds session (forest.children id) Knows := by
  refine logic.weaken (logic.children sound known) ?_
  intro later ids sound grown hChildren child member
  exact (sound.arena.of_mem_children (grown.keeps.arena.lt known) hChildren member).2.1

/-- A visitor that may be called with any numbered node from a session on: it keeps a property of
what it collects. -/
def Visits {σ ρ : Type} (session : Session) (good : Session → σ → Prop)
    (visit : σ → NodeId → Explore (ρ × σ)) : Prop :=
  ∀ later state id, later.Sound forest → footprint.Allows session later → id < later.arena.size →
    good later state → logic.Holds later (visit state id) (fun after out => good after out.2)

/-- A test that may be asked about any numbered node from a session on. -/
def Admits (session : Session) (test : Forest.Test) : Prop :=
  ∀ later id, later.Sound forest → footprint.Allows session later → id < later.arena.size →
    logic.Holds later (test id) (fun _ _ => True)

variable {logic} in
theorem Visits.keep {σ ρ : Type} {good : Session → σ → Prop}
    {visit : σ → NodeId → Explore (ρ × σ)} {later : Session}
    (visits : logic.Visits session good visit) (h : footprint.Allows session later) :
    logic.Visits later good visit :=
  fun after state id sound since => visits after state id sound (h.trans since)

variable {logic} in
theorem Admits.keep {test : Forest.Test} {later : Session} (admits : logic.Admits session test)
    (h : footprint.Allows session later) : logic.Admits later test :=
  fun after id sound since known => admits after id sound (h.trans since) known

end Rules

section Walks

variable {forest : Forest} {footprint : Footprint} (logic : QuestionLogic forest footprint)
  {session : Session} {σ : Type} {good : Session → σ → Prop}
  {visit : σ → NodeId → Explore (Verdict × σ)}

/-- A walk keeps what every visit keeps. The pending nodes have numbers throughout, so that the
visitor is only ever called with a node that has one. They may have more in common, if the walk goes
below a node only when its children have it too. -/
theorem walkStack_within {reach : Session → NodeId → Prop} (lasts : Stable reach)
    (stable : Stable good)
    (visits : ∀ later state id, later.Sound forest → footprint.Allows session later →
      id < later.arena.size → reach later id → good later state →
      logic.Holds later (visit state id) (fun after out => good after out.2 ∧
        (out.1 = .descend → ∀ last child, last.Sound forest → after.Extends last →
          last.arena.parent? child = some id → reach last child)))
    (budget : Nat) {now : Session} {pending : List NodeId} {state : σ} (sound : now.Sound forest)
    (since : footprint.Allows session now) (knows : now.Knows pending)
    (reached : ∀ id ∈ pending, reach now id) (start : good now state) :
    logic.Holds now (forest.walkStack visit budget pending state) good := by
  induction budget generalizing now pending state with
  | zero => exact logic.pure sound start
  | succ budget ih =>
      cases pending with
      | nil => exact logic.pure sound start
      | cons id pending =>
          have hId := knows.head
          refine logic.bind
            (visits now state id sound since hId (reached id List.mem_cons_self) start) ?_
          rintro later ⟨verdict, state⟩ hSound visited ⟨hState, hBelow⟩
          have hRest := knows.tail.keep visited.keeps
          have hReached : ∀ other ∈ pending, reach later other := fun other member =>
            lasts now later other visited.keeps (reached other (List.mem_cons_of_mem id member))
          cases verdict with
          | skip => exact ih hSound (since.trans visited) hRest hReached hState
          | descend =>
              have hKnown := visited.keeps.arena.lt hId
              refine logic.bind (logic.children hSound hKnown) ?_
              intro after ids hAfter grown hChildren
              have hKept := grown.keeps.arena.lt hKnown
              have hIds : after.Knows ids := fun child member =>
                (hAfter.arena.of_mem_children hKept hChildren member).2.1
              refine ih hAfter (since.trans (visited.trans grown))
                (hIds.append (hRest.keep grown.keeps)) ?_ (stable later after state grown.keeps hState)
              intro other member
              rcases List.mem_append.mp member with hChild | hOld
              · have hParent := (hAfter.arena.of_mem_children hKept hChildren hChild).2.2.1
                exact hBelow rfl after other hAfter grown.keeps hParent
              · exact lasts later after other grown.keeps (hReached other hOld)

theorem walk {start : NodeId} {state : σ} (stable : Stable good)
    (visits : logic.Visits session good visit) (sound : session.Sound forest)
    (known : start < session.arena.size) (first : good session state) :
    logic.Holds session (forest.walk start state visit) good := by
  refine logic.read ?_ (logic.walkStack_within (fun _ _ _ _ _ => trivial) stable ?_ _ sound
    (.refl footprint session) (.cons known (.nil session)) (fun _ _ => trivial) first)
  · intro later since
    rw [since.arena.origin start known]
  · intro later state id hSound since hId _ hState
    refine logic.weaken (visits later state id hSound since hId hState) ?_
    intro after out _ _ hGood
    exact ⟨hGood, fun _ _ _ _ _ _ => trivial⟩

end Walks

end QuestionLogic

namespace Forest

/-- The visitor that collects the hits below a node. -/
def gatherBelow (test : Test) (id : NodeId) (found : List NodeId) (node : NodeId) :
    Explore (Verdict × List NodeId) := do
  if node = id then
    return (.descend, found)
  else if ← test node then
    return (.descend, found ++ [node])
  else
    return (.descend, found)

/-- The visitor that stops at the first hit below a node. -/
def seekBelow (test : Test) (id : NodeId) (found : Option NodeId) (node : NodeId) :
    Explore (Verdict × Option NodeId) := do
  match found with
  | some hit => return (.skip, some hit)
  | none =>
    if node = id then
      return (.descend, none)
    else if ← test node then
      return (.skip, some node)
    else
      return (.descend, none)

/-- The visitor that collects the hits of a tour. -/
def gatherHits (test : Test) (found : List NodeId) (node : NodeId) :
    Explore (Bool × List NodeId) := do
  if ← test node then
    return (true, found ++ [node])
  else
    return (true, found)

/-- The visitor that ends a tour at the first hit. -/
def seekHit (test : Test) (_ : Option NodeId) (node : NodeId) :
    Explore (Bool × Option NodeId) := do
  if ← test node then
    return (false, some node)
  else
    return (true, none)

theorem treeNodes_eq_walk (forest : Forest) (test : Test) (id : NodeId) :
    forest.treeNodes test id = forest.walk id [] (gatherBelow test id) :=
  rfl

theorem treeNode?_eq_walk (forest : Forest) (test : Test) (id : NodeId) :
    forest.treeNode? test id = forest.walk id none (seekBelow test id) :=
  rfl

theorem callTreeNodes_eq_tour (forest : Forest) (test : Test) (id : NodeId) :
    forest.callTreeNodes test id = forest.callTour id [] (gatherHits test) :=
  rfl

theorem callTreeNode?_eq_tour (forest : Forest) (test : Test) (id : NodeId) :
    forest.callTreeNode? test id = forest.callTour id none (seekHit test) :=
  rfl

end Forest

namespace QuestionLogic

open Session (Knows Finds stable_knows stable_finds finds_none finds_some)

section Searches

variable {forest : Forest} {footprint : Footprint} {logic : QuestionLogic forest footprint}
  {session : Session} {test : Forest.Test} {id : NodeId} (admits : logic.Admits session test)

include admits

theorem gatherBelow_visits : logic.Visits session Knows (Forest.gatherBelow test id) := by
  intro later found node sound since known knows
  unfold Forest.gatherBelow
  split_ifs
  · exact logic.pure sound knows
  · refine logic.bind (admits later node sound since known) ?_
    rintro after (_ | _) sound tested _
    · exact logic.pure sound (knows.keep tested.keeps)
    · exact logic.pure sound ((knows.keep tested.keeps).append
        (.cons (tested.keeps.arena.lt known) (.nil after)))

theorem seekBelow_visits : logic.Visits session Finds (Forest.seekBelow test id) := by
  rintro later (_ | hit) node sound since known finds
  · unfold Forest.seekBelow
    dsimp only
    split_ifs
    · exact logic.pure sound (finds_none later)
    · refine logic.bind (admits later node sound since known) ?_
      rintro after (_ | _) sound tested _
      · exact logic.pure sound (finds_none after)
      · exact logic.pure sound (finds_some (tested.keeps.arena.lt known))
  · exact logic.pure sound finds

theorem gatherHits_visits : logic.Visits session Knows (Forest.gatherHits test) := by
  intro later found node sound since known knows
  refine logic.bind (admits later node sound since known) ?_
  rintro after (_ | _) sound tested _
  · exact logic.pure sound (knows.keep tested.keeps)
  · exact logic.pure sound ((knows.keep tested.keeps).append
      (.cons (tested.keeps.arena.lt known) (.nil after)))

theorem seekHit_visits : logic.Visits session Finds (Forest.seekHit test) := by
  intro later _ node sound since known _
  refine logic.bind (admits later node sound since known) ?_
  rintro after (_ | _) sound tested _
  · exact logic.pure sound (finds_none after)
  · exact logic.pure sound (finds_some (tested.keeps.arena.lt known))

variable (sound : session.Sound forest)

include sound

theorem filterNodes {nodes : List NodeId} (knows : session.Knows nodes) :
    logic.Holds session (Forest.filterNodes test nodes) Knows := by
  induction nodes generalizing session with
  | nil => exact logic.pure sound (.nil session)
  | cons node rest ih =>
      have hNode := knows.head
      refine logic.bind (admits session node sound (.refl footprint session) hNode) ?_
      intro later passed sound tested _
      have hTail := ih (admits.keep tested) sound (knows.tail.keep tested.keeps)
      cases passed with
      | false => exact hTail
      | true =>
          refine logic.bind hTail ?_
          intro after kept sound filtered hKept
          exact logic.pure sound
            (.cons (filtered.keeps.arena.lt (tested.keeps.arena.lt hNode)) hKept)

theorem findNode? {nodes : List NodeId} (knows : session.Knows nodes) :
    logic.Holds session (Forest.findNode? test nodes) Finds := by
  induction nodes generalizing session with
  | nil => exact logic.pure sound (finds_none session)
  | cons node rest ih =>
      have hNode := knows.head
      refine logic.bind (admits session node sound (.refl footprint session) hNode) ?_
      intro later passed sound tested _
      cases passed with
      | false => exact ih (admits.keep tested) sound (knows.tail.keep tested.keeps)
      | true => exact logic.pure sound (finds_some (tested.keeps.arena.lt hNode))

variable (known : id < session.arena.size)

include known

theorem treeNodes : logic.Holds session (forest.treeNodes test id) Knows :=
  logic.walk stable_knows (gatherBelow_visits admits) sound known (.nil session)

theorem treeNode? : logic.Holds session (forest.treeNode? test id) Finds :=
  logic.walk stable_finds (seekBelow_visits admits) sound known (finds_none session)

theorem childNodes : logic.Holds session (forest.childNodes test id) Knows := by
  refine logic.bind (logic.childrenKnown sound known) ?_
  intro later ids sound grown knows
  exact filterNodes (admits.keep grown) sound knows

theorem childNode? : logic.Holds session (forest.childNode? test id) Finds := by
  refine logic.bind (logic.childrenKnown sound known) ?_
  intro later ids sound grown knows
  exact findNode? (admits.keep grown) sound knows

end Searches

end QuestionLogic

namespace CallLogic

open Session (Stable Knows Finds stable_knows stable_finds finds_none)

section Tours

variable {forest : Forest} (logic : CallLogic forest) {session : Session} {σ : Type}
  {good : Session → σ → Prop}

/-- A stage of a tour that may be run from a session on. -/
def Runs (session : Session) (good : Session → σ → Prop) (stage : CallStage σ) : Prop :=
  ∀ now tour, now.Sound forest → session.Extends now → good now tour.state →
    logic.Holds now (stage tour) (fun later tour => good later tour.state)

variable {logic} {visit : σ → NodeId → Explore (Bool × σ)} {enter : NodeId → CallStage σ}
  {node : NodeId}

theorem Runs.pure : logic.Runs session good Pure.pure :=
  fun _ _ sound _ start => logic.pure sound start

theorem Runs.andThen {first second : CallStage σ} (left : logic.Runs session good first)
    (right : logic.Runs session good second) : logic.Runs session good (first.andThen second) := by
  intro now tour sound since start
  refine logic.bind (left now tour sound since start) ?_
  intro later tour sound ran hState
  split_ifs
  · exact logic.pure sound hState
  · exact right later tour sound (since.trans ran) hState

theorem visitStage (visits : logic.Visits session good visit) (known : node < session.arena.size) :
    logic.Runs session good (Forest.visitStage visit node) := by
  intro now tour sound since start
  refine logic.bind (visits now tour.state node sound since (since.arena.lt known) start) ?_
  rintro later ⟨goesOn, state⟩ sound _ hState
  exact logic.pure sound hState

theorem calleeStage (stable : Stable good) (visits : logic.Visits session good visit)
    (enters : ∀ later node, session.Extends later → node < later.arena.size →
      logic.Runs later good (enter node)) (known : node < session.arena.size) :
    logic.Runs session good (forest.calleeStage visit enter node) := by
  intro now tour sound since start
  refine logic.bind (logic.callee sound (since.arena.lt known)) ?_
  rintro later (_ | callee) sound called finds
  · exact logic.pure sound (stable _ _ _ called start)
  · dsimp only
    split_ifs
    · exact logic.pure sound (stable _ _ _ called start)
    · have hCallee := finds callee rfl
      have hSince := since.trans called
      exact ((visitStage (visits.keep hSince) hCallee).andThen
        (enters later callee hSince hCallee)) later _ sound (.refl later) (stable _ _ _ called start)

theorem nodesStage (stable : Stable good) (visits : logic.Visits session good visit)
    (enters : ∀ later node, session.Extends later → node < later.arena.size →
      logic.Runs later good (enter node)) {nodes : List NodeId} (knows : session.Knows nodes) :
    logic.Runs session good (forest.nodesStage visit enter nodes) := by
  induction nodes with
  | nil => exact .pure
  | cons node rest ih =>
      have hNode := knows.head
      exact (visitStage visits hNode).andThen
        ((calleeStage stable visits enters hNode).andThen
          ((enters session node (.refl session) hNode).andThen (ih knows.tail)))

theorem expand (stable : Stable good) (visits : logic.Visits session good visit) (depth : Nat)
    {now : Session} (since : session.Extends now) {node : NodeId} (known : node < now.arena.size) :
    logic.Runs now good (forest.expand visit depth node) := by
  induction depth generalizing now node with
  | zero => exact .pure
  | succ depth ih =>
      intro later tour sound hLater start
      refine logic.bind (logic.childrenKnown sound (hLater.arena.lt known)) ?_
      intro after ids sound grown knows
      have hSince := since.trans (hLater.trans grown)
      refine nodesStage stable (visits.keep hSince) ?_ knows after tour sound (.refl after)
        (stable _ _ _ grown start)
      intro last node hLast hNode
      exact ih (hSince.trans hLast) hNode

theorem callTour {id : NodeId} {state : σ} (stable : Stable good)
    (visits : logic.Visits session good visit) (sound : session.Sound forest)
    (known : id < session.arena.size) (start : good session state) :
    logic.Holds session (forest.callTour id state visit) good := by
  unfold Forest.callTour
  cases forest.package with
  | none => exact logic.pure sound start
  | some package =>
      refine logic.bind (expand stable visits forest.callDepth (.refl session) known session _ sound
        (.refl session) start) ?_
      intro later tour sound _ hState
      exact logic.pure sound hState

end Tours

section Searches

variable {forest : Forest} {logic : CallLogic forest} {session : Session} {test : Forest.Test}
  {id : NodeId} (admits : logic.Admits session test) (sound : session.Sound forest)
  (known : id < session.arena.size)

include admits sound known

theorem callTreeNodes : logic.Holds session (forest.callTreeNodes test id) Knows :=
  callTour stable_knows (QuestionLogic.gatherHits_visits admits) sound known (.nil session)

theorem callTreeNode? : logic.Holds session (forest.callTreeNode? test id) Finds :=
  callTour stable_finds (QuestionLogic.seekHit_visits admits) sound known (finds_none session)

end Searches

end CallLogic

/-- The plain logic: sessions stay sound. -/
def Session.yielding (forest : Forest) (footprint : Footprint) : QuestionLogic forest footprint where
  Holds session question good := session.Yields forest footprint question good
  pure sound good := .pure sound good
  bind first second := first.bind second
  read _ h := .read h
  children sound known := children_yields footprint sound known

end SyntaxAtlas
