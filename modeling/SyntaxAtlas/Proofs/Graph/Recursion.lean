import SyntaxAtlas.Proofs.Graph.Histories
import SyntaxAtlas.Proofs.Graph.Preorder

/-! Walks as recursion. The loop keeps one list of pending nodes, on which the siblings of all levels
wait, and meanwhile visitors and questions for children number more and more nodes. It is related to
the recursion that visits a node and then its children one after the other: taking the first pending
node is the same as taking the first node of the innermost list. The budget of the loop counts the
nodes that are still to come in the snapshots, so it never ends the loop early. -/
namespace SyntaxAtlas

/-- The recursive walk through some nodes. A node is visited and then, unless the visitor says
otherwise, its children are walked through before the next node. The visits are listed with their
verdicts. -/
inductive RecursiveWalk {σ : Type} (forest : Forest)
    (visit : σ → NodeId → Explore (Verdict × σ)) :
    List NodeId → σ → Session → List (NodeId × Verdict) → σ × Session → Prop where
  | done {state : σ} {session : Session} :
      RecursiveWalk forest visit [] state session [] (state, session)
  | skip {id : NodeId} {rest : List NodeId} {state visited : σ} {session after : Session}
      {calls : List (NodeId × Verdict)} {result : σ × Session}
      (asked : (visit state id).run session = ((.skip, visited), after))
      (next : RecursiveWalk forest visit rest visited after calls result) :
      RecursiveWalk forest visit (id :: rest) state session ((id, .skip) :: calls) result
  | descend {id : NodeId} {rest ids : List NodeId} {state visited : σ}
      {session after grown : Session} {inner calls : List (NodeId × Verdict)}
      {middle result : σ × Session}
      (asked : (visit state id).run session = ((.descend, visited), after))
      (children : (forest.children id).run after = (ids, grown))
      (below : RecursiveWalk forest visit ids visited grown inner middle)
      (next : RecursiveWalk forest visit rest middle.1 middle.2 calls result) :
      RecursiveWalk forest visit (id :: rest) state session ((id, .descend) :: (inner ++ calls))
        result

namespace RecursiveWalk

variable {σ : Type} {forest : Forest} {visit : σ → NodeId → Explore (Verdict × σ)}
  {session : Session} {state : σ} {calls : List (NodeId × Verdict)} {result : σ × Session}

/-- A walk through two lists of nodes is a walk through the first and then one through the second. -/
theorem of_append {first second : List NodeId}
    (walk : RecursiveWalk forest visit (first ++ second) state session calls result) :
    ∃ before after middle, calls = before ++ after ∧
      RecursiveWalk forest visit first state session before middle ∧
      RecursiveWalk forest visit second middle.1 middle.2 after result := by
  induction first generalizing state session calls with
  | nil => exact ⟨[], calls, (state, session), rfl, .done, walk⟩
  | cons id first ih =>
      cases walk with
      | skip asked next =>
          obtain ⟨before, after, middle, rfl, hFirst, hSecond⟩ := ih next
          exact ⟨_, after, middle, rfl, .skip asked hFirst, hSecond⟩
      | descend asked children below next =>
          obtain ⟨before, after, middle, rfl, hFirst, hSecond⟩ := ih next
          refine ⟨_, after, middle, ?_, .descend asked children below hFirst, hSecond⟩
          simp

/-- Visitors and questions leave no choice. -/
theorem unique {pending : List NodeId} {others : List (NodeId × Verdict)} {other : σ × Session}
    (walk : RecursiveWalk forest visit pending state session calls result)
    (again : RecursiveWalk forest visit pending state session others other) :
    calls = others ∧ result = other := by
  induction walk generalizing others other with
  | done =>
      cases again with
      | done => exact ⟨rfl, rfl⟩
  | skip asked _ ih =>
      cases again with
      | skip asked' next' =>
          cases asked.symm.trans asked'
          obtain ⟨rfl, rfl⟩ := ih next'
          exact ⟨rfl, rfl⟩
      | descend asked' => cases asked.symm.trans asked'
  | descend asked children _ _ ihBelow ihNext =>
      cases again with
      | skip asked' => cases asked.symm.trans asked'
      | descend asked' children' below' next' =>
          cases asked.symm.trans asked'
          cases children.symm.trans children'
          obtain ⟨rfl, rfl⟩ := ihBelow below'
          obtain ⟨rfl, rfl⟩ := ihNext next'
          exact ⟨rfl, rfl⟩

end RecursiveWalk

namespace Session

variable {σ : Type}

/-- A walk that is under way: the session is sound and came from the one at the start, the pending
nodes have numbers, and what was collected is as the visitor wants it. -/
structure Walking (forest : Forest) (session start : Session) (good : Session → σ → Prop)
    (pending : List NodeId) (state : σ) : Prop where
  sound : session.Sound forest
  since : start.Extends session
  knows : session.Knows pending
  held : good session state

namespace Walking

variable {forest : Forest} {start session after : Session} {good : Session → σ → Prop}
  {visit : σ → NodeId → Explore (Verdict × σ)} {id : NodeId} {rest ids : List NodeId}
  {state visited : σ}

theorem tail (h : session.Walking forest start good (id :: rest) state) :
    session.Walking forest start good rest state :=
  ⟨h.sound, h.since, h.knows.tail, h.held⟩

theorem single (h : session.Walking forest start good (id :: rest) state) :
    session.Walking forest start good [id] state :=
  ⟨h.sound, h.since, .cons h.knows.head (.nil session), h.held⟩

/-- A visit keeps a walk under way. -/
theorem visited_next (visits : (yielding forest .all).Visits start good visit)
    (h : session.Walking forest start good (id :: rest) state) {verdict : Verdict}
    (asked : (visit state id).run session = ((verdict, visited), after)) :
    after.Walking forest start good (id :: rest) visited ∧ session.Extends after := by
  have hVisit := visits session state id h.sound h.since h.knows.head h.held
  obtain ⟨hSound, hAllows, hHeld⟩ := hVisit
  rw [asked] at hSound hAllows hHeld
  exact ⟨⟨hSound, h.since.trans hAllows, h.knows.keep hAllows, hHeld⟩, hAllows⟩

/-- Asking for the children of the first pending node, which take its place, keeps a walk under
way. -/
theorem children_next (stable : Stable good)
    (h : session.Walking forest start good (id :: rest) state)
    (asked : (forest.children id).run session = (ids, after)) :
    after.Walking forest start good (ids ++ rest) state ∧ session.Extends after ∧
      after.arena.children? id = some ids := by
  have hAnswer := (children_yields .all h.sound h.knows.head).answer
  have hChildren : session.Yields forest .all (forest.children id) Knows :=
    children_knows h.sound h.knows.head
  obtain ⟨hSound, hAllows, hKnows⟩ := hChildren
  rw [asked] at hSound hAllows hKnows hAnswer
  exact ⟨⟨hSound, h.since.trans hAllows, hKnows.append (h.knows.tail.keep hAllows),
    stable session after state hAllows h.held⟩, hAllows, hAnswer⟩

end Walking

/-- The nodes that the snapshots hold from numbered nodes down do not change. -/
theorem extents_keep {forest : Forest} {earlier later : Session} {nodes : List NodeId}
    (knows : earlier.Knows nodes) (h : earlier.Extends later) :
    later.extents forest nodes = earlier.extents forest nodes := by
  unfold extents
  congr 1
  apply List.map_congr_left
  intro id member
  rw [h.arena.origin id (knows id member)]

theorem extents_cons (forest : Forest) (session : Session) (id : NodeId) (rest : List NodeId) :
    session.extents forest (id :: rest) =
      forest.extent (session.arena.origin id) + session.extents forest rest := by
  simp [extents]

end Session

section Runs

variable {σ : Type} {forest : Forest} {visit : σ → NodeId → Explore (Verdict × σ)}
  {good : Session → σ → Prop} {start session : Session} {pending rest : List NodeId} {state : σ}
  {calls : List (NodeId × Verdict)} {result : σ × Session} (stable : Session.Stable good)
  (visits : (Session.yielding forest .all).Visits start good visit)

include stable visits

/-- The loop is the recursion, as soon as its budget counts the nodes from the pending ones down. -/
theorem Forest.walkStack_recursive (budget : Nat)
    (h : session.Walking forest start good pending state)
    (enough : session.extents forest pending ≤ budget) :
    ∃ calls, RecursiveWalk forest visit pending state session calls
      ((forest.walkStack visit budget pending state).run session) := by
  induction budget generalizing session pending state with
  | zero =>
      cases pending with
      | nil => exact ⟨[], .done⟩
      | cons id rest =>
          rw [Session.extents_cons] at enough
          have hOne : 1 ≤ forest.extent (session.arena.origin id) := forest.one_le_extentWithin _ _
          omega
  | succ budget ih =>
      cases pending with
      | nil => exact ⟨[], .done⟩
      | cons id rest =>
          rw [Forest.walkStack, Explore.run_bind]
          rcases hAsked : (visit state id).run session with ⟨⟨verdict, visited⟩, after⟩
          obtain ⟨hAfter, hKeeps⟩ := h.visited_next visits hAsked
          rw [← Session.extents_keep h.knows hKeeps] at enough
          cases verdict with
          | skip =>
              have hOne : 1 ≤ forest.extent (after.arena.origin id) :=
                forest.one_le_extentWithin _ _
              rw [Session.extents_cons] at enough
              obtain ⟨calls, hRest⟩ := ih hAfter.tail (by omega)
              exact ⟨_, .skip hAsked hRest⟩
          | descend =>
              dsimp only
              have hStep := Session.extents_children hAfter.sound hAfter.knows
              rw [Explore.run_bind]
              rcases hChildren : (forest.children id).run after with ⟨ids, grown⟩
              rw [hChildren] at hStep
              dsimp only at hStep
              obtain ⟨hGrown, _⟩ := hAfter.children_next stable hChildren
              obtain ⟨calls, hRest⟩ := ih hGrown (by omega)
              -- the children are in front, so what the loop does next is to walk through them
              obtain ⟨inner, others, middle, rfl, hBelow, hNext⟩ := hRest.of_append
              exact ⟨_, .descend hAsked hChildren hBelow hNext⟩

namespace RecursiveWalk

/-- A recursive walk keeps what waits behind it under way. -/
theorem walking (walk : RecursiveWalk forest visit pending state session calls result)
    (h : session.Walking forest start good (pending ++ rest) state) :
    result.2.Walking forest start good rest result.1 ∧ session.Extends result.2 := by
  induction walk generalizing rest with
  | done => exact ⟨h, .refl _⟩
  | skip asked _ ih =>
      obtain ⟨hAfter, hVisited⟩ := h.visited_next visits asked
      obtain ⟨hResult, hKeeps⟩ := ih hAfter.tail
      exact ⟨hResult, hVisited.trans hKeeps⟩
  | descend asked children _ _ ihBelow ihNext =>
      obtain ⟨hAfter, hVisited⟩ := h.visited_next visits asked
      obtain ⟨hGrown, hKept, _⟩ := hAfter.children_next stable children
      obtain ⟨hMiddle, hBelow⟩ := ihBelow hGrown
      obtain ⟨hResult, hNext⟩ := ihNext hMiddle
      exact ⟨hResult, hVisited.trans (hKept.trans (hBelow.trans hNext))⟩

/-- The visits stand in recursive order in the arena of any later session. -/
theorem sequence (walk : RecursiveWalk forest visit pending state session calls result)
    (h : session.Walking forest start good (pending ++ rest) state) {last : Session}
    (since : result.2.Extends last) : last.arena.Sequence pending calls := by
  induction walk generalizing rest with
  | done => exact .done
  | skip asked _ ih =>
      obtain ⟨hAfter, _⟩ := h.visited_next visits asked
      exact .skip (ih hAfter.tail since)
  | descend asked children below next ihBelow ihNext =>
      obtain ⟨hAfter, _⟩ := h.visited_next visits asked
      obtain ⟨hGrown, _, hChildren⟩ := hAfter.children_next stable children
      obtain ⟨hMiddle, hBelow⟩ := below.walking stable visits hGrown
      obtain ⟨_, hNext⟩ := next.walking stable visits hMiddle
      -- children that were asked for stay what they are
      have hListed := (hBelow.trans (hNext.trans since)).arena.children _ _
        (Arena.known_of_children hChildren) hChildren
      exact .descend hListed (ihBelow hGrown (hNext.trans since)) (ihNext hMiddle since)

/-- A visitor that does the same at a node whenever it comes there collects a fold over the visited
nodes. What it does may be described in terms of a later session. -/
theorem foldl_eq (walk : RecursiveWalk forest visit pending state session calls result)
    (h : session.Walking forest start good (pending ++ rest) state) {last : Session}
    (since : result.2.Extends last) {verdict : NodeId → Verdict} {step : σ → NodeId → σ}
    (each : ∀ now state id, now.Walking forest start good [id] state →
      ((visit state id).run now).2.Extends last →
      ((visit state id).run now).1 = (verdict id, step state id)) :
    (∀ call ∈ calls, verdict call.1 = call.2) ∧
      result.1 = (calls.map Prod.fst).foldl step state := by
  induction walk generalizing rest with
  | done => exact ⟨fun _ member => (nomatch member), rfl⟩
  | skip asked next ih =>
      obtain ⟨hAfter, _⟩ := h.visited_next visits asked
      obtain ⟨_, hNext⟩ := next.walking stable visits hAfter.tail
      obtain ⟨hAgrees, hResult⟩ := ih hAfter.tail since
      have hEach := each _ _ _ h.single
      rw [asked] at hEach
      obtain ⟨hVerdict, rfl⟩ := Prod.mk.inj (hEach (hNext.trans since))
      exact ⟨List.forall_mem_cons.mpr ⟨hVerdict.symm, hAgrees⟩, hResult⟩
  | descend asked children below next ihBelow ihNext =>
      obtain ⟨hAfter, _⟩ := h.visited_next visits asked
      obtain ⟨hGrown, hKept, _⟩ := hAfter.children_next stable children
      obtain ⟨hMiddle, hBelow⟩ := below.walking stable visits hGrown
      obtain ⟨_, hNext⟩ := next.walking stable visits hMiddle
      obtain ⟨hInner, hFirst⟩ := ihBelow hGrown (hNext.trans since)
      obtain ⟨hAgrees, hResult⟩ := ihNext hMiddle since
      have hEach := each _ _ _ h.single
      rw [asked] at hEach
      obtain ⟨hVerdict, rfl⟩ :=
        Prod.mk.inj (hEach (hKept.trans (hBelow.trans (hNext.trans since))))
      refine ⟨List.forall_mem_cons.mpr
        ⟨hVerdict.symm, List.forall_mem_append.mpr ⟨hInner, hAgrees⟩⟩, ?_⟩
      rw [hResult, hFirst, List.map_cons, List.foldl_cons, List.map_append, List.foldl_append]

/-- A visitor may skip when nothing would change any more what it has collected. It collects a fold over
all nodes in pre-order, those that it skips included. -/
theorem foldl_preorder (walk : RecursiveWalk forest visit pending state session calls result)
    (h : session.Walking forest start good (pending ++ rest) state) {last : Session}
    (numbered : last.arena.WellNumbered forest) (since : result.2.Extends last)
    {step : σ → NodeId → σ}
    (each : ∀ now state id, now.Walking forest start good [id] state →
      ((visit state id).run now).2.Extends last →
      ((visit state id).run now).1.2 = step state id ∧
        (((visit state id).run now).1.1 = .skip →
          ∀ other, step (step state id) other = step state id)) :
    result.1 = (pending.flatMap last.arena.preorder).foldl step state := by
  have hPreorder : ∀ id, last.arena.preorder id =
      id :: (last.arena.childrenOf id).flatMap last.arena.preorder :=
    fun id => numbered.preorderBy_descend rfl
  induction walk generalizing rest with
  | done => rfl
  | skip asked next ih =>
      obtain ⟨hAfter, _⟩ := h.visited_next visits asked
      obtain ⟨_, hNext⟩ := next.walking stable visits hAfter.tail
      have hEach := each _ _ _ h.single
      rw [asked] at hEach
      obtain ⟨rfl, absorbs⟩ := hEach (hNext.trans since)
      rw [List.flatMap_cons, List.foldl_append, hPreorder, List.foldl_cons,
        List.foldl_fixed' (absorbs rfl), ih hAfter.tail since]
  | descend asked children below next ihBelow ihNext =>
      obtain ⟨hAfter, _⟩ := h.visited_next visits asked
      obtain ⟨hGrown, hKept, hChildren⟩ := hAfter.children_next stable children
      obtain ⟨hMiddle, hBelow⟩ := below.walking stable visits hGrown
      obtain ⟨_, hNext⟩ := next.walking stable visits hMiddle
      have hListed := (hBelow.trans (hNext.trans since)).arena.children _ _
        (Arena.known_of_children hChildren) hChildren
      have hEach := each _ _ _ h.single
      rw [asked] at hEach
      obtain ⟨rfl, _⟩ := hEach (hKept.trans (hBelow.trans (hNext.trans since)))
      rw [List.flatMap_cons, List.foldl_append, hPreorder, List.foldl_cons,
        Arena.childrenOf_eq hListed, ihNext hMiddle since, ihBelow hGrown (hNext.trans since)]

end RecursiveWalk

end Runs

namespace Session

variable {σ : Type} {forest : Forest} {session : Session} {good : Session → σ → Prop}
  {visit : σ → NodeId → Explore (Verdict × σ)} {start : NodeId} {state : σ}

/-- A walk is a recursive walk, and a larger budget makes no difference. -/
theorem walk_recursive (stable : Stable good) (visits : (yielding forest .all).Visits session good visit)
    (sound : session.Sound forest) (known : start < session.arena.size)
    (first : good session state) :
    let walked := (forest.walk start state visit).run session
    ∃ calls, RecursiveWalk forest visit [start] state session calls walked ∧
      ∀ budget, forest.extent (session.arena.origin start) ≤ budget →
        (forest.walkStack visit budget [start] state).run session = walked := by
  intro walked
  have hWalking : session.Walking forest session good [start] state :=
    ⟨sound, .refl session, .cons known (.nil session), first⟩
  have hExtents : session.extents forest [start] = forest.extent (session.arena.origin start) := by
    simp [extents]
  have hRecursive : ∀ budget, forest.extent (session.arena.origin start) ≤ budget →
      ∃ calls, RecursiveWalk forest visit [start] state session calls
        ((forest.walkStack visit budget [start] state).run session) := by
    intro budget enough
    rw [← hExtents] at enough
    exact Forest.walkStack_recursive stable visits budget hWalking enough
  obtain ⟨calls, hWalk⟩ := hRecursive _ (Nat.le_refl _)
  refine ⟨calls, hWalk, ?_⟩
  intro budget enough
  obtain ⟨others, hOther⟩ := hRecursive budget enough
  exact (hOther.unique hWalk).2

/-- A walk whose visitor does the same at a node whenever it comes there. -/
theorem walk_foldl (stable : Stable good) (visits : (yielding forest .all).Visits session good visit)
    (sound : session.Sound forest) (known : start < session.arena.size)
    (first : good session state) {last : Session} (hLast : last.Sound forest)
    (since : ((forest.walk start state visit).run session).2.Extends last)
    {verdict : NodeId → Verdict} {step : σ → NodeId → σ}
    (each : ∀ now state id, now.Walking forest session good [id] state →
      ((visit state id).run now).2.Extends last →
      ((visit state id).run now).1 = (verdict id, step state id)) :
    ((forest.walk start state visit).run session).1 =
        (last.arena.preorderBy verdict start).foldl step state ∧
      last.arena.PrunedPreorder verdict start (last.arena.preorderBy verdict start) := by
  obtain ⟨calls, hWalk, _⟩ := walk_recursive stable visits sound known first
  have hWalking : session.Walking forest session good ([start] ++ []) state :=
    ⟨sound, .refl session, .cons known (.nil session), first⟩
  obtain ⟨agrees, hResult⟩ := hWalk.foldl_eq stable visits hWalking since each
  obtain ⟨hNodes, hPruned⟩ :=
    (hWalk.sequence stable visits hWalking since).prunedPreorder hLast.arena agrees
  rw [hNodes] at hResult hPruned
  exact ⟨hResult, hPruned⟩

/-- A walk whose visitor skips only when nothing would change any more what it has collected. -/
theorem walk_foldl_preorder (stable : Stable good)
    (visits : (yielding forest .all).Visits session good visit) (sound : session.Sound forest)
    (known : start < session.arena.size) (first : good session state) {last : Session}
    (hLast : last.Sound forest)
    (since : ((forest.walk start state visit).run session).2.Extends last) {step : σ → NodeId → σ}
    (each : ∀ now state id, now.Walking forest session good [id] state →
      ((visit state id).run now).2.Extends last →
      ((visit state id).run now).1.2 = step state id ∧
        (((visit state id).run now).1.1 = .skip →
          ∀ other, step (step state id) other = step state id)) :
    ((forest.walk start state visit).run session).1 =
      (last.arena.preorder start).foldl step state := by
  obtain ⟨calls, hWalk, _⟩ := walk_recursive stable visits sound known first
  have hWalking : session.Walking forest session good ([start] ++ []) state :=
    ⟨sound, .refl session, .cons known (.nil session), first⟩
  have hResult := hWalk.foldl_preorder stable visits hWalking hLast.arena since each
  rwa [List.flatMap_singleton] at hResult

/-- A visitor that a client may give to a walk. It asks what may be asked, and keeps what it holds on
to. -/
structure Guides (forest : Forest) (session : Session) (good : Session → σ → Prop)
    (visit : σ → NodeId → Explore (Verdict × σ)) : Prop where
  stable : Stable good
  asks : ∀ later state id, later.Sound forest → session.Extends later → id < later.arena.size →
    good later state → Leads forest later ((visit state id).run later).2
  holds : ∀ later state id, later.Sound forest → session.Extends later → id < later.arena.size →
    good later state → good ((visit state id).run later).2 ((visit state id).run later).1.2

theorem Guides.visits (guides : session.Guides forest good visit) :
    (yielding forest .all).Visits session good visit := by
  intro later state id hSound since hId hState
  obtain ⟨hAfter, hKeeps⟩ := (guides.asks later state id hSound since hId hState).sound_extends hSound
  exact ⟨hAfter, hKeeps, guides.holds later state id hSound since hId hState⟩

/-- A verdict function, as a visitor that lists the nodes it is called with. -/
def listing (verdict : NodeId → Verdict) (seen : List NodeId) (id : NodeId) :
    Explore (Verdict × List NodeId) :=
  pure (verdict id, seen ++ [id])

theorem listing_guides (forest : Forest) (session : Session) (verdict : NodeId → Verdict) :
    session.Guides forest Knows (listing verdict) where
  stable := stable_knows
  asks later _ _ _ _ _ _ := .refl later
  holds later _ _ _ _ hId knows := knows.append (.cons hId (.nil later))

/-- A verdict function is called with the nodes of the pruned pre-order. -/
theorem walk_listing (verdict : NodeId → Verdict) (sound : session.Sound forest)
    (known : start < session.arena.size) {last : Session} (hLast : last.Sound forest)
    (since : ((forest.walk start [] (listing verdict)).run session).2.Extends last) :
    ((forest.walk start [] (listing verdict)).run session).1 = last.arena.preorderBy verdict start ∧
      last.arena.PrunedPreorder verdict start (last.arena.preorderBy verdict start) := by
  obtain ⟨hResult, hPruned⟩ := walk_foldl stable_knows (listing_guides forest session verdict).visits
    sound known (.nil session) hLast since (fun _ _ _ _ _ => rfl)
  rw [List.foldl_append_eq_append, List.nil_append, ← List.flatMap_def, List.flatMap_singleton']
    at hResult
  exact ⟨hResult, hPruned⟩

end Session

/-- A walk ends and is the recursion. After any history, and for every visitor, the visits of the walk
are those of the recursive walk, with the same collected state and the same session at the end, and
no larger budget would change that. The visited nodes are the pre-order from the start that is pruned
by the verdicts. For a verdict function on nodes they are known in advance. -/
theorem Reachable.walk_recursive_preorder {forest : Forest} {session : Session}
    (reached : Reachable forest session) {start : NodeId} (known : start < session.arena.size) :
    (∀ (σ : Type) (good : Session → σ → Prop) (visit : σ → NodeId → Explore (Verdict × σ))
        (state : σ), session.Guides forest good visit → good session state →
      let walked := (forest.walk start state visit).run session
      (∀ budget, forest.extent (session.arena.origin start) ≤ budget →
        (forest.walkStack visit budget [start] state).run session = walked) ∧
      ∃ calls verdict, RecursiveWalk forest visit [start] state session calls walked ∧
        (∀ call ∈ calls, verdict call.1 = call.2) ∧
        ∀ later, Leads forest walked.2 later →
          later.arena.PrunedPreorder verdict start (calls.map Prod.fst)) ∧
    ∀ verdict : NodeId → Verdict,
      let walked := (forest.walk start [] (Session.listing verdict)).run session
      ∀ later, Leads forest walked.2 later →
        later.arena.PrunedPreorder verdict start walked.1 := by
  constructor
  · intro σ good visit state guides first walked
    obtain ⟨calls, hWalk, hBudget⟩ :=
      Session.walk_recursive guides.stable guides.visits reached.sound known first
    have hWalking : session.Walking forest session good ([start] ++ []) state :=
      ⟨reached.sound, .refl session, .cons known (.nil session), first⟩
    have hWalked : walked.2.Sound forest :=
      (hWalk.walking guides.stable guides.visits hWalking).1.sound
    have hSequence : ∀ {later}, walked.2.Extends later → later.arena.Sequence [start] calls :=
      hWalk.sequence guides.stable guides.visits hWalking
    obtain ⟨verdict, agrees⟩ := (hSequence (.refl _)).exists_verdict hWalked.arena
    refine ⟨hBudget, calls, verdict, hWalk, agrees, ?_⟩
    intro later leads
    obtain ⟨hLater, since⟩ := leads.sound_extends hWalked
    exact ((hSequence since).prunedPreorder hLater.arena agrees).2
  · intro verdict walked later leads
    have hVisits := (Session.listing_guides forest session verdict).visits
    have hWalked : walked.2.Sound forest :=
      (Session.walk_yields Session.stable_knows hVisits reached.sound known (.nil session)).sound
    obtain ⟨hLater, since⟩ := leads.sound_extends hWalked
    obtain ⟨hResult, hPruned⟩ :=
      Session.walk_listing verdict reached.sound known hLater since
    rw [← hResult] at hPruned
    exact hPruned

/-- From the unit down, the walk leaves out what is below the first of the two declarations that the
names share. -/
theorem Reachable.walk_recursive_preorder_sample :
    let verdict : NodeId → Verdict := fun id => if id = 3 then .skip else .descend
    let session := ((Sample.forest.children 0).run (.start Sample.forest)).2
    let walked := (Sample.forest.walk 1 [] (Session.listing verdict)).run session
    walked.1 = [1, 2, 3, 4, 7, 5, 6] ∧ walked.2.arena.PrunedPreorder verdict 1 walked.1 ∧
      ∃ calls, RecursiveWalk Sample.forest (Session.listing verdict) [1] [] session calls walked := by
  intro verdict session walked
  have hReached : Reachable Sample.forest session :=
    .ask (.children 0) (.cons (by decide) (.nil _))
  obtain ⟨hGeneral, hVerdicts⟩ :=
    @Reachable.walk_recursive_preorder Sample.forest session hReached 1 (by decide +kernel)
  obtain ⟨_, calls, _, hWalk, _⟩ := hGeneral _ _ _ []
    (Session.listing_guides Sample.forest session verdict) (.nil session)
  exact ⟨by decide +kernel, hVerdicts verdict walked.2 (.refl _), calls, hWalk⟩

end SyntaxAtlas
