import SyntaxAtlas.Proofs.Graph.CallClosure
import SyntaxAtlas.Proofs.Graph.Predicates
import SyntaxAtlas.Proofs.Graph.Recursion

/-! First hits and all hits. The search for one node runs another course than the search for all of
them: in a tree it skips what is left once it has a hit, in a call tree it ends the tour. Up to the hit
both do the same in the same session, and behind it the search for all nodes only adds to its list. So
one finds the first node of the other, whatever the test is. For predicates on nodes the answers also
last, and the nodes that are found in a tree are those of the pre-order which satisfy the predicate. -/
namespace SyntaxAtlas

namespace Forest

section Trees

variable {forest : Forest} {test : Test} {id : NodeId}

theorem gatherBelow_run (test : Test) (id : NodeId) (found : List NodeId) (node : NodeId)
    (session : Session) :
    (gatherBelow test id found node).run session =
      if node = id then ((.descend, found), session)
      else ((.descend, if ((test node).run session).1 then found ++ [node] else found),
        ((test node).run session).2) := by
  unfold gatherBelow
  split_ifs with hStart hTest
  · rfl
  · rw [Explore.run_bind, if_pos hTest]
    rfl
  · rw [Explore.run_bind, if_neg hTest]
    rfl

theorem seekBelow_run_none (test : Test) (id node : NodeId) (session : Session) :
    (seekBelow test id none node).run session =
      if node = id then ((.descend, none), session)
      else (if ((test node).run session).1 then (.skip, some node) else (.descend, none),
        ((test node).run session).2) := by
  unfold seekBelow
  dsimp only
  split_ifs with hStart hTest
  · rfl
  · rw [Explore.run_bind, if_pos hTest]
    rfl
  · rw [Explore.run_bind, if_neg hTest]
    rfl

/-- After a hit nothing is looked at any more. -/
theorem walkStack_seekBelow_found (budget : Nat) (pending : List NodeId) (hit : NodeId)
    (session : Session) :
    (forest.walkStack (seekBelow test id) budget pending (some hit)).run session =
      (some hit, session) := by
  induction budget generalizing pending with
  | zero => rfl
  | succ budget ih =>
      cases pending with
      | nil => rfl
      | cons node rest => exact ih rest

/-- What was collected stays in front. -/
theorem walkStack_gatherBelow_append (budget : Nat) (pending found : List NodeId)
    (session : Session) :
    ∃ more, ((forest.walkStack (gatherBelow test id) budget pending found).run session).1 =
      found ++ more := by
  induction budget generalizing pending found session with
  | zero => exact ⟨[], (List.append_nil found).symm⟩
  | succ budget ih =>
      cases pending with
      | nil => exact ⟨[], (List.append_nil found).symm⟩
      | cons node rest =>
          rw [walkStack, Explore.run_bind, gatherBelow_run]
          by_cases hStart : node = id
          · rw [if_pos hStart]
            exact ih _ found _
          · rw [if_neg hStart]
            cases ((test node).run session).1 with
            | false => exact ih _ found _
            | true =>
                obtain ⟨more, hMore⟩ := ih (((forest.children node).run
                  ((test node).run session).2).1 ++ rest) (found ++ [node])
                  ((forest.children node).run ((test node).run session).2).2
                exact ⟨node :: more, hMore.trans (by simp)⟩

/-- As long as there is no hit, both searches are at the same point. -/
theorem walkStack_seekBelow_eq_head? (budget : Nat) (pending : List NodeId) (session : Session) :
    ((forest.walkStack (seekBelow test id) budget pending none).run session).1 =
      ((forest.walkStack (gatherBelow test id) budget pending []).run session).1.head? := by
  induction budget generalizing pending session with
  | zero => rfl
  | succ budget ih =>
      cases pending with
      | nil => rfl
      | cons node rest =>
          rw [walkStack, walkStack, Explore.run_bind, Explore.run_bind, gatherBelow_run,
            seekBelow_run_none]
          by_cases hStart : node = id
          · rw [if_pos hStart, if_pos hStart]
            exact ih _ _
          · rw [if_neg hStart, if_neg hStart]
            cases ((test node).run session).1 with
            | false => exact ih _ _
            | true =>
                obtain ⟨more, hMore⟩ := @walkStack_gatherBelow_append forest test id budget
                  (((forest.children node).run ((test node).run session).2).1 ++ rest) [node]
                  ((forest.children node).run ((test node).run session).2).2
                have hSeek := @walkStack_seekBelow_found forest test id budget rest node
                  ((test node).run session).2
                exact (congrArg Prod.fst hSeek).trans (congrArg List.head? hMore).symm

/-- The first hit below a node is the first of all hits, whatever the test is. -/
theorem treeNode?_eq_head? (forest : Forest) (test : Test) (id : NodeId) (session : Session) :
    ((forest.treeNode? test id).run session).1 =
      ((forest.treeNodes test id).run session).1.head? := by
  rw [treeNode?_eq_walk, treeNodes_eq_walk, walk, walk, Explore.run_read, Explore.run_read]
  exact walkStack_seekBelow_eq_head? _ _ _

end Trees

end Forest

namespace CallStage

/-- Two stages that go the same way up to the first hit. One ends the tour there. The other one goes on
and only adds to what it has. -/
structure Agrees (seek : CallStage (Option NodeId)) (gather : CallStage (List NodeId)) : Prop where
  adds : ∀ tour session, ∃ more, ((gather tour).run session).1.state = tour.state ++ more
  fresh : ∀ entered session,
    let sought := (seek ⟨entered, none, false⟩).run session
    let gathered := (gather ⟨entered, [], false⟩).run session
    (∃ next, sought = (⟨next, none, false⟩, gathered.2) ∧ gathered.1 = ⟨next, [], false⟩) ∨
      ∃ hit, sought.1.ended = true ∧ sought.1.state = some hit ∧
        gathered.1.state.head? = some hit

namespace Agrees

variable {seek seekNext : CallStage (Option NodeId)} {gather gatherNext : CallStage (List NodeId)}

theorem pure : Agrees Pure.pure Pure.pure where
  adds tour _ := ⟨[], (List.append_nil tour.state).symm⟩
  fresh entered _ := .inl ⟨entered, rfl, rfl⟩

theorem andThen (first : Agrees seek gather) (second : Agrees seekNext gatherNext) :
    Agrees (seek.andThen seekNext) (gather.andThen gatherNext) where
  adds tour session := by
    rw [CallStage.andThen, Explore.run_bind]
    obtain ⟨more, hMore⟩ := first.adds tour session
    split_ifs
    · exact ⟨more, hMore⟩
    · obtain ⟨others, hOthers⟩ := second.adds _ ((gather tour).run session).2
      refine ⟨more ++ others, hOthers.trans ?_⟩
      rw [hMore, List.append_assoc]
  fresh entered session := by
    rw [CallStage.andThen, CallStage.andThen, Explore.run_bind, Explore.run_bind]
    rcases first.fresh entered session with ⟨next, hSought, hGathered⟩ | ⟨hit, hEnded, hHit, hHead⟩
    · rw [hSought, hGathered]
      exact second.fresh next _
    · right
      rw [hEnded]
      refine ⟨hit, hEnded, hHit, ?_⟩
      split_ifs
      · exact hHead
      · -- a list that starts with the hit still does so when something is added
        obtain ⟨more, hMore⟩ := second.adds ((gather ⟨entered, [], false⟩).run session).1
          ((gather ⟨entered, [], false⟩).run session).2
        rw [hMore, List.head?_append, hHead]
        rfl

end Agrees

end CallStage

namespace Forest

section CallTrees

open CallStage

variable {forest : Forest} {test : Test} {enterSeek : NodeId → CallStage (Option NodeId)}
  {enterGather : NodeId → CallStage (List NodeId)}

theorem visitStage_agrees (test : Test) (node : NodeId) :
    Agrees (visitStage (seekHit test) node) (visitStage (gatherHits test) node) where
  adds tour session := by
    rw [visitStage, Explore.run_bind, gatherHits, Explore.run_bind]
    split_ifs
    · exact ⟨[node], rfl⟩
    · exact ⟨[], (List.append_nil tour.state).symm⟩
  fresh entered session := by
    simp only [visitStage, Explore.run_bind, gatherHits, seekHit]
    split_ifs
    · exact .inr ⟨node, rfl, rfl, rfl⟩
    · exact .inl ⟨entered, rfl, rfl⟩

theorem calleeStage_agrees (enters : ∀ node, Agrees (enterSeek node) (enterGather node))
    (node : NodeId) :
    Agrees (forest.calleeStage (seekHit test) enterSeek node)
      (forest.calleeStage (gatherHits test) enterGather node) where
  adds tour session := by
    rw [calleeStage_run]
    cases ((forest.callee? node).run session).1 with
    | none => exact Agrees.pure.adds tour _
    | some callee =>
        dsimp only
        split_ifs
        · exact Agrees.pure.adds tour _
        · exact ((visitStage_agrees test callee).andThen (enters callee)).adds
            { tour with entered := callee :: tour.entered } _
  fresh entered session := by
    rw [calleeStage_run, calleeStage_run]
    cases ((forest.callee? node).run session).1 with
    | none => exact Agrees.pure.fresh entered _
    | some callee =>
        dsimp only
        split_ifs
        · exact Agrees.pure.fresh entered _
        · exact ((visitStage_agrees test callee).andThen (enters callee)).fresh
            (callee :: entered) _

theorem nodesStage_agrees (enters : ∀ node, Agrees (enterSeek node) (enterGather node))
    (nodes : List NodeId) :
    Agrees (forest.nodesStage (seekHit test) enterSeek nodes)
      (forest.nodesStage (gatherHits test) enterGather nodes) := by
  induction nodes with
  | nil => exact .pure
  | cons node rest ih =>
      exact (visitStage_agrees test node).andThen
        ((calleeStage_agrees enters node).andThen ((enters node).andThen ih))

theorem expand_agrees (forest : Forest) (test : Test) (depth : Nat) (node : NodeId) :
    Agrees (forest.expand (seekHit test) depth node) (forest.expand (gatherHits test) depth node) := by
  induction depth generalizing node with
  | zero => exact .pure
  | succ depth ih =>
      constructor
      · intro tour session
        exact (nodesStage_agrees ih _).adds tour ((forest.children node).run session).2
      · intro entered session
        exact (nodesStage_agrees ih _).fresh entered ((forest.children node).run session).2

/-- The first hit of a call tree is the first of all hits, whatever the test is. -/
theorem callTreeNode?_eq_head? (forest : Forest) (test : Test) (id : NodeId) (session : Session) :
    ((forest.callTreeNode? test id).run session).1 =
      ((forest.callTreeNodes test id).run session).1.head? := by
  rw [callTreeNode?_eq_tour, callTreeNodes_eq_tour, callTour, callTour]
  cases forest.package with
  | none => rfl
  | some package =>
      dsimp only
      rw [Explore.run_bind, Explore.run_bind, Explore.run_pure, Explore.run_pure]
      rcases (forest.expand_agrees test forest.callDepth id).fresh [id] session with
        ⟨next, hSought, hGathered⟩ | ⟨hit, _, hHit, hHead⟩
      · rw [hSought, hGathered]
        rfl
      · exact hHit.trans hHead.symm

end CallTrees

end Forest

/-- Collecting the nodes that satisfy a predicate, one after the other, filters the list. -/
theorem foldl_gather_eq_filter (passes : NodeId → Bool) (nodes found : List NodeId) :
    nodes.foldl (fun found node => if passes node then found ++ [node] else found) found =
      found ++ nodes.filter passes := by
  induction nodes generalizing found with
  | nil => simp
  | cons node rest ih =>
      rw [List.foldl_cons, ih, List.filter_cons]
      cases passes node <;> simp

namespace Session

variable {forest : Forest} {session : Session} {test : Forest.Test} {id : NodeId}

/-- A search for one node and a search for all of them agree: when both are asked in one session, when
the one is asked after the other, and when the other is asked after the one. -/
structure FirstOfAll (forest : Forest) (session : Session) (first : Explore (Option NodeId))
    (all : Explore (List NodeId)) : Prop where
  now : (first.run session).1 = (all.run session).1.head?
  afterwards : ∀ later, Leads forest (all.run session).2 later →
    (first.run later).1 = (all.run session).1.head?
  beforehand : ∀ later, Leads forest (first.run session).2 later →
    (first.run session).1 = (all.run later).1.head?

/-- Searches that agree in every session agree over time, when their answers last. -/
theorem FirstOfAll.of_fixes {first : Explore (Option NodeId)} {all : Explore (List NodeId)}
    (agree : ∀ session, (first.run session).1 = (all.run session).1.head?)
    (firstFixes : session.Fixes forest .all first Finds)
    (allFixes : session.Fixes forest .all all Knows) : session.FirstOfAll forest first all where
  now := agree session
  afterwards later leads := by
    obtain ⟨hLater, since⟩ := leads.sound_extends allFixes.sound
    rw [agree later, allFixes.answer.2 later hLater since]
  beforehand later leads := by
    obtain ⟨hLater, since⟩ := leads.sound_extends firstFixes.sound
    rw [← agree later, firstFixes.answer.2 later hLater since]

theorem treeNode?_firstOfAll (judges : session.Judges forest test) (sound : session.Sound forest)
    (known : id < session.arena.size) :
    session.FirstOfAll forest (forest.treeNode? test id) (forest.treeNodes test id) := by
  apply FirstOfAll.of_fixes (forest.treeNode?_eq_head? test id)
  · exact (fixing forest).treeNode? judges sound known
  · exact (fixing forest).treeNodes judges sound known

theorem callTreeNode?_firstOfAll (judges : session.Judges forest test)
    (sound : session.Sound forest) (known : id < session.arena.size) :
    session.FirstOfAll forest (forest.callTreeNode? test id) (forest.callTreeNodes test id) := by
  apply FirstOfAll.of_fixes (forest.callTreeNode?_eq_head? test id)
  · exact (fixing forest).callTreeNode? judges sound known
  · exact (fixing forest).callTreeNodes judges sound known

/-- All hits below a node are the nodes properly below it, in pre-order, that satisfy the predicate. -/
theorem treeNodes_eq_filter (judges : session.Judges forest test)
    (sound : session.Sound forest) (known : id < session.arena.size) {last : Session}
    (hLast : last.Sound forest) (since : ((forest.treeNodes test id).run session).2.Extends last) :
    ((forest.treeNodes test id).run session).1 =
        (last.arena.preorder id).tail.filter (fun node => ((test node).run last).1) ∧
      last.arena.PrunedPreorder (fun _ => .descend) id (last.arena.preorder id) := by
  let passes : NodeId → Bool := fun node => node != id && ((test node).run last).1
  have hEach : ∀ now found node, now.Walking forest session Knows [node] found →
      ((Forest.gatherBelow test id found node).run now).2.Extends last →
      ((Forest.gatherBelow test id found node).run now).1 =
        (.descend, if passes node then found ++ [node] else found) := by
    intro now found node walking later
    rw [Forest.gatherBelow_run] at later ⊢
    by_cases hStart : node = id
    · simp [passes, hStart]
    · rw [if_neg hStart] at later ⊢
      rw [judges.answer_eq walking.sound walking.since walking.knows.head hLast later]
      simp [passes, hStart]
  have hVisits : (yielding forest .all).Visits session Knows (Forest.gatherBelow test id) :=
    visits_of_fixing (QuestionLogic.gatherBelow_visits judges)
  obtain ⟨hResult, hPruned⟩ :=
    walk_foldl stable_knows hVisits sound known (.nil session) hLast since hEach
  refine ⟨?_, hPruned⟩
  obtain ⟨hCons, hApart⟩ := hLast.arena.preorder_eq_cons id
  calc ((forest.treeNodes test id).run session).1
    _ = [] ++ (last.arena.preorder id).filter passes :=
      hResult.trans (foldl_gather_eq_filter passes _ [])
    _ = (last.arena.preorder id).tail.filter passes := by
      rw [hCons]
      simp [passes]
    _ = (last.arena.preorder id).tail.filter (fun node => ((test node).run last).1) := by
      apply List.filter_congr
      intro node member
      have hOther : node ≠ id := fun hSame => hApart (hSame ▸ member)
      simp [passes, hOther]

end Session

/-- Every search for one node agrees with the search for all of them. In any one session the first hit
is the head of the list of all hits, for every test. For predicates, whose answers last, the two
searches may also be asked one after the other, and whatever is asked in between; and the hits in a
tree are the nodes properly below the start, in pre-order, that satisfy the predicate. Kinds, names
and texts of identifiers are such predicates. -/
theorem Reachable.first_search_agrees {forest : Forest} {session : Session}
    (reached : Reachable forest session) {id : NodeId} (known : id < session.arena.size) :
    (∀ test : Forest.Test,
      ((forest.treeNode? test id).run session).1 =
        ((forest.treeNodes test id).run session).1.head? ∧
      ((forest.callTreeNode? test id).run session).1 =
        ((forest.callTreeNodes test id).run session).1.head?) ∧
    (∀ test : Forest.Test, session.Judges forest test →
      session.FirstOfAll forest (forest.treeNode? test id) (forest.treeNodes test id) ∧
      session.FirstOfAll forest (forest.callTreeNode? test id) (forest.callTreeNodes test id) ∧
      ∀ later, Leads forest ((forest.treeNodes test id).run session).2 later →
        ((forest.treeNodes test id).run session).1 =
          (later.arena.preorder id).tail.filter (fun node => ((test node).run later).1) ∧
        later.arena.PrunedPreorder (fun _ => .descend) id (later.arena.preorder id)) ∧
    (∀ kind, session.FirstOfAll forest (forest.treeNode? (Forest.ofKind kind) id)
      (forest.treeNodes (Forest.ofKind kind) id)) ∧
    (∀ name, session.FirstOfAll forest (forest.treeNode? (forest.ofName name) id)
      (forest.treeNodes (forest.ofName name) id)) ∧
    ∀ text, session.FirstOfAll forest (forest.treeNode? (forest.identOfText text) id)
      (forest.treeNodes (forest.identOfText text) id) := by
  refine ⟨?_, ?_, ?_, ?_, ?_⟩
  · intro test
    exact ⟨forest.treeNode?_eq_head? test id session, forest.callTreeNode?_eq_head? test id session⟩
  · intro test judges
    refine ⟨Session.treeNode?_firstOfAll judges reached.sound known,
      Session.callTreeNode?_firstOfAll judges reached.sound known, ?_⟩
    intro later leads
    obtain ⟨hLater, since⟩ :=
      leads.sound_extends ((Session.fixing forest).treeNodes judges reached.sound known).sound
    exact Session.treeNodes_eq_filter judges reached.sound known hLater since
  · intro kind
    exact Session.treeNode?_firstOfAll (Session.judges_ofKind kind) reached.sound known
  · intro name
    exact Session.treeNode?_firstOfAll (Session.judges_ofName name) reached.sound known
  · intro text
    exact Session.treeNode?_firstOfAll (Session.judges_identOfText text) reached.sound known

/-- Below the first function there is no other one, but its call leads to the second one. That is found
first, and then as the first of all functions in the call tree. -/
theorem Reachable.first_search_agrees_sample :
    let test := Forest.ofKind .funcDecl
    let below := (Sample.parity.treeNode? test 2).run Sample.paritySession
    let first := (Sample.parity.callTreeNode? test 2).run Sample.paritySession
    below.1 = none ∧ ((Sample.parity.treeNodes test 2).run below.2).1.head? = none ∧
      first.1 = some 3 ∧ ((Sample.parity.callTreeNodes test 2).run first.2).1.head? = some 3 := by
  intro test below first
  have hKnown : 2 < Sample.paritySession.arena.size := by decide +kernel
  have hBelow : below.1 = none := by decide +kernel
  have hFirst : first.1 = some 3 := by decide +kernel
  obtain ⟨hTree, hCalls, _⟩ :=
    (Reachable.first_search_agrees Sample.reachable_paritySession hKnown).2.1 test
      (Session.judges_ofKind .funcDecl)
  exact ⟨hBelow, (hTree.beforehand below.2 (.refl _)).symm.trans hBelow, hFirst,
    (hCalls.beforehand first.2 (.refl _)).symm.trans hFirst⟩

end SyntaxAtlas
