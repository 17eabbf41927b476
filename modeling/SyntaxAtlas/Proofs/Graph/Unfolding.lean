import SyntaxAtlas.Proofs.Graph.Histories

/-! The tree that a client sees does not depend on what was asked before. What the snapshots fix is
unfolded here along a path, without numbers and without a session; following children from the root
shows the same at every path, after every history. -/
namespace SyntaxAtlas

/-- What is seen of a node. Its number is not part of it. -/
structure NodeView where
  kind : Kind
  span : Span
  level : Nat
  origin : Origin
  childCount : Nat
deriving DecidableEq, Repr

namespace Forest

/-- The node at the end of a path of places among children, read from the snapshots. -/
def sproutAt? (forest : Forest) : Sprout → List Nat → Option Sprout
  | sprout, [] => some sprout
  | sprout, place :: path =>
    (forest.sprouts sprout.origin)[place]?.bind fun child => forest.sproutAt? child path

/-- What the snapshots fix about the node at the end of a path from the root. -/
def eagerView? (forest : Forest) (path : List Nat) : Option NodeView :=
  (forest.sproutAt? forest.rootSprout path).map fun sprout =>
    ⟨sprout.kind, sprout.span, path.length, sprout.origin, (forest.sprouts sprout.origin).length⟩

/-- The node at the end of a path from a node, found by asking for children. -/
def follow? (forest : Forest) : NodeId → List Nat → Explore (Option NodeId)
  | id, [] => return some id
  | id, place :: path => do
    let ids ← forest.children id
    match ids[place]? with
    | none => return none
    | some child => forest.follow? child path

/-- What is seen at the end of a path from the root. -/
def view? (forest : Forest) (path : List Nat) : Explore (Option NodeView) := do
  match ← forest.follow? Arena.root path with
  | none => return none
  | some id =>
    let ids ← forest.children id
    let arena := (← get).arena
    return some ⟨arena.kind id, arena.span id, arena.level id, arena.origin id, ids.length⟩

end Forest

namespace Session

variable {forest : Forest} {session : Session}

/-- A node is found exactly when there is a sprout for it, and it is the node of that sprout. -/
inductive Matches (session : Session) (level : Nat) : Option Sprout → Option NodeId → Prop where
  | none : Matches session level none none
  | some {sprout : Sprout} {id : NodeId} (known : id < session.arena.size)
      (shows : session.arena.Shows id sprout) (hLevel : session.arena.level id = level) :
      Matches session level (some sprout) (some id)

/-- One step of a path: the child at a place is the node of the sprout at that place. -/
theorem matches_child {id : NodeId} {sprout : Sprout} {ids : List NodeId} (place : Nat)
    (sound : session.Sound forest) (known : id < session.arena.size)
    (shows : session.arena.Shows id sprout) (children : session.arena.children? id = some ids) :
    session.Matches (session.arena.level id + 1) (forest.sprouts sprout.origin)[place]?
      ids[place]? := by
  have hLength := sound.arena.length_children known children
  rw [shows.origin] at hLength
  cases hChild : ids[place]? with
  | none =>
      have hPlace := List.getElem?_eq_none_iff.mp hChild
      rw [hLength] at hPlace
      rw [List.getElem?_eq_none hPlace]
      exact .none
  | some child =>
      obtain ⟨target, hTarget, hShows⟩ := sound.arena.shows_child known children hChild
      obtain ⟨_, hKnown, _, hLevel⟩ :=
        sound.arena.of_mem_children known children (List.mem_of_getElem? hChild)
      rw [shows.origin] at hTarget
      rw [hTarget]
      exact .some hKnown hShows hLevel

/-- Following a path finds the node of the sprout at its end. Every step may number more nodes, so
that the node is looked at in the session which the last step leaves. -/
theorem follow?_yields {id : NodeId} {sprout : Sprout} (path : List Nat)
    (sound : session.Sound forest) (known : id < session.arena.size)
    (shows : session.arena.Shows id sprout) :
    session.Yields forest .all (forest.follow? id path)
      (fun later found => later.Matches (session.arena.level id + path.length)
        (forest.sproutAt? sprout path) found) := by
  induction path generalizing session id sprout with
  | nil => exact .pure sound (.some known shows rfl)
  | cons place path ih =>
      refine (children_yields .all sound known).bind ?_
      intro later ids sound grown hChildren
      have hSame := grown.arena.level id known
      have hStep := matches_child place sound (grown.arena.lt known)
        (grown.arena.shows known shows) hChildren
      rw [Forest.sproutAt?]
      generalize (forest.sprouts sprout.origin)[place]? = target at hStep ⊢
      generalize ids[place]? = child at hStep ⊢
      cases hStep with
      | none => exact .pure sound .none
      | some hKnown hShows hLevel =>
          have hTail := ih sound hKnown hShows
          rwa [hLevel, hSame, Nat.add_assoc, Nat.add_comm 1] at hTail

/-- What is seen at a path is what the snapshots fix. -/
theorem view?_yields (path : List Nat) (sound : session.Sound forest) :
    session.Yields forest .all (forest.view? path)
      (fun _ view => view = forest.eagerView? path) := by
  have hRoot := sound.arena.rootLevel
  refine (follow?_yields path sound sound.arena.nonempty sound.arena.root).bind ?_
  intro later found sound _ hMatches
  rw [hRoot, Nat.zero_add] at hMatches
  unfold Forest.eagerView?
  generalize forest.sproutAt? forest.rootSprout path = target at hMatches ⊢
  cases hMatches with
  | none => exact .pure sound rfl
  | some hKnown hShows hLevel =>
      refine (children_yields .all sound hKnown).bind ?_
      intro after ids sound grown hChildren
      have hAfter := grown.arena.shows hKnown hShows
      have hCount := sound.arena.length_children (grown.arena.lt hKnown) hChildren
      refine .read (.pure sound ?_)
      rw [hAfter.kind, hAfter.span, hAfter.origin, hCount, hAfter.origin,
        grown.arena.level _ hKnown, hLevel]
      rfl

/-- Looking is a history of its own, so that one may go on looking at other paths. -/
theorem follow?_leads {id : NodeId} (path : List Nat) (sound : session.Sound forest)
    (known : id < session.arena.size) :
    Leads forest session ((forest.follow? id path).run session).2 ∧
      ((forest.follow? id path).run session).2.Finds ((forest.follow? id path).run session).1 := by
  induction path generalizing session id with
  | nil => exact ⟨.refl session, finds_some known⟩
  | cons place path ih =>
      have hAsk : Leads forest session ((forest.children id).run session).2 :=
        .ask (.children id) (.cons known (.nil session))
      have hChildren : session.Yields forest .all (forest.children id) Knows :=
        children_knows sound known
      have hRun : (forest.follow? id (place :: path)).run session =
          (match ((forest.children id).run session).1[place]? with
            | none => pure none
            | some child => forest.follow? child path : Explore (Option NodeId)).run
            ((forest.children id).run session).2 := rfl
      rw [hRun]
      cases hChild : ((forest.children id).run session).1[place]? with
      | none => exact ⟨hAsk, finds_none _⟩
      | some child =>
          have hKnown := hChildren.answer child (List.mem_of_getElem? hChild)
          obtain ⟨hTail, hFinds⟩ := ih hChildren.sound hKnown
          exact ⟨hAsk.trans hTail, hFinds⟩

theorem view?_leads (path : List Nat) (sound : session.Sound forest) :
    Leads forest session ((forest.view? path).run session).2 := by
  obtain ⟨hFollow, hFinds⟩ := follow?_leads path sound sound.arena.nonempty
  rw [Forest.view?, Explore.run_bind]
  generalize (forest.follow? Arena.root path).run session = followed at hFollow hFinds ⊢
  obtain ⟨_ | id, later⟩ := followed
  · exact hFollow
  · exact hFollow.trans (.ask (.children id) (.cons (hFinds id rfl) (.nil later)))

end Session

/-- Two histories may number the nodes quite differently. Whatever they were, the same is seen at
every path of places from the root, namely what the snapshots fix; and looking at a path is a
history again, so that this holds for one path after another. -/
theorem Reachable.view_eq_eagerView {forest : Forest} {first second : Session}
    (left : Reachable forest first) (right : Reachable forest second) (path : List Nat) :
    ((forest.view? path).run first).1 = ((forest.view? path).run second).1 ∧
      ((forest.view? path).run first).1 = forest.eagerView? path ∧
      Reachable forest ((forest.view? path).run first).2 := by
  have hFirst := (Session.view?_yields path left.sound).answer
  have hSecond := (Session.view?_yields path right.sound).answer
  exact ⟨hFirst.trans hSecond.symm, hFirst, left.trans (Session.view?_leads path left.sound)⟩

theorem Reachable.view_eq_eagerView_sample :
    let session := Query.after Sample.forest (.start Sample.forest) .materializeAll
    Sample.forest.eagerView? [0, 1] = some ⟨.parameter, ⟨2, 5⟩, 2, .split 0 2 3, 1⟩ ∧
      ((Sample.forest.view? [0, 1]).run (.start Sample.forest)).1 =
        ((Sample.forest.view? [0, 1]).run session).1 ∧
      ((Sample.forest.view? [0, 1]).run (.start Sample.forest)).1 =
        Sample.forest.eagerView? [0, 1] ∧
      Reachable Sample.forest ((Sample.forest.view? [0, 1]).run (.start Sample.forest)).2 :=
  ⟨by decide +kernel,
    Reachable.view_eq_eagerView (.refl _) (.ask .materializeAll (Session.Knows.nil _)) [0, 1]⟩

end SyntaxAtlas
