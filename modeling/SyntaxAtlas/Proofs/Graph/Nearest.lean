import Mathlib.Data.List.MinMax
import SyntaxAtlas.Graph.Resolve
import SyntaxAtlas.Proofs.Graph.Recursion

/-! Nodes near a position. The search remembers a node that starts at the position apart from the
nearest start before it, and looks at nothing any more after the former was found. Both together are
one choice: the first node in pre-order whose start has the least distance to the position. -/
namespace SyntaxAtlas

namespace Forest

/-- A start is close before a position, or at it. -/
def InWindow (start pos : Nat) : Prop :=
  start ≤ pos ∧ pos - start < positionWindow

instance (start pos : Nat) : Decidable (InWindow start pos) :=
  inferInstanceAs (Decidable (_ ∧ _))

/-- Of the nodes in a list that start close before a position, the first one with the least
distance. -/
def nearestStart? (start : NodeId → Nat) (pos : Nat) (nodes : List NodeId) : Option NodeId :=
  (nodes.filter fun id => InWindow (start id) pos).argmin fun id => pos - start id

section Choice

variable {start : NodeId → Nat} {pos : Nat} {id : NodeId}

theorem nearestStart?_outside (outside : ¬ InWindow (start id) pos) (nodes : List NodeId) :
    nearestStart? start pos (nodes ++ [id]) = nearestStart? start pos nodes := by
  simp [nearestStart?, outside]

/-- One more node is chosen when it is nearer than the choice before. -/
theorem nearestStart?_inside (inside : InWindow (start id) pos) (nodes : List NodeId) :
    nearestStart? start pos (nodes ++ [id]) =
      if ∀ held ∈ nearestStart? start pos nodes, pos - start id < pos - start held then some id
      else nearestStart? start pos nodes := by
  have hFilter : (nodes ++ [id]).filter (fun id => InWindow (start id) pos) =
      (nodes.filter fun id => InWindow (start id) pos) ++ [id] := by
    simp [inside]
  unfold nearestStart?
  rw [hFilter, List.argmin_concat]
  cases List.argmin (fun id => pos - start id) _ with
  | none => simp
  | some held => simp

end Choice

namespace PositionSearch

variable {start : NodeId → Nat} {pos : Nat} {seen : List NodeId} {search : PositionSearch}
  {id : NodeId}

theorem step_found (found : search.exact.isSome) (pos start : Nat) (id : NodeId) :
    search.step pos start id = (.skip, search) :=
  if_pos found

/-- The search skips only what nothing depends on any more. -/
theorem found_of_skip {start : Nat} (skips : (search.step pos start id).1 = .skip) :
    (search.step pos start id).2.exact.isSome := by
  unfold step at skips ⊢
  split_ifs at skips ⊢ with hFound hHere
  · exact hFound
  · rfl
  · dsimp only at skips
    split_ifs at skips

/-- What a search has found tells the choice among the nodes that it saw. -/
inductive Tracks (start : NodeId → Nat) (pos : Nat) (seen : List NodeId) (search : PositionSearch) :
    Prop where
  | hit {id : NodeId} (found : search.exact = some id) (here : start id = pos)
      (chosen : nearestStart? start pos seen = some id)
  | near (fresh : search.exact = none)
      (before : ∀ held, nearestStart? start pos seen = some held → start held < pos)
      (chosen : search.nearest =
        (nearestStart? start pos seen).map fun held => (pos - start held, held))

theorem tracks_nil (start : NodeId → Nat) (pos : Nat) : Tracks start pos [] {} :=
  .near rfl (fun _ held => nomatch held) rfl

/-- The choice is followed node by node. -/
theorem Tracks.step (tracks : search.Tracks start pos seen) (id : NodeId) :
    (search.step pos (start id) id).2.Tracks start pos (seen ++ [id]) := by
  cases tracks with
  | @hit found hFound here chosen =>
      rw [step_found (by simp [hFound])]
      apply Tracks.hit hFound here
      by_cases hInside : InWindow (start id) pos
      · -- no distance is less than none
        rw [nearestStart?_inside hInside, chosen]
        simp [here]
      · rw [nearestStart?_outside hInside, chosen]
  | near fresh before chosen =>
      have hCloser : search.nearest.all (fun held => pos - start id < held.1) = true ↔
          ∀ held ∈ nearestStart? start pos seen, pos - start id < pos - start held := by
        rw [chosen]
        cases nearestStart? start pos seen <;> simp
      unfold PositionSearch.step
      rw [if_neg (by simp [fresh])]
      split_ifs with hHere
      · have hInside : InWindow (start id) pos := by
          simp [InWindow, hHere, positionWindow]
        apply Tracks.hit rfl hHere
        rw [nearestStart?_inside hInside, if_pos]
        intro held hHeld
        have hBefore := before held hHeld
        omega
      · dsimp only
        split_ifs with hNearer
        · obtain ⟨hBefore, hWindow, hLess⟩ := hNearer
          have hChosen := nearestStart?_inside ⟨Nat.le_of_lt hBefore, hWindow⟩ seen
          rw [if_pos (hCloser.mp hLess)] at hChosen
          apply Tracks.near
          · exact fresh
          · rw [hChosen]
            rintro _ ⟨⟩
            exact hBefore
          · rw [hChosen]
            rfl
        · have hSame : nearestStart? start pos (seen ++ [id]) = nearestStart? start pos seen := by
            by_cases hInside : InWindow (start id) pos
            · rw [nearestStart?_inside hInside, if_neg]
              intro hLess
              exact hNearer ⟨Nat.lt_of_le_of_ne hInside.1 hHere, hInside.2, hCloser.mpr hLess⟩
            · exact nearestStart?_outside hInside seen
          apply Tracks.near fresh
          · rwa [hSame]
          · rwa [hSame]

/-- The search after one more node that starts where it is said. -/
def next (start : NodeId → Nat) (pos : Nat) (search : PositionSearch) (id : NodeId) :
    PositionSearch :=
  (search.step pos (start id) id).2

theorem tracks_foldl (start : NodeId → Nat) (pos : Nat) (nodes : List NodeId) :
    (nodes.foldl (next start pos) {}).Tracks start pos nodes := by
  induction nodes using List.reverseRecOn with
  | nil => exact tracks_nil start pos
  | append_singleton nodes id ih =>
      rw [List.foldl_concat]
      exact ih.step id

theorem Tracks.answer (tracks : search.Tracks start pos seen) :
    search.exact.or (search.nearest.map Prod.snd) = nearestStart? start pos seen := by
  cases tracks with
  | hit found here chosen => rw [found, chosen, Option.some_or]
  | near fresh before chosen =>
      rw [fresh, chosen, Option.none_or, Option.map_map]
      exact Option.map_id'

end PositionSearch

/-- The visitor that searches for a position. -/
def approach (pos : Nat) (search : PositionSearch) (node : NodeId) :
    Explore (Verdict × PositionSearch) := do
  return search.step pos ((← get).arena.span node).start node

theorem findByPosition?_run (forest : Forest) (session : Session) (pos : Nat) (id : NodeId) :
    (forest.findByPosition? pos id).run session =
      match forest.scope? session.arena id with
      | none => (none, session)
      | some scope =>
        if scope.Contains pos then
          let walked := (forest.walk id {} (approach pos)).run session
          (walked.1.exact.or (walked.1.nearest.map Prod.snd), walked.2)
        else (none, session) := by
  rw [findByPosition?, Explore.run_read]
  cases forest.scope? session.arena id with
  | none => rfl
  | some scope =>
      dsimp only
      split_ifs <;> rfl

end Forest

/-- Where a node starts. -/
def Arena.startOf (arena : Arena) (id : NodeId) : Nat :=
  (arena.span id).start

namespace Session

open Forest (approach)
open Forest.PositionSearch (next step_found found_of_skip)

variable {forest : Forest} {session last : Session} {pos : Nat} {id : NodeId}

theorem approach_visits : (yielding forest .all).Visits session FindsNear (approach pos) := by
  intro later search node sound _ known finds
  exact .read (.pure sound (finds.step known))

/-- The walk that searches for a position makes the choice among all nodes from the node down. -/
theorem walk_approach (sound : session.Sound forest) (known : id < session.arena.size)
    (hLast : last.Sound forest)
    (since : ((forest.walk id {} (approach pos)).run session).2.Extends last) :
    let search := ((forest.walk id {} (approach pos)).run session).1
    search.exact.or (search.nearest.map Prod.snd) =
      Forest.nearestStart? last.arena.startOf pos (last.arena.preorder id) := by
  have hStable : Stable FindsNear := fun _ _ _ keeps finds =>
    ⟨finds.1.keep keeps, finds.2.keep keeps⟩
  have hFirst : session.FindsNear {} := ⟨finds_none session, finds_none session⟩
  have hEach : ∀ now search node, now.Walking forest session FindsNear [node] search →
      ((approach pos search node).run now).2.Extends last →
      ((approach pos search node).run now).1.2 = next last.arena.startOf pos search node ∧
        (((approach pos search node).run now).1.1 = .skip → ∀ other,
          next last.arena.startOf pos (next last.arena.startOf pos search node) other =
            next last.arena.startOf pos search node) := by
    intro now search node walking later
    have hKeeps : now.Extends last := later
    have hStart : last.arena.startOf node = now.arena.startOf node := by
      rw [Arena.startOf, Arena.startOf, hKeeps.arena.span node walking.knows.head]
    have hNext : next last.arena.startOf pos search node =
        (search.step pos (now.arena.startOf node) node).2 := by
      rw [next, hStart]
    constructor
    · exact hNext.symm
    · intro skips other
      have hFound : (search.step pos (now.arena.startOf node) node).2.exact.isSome :=
        found_of_skip skips
      rw [hNext, next, step_found hFound]
  have hResult := walk_foldl_preorder hStable approach_visits sound known hFirst hLast since hEach
  dsimp only
  rw [hResult]
  exact (Forest.PositionSearch.tracks_foldl ..).answer

end Session

/-- The search for a position, after any history. When the node has a scope that contains the position,
the answer is the first node in pre-order, from the node down, whose start has the least distance to the
position among those in the window before it, and there is none when no start is in the window. When the
node has no scope that contains the position there is no answer. The tree is that of any later time, at
which everything may have a number. -/
theorem Reachable.findByPosition?_nearest {forest : Forest} {session : Session}
    (reached : Reachable forest session) {id : NodeId} (known : id < session.arena.size) (pos : Nat)
    {later : Session} (leads : Leads forest ((forest.findByPosition? pos id).run session).2 later) :
    let answer := ((forest.findByPosition? pos id).run session).1
    (∀ scope, forest.scope? session.arena id = some scope → scope.Contains pos →
      answer = Forest.nearestStart? later.arena.startOf pos (later.arena.preorder id)) ∧
    ((∀ scope, forest.scope? session.arena id = some scope → ¬ scope.Contains pos) →
      answer = none) := by
  intro answer
  have hSearch : session.Yields forest .all (forest.findByPosition? pos id) Session.Finds :=
    Session.findByPosition?_yields reached.sound known
  obtain ⟨hLater, since⟩ := leads.sound_extends hSearch.sound
  have hRun := forest.findByPosition?_run session pos id
  constructor
  · intro scope hScope contains
    rw [hScope] at hRun
    dsimp only at hRun
    rw [if_pos contains] at hRun
    rw [hRun] at since
    exact (congrArg Prod.fst hRun).trans
      (Session.walk_approach reached.sound known hLater since)
  · intro outside
    cases hScope : forest.scope? session.arena id with
    | none =>
        rw [hScope] at hRun
        exact congrArg Prod.fst hRun
    | some scope =>
        rw [hScope] at hRun
        dsimp only at hRun
        rw [if_neg (outside scope hScope)] at hRun
        exact congrArg Prod.fst hRun

/-- The parameter and its name both start one place before the position, and the parameter comes first.
The other position is behind the scope. -/
theorem Reachable.findByPosition?_nearest_sample :
    let session := ((Sample.forest.children 0).run (.start Sample.forest)).2
    let asked := (Sample.forest.findByPosition? 3 1).run session
    asked.1 = some 3 ∧
      Forest.nearestStart? asked.2.arena.startOf 3 (asked.2.arena.preorder 1) = some 3 ∧
      (asked.2.arena.startOf 3 = 2 ∧ asked.2.arena.startOf 7 = 2) ∧
      ((Sample.forest.findByPosition? 10 1).run session).1 = none := by
  intro session asked
  have hReached : Reachable Sample.forest session :=
    .ask (.children 0) (.cons (by decide) (.nil _))
  have hKnown : 1 < session.arena.size := by decide +kernel
  have hScope : Sample.forest.scope? session.arena 1 =
      some { owner := ⟨0, 9⟩, range := ⟨0, 9⟩ } := by decide +kernel
  have hAnswer : asked.1 = some 3 := by decide +kernel
  have hNear := (Reachable.findByPosition?_nearest hReached hKnown 3 (.refl asked.2)).1 _ hScope
    (by decide)
  have hBehind := (Reachable.findByPosition?_nearest hReached hKnown 10 (.refl _)).2 (by
    intro scope hOther
    rw [hScope] at hOther
    cases hOther
    decide)
  exact ⟨hAnswer, hNear.symm.trans hAnswer, by decide +kernel, hBehind⟩

end SyntaxAtlas
