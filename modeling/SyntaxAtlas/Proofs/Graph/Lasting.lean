import Mathlib.Data.List.Find
import SyntaxAtlas.Proofs.Graph.Calls

/-! Answers that last. Which number a callee gets depends on what was numbered before it, but only
until the question for it is asked: from then on the children that were looked at, the index and the
texts stay as they are, so that the same answer comes out at any later time and nothing is added. -/
namespace SyntaxAtlas

/-- The role of a numbered node never changes. -/
theorem Forest.field?_extends (forest : Forest) {earlier later : Arena} (h : earlier.Extends later)
    {id : NodeId} (known : id < earlier.size) :
    forest.field? later id = forest.field? earlier id := by
  simp only [field?, element?, h.parent id known, h.origin id known]

/-- The index that was used is the one that is kept. -/
theorem Forest.functionIndex_run_known {forest : Forest} {session : Session}
    {index : List (String × NodeId)} (known : session.functionIndex = some index) :
    forest.functionIndex.run session = (index, session) := by
  rw [functionIndex, Explore.run_read, known]
  rfl

theorem Forest.functionIndex_run_index (forest : Forest) (session : Session) :
    (forest.functionIndex.run session).2.functionIndex = some (forest.functionIndex.run session).1 := by
  cases h : session.functionIndex with
  | some index => rw [functionIndex_run_known h, h]
  | none =>
      rw [functionIndex, Explore.run_read, h]
      rfl

namespace Session

section Rules

variable {α β : Type} {forest : Forest} {footprint : Footprint} {session : Session}
  {question : Explore α} {next : α → Explore β}

/-- From a session on, a question has one answer and leaves every session alone. -/
def Lasts (forest : Forest) (session : Session) (question : Explore α) (answer : α) : Prop :=
  ∀ later, later.Sound forest → session.Extends later → later.Settles question answer

theorem Lasts.keep {later : Session} {answer : α} (lasts : session.Lasts forest question answer)
    (h : session.Extends later) : later.Lasts forest question answer :=
  fun after sound since => lasts after sound (h.trans since)

theorem Lasts.bind {answer : α} {result : β} (first : session.Lasts forest question answer)
    (second : session.Lasts forest (next answer) result) :
    session.Lasts forest (question >>= next) result := by
  intro later sound since
  unfold Settles
  rw [Explore.run_bind, first later sound since]
  exact second later sound since

/-- A question yields an answer that has a property, and that lasts once it was given. -/
def Fixes (forest : Forest) (footprint : Footprint) (session : Session) (question : Explore α)
    (good : Session → α → Prop) : Prop :=
  session.Yields forest footprint question
    (fun later answer => good later answer ∧ later.Lasts forest question answer)

theorem Fixes.pure {good : Session → α → Prop} {answer : α} (sound : session.Sound forest)
    (h : good session answer) : session.Fixes forest footprint (Pure.pure answer) good :=
  Yields.pure sound ⟨h, fun _ _ _ => rfl⟩

theorem Fixes.bind {middle : Session → α → Prop} {good : Session → β → Prop}
    (first : session.Fixes forest footprint question middle)
    (second : ∀ later answer, later.Sound forest → footprint.Allows session later →
      middle later answer → later.Fixes forest footprint (next answer) good) :
    session.Fixes forest footprint (question >>= next) good := by
  refine Yields.bind first ?_
  rintro later answer sound grown ⟨hMiddle, hLasts⟩
  have hSecond := second later answer sound grown hMiddle
  obtain ⟨hGood, hNext⟩ := hSecond.answer
  exact ⟨hSecond.sound, hSecond.allows, hGood, (hLasts.keep hSecond.allows.keeps).bind hNext⟩

/-- The session itself may be looked at, as long as only things count that never change. -/
theorem Fixes.read {next : Session → Explore β} {good : Session → β → Prop}
    (same : ∀ later, session.Extends later → next later = next session)
    (h : session.Fixes forest footprint (next session) good) :
    session.Fixes forest footprint (get >>= next) good := by
  obtain ⟨hGood, hNext⟩ := h.answer
  refine ⟨h.sound, h.allows, hGood, ?_⟩
  intro later sound since
  unfold Settles
  rw [Explore.run_read, same later (h.allows.keeps.trans since)]
  exact hNext later sound since

end Rules

section Callees

variable {forest : Forest} {footprint : Footprint} {session : Session} {id : NodeId}

theorem children_fixes (sound : session.Sound forest) (known : id < session.arena.size) :
    session.Fixes forest footprint (forest.children id)
      (fun later ids => later.Knows ids ∧ later.arena.children? id = some ids) := by
  have hChildren := children_yields footprint sound known
  have hKnows : session.Yields forest footprint (forest.children id) Knows :=
    children_knows sound known
  refine ⟨hChildren.sound, hChildren.allows, ⟨hKnows.answer, hChildren.answer⟩, ?_⟩
  intro later _ since
  have hKnown := hChildren.allows.keeps.arena.lt known
  have hLater := since.arena.children id _ hKnown hChildren.answer
  unfold Settles
  rw [Forest.children, Explore.run_read, hLater]
  rfl

theorem findChild?_fixes {test : Arena → NodeId → Bool}
    (same : ∀ earlier later : Arena, earlier.Extends later → ∀ child, child < earlier.size →
      test later child = test earlier child)
    (sound : session.Sound forest) (known : id < session.arena.size) :
    session.Fixes forest footprint (forest.findChild? id test) Finds := by
  refine (children_fixes sound known).bind ?_
  rintro later ids sound _ ⟨knows, _⟩
  refine .read ?_ (.pure sound ?_)
  · intro after since
    have hFound : ids.find? (test after.arena) = ids.find? (test later.arena) :=
      List.find?_congr fun child member => same _ _ since.arena child (knows child member)
    simp only [hFound]
  · intro child found
    exact knows child (List.mem_of_find?_eq_some found)

theorem childInField?_fixes {field : String} (sound : session.Sound forest)
    (known : id < session.arena.size) :
    session.Fixes forest footprint (forest.childInField? field id) Finds := by
  refine findChild?_fixes ?_ sound known
  intro earlier later keeps child hChild
  rw [forest.field?_extends keeps hChild]

theorem elementIdent?_fixes (sound : session.Sound forest) (known : id < session.arena.size) :
    session.Fixes forest footprint (forest.elementIdent? id) Finds := by
  refine (childInField?_fixes sound known).bind ?_
  intro later found sound _ finds
  refine .read ?_ (.pure sound (finds.filter _))
  intro after since
  cases found with
  | none => rfl
  | some ident =>
      simp only [Option.filter, since.arena.kind ident (finds ident rfl)]

theorem callTarget?_fixes (sound : session.Sound forest) (known : id < session.arena.size) :
    session.Fixes forest footprint (forest.callTarget? id) Finds := by
  refine .read ?_ ?_
  · intro later since
    rw [since.arena.kind id known]
  · split
    · exact childInField?_fixes sound known
    · exact childInField?_fixes sound known
    · exact .pure sound (finds_none session)

theorem targetIdent?_fixes (sound : session.Sound forest) (known : id < session.arena.size) :
    session.Fixes forest footprint (forest.targetIdent? id) Finds := by
  refine .read ?_ ?_
  · intro later since
    rw [since.arena.kind id known]
  · split
    · exact .pure sound (finds_some known)
    · exact elementIdent?_fixes sound known
    · exact elementIdent?_fixes sound known
    · exact .pure sound (finds_none session)

/-- A node that was found is a function that lies in no other one. -/
def FindsFunction (session : Session) (found : Option NodeId) : Prop :=
  ∀ id, found = some id → session.arena.Outermost id

theorem findsFunction_none (session : Session) : session.FindsFunction none :=
  fun _ h => nomatch h

theorem functionIndex_fixes (sound : session.Sound forest) :
    session.Fixes forest .all forest.functionIndex ListsFunctions := by
  have hIndex := functionIndex_yields sound
  refine ⟨hIndex.sound, hIndex.allows, hIndex.answer, ?_⟩
  intro later _ since
  exact Forest.functionIndex_run_known
    (since.functionIndex _ (forest.functionIndex_run_index session))

theorem declarationByName?_fixes {name : String} (sound : session.Sound forest) :
    session.Fixes forest .all (forest.declarationByName? name) FindsFunction := by
  unfold Forest.declarationByName?
  cases forest.package with
  | none => exact .pure sound (findsFunction_none session)
  | some package =>
      refine (functionIndex_fixes sound).bind ?_
      intro later index sound _ lists
      exact .pure sound fun node found => lists _ (mem_of_lookup found)

theorem callee?_fixes (sound : session.Sound forest) (known : id < session.arena.size) :
    session.Fixes forest .all (forest.callee? id) FindsFunction := by
  refine (callTarget?_fixes sound known).bind ?_
  rintro later (_ | target) sound _ finds
  · exact .pure sound (findsFunction_none later)
  · refine (targetIdent?_fixes sound (finds target rfl)).bind ?_
    rintro later (_ | ident) sound _ finds
    · exact .pure sound (findsFunction_none later)
    · refine .read ?_ (declarationByName?_fixes sound)
      intro after since
      rw [forest.sourceText_extends since.arena (finds ident rfl)]

end Callees

/-- The logic of answers that last. -/
def fixing (forest : Forest) : CallLogic forest where
  Holds session question good := session.Fixes forest .all question good
  pure sound good := .pure sound good
  bind first second := first.bind second
  read same h := .read same h
  children sound known := by
    obtain ⟨hSound, hAllows, ⟨_, hChildren⟩, hLasts⟩ := children_fixes sound known
    exact ⟨hSound, hAllows, hChildren, hLasts⟩
  callee sound known := by
    obtain ⟨hSound, hAllows, hFinds, hLasts⟩ := callee?_fixes sound known
    exact ⟨hSound, hAllows, fun callee found => (hFinds callee found).known, hLasts⟩

/-- A visitor whose visits last keeps sessions sound. -/
theorem visits_of_fixing {forest : Forest} {session : Session} {σ ρ : Type}
    {good : Session → σ → Prop} {visit : σ → NodeId → Explore (ρ × σ)}
    (visits : (fixing forest).Visits session good visit) :
    (yielding forest .all).Visits session good visit := by
  intro later state id sound since known start
  obtain ⟨hSound, hAllows, hGood, _⟩ := visits later state id sound since known start
  exact ⟨hSound, hAllows, hGood⟩

end Session

end SyntaxAtlas
