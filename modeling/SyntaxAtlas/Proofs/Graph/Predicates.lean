import SyntaxAtlas.Proofs.Graph.Lasting

/-! Predicates on nodes. A test may number nodes on the way to its answer, but the tests that look at
kinds, names and texts never change their mind: what they answer about a node once is what they answer
about it at any later time. -/
namespace SyntaxAtlas

namespace Session

section Naming

variable {forest : Forest} {footprint : Footprint} {session : Session} {id : NodeId}

theorem childByKind?_fixes {kind : Kind} (sound : session.Sound forest)
    (known : id < session.arena.size) :
    session.Fixes forest footprint (forest.childByKind? kind id) Finds := by
  apply findChild?_fixes _ sound known
  intro earlier later keeps child hChild
  rw [keeps.kind child hChild]

theorem ident?_fixes (sound : session.Sound forest) (known : id < session.arena.size) :
    session.Fixes forest footprint (forest.ident? id) Finds := by
  apply Fixes.read
  · intro later since
    rw [since.arena.kind id known]
  split
  -- identifiers name themselves
  iterate 5 exact .pure sound (finds_some known)
  -- declarations and labels are named by a child
  iterate 11 exact childInField?_fixes sound known
  iterate 3 exact childByKind?_fixes sound known
  · apply (childByKind?_fixes sound known).bind
    rintro later (_ | clause) sound _ finds
    · exact .pure sound (finds_none later)
    · exact childByKind?_fixes sound (finds clause rfl)
  · exact childInField?_fixes sound known
  iterate 2
    apply (callTarget?_fixes sound known).bind
    rintro later (_ | target) sound _ finds
    · exact .pure sound (finds_none later)
    · exact targetIdent?_fixes sound (finds target rfl)
  iterate 2 exact elementIdent?_fixes sound known
  · exact .pure sound (finds_none session)

/-- The text of a node that was found lasts. -/
theorem textOf?_fixes {node : Option NodeId} (sound : session.Sound forest)
    (finds : session.Finds node) :
    session.Fixes forest footprint (forest.textOf? node) (fun _ _ => True) := by
  apply Fixes.read
  · intro later since
    cases node with
    | none => rfl
    | some found => simp only [Option.map_some, forest.sourceText_extends since.arena (finds found rfl)]
  · exact .pure sound trivial

theorem elementName?_fixes (sound : session.Sound forest) (known : id < session.arena.size) :
    session.Fixes forest footprint (forest.elementName? id) (fun _ _ => True) := by
  apply (elementIdent?_fixes sound known).bind
  intro later found sound _ finds
  apply (textOf?_fixes sound finds).bind
  intro after text sound _ _
  exact .pure sound trivial

theorem identText?_fixes (sound : session.Sound forest) (known : id < session.arena.size) :
    session.Fixes forest footprint (forest.ident? id >>= fun ident => forest.textOf? ident)
      (fun _ _ => True) := by
  apply (ident?_fixes sound known).bind
  intro later found sound _ finds
  exact textOf?_fixes sound finds

theorem name?_fixes (sound : session.Sound forest) (known : id < session.arena.size) :
    session.Fixes forest footprint (forest.name? id) (fun _ _ => True) := by
  apply Fixes.read
  · intro later since
    rw [since.arena.kind id known]
  split
  · apply (ident?_fixes sound known).bind
    intro later found sound grown finds
    have known := grown.keeps.arena.lt known
    apply (textOf?_fixes sound finds).bind
    rintro later (_ | field) sound grown _
    · exact .pure sound trivial
    · apply (childInField?_fixes sound (grown.keeps.arena.lt known)).bind
      intro later operand sound _ finds
      apply Fixes.read
      · intro after since
        cases operand with
        | none => rfl
        | some node =>
            have hNode := finds node rfl
            simp only [Option.filter, since.arena.kind node hNode]
            split_ifs
            · simp only [forest.sourceText_extends since.arena hNode]
            · rfl
      · dsimp only
        split
        · exact .pure sound trivial
        · exact .pure sound trivial
  iterate 2
    apply (callTarget?_fixes sound known).bind
    rintro later (_ | target) sound grown finds
    · exact .pure sound trivial
    · have known := grown.keeps.arena.lt known
      apply Fixes.read
      · intro after since
        rw [since.arena.kind target (finds target rfl)]
      split
      iterate 2 exact elementName?_fixes sound (finds target rfl)
      · exact identText?_fixes sound known
  iterate 2 exact elementName?_fixes sound known
  · exact identText?_fixes sound known

end Naming

section Judgements

variable {forest : Forest} {session : Session} {test : Forest.Test}

/-- A test that may be asked about any numbered node from a session on, and that always answers the
same about a node. -/
def Judges (forest : Forest) (session : Session) (test : Forest.Test) : Prop :=
  ∀ later id, later.Sound forest → session.Extends later → id < later.arena.size →
    later.Fixes forest .all (test id) (fun _ _ => True)

/-- The answer that is given is the one that a later session gives. -/
theorem Judges.answer_eq (judges : session.Judges forest test) {now last : Session} {id : NodeId}
    (sound : now.Sound forest) (since : session.Extends now) (known : id < now.arena.size)
    (hLast : last.Sound forest) (later : ((test id).run now).2.Extends last) :
    ((test id).run now).1 = ((test id).run last).1 := by
  have hLasts := (judges now id sound since known).answer.2
  rw [hLasts last hLast later]

theorem judges_ofKind (kind : Kind) : session.Judges forest (Forest.ofKind kind) := by
  intro later id sound _ known
  apply Fixes.read
  · intro after since
    rw [since.arena.kind id known]
  · exact .pure sound trivial

theorem judges_ofName (name : String) : session.Judges forest (forest.ofName name) := by
  intro later id sound _ known
  apply (name?_fixes sound known).bind
  intro after found sound _ _
  exact .pure sound trivial

theorem judges_identOfText (text : String) : session.Judges forest (forest.identOfText text) := by
  intro later id sound _ known
  apply Fixes.read
  · intro after since
    simp only [since.arena.kind id known, forest.sourceText_extends since.arena known]
  · exact .pure sound trivial

end Judgements

end Session

end SyntaxAtlas
