import SyntaxAtlas.Graph.Resolve
import SyntaxAtlas.Proofs.Graph.Ancestry

/-! Sessions that stay sound. Whatever is asked, a session only gains nodes, indexes and remembered
answers; indexes list numbered nodes, that of functions only those which lie in no other, and a
remembered answer is the one that working it out again would give. Questions are composed from a few
rules, so that each of them is looked at once. -/
namespace SyntaxAtlas

namespace Explore

variable {α β : Type}

/-- One question after another: the second is asked in the session that the first leaves. -/
theorem run_bind (question : Explore α) (next : α → Explore β) (session : Session) :
    (question >>= next).run session =
      (next (question.run session).1).run (question.run session).2 :=
  rfl

theorem run_read (next : Session → Explore β) (session : Session) :
    (get >>= next).run session = (next session).run session :=
  rfl

theorem run_pure (answer : α) (session : Session) :
    (pure answer : Explore α).run session = (answer, session) :=
  rfl

end Explore

namespace Forest

variable {forest : Forest} {earlier later : Arena}

/-- The text of a numbered node never changes. -/
theorem sourceText_extends (forest : Forest) (h : earlier.Extends later) {id : NodeId}
    (known : id < earlier.size) : forest.sourceText later id = forest.sourceText earlier id := by
  simp only [sourceText, unit?, h.origin id known, h.span id known]

/-- The scope of a numbered node never changes. -/
theorem scope?_extends (forest : Forest) (h : earlier.Extends later) {id : NodeId}
    (known : id < earlier.size) : forest.scope? later id = forest.scope? earlier id := by
  simp only [scope?, h.span id known]

theorem visibleCandidate?_extends (forest : Forest) (h : earlier.Extends later) (pos : Nat)
    {candidates : List NodeId} (known : ∀ id ∈ candidates, id < earlier.size) :
    forest.visibleCandidate? later pos candidates =
      forest.visibleCandidate? earlier pos candidates := by
  unfold visibleCandidate?
  dsimp only
  congr 2
  apply List.filterMap_congr
  intro id member
  rw [forest.scope?_extends h (known id member)]

end Forest

namespace Session

/-- A later session keeps the nodes and the indexes of an earlier one. -/
structure Extends (earlier later : Session) : Prop where
  arena : earlier.arena.Extends later.arena
  spanIndex : ∀ index, earlier.spanIndex = some index → later.spanIndex = some index
  identIndex : ∀ index, earlier.identIndex = some index → later.identIndex = some index
  functionIndex : ∀ index, earlier.functionIndex = some index → later.functionIndex = some index

theorem Extends.refl (session : Session) : session.Extends session :=
  ⟨.refl _, fun _ h => h, fun _ h => h, fun _ h => h⟩

theorem Extends.trans {first second third : Session} (left : first.Extends second)
    (right : second.Extends third) : first.Extends third where
  arena := left.arena.trans right.arena
  spanIndex index h := right.spanIndex index (left.spanIndex index h)
  identIndex index h := right.identIndex index (left.identIndex index h)
  functionIndex index h := right.functionIndex index (left.functionIndex index h)

/-- Nodes that have a number. -/
def Knows (session : Session) (ids : List NodeId) : Prop :=
  ∀ id ∈ ids, id < session.arena.size

theorem Knows.keep {earlier later : Session} {ids : List NodeId} (knows : earlier.Knows ids)
    (h : earlier.Extends later) : later.Knows ids :=
  fun id member => h.arena.lt (knows id member)

/-- A node that was found has a number. -/
def Finds (session : Session) (found : Option NodeId) : Prop :=
  ∀ id, found = some id → id < session.arena.size

theorem finds_none (session : Session) : session.Finds none :=
  fun _ h => nomatch h

theorem finds_some {session : Session} {id : NodeId} (known : id < session.arena.size) :
    session.Finds (some id) := by
  rintro _ ⟨⟩
  exact known

theorem Finds.keep {earlier later : Session} {found : Option NodeId} (finds : earlier.Finds found)
    (h : earlier.Extends later) : later.Finds found :=
  fun id hFound => h.arena.lt (finds id hFound)

theorem Knows.nil (session : Session) : session.Knows [] :=
  fun _ member => nomatch member

theorem Knows.cons {session : Session} {id : NodeId} {ids : List NodeId}
    (head : id < session.arena.size) (tail : session.Knows ids) : session.Knows (id :: ids) := by
  intro other member
  rcases List.mem_cons.mp member with rfl | member
  · exact head
  · exact tail other member

theorem Knows.head {session : Session} {id : NodeId} {ids : List NodeId}
    (knows : session.Knows (id :: ids)) : id < session.arena.size :=
  knows id List.mem_cons_self

theorem Knows.tail {session : Session} {id : NodeId} {ids : List NodeId}
    (knows : session.Knows (id :: ids)) : session.Knows ids :=
  fun other member => knows other (List.mem_cons_of_mem id member)

theorem Knows.append {session : Session} {first second : List NodeId}
    (left : session.Knows first) (right : session.Knows second) :
    session.Knows (first ++ second) := by
  intro id member
  rcases List.mem_append.mp member with member | member
  · exact left id member
  · exact right id member

theorem Knows.subset {session : Session} {some all : List NodeId} (knows : session.Knows all)
    (h : some ⊆ all) : session.Knows some :=
  fun id member => knows id (h member)

/-- Working out an answer again gives the same answer, and does not touch the session. -/
def Settles {α : Type} (session : Session) (question : Explore α) (answer : α) : Prop :=
  question.run session = (answer, session)

end Session

namespace Forest

variable {forest : Forest} {session : Session}

theorem identIndex_run_known {index : List (Nat × NodeId)}
    (known : session.identIndex = some index) :
    forest.identIndex.run session = (index, session) := by
  rw [identIndex, Explore.run_read, known]
  rfl

/-- The first question for the index builds it by a walk through everything. -/
theorem identIndex_run_fresh (fresh : session.identIndex = none) :
    forest.identIndex.run session =
      let walked := (forest.preorder Arena.root).run session
      let index := (walked.1.filter fun id => (walked.2.arena.kind id).isIdentifier).map
        fun id => ((walked.2.arena.span id).start, id)
      (index, { walked.2 with identIndex := some index }) := by
  rw [identIndex, Explore.run_read, fresh]
  rfl

/-- The index that was used is the one that is kept. -/
theorem identIndex_run_index (forest : Forest) (session : Session) :
    (forest.identIndex.run session).2.identIndex = some (forest.identIndex.run session).1 := by
  cases h : session.identIndex with
  | some index => rw [identIndex_run_known h, h]
  | none => rw [identIndex_run_fresh h]

theorem identAt?_run (forest : Forest) (session : Session) (pos : Nat) :
    (forest.identAt? pos).run session =
      (List.lookup pos (forest.identIndex.run session).1, (forest.identIndex.run session).2) :=
  rfl

/-- With the index at hand, looking up positions is all that happens. -/
theorem identsAt_run_known {index : List (Nat × NodeId)}
    (known : session.identIndex = some index) (positions : List Nat) :
    (forest.identsAt positions).run session =
      (positions.filterMap fun pos => List.lookup pos index, session) := by
  induction positions with
  | nil => rfl
  | cons pos rest ih =>
      rw [identsAt, Explore.run_bind, identAt?_run, identIndex_run_known known, Explore.run_bind,
        ih, Explore.run_pure, List.filterMap_cons]
      cases List.lookup pos index <;> rfl

/-- Asking for the identifiers at some position makes sure of the index. Asking for those at no
position does not. -/
theorem identsAt_run_cons (forest : Forest) (session : Session) (pos : Nat) (rest : List Nat) :
    (forest.identsAt (pos :: rest)).run session =
      ((pos :: rest).filterMap fun pos => List.lookup pos (forest.identIndex.run session).1,
        (forest.identIndex.run session).2) := by
  rw [identsAt, Explore.run_bind, identAt?_run, Explore.run_bind,
    identsAt_run_known (identIndex_run_index forest session), Explore.run_pure,
    List.filterMap_cons]
  cases List.lookup pos (forest.identIndex.run session).1 <;> rfl

/-- The index is what identifiers are looked up in, also before it is there. -/
theorem identsAt_run_index (forest : Forest) (session : Session) (positions : List Nat) :
    ((forest.identsAt positions).run (forest.identIndex.run session).2).1 =
      ((forest.identsAt positions).run session).1 := by
  cases positions with
  | nil => rfl
  | cons pos rest =>
      rw [identsAt_run_known (identIndex_run_index forest session), identsAt_run_cons]

theorem identsAt_run_or (forest : Forest) (session : Session) (positions : List Nat) :
    (forest.identsAt positions).run session = ([], session) ∨
      ((forest.identsAt positions).run session).2 = (forest.identIndex.run session).2 := by
  cases positions with
  | nil => exact .inl rfl
  | cons pos rest =>
      right
      rw [identsAt_run_cons]

/-- The positions at which a name is declared. -/
def declaredPositions (package : Package) (name : String) : List Nat :=
  (package.symbols.defs.entries.filter fun entry => entry.2.name == name).map Prod.fst

/-- The declaration chosen among candidates for an identifier at a position. -/
def chosenCandidate? (forest : Forest) (arena : Arena) (pos : Nat) : List NodeId → Option NodeId
  | [candidate] => some candidate
  | candidates => forest.visibleCandidate? arena pos candidates

theorem resolveDeclaration?_run (forest : Forest) (session : Session) (package : Package)
    (id : NodeId) :
    (forest.resolveDeclaration? package id).run session =
      if forest.sourceText session.arena id = blankName then (none, session)
      else
        let found := (forest.identsAt (declaredPositions package
          (forest.sourceText session.arena id))).run session
        (forest.chosenCandidate? found.2.arena (found.2.arena.span id).start found.1, found.2) := by
  rw [resolveDeclaration?, Explore.run_read]
  dsimp only
  split_ifs with hBlank
  · rfl
  · rw [Explore.run_bind, declaredPositions]
    generalize (forest.identsAt _).run session = found
    obtain ⟨candidates, later⟩ := found
    rcases candidates with _ | ⟨first, _ | ⟨second, rest⟩⟩ <;> rfl

/-- The choice among numbered candidates never changes. -/
theorem chosenCandidate?_extends (forest : Forest) {earlier later : Arena}
    (h : earlier.Extends later) (pos : Nat) {candidates : List NodeId}
    (known : ∀ id ∈ candidates, id < earlier.size) :
    forest.chosenCandidate? later pos candidates =
      forest.chosenCandidate? earlier pos candidates := by
  unfold chosenCandidate?
  split
  · rfl
  · exact forest.visibleCandidate?_extends h pos known

theorem resolveUsages_run (forest : Forest) (session : Session) (package : Package)
    (id : NodeId) :
    (forest.resolveUsages package id).run session =
      match forest.scope? session.arena id with
      | none => ([], session)
      | some scope =>
        if forest.sourceText session.arena id = blankName then ([], session)
        else (forest.identsAt (usagePositions package.symbols scope
          (forest.sourceText session.arena id) (session.arena.span id).start)).run session := by
  rw [resolveUsages, Explore.run_read]
  dsimp only
  cases forest.scope? session.arena id with
  | none => rfl
  | some scope =>
      dsimp only
      split_ifs <;> rfl

/-- A look-up that did not have to build the index gives the same nodes at any later time. -/
theorem identsAt_settles {later : Session} (h : session.Extends later) {positions : List Nat}
    (settled : ((forest.identsAt positions).run session).2 = session) :
    later.Settles (forest.identsAt positions) ((forest.identsAt positions).run session).1 := by
  cases positions with
  | nil => rfl
  | cons pos rest =>
      rw [identsAt_run_cons] at settled ⊢
      have hIndex := identIndex_run_index forest session
      rw [settled] at hIndex
      exact identsAt_run_known (h.identIndex _ hIndex) _

end Forest

namespace Session

/-- What is found under a key is listed with it. -/
theorem mem_of_lookup {κ ν : Type} [BEq κ] [LawfulBEq κ] {entries : List (κ × ν)} {key : κ}
    {value : ν} (found : entries.lookup key = some value) : (key, value) ∈ entries := by
  obtain ⟨before, after, rfl, _⟩ := List.lookup_eq_some_iff.mp found
  simp

/-- A node is listed with its span. -/
def ListsSpan (session : Session) (entry : Span × NodeId) : Prop :=
  entry.2 < session.arena.size ∧ session.arena.span entry.2 = entry.1

/-- An identifier is listed with its start. -/
def ListsIdent (session : Session) (entry : Nat × NodeId) : Prop :=
  entry.2 < session.arena.size ∧ (session.arena.kind entry.2).isIdentifier ∧
    (session.arena.span entry.2).start = entry.1

/-- A remembered declaration is the one that is resolved. -/
def RecallsDeclaration (forest : Forest) (session : Session) (entry : NodeId × Option NodeId) :
    Prop :=
  entry.1 < session.arena.size ∧ session.Knows entry.2.toList ∧
    ∀ package, forest.package = some package →
      session.Settles (forest.resolveDeclaration? package entry.1) entry.2

/-- Remembered usages are the ones that are resolved. -/
def RecallsUsages (forest : Forest) (session : Session) (entry : NodeId × List NodeId) : Prop :=
  entry.1 < session.arena.size ∧ session.Knows entry.2 ∧
    ∀ package, forest.package = some package →
      session.Settles (forest.resolveUsages package entry.1) entry.2

/-- What every session keeps in which only numbered nodes were asked about. -/
structure Sound (forest : Forest) (session : Session) : Prop where
  arena : session.arena.WellNumbered forest
  spanIndex : ∀ index, session.spanIndex = some index → ∀ entry ∈ index, session.ListsSpan entry
  identIndex : ∀ index, session.identIndex = some index →
    ∀ entry ∈ index, session.ListsIdent entry
  functionIndex : ∀ index, session.functionIndex = some index →
    ∀ entry ∈ index, session.arena.Outermost entry.2
  declarations : ∀ entry ∈ session.declarations, session.RecallsDeclaration forest entry
  usages : ∀ entry ∈ session.usages, session.RecallsUsages forest entry

section Keep

variable {forest : Forest} {earlier later : Session} (h : earlier.Extends later)

include h

theorem ListsSpan.keep {entry : Span × NodeId} (lists : earlier.ListsSpan entry) :
    later.ListsSpan entry :=
  ⟨h.arena.lt lists.1, (h.arena.span _ lists.1).trans lists.2⟩

theorem ListsIdent.keep {entry : Nat × NodeId} (lists : earlier.ListsIdent entry) :
    later.ListsIdent entry := by
  obtain ⟨known, hKind, hStart⟩ := lists
  refine ⟨h.arena.lt known, ?_, ?_⟩
  · rw [h.arena.kind _ known]
    exact hKind
  · rw [h.arena.span _ known]
    exact hStart

omit h in
/-- Identifiers found through an index have numbers. -/
theorem knows_filterMap_lookup {session : Session} {index : List (Nat × NodeId)}
    (lists : ∀ entry ∈ index, session.ListsIdent entry) (positions : List Nat) :
    session.Knows (positions.filterMap fun pos => List.lookup pos index) := by
  intro id member
  obtain ⟨pos, _, found⟩ := List.mem_filterMap.mp member
  exact (lists _ (mem_of_lookup found)).1

omit h in
/-- Identifiers that an index gives for increasing positions have increasing starts. -/
theorem pairwise_filterMap_lookup {session : Session} {index : List (Nat × NodeId)}
    (lists : ∀ entry ∈ index, session.ListsIdent entry) {positions : List Nat}
    (increasing : positions.Pairwise (· < ·)) :
    (positions.filterMap fun pos => List.lookup pos index).Pairwise fun first second =>
      (session.arena.span first).start < (session.arena.span second).start := by
  refine List.pairwise_filterMap.mpr (increasing.imp ?_)
  intro firstPos secondPos hLess first hFirst second hSecond
  rw [(lists _ (mem_of_lookup hFirst)).2.2, (lists _ (mem_of_lookup hSecond)).2.2]
  exact hLess

omit h in
/-- A look-up that did not have to build the index finds only nodes with numbers. -/
theorem knows_identsAt {session : Session} (lists : ∀ index, session.identIndex = some index →
      ∀ entry ∈ index, session.ListsIdent entry) {positions : List Nat}
    (settled : ((forest.identsAt positions).run session).2 = session) :
    session.Knows ((forest.identsAt positions).run session).1 := by
  cases positions with
  | nil => exact fun _ member => nomatch member
  | cons pos rest =>
      rw [Forest.identsAt_run_cons] at settled ⊢
      have hIndex := Forest.identIndex_run_index forest session
      rw [settled] at hIndex
      exact knows_filterMap_lookup (lists _ hIndex) _

/-- A remembered declaration stays right. Its text, the candidates and their scopes do not change,
and an index that was needed for it was built before. -/
theorem RecallsDeclaration.keep {entry : NodeId × Option NodeId}
    (lists : ∀ index, earlier.identIndex = some index →
      ∀ entry ∈ index, earlier.ListsIdent entry)
    (recalls : earlier.RecallsDeclaration forest entry) :
    later.RecallsDeclaration forest entry := by
  obtain ⟨known, knows, settles⟩ := recalls
  refine ⟨h.arena.lt known, knows.keep h, ?_⟩
  intro package hPackage
  have hEarlier := settles package hPackage
  unfold Settles at hEarlier ⊢
  rw [Forest.resolveDeclaration?_run] at hEarlier ⊢
  rw [forest.sourceText_extends h.arena known]
  split_ifs at hEarlier ⊢ with hBlank
  · rw [(Prod.mk.inj hEarlier).1]
  · obtain ⟨hFound, hSame⟩ := Prod.mk.inj hEarlier
    have hKnows := knows_identsAt lists hSame
    have hLater := Forest.identsAt_settles h hSame
    rw [hSame] at hFound
    rw [hLater]
    dsimp only
    rw [h.arena.span _ known, forest.chosenCandidate?_extends h.arena _ hKnows, hFound]

/-- Remembered usages stay right. -/
theorem RecallsUsages.keep {entry : NodeId × List NodeId}
    (recalls : earlier.RecallsUsages forest entry) : later.RecallsUsages forest entry := by
  obtain ⟨known, knows, settles⟩ := recalls
  refine ⟨h.arena.lt known, knows.keep h, ?_⟩
  intro package hPackage
  have hEarlier := settles package hPackage
  unfold Settles at hEarlier ⊢
  rw [Forest.resolveUsages_run] at hEarlier ⊢
  rw [forest.scope?_extends h.arena known, forest.sourceText_extends h.arena known,
    h.arena.span _ known]
  cases hScope : forest.scope? earlier.arena entry.1 with
  | none =>
      rw [hScope] at hEarlier
      rw [← (Prod.mk.inj hEarlier).1]
  | some scope =>
      rw [hScope] at hEarlier
      dsimp only at hEarlier ⊢
      split_ifs at hEarlier ⊢ with hBlank
      · rw [(Prod.mk.inj hEarlier).1]
      · have hLater := Forest.identsAt_settles h (congrArg Prod.snd hEarlier)
        rw [hLater, hEarlier]

/-- A session is sound when what it has beyond a sound earlier one is right. -/
theorem Sound.update (sound : earlier.Sound forest) (arena : later.arena.WellNumbered forest)
    (spanIndex : ∀ index, later.spanIndex = some index →
      earlier.spanIndex = some index ∨ ∀ entry ∈ index, later.ListsSpan entry)
    (identIndex : ∀ index, later.identIndex = some index →
      earlier.identIndex = some index ∨ ∀ entry ∈ index, later.ListsIdent entry)
    (functionIndex : ∀ index, later.functionIndex = some index →
      earlier.functionIndex = some index ∨ ∀ entry ∈ index, later.arena.Outermost entry.2)
    (declarations : ∀ entry ∈ later.declarations,
      entry ∈ earlier.declarations ∨ later.RecallsDeclaration forest entry)
    (usages : ∀ entry ∈ later.usages,
      entry ∈ earlier.usages ∨ later.RecallsUsages forest entry) : later.Sound forest where
  arena := arena
  spanIndex index hIndex entry member := by
    rcases spanIndex index hIndex with hOld | hNew
    · exact (sound.spanIndex index hOld entry member).keep h
    · exact hNew entry member
  identIndex index hIndex entry member := by
    rcases identIndex index hIndex with hOld | hNew
    · exact (sound.identIndex index hOld entry member).keep h
    · exact hNew entry member
  functionIndex index hIndex entry member := by
    rcases functionIndex index hIndex with hOld | hNew
    · exact (sound.functionIndex index hOld entry member).keep h.arena
    · exact hNew entry member
  declarations entry member := by
    rcases declarations entry member with hOld | hNew
    · exact (sound.declarations entry hOld).keep h sound.identIndex
    · exact hNew
  usages entry member := by
    rcases usages entry member with hOld | hNew
    · exact (sound.usages entry hOld).keep h
    · exact hNew

end Keep

/-- The session in which nothing but the root was looked at. -/
theorem sound_start (forest : Forest) : (Session.start forest).Sound forest where
  arena := Arena.wellNumbered_ofRoot forest
  spanIndex _ h := nomatch h
  identIndex _ h := nomatch h
  functionIndex _ h := nomatch h
  declarations _ h := nomatch h
  usages _ h := nomatch h

end Session

/-- What a question may add to a session. -/
inductive Footprint where
  /-- Nodes, and nothing else. -/
  | nodes
  /-- Nodes, indexes and remembered answers. -/
  | all

/-- A later session differs from an earlier one only as far as a footprint allows. -/
def Footprint.Allows : Footprint → Session → Session → Prop
  | .nodes, earlier, later => earlier.Extends later ∧ later = { earlier with arena := later.arena }
  | .all, earlier, later => earlier.Extends later

namespace Footprint.Allows

variable {footprint : Footprint} {first second third : Session}

theorem refl (footprint : Footprint) (session : Session) : footprint.Allows session session := by
  cases footprint with
  | nodes => exact ⟨Session.Extends.refl session, rfl⟩
  | all => exact Session.Extends.refl session

theorem keeps (h : footprint.Allows first second) : first.Extends second := by
  cases footprint with
  | nodes => exact h.1
  | all => exact h

theorem trans (left : footprint.Allows first second) (right : footprint.Allows second third) :
    footprint.Allows first third := by
  cases footprint with
  | nodes =>
      refine ⟨left.1.trans right.1, ?_⟩
      rw [right.2, left.2]
  | all => exact Session.Extends.trans left right

/-- Nodes may always be added. -/
theorem of_nodes (h : Footprint.nodes.Allows first second) : footprint.Allows first second := by
  cases footprint with
  | nodes => exact h
  | all => exact h.1

end Footprint.Allows

namespace Session

/-- A question, asked in a session, leads to a sound session within its footprint, and the answer
has a property there. -/
structure Yields {α : Type} (forest : Forest) (footprint : Footprint) (session : Session)
    (question : Explore α) (good : Session → α → Prop) : Prop where
  sound : (question.run session).2.Sound forest
  allows : footprint.Allows session (question.run session).2
  answer : good (question.run session).2 (question.run session).1

namespace Yields

variable {α β : Type} {forest : Forest} {footprint : Footprint} {session : Session}

theorem pure {good : Session → α → Prop} {answer : α} (sound : session.Sound forest)
    (h : good session answer) : session.Yields forest footprint (Pure.pure answer) good :=
  ⟨sound, .refl footprint session, h⟩

theorem bind {question : Explore α} {next : α → Explore β} {middle : Session → α → Prop}
    {good : Session → β → Prop} (first : session.Yields forest footprint question middle)
    (second : ∀ later answer, later.Sound forest → footprint.Allows session later →
      middle later answer → later.Yields forest footprint (next answer) good) :
    session.Yields forest footprint (question >>= next) good := by
  have hSecond := second _ _ first.sound first.allows first.answer
  exact ⟨hSecond.sound, first.allows.trans hSecond.allows, hSecond.answer⟩

/-- A first question that adds nodes only tells its successor so. -/
theorem bind_nodes {question : Explore α} {next : α → Explore β} {middle : Session → α → Prop}
    {good : Session → β → Prop} (first : session.Yields forest .nodes question middle)
    (second : ∀ later answer, later.Sound forest → Footprint.nodes.Allows session later →
      middle later answer → later.Yields forest footprint (next answer) good) :
    session.Yields forest footprint (question >>= next) good := by
  have hSecond := second _ _ first.sound first.allows first.answer
  exact ⟨hSecond.sound, first.allows.of_nodes.trans hSecond.allows, hSecond.answer⟩

/-- Looking at the session itself changes nothing. -/
theorem read {next : Session → Explore β} {good : Session → β → Prop}
    (h : session.Yields forest footprint (next session) good) :
    session.Yields forest footprint (get >>= next) good :=
  ⟨h.sound, h.allows, h.answer⟩

/-- Storing a session that keeps everything. -/
theorem write {new : Session} {next : PUnit → Explore β} {good : Session → β → Prop}
    (allows : footprint.Allows session new)
    (h : new.Yields forest footprint (next ⟨⟩) good) :
    session.Yields forest footprint (set new >>= next) good :=
  ⟨h.sound, allows.trans h.allows, h.answer⟩

theorem change {update : Session → Session} {next : PUnit → Explore β}
    {good : Session → β → Prop} (allows : footprint.Allows session (update session))
    (h : (update session).Yields forest footprint (next ⟨⟩) good) :
    session.Yields forest footprint (modify update >>= next) good :=
  ⟨h.sound, allows.trans h.allows, h.answer⟩

/-- A question whose run is known. -/
theorem of_run {question : Explore α} {answer : α} {later : Session} {good : Session → α → Prop}
    (hRun : question.run session = (answer, later)) (sound : later.Sound forest)
    (allows : footprint.Allows session later) (h : good later answer) :
    session.Yields forest footprint question good := by
  refine ⟨?_, ?_, ?_⟩
  · rwa [hRun]
  · rwa [hRun]
  · rwa [hRun]

/-- What is left when the answer is thrown away. -/
theorem leaves {question : Explore α} {good : Session → α → Prop}
    (h : session.Yields forest .all question good) :
    (question.run session).2.Sound forest ∧ session.Extends (question.run session).2 :=
  ⟨h.sound, h.allows⟩

end Yields

/-- After the children of a node were asked for, they are known, and the answer lists them. -/
theorem children_yields {forest : Forest} {session : Session} {id : NodeId}
    (footprint : Footprint) (sound : session.Sound forest) (known : id < session.arena.size) :
    session.Yields forest footprint (forest.children id)
      (fun later ids => later.arena.children? id = some ids) := by
  cases hChildren : session.arena.children? id with
  | some ids =>
      have hRun : (forest.children id).run session = (ids, session) := by
        rw [Forest.children, Explore.run_read, hChildren]
        rfl
      exact .of_run hRun sound (.refl footprint session) hChildren
  | none =>
      let grown := session.arena.grow id (forest.sprouts (session.arena.origin id))
      have hRun : (forest.children id).run session =
          (grown.2, { session with arena := grown.1 }) := by
        rw [Forest.children, Explore.run_read, hChildren]
        rfl
      have hKeeps : session.Extends { session with arena := grown.1 } :=
        ⟨Arena.extends_grow _ hChildren, fun _ h => h, fun _ h => h, fun _ h => h⟩
      refine .of_run hRun ?_ (.of_nodes ⟨hKeeps, rfl⟩) (Arena.children?_grow_self known)
      exact sound.update hKeeps (sound.arena.grow known hChildren) (fun _ h => .inl h)
        (fun _ h => .inl h) (fun _ h => .inl h) (fun _ h => .inl h) (fun _ h => .inl h)

end Session

end SyntaxAtlas
