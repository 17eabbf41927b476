import SyntaxAtlas.Proofs.Graph.Histories
import SyntaxAtlas.Proofs.Graph.Lasting

/-! Remembering shows in no answer. The declaration and the usages of an identifier are worked out
from its text and its start alone, and from an index that never changes once it was needed. So it
makes no difference whether an answer was remembered, when it was, and for which of several
identifiers at one place of the source. -/
namespace SyntaxAtlas

namespace Session

/-- An identifier that has a number. -/
def Identifies (session : Session) (id : NodeId) : Prop :=
  id < session.arena.size ∧ (session.arena.kind id).isIdentifier

instance (session : Session) (id : NodeId) : Decidable (session.Identifies id) :=
  inferInstanceAs (Decidable (_ ∧ _))

/-- Two identifiers with one text at one start, such as those that splitting makes of one element. -/
structure Twins (forest : Forest) (session : Session) (first second : NodeId) : Prop where
  left : session.Identifies first
  right : session.Identifies second
  start : (session.arena.span first).start = (session.arena.span second).start
  text : forest.sourceText session.arena first = forest.sourceText session.arena second

variable {forest : Forest} {session later : Session} {id first second : NodeId}

theorem Identifies.keep (identifies : session.Identifies id) (h : session.Extends later) :
    later.Identifies id := by
  refine ⟨h.arena.lt identifies.1, ?_⟩
  rw [h.arena.kind id identifies.1]
  exact identifies.2

theorem Twins.keep (twins : session.Twins forest first second) (h : session.Extends later) :
    later.Twins forest first second := by
  refine ⟨twins.left.keep h, twins.right.keep h, ?_, ?_⟩
  · rw [h.arena.span first twins.left.1, h.arena.span second twins.right.1]
    exact twins.start
  · rw [forest.sourceText_extends h.arena twins.left.1,
      forest.sourceText_extends h.arena twins.right.1]
    exact twins.text

end Session

section Memoization

variable {α : Type} {forest : Forest} {session later : Session} {ask resolve : NodeId → Explore α}
  {id twin : NodeId}

/-- A question about identifiers that remembers its answers, beside the one that works them out. -/
structure Memoizes (forest : Forest) (ask resolve : NodeId → Explore α) : Prop where
  agrees : ∀ session id, session.Sound forest → session.Identifies id →
    ((ask id).run session).1 = ((resolve id).run session).1
  leaves : ∀ session id, session.Sound forest → session.Identifies id →
    ((ask id).run session).2.Sound forest ∧ session.Extends ((ask id).run session).2
  lasts : ∀ session id, session.Sound forest → session.Identifies id →
    ((ask id).run session).2.Lasts forest (resolve id) ((ask id).run session).1
  uniform : ∀ session first second, session.Sound forest → session.Twins forest first second →
    ((resolve first).run session).1 = ((resolve second).run session).1

/-- What a client sees of such a question: the answer is the one that is worked out, twins get it as
well, and everyone gets it again at any later time. -/
structure Session.Transparent (forest : Forest) (session : Session) (ask resolve : NodeId → Explore α)
    (id : NodeId) : Prop where
  uncached : ((ask id).run session).1 = ((resolve id).run session).1
  repeated : ∀ later, Leads forest ((ask id).run session).2 later →
    ((ask id).run later).1 = ((ask id).run session).1
  shared : ∀ twin, session.Twins forest id twin →
    ((ask twin).run session).1 = ((ask id).run session).1
  sharedLater : ∀ later, Leads forest ((ask id).run session).2 later →
    ∀ twin, later.Twins forest id twin → ((ask twin).run later).1 = ((ask id).run session).1

namespace Memoizes

/-- Twins get one answer. -/
theorem ask_twin (memo : Memoizes forest ask resolve) (sound : session.Sound forest)
    (twins : session.Twins forest id twin) :
    ((ask twin).run session).1 = ((ask id).run session).1 :=
  calc ((ask twin).run session).1
    _ = ((resolve twin).run session).1 := memo.agrees session twin sound twins.right
    _ = ((resolve id).run session).1 := (memo.uniform session id twin sound twins).symm
    _ = ((ask id).run session).1 := (memo.agrees session id sound twins.left).symm

/-- What was answered once is answered again. -/
theorem ask_later (memo : Memoizes forest ask resolve) (sound : session.Sound forest)
    (identifies : session.Identifies id) (hLater : later.Sound forest)
    (since : ((ask id).run session).2.Extends later) :
    ((ask id).run later).1 = ((ask id).run session).1 := by
  obtain ⟨_, hKeeps⟩ := memo.leaves session id sound identifies
  have hAgain := memo.lasts session id sound identifies later hLater since
  rw [memo.agrees later id hLater (identifies.keep (hKeeps.trans since)), hAgain]

theorem transparent (memo : Memoizes forest ask resolve) (sound : session.Sound forest)
    (identifies : session.Identifies id) : session.Transparent forest ask resolve id := by
  obtain ⟨hSound, _⟩ := memo.leaves session id sound identifies
  have hRepeated : ∀ later, Leads forest ((ask id).run session).2 later →
      ((ask id).run later).1 = ((ask id).run session).1 := by
    intro later leads
    obtain ⟨hLater, since⟩ := leads.sound_extends hSound
    exact memo.ask_later sound identifies hLater since
  refine ⟨memo.agrees session id sound identifies, hRepeated, ?_, ?_⟩
  · intro twin twins
    exact memo.ask_twin sound twins
  · intro later leads twin twins
    rw [memo.ask_twin (leads.sound_extends hSound).1 twins]
    exact hRepeated later leads

end Memoizes

end Memoization

namespace Forest

variable {forest : Forest} {package : Package}

/-- Declarations are resolved by start and text. The index may have to be built on the way, which
moves neither. -/
theorem resolveDeclaration?_uniform {session : Session} {first second : NodeId}
    (sound : session.Sound forest) (twins : session.Twins forest first second) :
    ((forest.resolveDeclaration? package first).run session).1 =
      ((forest.resolveDeclaration? package second).run session).1 := by
  rw [resolveDeclaration?_run, resolveDeclaration?_run, twins.text]
  split_ifs with hBlank
  · rfl
  · have hLook : session.Yields forest .all (forest.identsAt (declaredPositions package
        (forest.sourceText session.arena second))) Session.Knows := Session.identsAt_yields sound
    exact congrArg (chosenCandidate? forest _ · _) (twins.keep hLook.allows).start

/-- Usages are resolved by start and text. -/
theorem resolveUsages_uniform {session : Session} {first second : NodeId}
    (twins : session.Twins forest first second) :
    ((forest.resolveUsages package first).run session).1 =
      ((forest.resolveUsages package second).run session).1 := by
  have hScope : forest.scope? session.arena first = forest.scope? session.arena second := by
    rw [scope?, scope?, twins.start]
  rw [resolveUsages_run, resolveUsages_run, hScope, twins.text, twins.start]

/-- Remembered or not, a declaration is the resolved one. -/
theorem memoizes_declaration (hPackage : forest.package = some package) :
    Memoizes forest forest.declaration? (forest.resolveDeclaration? package) where
  agrees session id sound identifies := by
    obtain ⟨_, hRun⟩ := Session.declaration?_run sound hPackage identifies.2
    rw [hRun]
  leaves session id sound identifies := (Session.declaration?_yields sound identifies.1).leaves
  lasts session id sound identifies := by
    have hAsked := Session.declaration?_yields sound identifies.1
    obtain ⟨hKnown, hKind⟩ := identifies.keep hAsked.allows
    obtain ⟨finds, settles⟩ := hAsked.answer
    have hRecalls : Session.RecallsDeclaration forest ((forest.declaration? id).run session).2
        (id, ((forest.declaration? id).run session).1) :=
      ⟨hKnown, fun node member => finds node (Option.mem_toList.mp member),
        fun other hOther => settles other hOther hKind⟩
    intro later _ since
    exact (hRecalls.keep since hAsked.sound.identIndex).2.2 package hPackage
  uniform session first second sound twins := resolveDeclaration?_uniform sound twins

/-- Remembered or not, usages are the resolved ones. -/
theorem memoizes_usages (hPackage : forest.package = some package) :
    Memoizes forest forest.usages (forest.resolveUsages package) where
  agrees session id sound identifies := by
    obtain ⟨_, hRun⟩ := Session.usages_run sound hPackage identifies.2
    rw [hRun]
  leaves session id sound identifies := (Session.usages_yields sound identifies.1).leaves
  lasts session id sound identifies := by
    have hAsked := Session.usages_yields sound identifies.1
    obtain ⟨hKnown, hKind⟩ := identifies.keep hAsked.allows
    obtain ⟨knows, settles⟩ := hAsked.answer
    have hRecalls : Session.RecallsUsages forest ((forest.usages id).run session).2
        (id, ((forest.usages id).run session).1) :=
      ⟨hKnown, knows, fun other hOther => settles other hOther hKind⟩
    intro later _ since
    exact (hRecalls.keep since).2.2 package hPackage
  uniform session first second _ twins := resolveUsages_uniform twins

end Forest

/-- After any history, the declaration and the usages of an identifier are those that are resolved
without remembering anything; whatever is asked afterwards, they stay the same, for this identifier
and for every other one with its start and text. -/
theorem Reachable.resolution_transparent {forest : Forest} {package : Package} {session : Session}
    (reached : Reachable forest session) (hPackage : forest.package = some package) {id : NodeId}
    (identifies : session.Identifies id) :
    session.Transparent forest forest.declaration? (forest.resolveDeclaration? package) id ∧
      session.Transparent forest forest.usages (forest.resolveUsages package) id :=
  ⟨(Forest.memoizes_declaration hPackage).transparent reached.sound identifies,
    (Forest.memoizes_usages hPackage).transparent reached.sound identifies⟩

namespace Sample

/-- Two names with one type, which is the first of them. -/
def sharedUnit : ParsedUnit where
  source := ⟨"a.go", 0, "x,y:x"⟩
  snapshot := ⟨#[
    { kind := "source_file", span := ⟨0, 5⟩, children := [1] },
    { kind := "parameter_declaration", span := ⟨0, 5⟩, children := [2, 3, 4] },
    { kind := "identifier", span := ⟨0, 1⟩, field := some "name" },
    { kind := "identifier", span := ⟨2, 3⟩, field := some "name" },
    { kind := "identifier", span := ⟨4, 5⟩, field := some "type" }]⟩

def sharedPackage : Package where
  name := "p"
  symbols := {
    defs := .ofEntries [(0, ⟨"x", .var, none⟩), (2, ⟨"y", .var, none⟩)]
    uses := .ofEntries [(4, ⟨"x", .var, none⟩)]
    scopes := [{ owner := ⟨0, 5⟩, range := ⟨0, 5⟩ }] }

def shared : Forest where
  units := [sharedUnit]
  package := some sharedPackage
  accepted := by decide
  standalone := by decide

end Sample

/-- The type is there once for each name. Its second copy is declared by what declares the first, also
after all kinds of things were asked. -/
theorem Reachable.resolution_transparent_sample :
    let session := Query.after Sample.shared (.start Sample.shared) .materializeAll
    let asked := (Sample.shared.declaration? 5).run session
    let later := ((Sample.shared.firstUsage? 4).run asked.2).2
    asked.1 = some 4 ∧ ((Sample.shared.declaration? 7).run later).1 = some 4 := by
  intro session asked later
  have hFirst : asked.1 = some 4 := by decide +kernel
  have hTransparent := (@Reachable.resolution_transparent Sample.shared Sample.sharedPackage session
    (.ask .materializeAll (Session.Knows.nil _)) rfl 5 (by decide +kernel)).1
  have hLater : Leads Sample.shared asked.2 later :=
    .ask (.firstUsage 4) (.cons (by decide +kernel) (.nil _))
  have hTwins : later.Twins Sample.shared 5 7 :=
    ⟨by decide +kernel, by decide +kernel, by decide +kernel, by decide +kernel⟩
  exact ⟨hFirst, (hTransparent.sharedLater later hLater 7 hTwins).trans hFirst⟩

end SyntaxAtlas
