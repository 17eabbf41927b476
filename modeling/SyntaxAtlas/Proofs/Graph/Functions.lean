import Mathlib.Data.List.Induction
import SyntaxAtlas.Proofs.Graph.Alike
import SyntaxAtlas.Proofs.Graph.Indexing

/-! The functions that a package declares. The index is built by a walk that stops at functions, and a
later entry may take the place of an earlier one. What it holds for a name at the end is the first
function of that name, or the first method when there is no function; and that is the same node whatever
was asked before. -/
namespace SyntaxAtlas

theorem Kind.isFuncDeclaration_iff {kind : Kind} :
    kind.isFuncDeclaration ↔ kind = .funcDecl ∨ kind = .methodDecl := by
  cases kind <;> decide

namespace Forest

section Precedence

variable {kindOf : NodeId → Kind} {nameOf : NodeId → Option String} {name : String} {id : NodeId}

/-- What is held for a name after one more declaration of it: the declaration, when nothing was held or
when it is a function and a method was held. -/
def preferred (kindOf : NodeId → Kind) (held : Option NodeId) (id : NodeId) : NodeId :=
  match held with
  | none => id
  | some held => if kindOf id = .funcDecl ∧ kindOf held = .methodDecl then id else held

theorem lookup_indexFunction (arena : Arena) (index : List (String × NodeId)) (name other : String)
    (id : NodeId) :
    (indexFunction arena index name id).lookup other =
      if name = other then some (preferred arena.kind (index.lookup name) id)
      else index.lookup other := by
  unfold indexFunction preferred
  by_cases hName : name = other
  · subst hName
    cases hHeld : index.lookup name with
    | none => simp
    | some held =>
        rw [if_pos rfl]
        dsimp only
        split_ifs <;> simp [hHeld]
  · have hOther : (other == name) = false := by simpa using Ne.symm hName
    cases index.lookup name with
    | none => simp [List.lookup_cons, hOther, hName]
    | some held =>
        dsimp only
        split_ifs <;> simp [List.lookup_cons, hOther]

/-- The nodes of a kind and a name. -/
def named (kindOf : NodeId → Kind) (nameOf : NodeId → Option String) (kind : Kind) (name : String)
    (nodes : List NodeId) : List NodeId :=
  nodes.filter fun id => kindOf id = kind ∧ nameOf id = some name

/-- The first function of a name, or the first method when there is no such function. -/
def declared? (kindOf : NodeId → Kind) (nameOf : NodeId → Option String) (name : String)
    (nodes : List NodeId) : Option NodeId :=
  (named kindOf nameOf .funcDecl name nodes).head?.or (named kindOf nameOf .methodDecl name nodes).head?

theorem named_concat (kind : Kind) (nodes : List NodeId) :
    named kindOf nameOf kind name (nodes ++ [id]) =
      if kindOf id = kind ∧ nameOf id = some name then named kindOf nameOf kind name nodes ++ [id]
      else named kindOf nameOf kind name nodes := by
  unfold named
  rw [List.filter_append]
  split_ifs with hListed
  · simp [hListed]
  · simpa using hListed

theorem kind_of_head?_named {kind : Kind} {nodes : List NodeId}
    (found : (named kindOf nameOf kind name nodes).head? = some id) : kindOf id = kind := by
  have hListed := (List.mem_filter.mp (List.mem_of_head? found)).2
  simp only [decide_eq_true_eq] at hListed
  exact hListed.1

/-- One more declaration of a name is weighed against the choice before. -/
theorem declared?_concat (nodes : List NodeId) (function : (kindOf id).isFuncDeclaration)
    (hName : nameOf id = some name) :
    declared? kindOf nameOf name (nodes ++ [id]) =
      some (preferred kindOf (declared? kindOf nameOf name nodes) id) := by
  unfold declared?
  rw [named_concat, named_concat]
  cases hFunction : (named kindOf nameOf .funcDecl name nodes).head? with
  | some first =>
      -- a function that came before stays the first one
      have hKind := kind_of_head?_named hFunction
      split_ifs <;> simp [preferred, hFunction, hKind]
  | none =>
      rcases Kind.isFuncDeclaration_iff.mp function with hKind | hKind
      · -- a first function comes before all methods
        cases hMethod : (named kindOf nameOf .methodDecl name nodes).head? with
        | none => simp [preferred, hKind, hName, hFunction, hMethod]
        | some method =>
            have hHeld := kind_of_head?_named hMethod
            simp [preferred, hKind, hName, hFunction, hHeld]
      · -- a method only counts when it is the first one
        cases hMethod : (named kindOf nameOf .methodDecl name nodes).head? with
        | none => simp [preferred, hKind, hName, hFunction, hMethod]
        | some method => simp [preferred, hKind, hName, hFunction, hMethod]

/-- Other nodes do not count. -/
theorem declared?_concat_other (nodes : List NodeId)
    (other : ¬ ((kindOf id).isFuncDeclaration ∧ nameOf id = some name)) :
    declared? kindOf nameOf name (nodes ++ [id]) = declared? kindOf nameOf name nodes := by
  have hOther : ∀ kind : Kind, kind.isFuncDeclaration → ¬ (kindOf id = kind ∧ nameOf id = some name) := by
    rintro kind function ⟨hKind, hName⟩
    exact other ⟨hKind ▸ function, hName⟩
  unfold declared?
  rw [named_concat, named_concat, if_neg (hOther .funcDecl rfl), if_neg (hOther .methodDecl rfl)]

/-- Only functions and methods count. -/
theorem declared?_filter (nodes : List NodeId) :
    declared? kindOf nameOf name (nodes.filter fun id => (kindOf id).isFuncDeclaration) =
      declared? kindOf nameOf name nodes := by
  have hNamed : ∀ kind : Kind, kind.isFuncDeclaration →
      named kindOf nameOf kind name (nodes.filter fun id => (kindOf id).isFuncDeclaration) =
        named kindOf nameOf kind name nodes := by
    intro kind function
    unfold named
    rw [List.filter_filter]
    apply List.filter_congr
    intro id _
    by_cases hKind : kindOf id = kind
    · simp [hKind, function]
    · simp [hKind]
  unfold declared?
  rw [hNamed .funcDecl rfl, hNamed .methodDecl rfl]

/-- The index after one more node of the walk. -/
def gathered (arena : Arena) (nameOf : NodeId → Option String) (index : List (String × NodeId))
    (id : NodeId) : List (String × NodeId) :=
  match nameOf id with
  | some name =>
    if (arena.kind id).isFuncDeclaration then indexFunction arena index name id else index
  | none => index

/-- At the end of the walk the index gives for every name the declaration that has precedence. -/
theorem lookup_foldl_gathered (arena : Arena) (nodes : List NodeId) :
    (nodes.foldl (gathered arena nameOf) []).lookup name =
      declared? arena.kind nameOf name nodes := by
  induction nodes using List.reverseRecOn with
  | nil => rfl
  | append_singleton nodes id ih =>
      rw [List.foldl_concat]
      by_cases hListed : (arena.kind id).isFuncDeclaration ∧ nameOf id = some name
      · obtain ⟨function, hName⟩ := hListed
        rw [declared?_concat nodes function hName, gathered, hName]
        dsimp only
        rw [if_pos function, lookup_indexFunction, if_pos rfl, ih]
      · rw [declared?_concat_other nodes hListed, gathered, ← ih]
        cases hName : nameOf id with
        | none => rfl
        | some other =>
            dsimp only
            split_ifs with function
            · rw [lookup_indexFunction, if_neg]
              rintro rfl
              exact hListed ⟨function, hName⟩
            · rfl

end Precedence

section Runs

variable {forest : Forest} {session : Session} {id : NodeId}

theorem indexFunction_congr {first second : Arena} {index : List (String × NodeId)}
    (same : second.kind id = first.kind id)
    (held : ∀ entry ∈ index, second.kind entry.2 = first.kind entry.2) (name : String) :
    indexFunction second index name id = indexFunction first index name id := by
  unfold indexFunction
  cases hHeld : index.lookup name with
  | none => rfl
  | some other =>
      have hOther : second.kind other = first.kind other := held _ (Session.mem_of_lookup hHeld)
      simp only [same, hOther]

theorem gatherFunction_run (forest : Forest) (session : Session) (index : List (String × NodeId))
    (id : NodeId) :
    (forest.gatherFunction index id).run session =
      if (session.arena.kind id).isFuncDeclaration then
        let named := (forest.name? id).run session
        ((.skip, match named.1 with
          | some name => indexFunction named.2.arena index name id
          | none => index), named.2)
      else ((.descend, index), session) := by
  rw [gatherFunction, Explore.run_read]
  split_ifs with function
  · rw [Explore.run_bind]
    dsimp only
    cases ((forest.name? id).run session).1 <;> rfl
  · rfl

/-- A function is named by the text of its child in that role. -/
theorem name?_run_function (forest : Forest) (session : Session)
    (function : (session.arena.kind id).isFuncDeclaration) :
    ((forest.name? id).run session).1 =
      let asked := (forest.children id).run session
      (asked.1.find? fun child => forest.field? asked.2.arena child == some "name").map
        (forest.sourceText asked.2.arena) := by
  rw [name?, Explore.run_read]
  rcases Kind.isFuncDeclaration_iff.mp function with hKind | hKind
  · rw [hKind]
    dsimp only
    rw [Explore.run_bind, ident?, Explore.run_read, hKind]
    rfl
  · rw [hKind]
    dsimp only
    rw [Explore.run_bind, ident?, Explore.run_read, hKind]
    rfl

end Runs

end Forest

namespace Arena

/-- The verdicts of a walk that does not look inside functions. -/
def outside (arena : Arena) (id : NodeId) : Verdict :=
  if (arena.kind id).isFuncDeclaration then .skip else .descend

instance (arena : Arena) (id : NodeId) : Decidable (arena.Exposed id) :=
  decidable_of_iff
    (id < arena.size ∧ ∀ upper ∈ arena.ancestors id, ¬ (arena.kind upper).isFuncDeclaration)
    ⟨fun ⟨known, clear⟩ => ⟨known, clear⟩, fun ⟨known, clear⟩ => ⟨known, clear⟩⟩

instance (arena : Arena) (id : NodeId) : Decidable (arena.Outermost id) :=
  decidable_of_iff (arena.Exposed id ∧ (arena.kind id).isFuncDeclaration)
    ⟨fun ⟨exposed, function⟩ => ⟨exposed, function⟩,
      fun ⟨exposed, function⟩ => ⟨exposed, function⟩⟩

/-- The functions and methods that lie in no other one, in pre-order. -/
def outermost (arena : Arena) : List NodeId :=
  (arena.preorder Arena.root).filter fun id => arena.Outermost id

/-- A walk that does not look inside functions comes to those functions that lie in no other one, and
in the same order as a walk through everything. -/
theorem WellNumbered.filter_preorderBy_outside {forest : Forest} {arena : Arena} {id : NodeId}
    (h : arena.WellNumbered forest) (exposed : arena.Exposed id) :
    (arena.preorderBy arena.outside id).filter (fun id => (arena.kind id).isFuncDeclaration) =
      (arena.preorder id).filter fun id => arena.Outermost id := by
  induction id using h.induction_down with
  | step id ih =>
      by_cases function : (arena.kind id).isFuncDeclaration
      · have hInside : (arena.preorder id).tail.filter (fun id => arena.Outermost id) = [] := by
          rw [List.filter_eq_nil_iff]
          intro node member
          have above := h.mem_tail_preorder.mp member
          simp only [decide_eq_true_eq]
          exact fun outermost => outermost.clear id above function
        have hSelf : arena.Outermost id := ⟨exposed, function⟩
        rw [preorderBy_skip (if_pos function), (h.preorder_eq_cons id).1, List.filter_cons,
          List.filter_cons, hInside]
        simp [function, hSelf]
      · have hSelf : ¬ arena.Outermost id := fun outermost => function outermost.function
        have hChild : ∀ child ∈ arena.childrenOf id, arena.Exposed child := fun child member =>
          exposed.child h (h.mem_childrenOf.mp member) function
        rw [h.preorderBy_descend (if_neg function), preorder, h.preorderBy_descend rfl,
          List.filter_cons, List.filter_cons, if_neg function, if_neg (by simpa using hSelf),
          List.filter_flatMap, List.filter_flatMap]
        apply List.flatMap_congr
        intro child member
        exact ih child member (hChild child member)

end Arena

namespace Session

section Index

variable {forest : Forest} {session earlier later last : Session} {name : String}

/-- The name that a node is given when it is asked for. -/
def nameOf (forest : Forest) (session : Session) (id : NodeId) : Option String :=
  ((forest.name? id).run session).1

/-- Of the functions and methods that lie in no other one, the first function of a name, or the first
method when there is no such function. -/
def declared? (forest : Forest) (session : Session) (name : String) : Option NodeId :=
  Forest.declared? session.arena.kind (session.nameOf forest) name session.arena.outermost

/-- It may be read off a walk that does not look inside functions. -/
theorem declared?_eq (sound : session.Sound forest) (name : String) :
    session.declared? forest name = Forest.declared? session.arena.kind (session.nameOf forest) name
      (session.arena.preorderBy session.arena.outside Arena.root) := by
  rw [declared?, Arena.outermost,
    ← sound.arena.filter_preorderBy_outside sound.arena.exposed_root, Forest.declared?_filter]

/-- From a session on, an index gives for every name the declaration that has precedence, and
everything outside functions has a number. -/
structure Surveys (forest : Forest) (session : Session) (index : List (String × NodeId)) : Prop where
  lookup : ∀ last, last.Sound forest → session.Extends last → ∀ name,
    index.lookup name = last.declared? forest name
  walked : ∀ last, last.Sound forest → session.Extends last →
    last.arena.PrunedPreorder last.arena.outside Arena.root
      (last.arena.preorderBy last.arena.outside Arena.root)

theorem Surveys.keep {index : List (String × NodeId)} (surveys : earlier.Surveys forest index)
    (h : earlier.Extends later) : later.Surveys forest index :=
  ⟨fun last hLast since => surveys.lookup last hLast (h.trans since),
    fun last hLast since => surveys.walked last hLast (h.trans since)⟩

/-- What one visit of the walk does, as it is read off a later session. -/
theorem gatherFunction_run_later {now : Session} {index : List (String × NodeId)} {id : NodeId}
    (walking : now.Walking forest session KnowsFunctions [id] index) (hLast : last.Sound forest)
    (since : ((forest.gatherFunction index id).run now).2.Extends last) :
    ((forest.gatherFunction index id).run now).1 =
      (last.arena.outside id, Forest.gathered last.arena (last.nameOf forest) index id) := by
  have hKnown := walking.knows.head
  have hNamed : now.Fixes forest .all (forest.name? id) (fun _ _ => True) :=
    name?_fixes walking.sound hKnown
  rw [Forest.gatherFunction_run] at since ⊢
  by_cases function : (now.arena.kind id).isFuncDeclaration
  · rw [if_pos function] at since ⊢
    dsimp only at since ⊢
    have hLasts : (forest.name? id).run last = (((forest.name? id).run now).1, last) :=
      hNamed.answer.2 last hLast since
    have hName : last.nameOf forest id = ((forest.name? id).run now).1 := by rw [nameOf, hLasts]
    have hKept : ∀ {node}, node < now.arena.size →
        last.arena.kind node = ((forest.name? id).run now).2.arena.kind node :=
      fun known => since.arena.kind _ (hNamed.allows.arena.lt known)
    have hKind : last.arena.kind id = now.arena.kind id :=
      (hNamed.allows.trans since).arena.kind id hKnown
    rw [Arena.outside, Forest.gathered, hName, hKind, if_pos function]
    cases ((forest.name? id).run now).1 with
    | none => rfl
    | some name =>
        dsimp only
        rw [if_pos function, Forest.indexFunction_congr (hKept hKnown)]
        intro entry member
        exact hKept (walking.held entry.2 (List.mem_map_of_mem member))
  · rw [if_neg function] at since ⊢
    have hKind : last.arena.kind id = now.arena.kind id := since.arena.kind id hKnown
    rw [Arena.outside, Forest.gathered, hKind, if_neg function]
    cases last.nameOf forest id with
    | none => rfl
    | some name =>
        dsimp only
        rw [if_neg function]

/-- The walk that builds the index surveys everything outside functions. -/
theorem walk_surveys (sound : session.Sound forest) :
    let walked := (forest.walk Arena.root [] forest.gatherFunction).run session
    walked.2.Surveys forest walked.1 := by
  intro walked
  have hNone : session.KnowsFunctions [] := .nil session
  have hWalk : ∀ {last}, last.Sound forest → walked.2.Extends last →
      walked.1 = (last.arena.preorderBy last.arena.outside Arena.root).foldl
          (Forest.gathered last.arena (last.nameOf forest)) [] ∧
        last.arena.PrunedPreorder last.arena.outside Arena.root
          (last.arena.preorderBy last.arena.outside Arena.root) :=
    fun hLast since => walk_foldl stable_knowsFunctions gatherFunction_visits sound
      sound.arena.nonempty hNone hLast since
      fun _ _ _ walking later => gatherFunction_run_later walking hLast later
  constructor
  · intro last hLast since name
    rw [(hWalk hLast since).1, Forest.lookup_foldl_gathered, ← declared?_eq hLast]
  · intro last hLast since
    exact (hWalk hLast since).2

/-- An index of functions that is there surveys everything outside functions. -/
def Surveyed (forest : Forest) (session : Session) : Prop :=
  ∀ index, session.functionIndex = some index → session.Surveys forest index

theorem surveyed_start (forest : Forest) : (Session.start forest).Surveyed forest :=
  fun _ h => nomatch h

theorem Surveyed.keep (surveyed : earlier.Surveyed forest) (h : earlier.Extends later)
    (same : later.functionIndex = earlier.functionIndex) : later.Surveyed forest := by
  intro index hIndex
  rw [same] at hIndex
  exact (surveyed index hIndex).keep h

/-- Building the index surveys everything, and nobody builds it twice. -/
theorem functionIndex_surveyed (sound : session.Sound forest)
    (surveyed : session.Surveyed forest) :
    (forest.functionIndex.run session).2.Surveyed forest := by
  cases hIndex : session.functionIndex with
  | some index => rwa [Forest.functionIndex_run_known hIndex]
  | none =>
      have hMissing : ((forest.walk Arena.root [] forest.gatherFunction).run
          session).2.functionIndex = none := by
        rw [(walk_gatherFunction_yields sound).allows.2]
        exact hIndex
      rw [Forest.functionIndex_run_fresh hIndex]
      rintro _ ⟨⟩
      exact (walk_surveys sound).keep (extends_functionIndex hMissing _)

/-- No other step touches the index. -/
theorem Evolves.surveyed (evolves : earlier.Evolves forest later)
    (numbered : earlier.arena.WellNumbered forest) (surveyed : earlier.Surveyed forest) :
    later.Surveyed forest := by
  induction evolves with
  | refl => exact surveyed
  | trans left _ ihLeft ihRight =>
      exact ihRight (left.keeps numbered).1 (ihLeft numbered surveyed)
  | nodes sound adds =>
      apply surveyed.keep adds.keeps
      rw [adds.2]
  | @remember earlier later arena spanIndex identIndex functionIndex =>
      have hEvolves : earlier.Evolves forest later :=
        .remember arena spanIndex identIndex functionIndex
      exact surveyed.keep (hEvolves.keeps numbered).2 functionIndex
  | spanIndex sound =>
      exact surveyed.keep (spanIndex_yields sound).leaves.2 (spanIndex_leaves sound).2
  | identIndex sound =>
      exact surveyed.keep (identIndex_yields sound).leaves.2 (identIndex_leaves sound).2
  | functionIndex sound => exact functionIndex_surveyed sound surveyed

end Index

section Histories

variable {forest : Forest} {package : Package} {first second session : Session} {id other : NodeId}
  {name : String}

/-- Functions at the same place have the same name after any two histories. -/
theorem nameOf_alike (before : first.Sound forest) (after : second.Sound forest)
    (alike : Arena.Alike forest first.arena second.arena id other)
    (function : (first.arena.kind id).isFuncDeclaration) :
    second.nameOf forest other = first.nameOf forest id := by
  have function' : (second.arena.kind other).isFuncDeclaration := alike.kind ▸ function
  have hFirst := children_yields .all before alike.known
  have hSecond := children_yields .all after alike.known'
  have hChildren := (alike.keep before.arena after.arena hFirst.allows.arena
    hSecond.allows.arena).children hFirst.sound.arena hSecond.sound.arena hFirst.answer
      hSecond.answer
  rw [nameOf, nameOf, forest.name?_run_function second function',
    forest.name?_run_function first function]
  generalize (forest.children id).run first = asked at hChildren ⊢
  generalize (forest.children other).run second = asked' at hChildren ⊢
  have hNamed : Option.Rel (Arena.Alike forest asked.2.arena asked'.2.arena)
      (asked.1.find? fun child => forest.field? asked.2.arena child == some "name")
      (asked'.1.find? fun child => forest.field? asked'.2.arena child == some "name") :=
    Arena.find?_alike hChildren fun _ _ alike => by rw [alike.field]
  dsimp only
  generalize asked.1.find? _ = found at hNamed ⊢
  generalize asked'.1.find? _ = found' at hNamed ⊢
  cases hNamed with
  | none => rfl
  | some hFound => exact congrArg some hFound.sourceText

/-- Among alike nodes, the declaration that has precedence is the same. -/
theorem declared?_alike (before : first.Sound forest) (after : second.Sound forest)
    {nodes others : List NodeId}
    (alike : List.Forall₂ (Arena.Alike forest first.arena second.arena) nodes others) :
    Option.Rel (Arena.Alike forest first.arena second.arena)
      (Forest.declared? first.arena.kind (first.nameOf forest) name nodes)
      (Forest.declared? second.arena.kind (second.nameOf forest) name others) := by
  have hNamed : ∀ kind : Kind, kind.isFuncDeclaration →
      Option.Rel (Arena.Alike forest first.arena second.arena)
        (Forest.named first.arena.kind (first.nameOf forest) kind name nodes).head?
        (Forest.named second.arena.kind (second.nameOf forest) kind name others).head? := by
    intro kind function
    apply Arena.head?_alike
    apply Arena.filter_alike alike
    intro id other hAlike
    rw [hAlike.kind]
    by_cases hKind : first.arena.kind id = kind
    · rw [nameOf_alike before after hAlike (hKind ▸ function)]
    · simp [hKind]
  exact Arena.or_alike (hNamed .funcDecl rfl) (hNamed .methodDecl rfl)

/-- The answer for a name is the declaration that has precedence, at any later time. -/
theorem declarationByName?_eq (sound : session.Sound forest) (surveyed : session.Surveyed forest)
    (hPackage : forest.package = some package) (name : String) :
    let asked := (forest.declarationByName? name).run session
    asked.2.Sound forest ∧ asked.2.Surveys forest (forest.functionIndex.run session).1 ∧
      asked.1 = (forest.functionIndex.run session).1.lookup name := by
  intro asked
  have hRun : asked = ((forest.functionIndex.run session).1.lookup name,
      (forest.functionIndex.run session).2) := by
    simp only [asked, Forest.declarationByName?, hPackage]
    rfl
  rw [hRun]
  exact ⟨(functionIndex_yields sound).sound, functionIndex_surveyed sound surveyed _
    (forest.functionIndex_run_index session), rfl⟩

end Histories

end Session

/-- After any history an index of functions that is there follows the rule of precedence. -/
theorem Reachable.surveyed {forest : Forest} {session : Session}
    (reached : Reachable forest session) : session.Surveyed forest :=
  reached.evolves.surveyed (Session.sound_start forest).arena (Session.surveyed_start forest)

/-- A name is looked up, after any history. Among the functions and methods that lie in no other one,
the answer is the first function of that name in pre-order, or the first method of that name when there
is no such function, or nothing. This may be read off the tree at any later time, at which everything
may have a number. Any other history of the package finds a node at the same place, or nothing as
well. -/
theorem Reachable.declarationByName?_precedence {forest : Forest} {package : Package}
    {session : Session} (reached : Reachable forest session)
    (hPackage : forest.package = some package) (name : String) :
    let asked := (forest.declarationByName? name).run session
    (∀ later, Leads forest asked.2 later →
      asked.1 = Forest.declared? later.arena.kind (later.nameOf forest) name
        later.arena.outermost) ∧
    ∀ other, Reachable forest other →
      let again := (forest.declarationByName? name).run other
      Option.Rel (Arena.Alike forest asked.2.arena again.2.arena) asked.1 again.1 := by
  intro asked
  obtain ⟨hSound, hSurveys, hAnswer⟩ :=
    Session.declarationByName?_eq reached.sound reached.surveyed hPackage name
  constructor
  · intro later leads
    obtain ⟨hLater, since⟩ := leads.sound_extends hSound
    exact hAnswer.trans (hSurveys.lookup later hLater since name)
  · intro other reached' again
    obtain ⟨hSound', hSurveys', hAnswer'⟩ :=
      Session.declarationByName?_eq reached'.sound reached'.surveyed hPackage name
    have hWalked := hSurveys.walked asked.2 hSound (.refl _)
    have hWalked' := hSurveys'.walked again.2 hSound' (.refl _)
    have hFirst : asked.1 = Forest.declared? asked.2.arena.kind (asked.2.nameOf forest) name _ :=
      (hAnswer.trans (hSurveys.lookup asked.2 hSound (.refl _) name)).trans
        (Session.declared?_eq hSound name)
    have hSecond : again.1 = Forest.declared? again.2.arena.kind (again.2.nameOf forest) name _ :=
      (hAnswer'.trans (hSurveys'.lookup again.2 hSound' (.refl _) name)).trans
        (Session.declared?_eq hSound' name)
    rw [hFirst, hSecond]
    apply Session.declared?_alike hSound hSound'
    apply hWalked.alike hWalked' hSound.arena hSound'.arena
    intro id node alike
    rw [Arena.outside, Arena.outside, alike.kind]

namespace Sample

/-- A method. -/
def methodUnit : ParsedUnit where
  source := ⟨"a.go", 0, "func(t)f()"⟩
  snapshot := ⟨#[
    { kind := "source_file", span := ⟨0, 10⟩, children := [1] },
    { kind := "method_declaration", span := ⟨0, 10⟩, children := [2] },
    { kind := "field_identifier", span := ⟨7, 8⟩, field := some "name" }]⟩

/-- A function with the name of the method. -/
def functionUnit : ParsedUnit where
  source := ⟨"b.go", 11, "func f()"⟩
  snapshot := ⟨#[
    { kind := "source_file", span := ⟨0, 8⟩, children := [1] },
    { kind := "function_declaration", span := ⟨0, 8⟩, children := [2] },
    { kind := "identifier", span := ⟨5, 6⟩, field := some "name" }]⟩

def contested : Forest where
  units := [methodUnit, functionUnit]
  package := some ⟨"p", {}⟩
  accepted := by decide
  standalone := by decide

/-- The session in which the second unit was looked at before the first one. -/
def contestedSession : Session :=
  Query.after contested (Query.after contested (.start contested) (.children 0)) (.children 2)

theorem reachable_contestedSession : Reachable contested contestedSession := by
  apply Leads.trans (.ask (.children 0) (.cons (by decide) (.nil _)))
  exact .ask (.children 2) (.cons (by decide +kernel) (.nil _))

end Sample

/-- The function is found although the method comes first. It has another number when its unit was
looked at before. -/
theorem Reachable.declarationByName?_precedence_sample :
    let asked := (Sample.contested.declarationByName? "f").run (.start Sample.contested)
    let again := (Sample.contested.declarationByName? "f").run Sample.contestedSession
    asked.2.arena.outermost = [3, 5] ∧ asked.1 = some 5 ∧ again.1 = some 3 ∧
      Forest.declared? asked.2.arena.kind (asked.2.nameOf Sample.contested) "f" [3, 5] = some 5 ∧
      Arena.Alike Sample.contested asked.2.arena again.2.arena 5 3 := by
  intro asked again
  have hOutermost : asked.2.arena.outermost = [3, 5] := by decide +kernel
  have hAsked : asked.1 = some 5 := by decide +kernel
  have hAgain : again.1 = some 3 := by decide +kernel
  obtain ⟨hDeclared, hAlike⟩ :=
    Reachable.declarationByName?_precedence (.refl (.start Sample.contested)) rfl "f"
  have hFive := hDeclared asked.2 (.refl _)
  have hSame : Option.Rel (Arena.Alike Sample.contested asked.2.arena again.2.arena) asked.1 again.1 :=
    hAlike Sample.contestedSession Sample.reachable_contestedSession
  rw [hOutermost] at hFive
  rw [hAsked, hAgain] at hSame
  refine ⟨hOutermost, hAsked, hAgain, hFive.symm.trans hAsked, ?_⟩
  cases hSame with
  | some alike => exact alike

end SyntaxAtlas
