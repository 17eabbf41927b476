import SyntaxAtlas.Proofs.Graph.Walks
import SyntaxAtlas.Proofs.SymbolTable.Scopes

/-! Answers that are remembered. The first question for a declaration or for usages works the answer
out and keeps it. Working it out again in the session that this leaves gives the same and changes
nothing, so that a remembered answer is as good as a resolved one. -/
namespace SyntaxAtlas

namespace Forest

variable {forest : Forest} {arena : Arena} {pos : Nat} {candidates : List NodeId} {node : NodeId}

/-- The candidates whose scope contains a position, with the starts of their scopes. -/
def visibleCandidates (forest : Forest) (arena : Arena) (pos : Nat) (candidates : List NodeId) :
    List (Nat × NodeId) :=
  candidates.filterMap fun candidate => do
    let scope ← forest.scope? arena candidate
    if scope.Contains pos then some (scope.range.start, candidate) else none

theorem visibleCandidate?_eq (forest : Forest) (arena : Arena) (pos : Nat)
    (candidates : List NodeId) :
    forest.visibleCandidate? arena pos candidates =
      ((forest.visibleCandidates arena pos candidates).foldl (laterBy Prod.fst) none).map
        Prod.snd := by
  have hStep : laterScope = laterBy Prod.fst := by
    funext best candidate
    cases best <;> rfl
  rw [visibleCandidate?, hStep, visibleCandidates]

theorem mem_visibleCandidates {entry : Nat × NodeId} :
    entry ∈ forest.visibleCandidates arena pos candidates ↔
      entry.2 ∈ candidates ∧ ∃ scope, forest.scope? arena entry.2 = some scope ∧
        scope.Contains pos ∧ scope.range.start = entry.1 := by
  obtain ⟨start, node⟩ := entry
  unfold visibleCandidates
  simp only [List.mem_filterMap, Option.bind_eq_bind, Option.bind_eq_some_iff,
    Option.ite_none_right_eq_some, Option.some.injEq, Prod.mk.injEq]
  refine ⟨?_, ?_⟩
  · rintro ⟨candidate, member, scope, hScope, hContains, rfl, rfl⟩
    exact ⟨member, scope, hScope, hContains, rfl⟩
  · rintro ⟨member, scope, hScope, hContains, rfl⟩
    exact ⟨node, member, scope, hScope, hContains, rfl, rfl⟩

/-- The choice among candidates is one of them. -/
theorem mem_of_chosenCandidate?
    (chosen : forest.chosenCandidate? arena pos candidates = some node) : node ∈ candidates := by
  unfold chosenCandidate? at chosen
  split at chosen
  · rw [Option.some.inj chosen]
    exact List.mem_singleton_self node
  · rw [visibleCandidate?_eq] at chosen
    obtain ⟨entry, hFold, rfl⟩ := Option.map_eq_some_iff.mp chosen
    exact (mem_visibleCandidates.mp (mem_of_foldl_laterBy hFold)).1

end Forest

namespace Session

variable {forest : Forest} {session : Session} {id : NodeId}

theorem findDeclarations_yields (sound : session.Sound forest) :
    session.Yields forest .all (forest.findDeclarations id) Knows := by
  unfold Forest.findDeclarations
  cases forest.package with
  | none => exact .pure sound (.nil session)
  | some package =>
      refine .read ((identsAt_yields sound).bind ?_)
      intro later idents sound _ knows
      exact .read (.pure sound (knows.subset (List.filter_subset_self idents)))

theorem findDeclarationsOfKinds_yields {kinds : List Kind} (sound : session.Sound forest) :
    session.Yields forest .all (forest.findDeclarationsOfKinds kinds id) Knows := by
  refine (findDeclarations_yields sound).bind ?_
  intro later idents sound _ knows
  exact .read (.pure sound (knows.subset (List.filter_subset_self idents)))

/-- Looking the same positions up once more finds the same, whatever the first look-up did. -/
theorem settles_identsAt (forest : Forest) (session : Session) (positions : List Nat) :
    ((forest.identsAt positions).run session).2.Settles (forest.identsAt positions)
      ((forest.identsAt positions).run session).1 := by
  cases positions with
  | nil => rfl
  | cons pos rest =>
      rw [Forest.identsAt_run_cons]
      exact Forest.identsAt_run_known (Forest.identIndex_run_index forest session) _

/-- A question that leaves the session alone is its own repetition. -/
theorem Yields.of_settles {α : Type} {footprint : Footprint} {question : Explore α} {answer : α}
    {good : Session → α → Prop} (sound : session.Sound forest)
    (settles : session.Settles question answer) (h : good session answer) :
    session.Yields forest footprint question
      (fun later answer => good later answer ∧ later.Settles question answer) := by
  exact .of_run settles sound (.refl footprint session) ⟨h, settles⟩

/-- Resolving a declaration again gives the same. -/
theorem resolveDeclaration?_yields {package : Package} (sound : session.Sound forest)
    (known : id < session.arena.size) :
    session.Yields forest .all (forest.resolveDeclaration? package id)
      (fun later found => later.Finds found ∧
        later.Settles (forest.resolveDeclaration? package id) found) := by
  by_cases hBlank : forest.sourceText session.arena id = Forest.blankName
  · refine .of_settles sound ?_ (finds_none session)
    unfold Settles
    rw [Forest.resolveDeclaration?_run, if_pos hBlank]
  · let positions := Forest.declaredPositions package (forest.sourceText session.arena id)
    have hLook : session.Yields forest .all (forest.identsAt positions) Knows :=
      identsAt_yields sound
    have hAgain := settles_identsAt forest session positions
    have hRun := forest.resolveDeclaration?_run session package id
    rw [if_neg hBlank] at hRun
    refine .of_run hRun hLook.sound hLook.allows ⟨?_, ?_⟩
    · exact fun node chosen => hLook.answer node (Forest.mem_of_chosenCandidate? chosen)
    · unfold Settles at hAgain ⊢
      rw [Forest.resolveDeclaration?_run, forest.sourceText_extends hLook.allows.keeps.arena known,
        if_neg hBlank, hAgain]

/-- Resolving usages again gives the same. -/
theorem resolveUsages_yields {package : Package} (sound : session.Sound forest)
    (known : id < session.arena.size) :
    session.Yields forest .all (forest.resolveUsages package id)
      (fun later ids => later.Knows ids ∧
        later.Settles (forest.resolveUsages package id) ids) := by
  have hRun := forest.resolveUsages_run session package id
  cases hScope : forest.scope? session.arena id with
  | none =>
      rw [hScope] at hRun
      exact .of_settles sound hRun (.nil session)
  | some scope =>
      rw [hScope] at hRun
      dsimp only at hRun
      split_ifs at hRun with hBlank
      · exact .of_settles sound hRun (.nil session)
      · let positions := Forest.usagePositions package.symbols scope
          (forest.sourceText session.arena id) (session.arena.span id).start
        have hLook : session.Yields forest .all (forest.identsAt positions) Knows :=
          identsAt_yields sound
        have hAgain := settles_identsAt forest session positions
        have hKeeps := hLook.allows.keeps.arena
        have hSettles : ((forest.identsAt positions).run session).2.Settles
            (forest.resolveUsages package id) ((forest.identsAt positions).run session).1 := by
          unfold Settles at hAgain ⊢
          rw [Forest.resolveUsages_run, forest.scope?_extends hKeeps known, hScope,
            forest.sourceText_extends hKeeps known, hKeeps.span id known]
          dsimp only
          rw [if_neg hBlank]
          exact hAgain
        exact .of_run hRun hLook.sound hLook.allows ⟨hLook.answer, hSettles⟩

/-- The remembered answers of a later session may be replaced by longer lists. -/
theorem extends_remember (session : Session) (declarations : List (NodeId × Option NodeId))
    (usages : List (NodeId × List NodeId)) :
    session.Extends { session with declarations := declarations, usages := usages } :=
  ⟨.refl _, fun _ h => h, fun _ h => h, fun _ h => h⟩

/-- A resolved declaration may be remembered. -/
theorem Sound.rememberDeclaration {entry : NodeId × Option NodeId} (sound : session.Sound forest)
    (recalls : session.RecallsDeclaration forest entry) :
    Sound forest { session with declarations := entry :: session.declarations } := by
  have hKeeps := session.extends_remember (entry :: session.declarations) session.usages
  refine sound.update hKeeps sound.arena (fun _ h => .inl h) (fun _ h => .inl h) (fun _ h => .inl h)
    ?_ (fun _ h => .inl h)
  intro other member
  rcases List.mem_cons.mp member with rfl | hOld
  · exact .inr (recalls.keep hKeeps sound.identIndex)
  · exact .inl hOld

/-- Resolved usages may be remembered. -/
theorem Sound.rememberUsages {entry : NodeId × List NodeId} (sound : session.Sound forest)
    (recalls : session.RecallsUsages forest entry) :
    Sound forest { session with usages := entry :: session.usages } := by
  have hKeeps := session.extends_remember session.declarations (entry :: session.usages)
  refine sound.update hKeeps sound.arena (fun _ h => .inl h) (fun _ h => .inl h) (fun _ h => .inl h)
    (fun _ h => .inl h) ?_
  intro other member
  rcases List.mem_cons.mp member with rfl | hOld
  · exact .inr (recalls.keep hKeeps)
  · exact .inl hOld

/-- The question for a declaration is answered by resolving it, and differs from it in what is
remembered only. -/
theorem declaration?_run {package : Package} (sound : session.Sound forest)
    (hPackage : forest.package = some package) (hKind : (session.arena.kind id).isIdentifier) :
    ∃ memory, (forest.declaration? id).run session =
      (((forest.resolveDeclaration? package id).run session).1,
        { ((forest.resolveDeclaration? package id).run session).2 with declarations := memory }) := by
  rw [Forest.declaration?, Explore.run_read, hPackage]
  dsimp only
  rw [if_pos hKind]
  cases hCached : session.declarations.lookup id with
  | none => exact ⟨_, rfl⟩
  | some found =>
      have hSettles := (sound.declarations _ (mem_of_lookup hCached)).2.2 package hPackage
      unfold Settles at hSettles
      refine ⟨session.declarations, ?_⟩
      rw [hSettles]
      rfl

/-- The question for usages is answered by resolving them. -/
theorem usages_run {package : Package} (sound : session.Sound forest)
    (hPackage : forest.package = some package) (hKind : (session.arena.kind id).isIdentifier) :
    ∃ memory, (forest.usages id).run session =
      (((forest.resolveUsages package id).run session).1,
        { ((forest.resolveUsages package id).run session).2 with usages := memory }) := by
  rw [Forest.usages, Explore.run_read, hPackage]
  dsimp only
  rw [if_pos hKind]
  cases hCached : session.usages.lookup id with
  | none => exact ⟨_, rfl⟩
  | some found =>
      have hSettles := (sound.usages _ (mem_of_lookup hCached)).2.2 package hPackage
      unfold Settles at hSettles
      refine ⟨session.usages, ?_⟩
      rw [hSettles]
      rfl

/-- A declaration that is asked for is the one that is resolved, whether it was asked for before or
not. -/
theorem declaration?_yields (sound : session.Sound forest) (known : id < session.arena.size) :
    session.Yields forest .all (forest.declaration? id) (fun later found => later.Finds found ∧
      ∀ package, forest.package = some package → (later.arena.kind id).isIdentifier →
        later.Settles (forest.resolveDeclaration? package id) found) := by
  refine .read ?_
  cases hPackage : forest.package with
  | none => exact .pure sound ⟨finds_none session, fun _ h => (nomatch h)⟩
  | some package =>
      dsimp only
      split_ifs with hKind
      · cases hCached : session.declarations.lookup id with
        | some found =>
            obtain ⟨_, knows, settles⟩ := sound.declarations _ (mem_of_lookup hCached)
            refine .pure sound ⟨?_, fun package h _ => settles package (hPackage.trans h)⟩
            exact fun node hNode => knows node (Option.mem_toList.mpr hNode)
        | none =>
            refine (resolveDeclaration?_yields sound known).bind ?_
            rintro later found sound grown ⟨finds, settles⟩
            have hRecalls : later.RecallsDeclaration forest (id, found) := by
              refine ⟨grown.keeps.arena.lt known, ?_, ?_⟩
              · exact fun node member => finds node (Option.mem_toList.mp member)
              · intro other hOther
                obtain rfl := Option.some.inj (hPackage.symm.trans hOther)
                exact settles
            have hSound := sound.rememberDeclaration hRecalls
            refine .change (later.extends_remember _ _) (.pure hSound ⟨finds, ?_⟩)
            intro other hOther _
            exact (hSound.declarations _ List.mem_cons_self).2.2 other (hPackage.trans hOther)
      · exact .pure sound ⟨finds_none session, fun _ _ h => absurd h hKind⟩

/-- Usages that are asked for are the ones that are resolved. -/
theorem usages_yields (sound : session.Sound forest) (known : id < session.arena.size) :
    session.Yields forest .all (forest.usages id) (fun later ids => later.Knows ids ∧
      ∀ package, forest.package = some package → (later.arena.kind id).isIdentifier →
        later.Settles (forest.resolveUsages package id) ids) := by
  refine .read ?_
  cases hPackage : forest.package with
  | none => exact .pure sound ⟨.nil session, fun _ h => (nomatch h)⟩
  | some package =>
      dsimp only
      split_ifs with hKind
      · cases hCached : session.usages.lookup id with
        | some ids =>
            obtain ⟨_, knows, settles⟩ := sound.usages _ (mem_of_lookup hCached)
            exact .pure sound ⟨knows, fun package h _ => settles package (hPackage.trans h)⟩
        | none =>
            refine (resolveUsages_yields sound known).bind ?_
            rintro later ids sound grown ⟨knows, settles⟩
            have hRecalls : later.RecallsUsages forest (id, ids) := by
              refine ⟨grown.keeps.arena.lt known, knows, ?_⟩
              intro other hOther
              obtain rfl := Option.some.inj (hPackage.symm.trans hOther)
              exact settles
            have hSound := sound.rememberUsages hRecalls
            refine .change (later.extends_remember _ _) (.pure hSound ⟨knows, ?_⟩)
            intro other hOther _
            exact (hSound.usages _ List.mem_cons_self).2.2 other (hPackage.trans hOther)
      · exact .pure sound ⟨.nil session, fun _ _ h => absurd h hKind⟩

theorem firstUsage?_yields (sound : session.Sound forest) (known : id < session.arena.size) :
    session.Yields forest .all (forest.firstUsage? id) Finds := by
  refine (usages_yields sound known).bind ?_
  rintro later ids sound _ ⟨knows, _⟩
  refine .read (.pure sound ?_)
  intro node found
  refine knows node (mem_of_foldl_choice ?_ found)
  rintro (_ | held) entry
  · exact .inr rfl
  · unfold Forest.earlierStart
    dsimp only
    split_ifs
    · exact .inl rfl
    · exact .inr rfl

end Session

end SyntaxAtlas
