import SyntaxAtlas.Proofs.Graph.Histories
import SyntaxAtlas.Proofs.Graph.Tours

/-! What a call tree holds: everything below its start, and every function that calls lead to with
everything below that. Whether a node is passed twice depends on the start alone, since the functions
that are entered never lie in one another. -/
namespace SyntaxAtlas

namespace Forest

theorem callTreeNodes_run {forest : Forest} {package : Package}
    (hPackage : forest.package = some package) (session : Session) (start : NodeId) :
    (forest.callTreeNodes (fun _ => pure true) start).run session =
      let tour := (forest.expand collect forest.callDepth start ⟨[start], [], false⟩).run session
      (tour.1.state, tour.2) := by
  rw [callTreeNodes, callTour, hPackage]
  rfl

end Forest

/-- The least set that holds a node and, with each member, what is called properly below it. -/
inductive CallClosure (forest : Forest) (session : Session) (start : NodeId) : NodeId → Prop where
  | start : CallClosure forest session start start
  | call {member call callee : NodeId} (reached : CallClosure forest session start member)
      (below : member ∈ session.arena.ancestors call) (called : session.Calls forest call callee) :
      CallClosure forest session start callee

/-- Unless nothing is called, there is a call below the start. -/
theorem CallClosure.eq_start_or_exists_call {forest : Forest} {session : Session}
    {start function : NodeId} (reached : CallClosure forest session start function) :
    function = start ∨ ∃ call, start ∈ session.arena.ancestors call := by
  induction reached with
  | start => exact .inl rfl
  | call reached below called ih =>
      rcases ih with rfl | hCall
      · exact .inr ⟨_, below⟩
      · exact .inr hCall

namespace Session

section Whole

variable {forest : Forest} {session last : Session} {start : NodeId} {visited entered : List NodeId}

/-- From a start on, a tour is explained by what is below the start. -/
theorem exists_entered {package : Package} (hPackage : forest.package = some package)
    (sound : session.Sound forest) (known : start < session.arena.size)
    (bottom : NodeId → CallStage (List NodeId)) :
    let tour := (forest.callTreeNodes (fun _ => pure true) start).run session
    let unbounded := (forest.expandOver Forest.collect bottom forest.callDepth start
      ⟨[start], [], false⟩).run session
    (unbounded.1.state, unbounded.2) = tour ∧ session.Extends tour.2 ∧ tour.2.Sound forest ∧
      ∃ entered, (entered ++ [start]).Nodup ∧
        ∀ last, last.Sound forest → tour.2.Extends last →
          last.Explains forest (.below last.arena start) (entered ++ [start]) tour.1 entered := by
  have hUnderway : session.Underway forest ⟨[start], [], false⟩ :=
    ⟨sound, .cons known (.nil session), List.nodup_singleton start, rfl⟩
  obtain ⟨out, hStage, hTwin, keeps, underway, visited, entered, hState, hEntered, explains⟩ :=
    expandOver_performs (fun _ => pure) bottom forest.callDepth hUnderway
      ⟨known, forest.demand_start _⟩
  rw [← forest.expand_eq_expandOver] at hStage
  rw [Forest.callTreeNodes_run hPackage, hStage, hTwin]
  obtain rfl : out.1.state = visited := hState
  refine ⟨rfl, keeps, underway.sound, entered, ?_, ?_⟩
  · exact hEntered ▸ underway.nodup
  · exact hEntered ▸ explains

variable (nodup : (entered ++ [start]).Nodup)
  (explains : last.Explains forest (.below last.arena start) (entered ++ [start]) visited entered)

include nodup explains

/-- What was entered is what calls lead to, the start left out. -/
theorem Explains.mem_entered_iff {function : NodeId} :
    function ∈ entered ↔ CallClosure forest last start function ∧ function ≠ start := by
  constructor
  · intro member
    refine ⟨?_, ?_⟩
    · refine explains.least (CallClosure forest last start) ?_ ?_ function member
      · exact fun call callee below called => .call .start below called
      · exact fun caller call callee reached below called => .call reached below called
    · rintro rfl
      exact (List.nodup_append.mp nodup).2.2 function member function (List.mem_singleton_self _) rfl
  · rintro ⟨reached, other⟩
    have hAll : function ∈ entered ++ [start] := by
      clear other
      induction reached with
      | start => simp
      | call reached below called ih =>
          refine explains.closed _ _ ?_ called
          rcases List.mem_append.mp ih with hEntered | hStart
          · exact .inr ⟨_, hEntered, below⟩
          · rw [List.mem_singleton.mp hStart] at below
            exact .inl below
    rcases List.mem_append.mp hAll with hEntered | hStart
    · exact hEntered
    · exact absurd (List.mem_singleton.mp hStart) other

theorem Explains.mem_visited_iff (node : NodeId) :
    node ∈ visited ↔ start ∈ last.arena.ancestors node ∨
      ∃ function, CallClosure forest last start function ∧ function ≠ start ∧
        function ∈ last.arena.lineage node := by
  have hEntered : (∃ function, CallClosure forest last start function ∧ function ≠ start ∧
      function ∈ last.arena.lineage node) ↔ 0 < entered.countP (· ∈ last.arena.lineage node) := by
    simp only [List.countP_pos_iff, explains.mem_entered_iff nodup, decide_eq_true_eq, and_assoc]
  rw [← List.count_pos_iff, explains.count, hEntered]
  by_cases hBelow : start ∈ last.arena.ancestors node
  · simp only [Region.below, hBelow, if_true, true_or, iff_true]
    omega
  · simp only [Region.below, hBelow, if_false, Nat.zero_add, false_or]

/-- If the start is an outermost function itself, no node is passed twice, and the start not at
all. -/
theorem Explains.nodup_of_outermost (outermost : last.arena.Outermost start) :
    visited.Nodup ∧ start ∉ visited := by
  -- the start counts like any other function, so that each node is in one of them at most
  have hOnce : ∀ node, entered.countP (· ∈ last.arena.lineage node) +
      (if start ∈ last.arena.lineage node then 1 else 0) ≤ 1 := by
    intro node
    have hAll : ∀ function ∈ entered ++ [start], last.arena.Outermost function := by
      intro function member
      rcases List.mem_append.mp member with hEntered | hStart
      · exact explains.outermost function hEntered
      · exact List.mem_singleton.mp hStart ▸ outermost
    have hCount := Arena.countP_outermost_le_one nodup hAll node
    simpa only [List.countP_append, List.countP_singleton, decide_eq_true_eq] using hCount
  constructor
  · refine List.nodup_iff_count_le_one.mpr ?_
    intro node
    have hNode := hOnce node
    rw [explains.count, Region.below]
    by_cases hBelow : start ∈ last.arena.ancestors node
    · rw [if_pos (Arena.mem_lineage.mpr (.inr hBelow))] at hNode
      simp only [hBelow, if_true]
      omega
    · simp only [hBelow, if_false]
      omega
  · have hStart := hOnce start
    have hSelf := last.arena.not_mem_ancestors_self start
    rw [← List.count_pos_iff, explains.count, Region.below]
    simp only [hSelf, if_false]
    rw [if_pos (last.arena.mem_lineage_self start)] at hStart
    omega

/-- A node is passed twice when it is below the start and in a function that was entered. There is
such a node as soon as a function lies below the start or around it. -/
theorem Explains.nodup_iff :
    visited.Nodup ↔ ∀ function, CallClosure forest last start function → function ≠ start →
      start ∉ last.arena.ancestors function ∧ function ∉ last.arena.ancestors start := by
  constructor
  · intro hNodup function reached other
    have hMember := (explains.mem_entered_iff nodup).mpr ⟨reached, other⟩
    have hTwice : ∀ node, start ∈ last.arena.ancestors node →
        function ∉ last.arena.lineage node := by
      intro node below within
      have hCount := List.nodup_iff_count_le_one.mp hNodup node
      have hPositive : 0 < entered.countP (· ∈ last.arena.lineage node) :=
        List.countP_pos_iff.mpr ⟨function, hMember, decide_eq_true within⟩
      rw [explains.count, Region.below] at hCount
      simp only [below, if_true] at hCount
      omega
    constructor
    · intro below
      exact hTwice function below (last.arena.mem_lineage_self function)
    · intro above
      rcases reached.eq_start_or_exists_call with hSame | ⟨call, below⟩
      · exact other hSame
      · exact hTwice call below
          (Arena.mem_lineage.mpr (.inr (Arena.mem_ancestors_trans above below)))
  · intro hApart
    refine List.nodup_iff_count_le_one.mpr ?_
    intro node
    have hOnce := Arena.countP_outermost_le_one (List.nodup_append.mp nodup).1 explains.outermost node
    rw [explains.count, Region.below]
    by_cases below : start ∈ last.arena.ancestors node
    · have hNone : entered.countP (· ∈ last.arena.lineage node) = 0 := by
        refine List.countP_eq_zero.mpr ?_
        intro function member
        obtain ⟨reached, other⟩ := (explains.mem_entered_iff nodup).mp member
        obtain ⟨hOutside, hInside⟩ := hApart function reached other
        simp only [decide_eq_true_eq]
        intro within
        -- two nodes with a common one below them are on one path
        rcases Arena.mem_lineage_or_mem_lineage (Arena.mem_lineage.mpr (.inr below)) within with
          hUpper | hLower
        · rcases Arena.mem_lineage.mp hUpper with hSame | hAbove
          · exact other hSame.symm
          · exact hOutside hAbove
        · rcases Arena.mem_lineage.mp hLower with hSame | hAbove
          · exact other hSame
          · exact hInside hAbove
      simp [below, hNone]
    · simpa [below] using hOnce

theorem Explains.count_le_two (node : NodeId) : visited.count node ≤ 2 := by
  have hOnce := Arena.countP_outermost_le_one (List.nodup_append.mp nodup).1 explains.outermost node
  rw [explains.count, Region.below]
  dsimp only
  split_ifs <;> omega

end Whole

end Session

/-- A call tree is the closure of its start under calls. Its tour ends: whatever were done where its
depth is used up, the answer would be the same. It passes exactly what is properly below the start,
and each other function that calls lead to with everything below it, no matter at what later time
one asks what is below or who is called. A tour that starts at a declared function, whether it was
asked for before or after, passes each node once and its start not at all. -/
theorem Reachable.callTreeNodes_visits_closure {forest : Forest} {package : Package}
    {session : Session} (reached : Reachable forest session)
    (hPackage : forest.package = some package) {start : NodeId}
    (known : start < session.arena.size) :
    let tour := (forest.callTreeNodes (fun _ => pure true) start).run session
    (∀ bottom : NodeId → CallStage (List NodeId),
      let unbounded := (forest.expandOver Forest.collect bottom forest.callDepth start
        ⟨[start], [], false⟩).run session
      (unbounded.1.state, unbounded.2) = tour) ∧
    (∀ later, Leads forest tour.2 later → ∀ node, node ∈ tour.1 ↔
      start ∈ later.arena.ancestors node ∨
        ∃ function, CallClosure forest later start function ∧ function ≠ start ∧
          function ∈ later.arena.lineage node) ∧
    (∀ name asked, Leads forest session asked ∨ Reachable forest asked ∧
        Leads forest ((forest.declarationByName? name).run asked).2 session →
      ((forest.declarationByName? name).run asked).1 = some start →
      tour.1.Nodup ∧ start ∉ tour.1) := by
  have hTours := Session.exists_entered hPackage reached.sound known
  obtain ⟨_, keeps, sound, entered, nodup, explains⟩ := hTours fun _ => pure
  refine ⟨fun bottom => (hTours bottom).1, ?_, ?_⟩
  · intro later leads node
    obtain ⟨hLater, since⟩ := leads.sound_extends sound
    exact (explains later hLater since).mem_visited_iff nodup node
  · intro name asked hAsked found
    have hOutermost : session.arena.Outermost start := by
      rcases hAsked with after | ⟨before, leads⟩
      · obtain ⟨hSound, since⟩ := after.sound_extends reached.sound
        have hNamed : asked.Fixes forest .all (forest.declarationByName? name)
            Session.FindsFunction := Session.declarationByName?_fixes hSound
        have hKeeps := since.trans hNamed.allows
        exact (hKeeps.arena.outermost_iff known).mp (hNamed.answer.1 start found)
      · have hNamed : asked.Fixes forest .all (forest.declarationByName? name)
            Session.FindsFunction := Session.declarationByName?_fixes before.sound
        exact (hNamed.answer.1 start found).keep (leads.keeps hNamed.sound).arena
    exact (explains _ sound (.refl _)).nodup_of_outermost nodup (hOutermost.keep keeps.arena)

namespace Sample

/-- Two functions that call each other. -/
def parityUnit : ParsedUnit where
  source := ⟨"a.go", 0, "func f()\x7bg()\x7d;func g()\x7bf()\x7d"⟩
  snapshot := ⟨#[
    { kind := "source_file", span := ⟨0, 27⟩, children := [1, 8] },
    { kind := "function_declaration", span := ⟨0, 13⟩, children := [2, 3, 4] },
    { kind := "identifier", span := ⟨5, 6⟩, field := some "name" },
    { kind := "parameter_list", span := ⟨6, 8⟩, field := some "parameters" },
    { kind := "block", span := ⟨8, 13⟩, field := some "body", children := [5] },
    { kind := "call_expression", span := ⟨9, 12⟩, children := [6, 7] },
    { kind := "identifier", span := ⟨9, 10⟩, field := some "function" },
    { kind := "argument_list", span := ⟨10, 12⟩, field := some "arguments" },
    { kind := "function_declaration", span := ⟨14, 27⟩, children := [9, 10, 11] },
    { kind := "identifier", span := ⟨19, 20⟩, field := some "name" },
    { kind := "parameter_list", span := ⟨20, 22⟩, field := some "parameters" },
    { kind := "block", span := ⟨22, 27⟩, field := some "body", children := [12] },
    { kind := "call_expression", span := ⟨23, 26⟩, children := [13, 14] },
    { kind := "identifier", span := ⟨23, 24⟩, field := some "function" },
    { kind := "argument_list", span := ⟨24, 26⟩, field := some "arguments" }]⟩

def parity : Forest where
  units := [parityUnit]
  package := some ⟨"p", {}⟩
  accepted := by decide
  standalone := by decide

/-- The functions were indexed, and nothing inside their bodies has a number. -/
def paritySession : Session :=
  Query.after parity (.start parity) .functionIndex

theorem reachable_paritySession : Reachable parity paritySession :=
  .ask .functionIndex (Session.Knows.nil _)

/-- The call tree of a node. -/
def parityTour (start : NodeId) : List NodeId × Session :=
  (parity.callTreeNodes (fun _ => pure true) start).run paritySession

end Sample

/-- The first function leads to the second one and back, and each node is passed once. -/
theorem Reachable.callTreeNodes_visits_closure_sample :
    (Sample.parityTour 2).1 = [4, 5, 6, 10, 3, 7, 8, 9, 13, 14, 15, 11, 12] ∧
      (Sample.parityTour 2).1.Nodup ∧ 2 ∉ (Sample.parityTour 2).1 ∧
      ∃ function, CallClosure Sample.parity (Sample.parityTour 2).2 2 function ∧ function ≠ 2 ∧
        function ∈ (Sample.parityTour 2).2.arena.lineage 13 := by
  have hKnown : 2 < Sample.paritySession.arena.size := by decide +kernel
  have hDeclared : ((Sample.parity.declarationByName? "f").run Sample.paritySession).1 = some 2 := by
    decide +kernel
  have hTour : (Sample.parityTour 2).1 = [4, 5, 6, 10, 3, 7, 8, 9, 13, 14, 15, 11, 12] := by
    decide +kernel
  have hOutside : 2 ∉ (Sample.parityTour 2).2.arena.ancestors 13 := by decide +kernel
  obtain ⟨_, hMembers, hOnce⟩ :=
    Reachable.callTreeNodes_visits_closure Sample.reachable_paritySession rfl hKnown
  have hDistinct : (Sample.parityTour 2).1.Nodup ∧ 2 ∉ (Sample.parityTour 2).1 :=
    hOnce "f" Sample.paritySession (.inl (.refl _)) hDeclared
  have hMember : 13 ∈ (Sample.parityTour 2).1 := by
    rw [hTour]
    decide
  have hLater : Leads Sample.parity (Sample.parityTour 2).2 (Sample.parityTour 2).2 := .refl _
  have hIff := hMembers (Sample.parityTour 2).2 hLater 13
  exact ⟨hTour, hDistinct.1, hDistinct.2, (hIff.mp hMember).resolve_left hOutside⟩

/-- How often the tour of a call tree passes a node. It passes none more than twice, and none twice
exactly when no other function that calls lead to lies below the start or around it. -/
theorem Reachable.callTreeNodes_nodup_iff {forest : Forest} {package : Package}
    {session : Session} (reached : Reachable forest session)
    (hPackage : forest.package = some package) {start : NodeId}
    (known : start < session.arena.size) :
    let tour := (forest.callTreeNodes (fun _ => pure true) start).run session
    (∀ node, tour.1.count node ≤ 2) ∧
    ∀ later, Leads forest tour.2 later → (tour.1.Nodup ↔
      ∀ function, CallClosure forest later start function → function ≠ start →
        start ∉ later.arena.ancestors function ∧ function ∉ later.arena.ancestors start) := by
  obtain ⟨_, _, sound, entered, nodup, explains⟩ :=
    Session.exists_entered hPackage reached.sound known fun _ => pure
  constructor
  · exact (explains _ sound (.refl _)).count_le_two nodup
  · intro later leads
    obtain ⟨hLater, since⟩ := leads.sound_extends sound
    exact (explains later hLater since).nodup_iff nodup

/-- From the package down, a function is passed where it stands and where it is called. -/
theorem Reachable.callTreeNodes_nodup_iff_sample :
    ∃ function, CallClosure Sample.parity (Sample.parityTour 0).2 0 function ∧ function ≠ 0 ∧
      0 ∈ (Sample.parityTour 0).2.arena.ancestors function := by
  have hKnown : 0 < Sample.paritySession.arena.size := by decide +kernel
  have hLater : Leads Sample.parity (Sample.parityTour 0).2 (Sample.parityTour 0).2 := .refl _
  have hIff := (Reachable.callTreeNodes_nodup_iff Sample.reachable_paritySession rfl hKnown).2 _ hLater
  by_contra hNone
  push Not at hNone
  have hNodup : (Sample.parityTour 0).1.Nodup := by
    refine hIff.mpr ?_
    intro function reached other
    refine ⟨hNone function reached other, ?_⟩
    exact fun above => Nat.not_lt_zero function (Arena.lt_of_mem_ancestors above)
  revert hNodup
  decide +kernel

/-- From the package down, and from a body inside a recursive function, nodes are passed twice. -/
theorem Sample.tours_repeat_nodes :
    Reachable Sample.parity Sample.paritySession ∧ (Sample.parityTour 0).1.count 3 = 2 ∧
      Sample.paritySession.arena.kind 6 = .block ∧ (Sample.parityTour 6).1.count 10 = 2 := by
  refine ⟨Sample.reachable_paritySession, ?_⟩
  decide +kernel

end SyntaxAtlas
