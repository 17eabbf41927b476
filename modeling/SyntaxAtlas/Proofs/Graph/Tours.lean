import SyntaxAtlas.Graph.CallTree
import SyntaxAtlas.Proofs.Graph.Extent
import SyntaxAtlas.Proofs.Graph.Lasting

/-! Tours through call trees, stage by stage. A tour goes down from a node and, behind each call, into
the function that is called, unless that was entered before. Every step goes one level down or enters
one more node, so that the depth of a tour is never used up; and what a stage visits is told by the
part of the tree that it goes through and by the functions that it enters on the way. -/
namespace SyntaxAtlas

namespace Forest

/-- A tour that goes on with a given stage where its depth is used up. -/
def expandOver {σ : Type} (forest : Forest) (visit : σ → NodeId → Explore (Bool × σ))
    (bottom : NodeId → CallStage σ) : Nat → NodeId → CallStage σ
  | 0, node => bottom node
  | depth + 1, node => fun tour => do
    forest.nodesStage visit (forest.expandOver visit bottom depth) (← forest.children node) tour

theorem expand_eq_expandOver {σ : Type} (forest : Forest)
    (visit : σ → NodeId → Explore (Bool × σ)) (depth : Nat) :
    forest.expand visit depth = forest.expandOver visit (fun _ => pure) depth := by
  induction depth with
  | zero => rfl
  | succ depth ih =>
      funext node tour
      rw [expand, expandOver, ih]

/-- The visitor that keeps every node. -/
def collect (found : List NodeId) (node : NodeId) : Explore (Bool × List NodeId) :=
  return (true, found ++ [node])

/-- A callee is asked for first. -/
theorem calleeStage_run {σ : Type} (forest : Forest) (visit : σ → NodeId → Explore (Bool × σ))
    (enter : NodeId → CallStage σ) (node : NodeId) (tour : CallTour σ) (session : Session) :
    (forest.calleeStage visit enter node tour).run session =
      (match ((forest.callee? node).run session).1 with
        | none => pure tour
        | some callee =>
          if tour.entered.contains callee then pure tour
          else CallStage.andThen (visitStage visit callee) (enter callee)
            { tour with entered := callee :: tour.entered }).run
        ((forest.callee? node).run session).2 :=
  rfl

/-- The depth that is enough for what is below an origin, after a number of nodes were entered: the
levels that are left, and all levels for each node that may still be entered. -/
def demand (forest : Forest) (origin : Origin) (entered : Nat) : Nat :=
  forest.rank origin + 1 +
    (forest.extent forest.rootSprout.origin - entered) * (forest.height + 1)

section Demand

variable {forest : Forest} {origin inner : Origin} {depth entered later : Nat}

theorem demand_mono (h : entered ≤ later) :
    forest.demand origin later ≤ forest.demand origin entered := by
  have hLess := Nat.mul_le_mul_right (forest.height + 1)
    (Nat.sub_le_sub_left h (forest.extent forest.rootSprout.origin))
  unfold demand
  omega

theorem demand_below (h : forest.rank inner < forest.rank origin)
    (enough : forest.demand origin entered ≤ depth + 1) : forest.demand inner entered ≤ depth := by
  unfold demand at enough ⊢
  omega

/-- A function may be entered from anywhere: it has all levels, and there is one node less to
enter. -/
theorem demand_enter (room : entered + 1 ≤ forest.extent forest.rootSprout.origin)
    (enough : forest.demand origin entered ≤ depth) : forest.demand inner (entered + 1) ≤ depth := by
  have hRank := forest.rank_le_height inner
  have hOne : forest.extent forest.rootSprout.origin - entered =
      forest.extent forest.rootSprout.origin - (entered + 1) + 1 := by omega
  unfold demand at enough ⊢
  rw [hOne, Nat.add_mul, Nat.one_mul] at enough
  omega

theorem demand_start (forest : Forest) (origin : Origin) :
    forest.demand origin 1 ≤ forest.callDepth := by
  have hRank := forest.rank_le_height origin
  have hLess := Nat.mul_le_mul_right (forest.height + 1)
    (Nat.sub_le (forest.extent forest.rootSprout.origin) 1)
  unfold demand callDepth
  rw [Nat.add_mul, Nat.one_mul]
  omega

end Demand

end Forest

/-- A call calls a function. -/
def Session.Calls (forest : Forest) (session : Session) (call callee : NodeId) : Prop :=
  ((forest.callee? call).run session).1 = some callee

/-- A part of the tree that a tour goes through: how often it passes each node, and the nodes that
are asked for what they call. -/
@[ext]
structure Region where
  passes : NodeId → Nat
  follows : NodeId → Prop

namespace Region

/-- A node that is visited. -/
def visit (node : NodeId) : Region where
  passes other := if other = node then 1 else 0
  follows _ := False

/-- A node that is asked for what it calls. -/
def call (node : NodeId) : Region where
  passes _ := 0
  follows other := other = node

/-- Everything properly below a node. -/
def below (arena : Arena) (node : NodeId) : Region where
  passes other := if node ∈ arena.ancestors other then 1 else 0
  follows other := node ∈ arena.ancestors other

/-- Nodes with everything below them. -/
def trees (arena : Arena) (nodes : List NodeId) : Region where
  passes other := nodes.countP (· ∈ arena.lineage other)
  follows other := ∃ node ∈ nodes, node ∈ arena.lineage other

/-- One part after another. -/
def add (first second : Region) : Region where
  passes node := first.passes node + second.passes node
  follows node := first.follows node ∨ second.follows node

theorem visit_add_below (arena : Arena) (node other : NodeId) :
    ((visit node).add (below arena node)).passes other =
      if node ∈ arena.lineage other then 1 else 0 := by
  have hSelf := arena.not_mem_ancestors_self node
  by_cases hSame : other = node
  · subst hSame
    simp [add, visit, below, Arena.mem_lineage, hSelf]
  · simp [add, visit, below, Arena.mem_lineage, hSame, Ne.symm hSame]

/-- A node, what it calls and what is below it, and then the rest. -/
theorem trees_cons (arena : Arena) (node : NodeId) (rest : List NodeId) :
    trees arena (node :: rest) =
      (visit node).add ((call node).add ((below arena node).add (trees arena rest))) := by
  ext other
  · have hHead := visit_add_below arena node other
    simp only [add] at hHead
    simp only [add, trees, call, List.countP_cons, decide_eq_true_eq]
    omega
  · simp only [add, trees, visit, call, below, List.exists_mem_cons_iff, Arena.mem_lineage]
    constructor
    · rintro ((hSame | hAbove) | hRest)
      · exact .inr (.inl hSame.symm)
      · exact .inr (.inr (.inl hAbove))
      · exact .inr (.inr (.inr hRest))
    · rintro (hNever | hSame | hAbove | hRest)
      · exact hNever.elim
      · exact .inl (.inl hSame.symm)
      · exact .inl (.inr hAbove)
      · exact .inr hRest

/-- What is below a node is its children with everything below them. -/
theorem trees_children {forest : Forest} {arena : Arena} {id : NodeId} {ids : List NodeId}
    (h : arena.WellNumbered forest) (known : id < arena.size)
    (children : arena.children? id = some ids) : trees arena ids = below arena id := by
  have hCount := h.countP_children known children
  ext node
  · exact hCount node
  · have hPositive : (∃ child ∈ ids, child ∈ arena.lineage node) ↔
        0 < ids.countP (· ∈ arena.lineage node) := by
      simp [List.countP_pos_iff]
    simp only [trees, below, hPositive, hCount node]
    by_cases hAbove : id ∈ arena.ancestors node
    · simp [hAbove]
    · simp [hAbove]

end Region

namespace Session

/-- A tour that is under way in a session. -/
structure Underway (forest : Forest) (now : Session) (tour : CallTour (List NodeId)) : Prop where
  sound : now.Sound forest
  knows : now.Knows tour.entered
  nodup : tour.entered.Nodup
  goesOn : tour.ended = false

/-- A later point of a tour: nothing that was numbered or entered is taken back. -/
structure Onward (now : Session) (tour : CallTour (List NodeId)) (later : Session)
    (next : CallTour (List NodeId)) : Prop where
  keeps : now.Extends later
  longer : tour.entered.length ≤ next.entered.length

/-- A depth is enough for what is below a node. -/
structure Affords (forest : Forest) (depth : Nat) (now : Session) (tour : CallTour (List NodeId))
    (node : NodeId) : Prop where
  known : node < now.arena.size
  enough : forest.demand (now.arena.origin node) tour.entered.length ≤ depth

/-- What a part of a tour gained, as it is seen from a later session: the nodes that were visited
and entered are those of the region and those below what was entered; and what was entered is what
had to be, in that no call was left out, and no more than calls lead to. -/
structure Explains (forest : Forest) (last : Session) (region : Region)
    (all visited entered : List NodeId) : Prop where
  count : ∀ node, visited.count node =
    region.passes node + entered.countP (· ∈ last.arena.lineage node)
  outermost : ∀ function ∈ entered, last.arena.Outermost function
  closed : ∀ call callee,
    (region.follows call ∨ ∃ function ∈ entered, function ∈ last.arena.ancestors call) →
    last.Calls forest call callee → callee ∈ all
  least : ∀ member : NodeId → Prop,
    (∀ call callee, region.follows call → last.Calls forest call callee → member callee) →
    (∀ function call callee, member function → function ∈ last.arena.ancestors call →
      last.Calls forest call callee → member callee) →
    ∀ function ∈ entered, member function

/-- A part of a tour, from one session and tour to another one, that goes through a region. -/
structure Gathers (forest : Forest) (now : Session) (tour : CallTour (List NodeId))
    (out : CallTour (List NodeId) × Session) (region : Arena → Region) : Prop where
  keeps : now.Extends out.2
  underway : out.2.Underway forest out.1
  gains : ∃ visited entered, out.1.state = tour.state ++ visited ∧
    out.1.entered = entered ++ tour.entered ∧
    ∀ last, last.Sound forest → out.2.Extends last →
      last.Explains forest (region last.arena) out.1.entered visited entered

/-- A stage goes through a region, and so does its twin, with the same outcome. -/
def Performs (forest : Forest) (now : Session) (tour : CallTour (List NodeId))
    (stage twin : CallStage (List NodeId)) (region : Arena → Region) : Prop :=
  ∃ out, (stage tour).run now = out ∧ (twin tour).run now = out ∧
    now.Gathers forest tour out region

section Stages

variable {forest : Forest} {now : Session} {tour : CallTour (List NodeId)}

theorem Explains.append {last : Session} {first second : Region}
    {before all firstVisited secondVisited firstEntered secondEntered : List NodeId}
    (left : last.Explains forest first before firstVisited firstEntered)
    (right : last.Explains forest second all secondVisited secondEntered) (grows : before ⊆ all) :
    last.Explains forest (first.add second) all (firstVisited ++ secondVisited)
      (secondEntered ++ firstEntered) where
  count node := by
    rw [List.count_append, List.countP_append, left.count, right.count]
    simp only [Region.add]
    omega
  outermost function member := by
    rcases List.mem_append.mp member with hSecond | hFirst
    · exact right.outermost function hSecond
    · exact left.outermost function hFirst
  closed call callee within called := by
    rcases within with (hFirst | hSecond) | ⟨function, member, above⟩
    · exact grows (left.closed call callee (.inl hFirst) called)
    · exact right.closed call callee (.inl hSecond) called
    · rcases List.mem_append.mp member with hSecond | hFirst
      · exact right.closed call callee (.inr ⟨function, hSecond, above⟩) called
      · exact grows (left.closed call callee (.inr ⟨function, hFirst, above⟩) called)
  least member hRegion hClosed function entered := by
    rcases List.mem_append.mp entered with hSecond | hFirst
    · exact right.least member (fun call callee follows => hRegion call callee (.inr follows))
        hClosed function hSecond
    · exact left.least member (fun call callee follows => hRegion call callee (.inl follows))
        hClosed function hFirst

theorem Onward.trans {later last : Session} {next final : CallTour (List NodeId)}
    (first : now.Onward tour later next) (second : later.Onward next last final) :
    now.Onward tour last final :=
  ⟨first.keeps.trans second.keeps, Nat.le_trans first.longer second.longer⟩

theorem Affords.keep {depth : Nat} {later : Session} {next : CallTour (List NodeId)} {node : NodeId}
    (affords : now.Affords forest depth tour node) (onward : now.Onward tour later next) :
    later.Affords forest depth next node := by
  refine ⟨onward.keeps.arena.lt affords.known, ?_⟩
  rw [onward.keeps.arena.origin node affords.known]
  exact Nat.le_trans (Forest.demand_mono onward.longer) affords.enough

theorem Gathers.onward {out : CallTour (List NodeId) × Session} {region : Arena → Region}
    (gathers : now.Gathers forest tour out region) : now.Onward tour out.2 out.1 := by
  obtain ⟨_, _, _, hEntered, _⟩ := gathers.gains
  exact ⟨gathers.keeps, by simp [hEntered]⟩

theorem Gathers.trans {middle out : CallTour (List NodeId) × Session}
    {first second : Arena → Region} (left : now.Gathers forest tour middle first)
    (right : middle.2.Gathers forest middle.1 out second) :
    now.Gathers forest tour out (fun arena => (first arena).add (second arena)) := by
  obtain ⟨firstVisited, firstEntered, hFirstState, hFirstEntered, hFirst⟩ := left.gains
  obtain ⟨secondVisited, secondEntered, hSecondState, hSecondEntered, hSecond⟩ := right.gains
  refine ⟨left.keeps.trans right.keeps, right.underway, firstVisited ++ secondVisited,
    secondEntered ++ firstEntered, ?_, ?_, ?_⟩
  · rw [hSecondState, hFirstState, List.append_assoc]
  · rw [hSecondEntered, hFirstEntered, List.append_assoc]
  · intro last sound since
    refine (hFirst last sound (right.keeps.trans since)).append (hSecond last sound since) ?_
    rw [hSecondEntered]
    exact List.subset_append_right ..

/-- Another description of the region. -/
theorem Performs.congr {stage twin : CallStage (List NodeId)} {region other : Arena → Region}
    (performs : now.Performs forest tour stage twin region)
    (same : ∀ last, last.Sound forest → now.Extends last → region last.arena = other last.arena) :
    now.Performs forest tour stage twin other := by
  obtain ⟨out, hStage, hTwin, keeps, underway, visited, entered, hState, hEntered, explains⟩ :=
    performs
  refine ⟨out, hStage, hTwin, keeps, underway, visited, entered, hState, hEntered, ?_⟩
  intro last sound since
  rw [← same last sound (keeps.trans since)]
  exact explains last sound since

theorem andThen_run {first second : CallStage (List NodeId)}
    {out : CallTour (List NodeId) × Session} (hRun : (first tour).run now = out)
    (goesOn : out.1.ended = false) :
    (first.andThen second tour).run now = (second out.1).run out.2 := by
  subst hRun
  rw [CallStage.andThen, Explore.run_bind, goesOn]
  rfl

theorem Performs.andThen {first second firstTwin secondTwin : CallStage (List NodeId)}
    {region other : Arena → Region} (left : now.Performs forest tour first firstTwin region)
    (right : ∀ later next, later.Underway forest next → now.Onward tour later next →
      later.Performs forest next second secondTwin other) :
    now.Performs forest tour (first.andThen second) (firstTwin.andThen secondTwin)
      (fun arena => (region arena).add (other arena)) := by
  obtain ⟨middle, hFirst, hFirstTwin, left⟩ := left
  obtain ⟨out, hSecond, hSecondTwin, right⟩ :=
    right middle.2 middle.1 left.underway left.onward
  refine ⟨out, ?_, ?_, left.trans right⟩
  · rw [andThen_run hFirst left.underway.goesOn, hSecond]
  · rw [andThen_run hFirstTwin left.underway.goesOn, hSecondTwin]

/-- A stage that changes nothing goes through a region without nodes, if the calls that it asks for
lead to what was entered before. -/
theorem Gathers.stay {later : Session} {region : Arena → Region}
    (underway : now.Underway forest tour) (sound : later.Sound forest) (keeps : now.Extends later)
    (empty : ∀ arena node, (region arena).passes node = 0)
    (settled : ∀ last, last.Sound forest → later.Extends last → ∀ call callee,
      (region last.arena).follows call → last.Calls forest call callee → callee ∈ tour.entered) :
    now.Gathers forest tour (tour, later) region := by
  refine ⟨keeps, ⟨sound, underway.knows.keep keeps, underway.nodup, underway.goesOn⟩, [], [], ?_,
    rfl, ?_⟩
  · rw [List.append_nil]
  · intro last hLast since
    refine ⟨?_, nofun, ?_, ?_⟩
    · intro node
      simp [empty]
    · rintro call callee (follows | ⟨_, member, _⟩) called
      · exact settled last hLast since call callee follows called
      · cases member
    · exact fun _ _ _ _ member => nomatch member

/-- There is nothing to do for a node that calls nothing, or something that was entered before. -/
theorem Gathers.stay_call {later : Session} {node : NodeId} {found : Option NodeId}
    (underway : now.Underway forest tour) (sound : later.Sound forest) (keeps : now.Extends later)
    (lasts : later.Lasts forest (forest.callee? node) found)
    (settled : ∀ callee, found = some callee → callee ∈ tour.entered) :
    now.Gathers forest tour (tour, later) (fun _ => .call node) := by
  refine .stay underway sound keeps (fun _ _ => rfl) ?_
  intro last hLast since call callee follows called
  obtain rfl : call = node := follows
  rw [Calls, lasts last hLast since] at called
  exact settled callee called

theorem visitStage_performs (underway : now.Underway forest tour) (node : NodeId) :
    now.Performs forest tour (Forest.visitStage Forest.collect node)
      (Forest.visitStage Forest.collect node) (fun _ => .visit node) := by
  refine ⟨({ tour with state := tour.state ++ [node], ended := false }, now), rfl, rfl, .refl now,
    ⟨underway.sound, underway.knows, underway.nodup, rfl⟩, [node], [], rfl, rfl, ?_⟩
  intro last _ _
  refine ⟨?_, nofun, ?_, ?_⟩
  · intro other
    simp only [Region.visit, List.count_singleton, beq_iff_eq, List.countP_nil, Nat.add_zero]
    exact if_congr eq_comm rfl rfl
  · rintro call callee (hNever | ⟨_, member, _⟩) _
    · exact hNever.elim
    · cases member
  · exact fun _ _ _ _ member => nomatch member

/-- A function that is entered for a call: what is below it becomes part of what was gained. -/
theorem Gathers.enter {later : Session} {node callee : NodeId}
    {out : CallTour (List NodeId) × Session} (keeps : now.Extends later)
    (lasts : later.Lasts forest (forest.callee? node) (some callee))
    (outermost : later.arena.Outermost callee)
    (gathers : later.Gathers forest { tour with entered := callee :: tour.entered } out
      (fun arena => (Region.visit callee).add (.below arena callee))) :
    now.Gathers forest tour out (fun _ => .call node) := by
  obtain ⟨visited, entered, hState, hEntered, explains⟩ := gathers.gains
  refine ⟨keeps.trans gathers.keeps, gathers.underway, visited, entered ++ [callee], hState, ?_, ?_⟩
  · rw [hEntered, List.append_assoc]
    rfl
  · intro last sound since
    have hLater := gathers.keeps.trans since
    have hCalls : ∀ other, last.Calls forest node other → other = callee := by
      intro other called
      rw [Calls, lasts last sound hLater] at called
      exact (Option.some.inj called).symm
    have hCallee : callee ∈ out.1.entered := by
      rw [hEntered]
      simp
    have hInner := explains last sound since
    refine ⟨?_, ?_, ?_, ?_⟩
    · intro other
      rw [hInner.count, Region.visit_add_below, List.countP_append, List.countP_singleton]
      simp only [Region.call, decide_eq_true_eq]
      omega
    · intro function member
      rcases List.mem_append.mp member with hOld | hNew
      · exact hInner.outermost function hOld
      · rw [List.mem_singleton.mp hNew]
        exact outermost.keep hLater.arena
    · rintro call other (hSame | ⟨function, member, above⟩) called
      · obtain rfl : call = node := hSame
        rw [hCalls other called]
        exact hCallee
      · rcases List.mem_append.mp member with hOld | hNew
        · exact hInner.closed call other (.inr ⟨function, hOld, above⟩) called
        · rw [List.mem_singleton.mp hNew] at above
          exact hInner.closed call other (.inl (.inr above)) called
    · intro member hRegion hClosed
      have hMember : member callee := by
        refine hRegion node callee rfl ?_
        rw [Calls, lasts last sound hLater]
      intro function entered
      rcases List.mem_append.mp entered with hOld | hNew
      · refine hInner.least member ?_ hClosed function hOld
        rintro call other (hNever | above) called
        · exact hNever.elim
        · exact hClosed callee call other hMember above called
      · rw [List.mem_singleton.mp hNew]
        exact hMember

section Depth

variable {depth : Nat} {enter twin : NodeId → CallStage (List NodeId)}
  (enters : ∀ (later : Session) (next : CallTour (List NodeId)) (node : NodeId),
    later.Underway forest next → later.Affords forest depth next node →
    later.Performs forest next (enter node) (twin node) (fun arena => .below arena node))

include enters

/-- A function that was not entered before is visited, and everything below it is gone through.
There is room for it, since all that was entered has numbers and no two of them are the same. -/
theorem enter_performs {callee : NodeId} (underway : now.Underway forest tour)
    (outermost : now.arena.Outermost callee) (fresh : callee ∉ tour.entered)
    (enough : ∃ node, now.Affords forest depth tour node) :
    now.Performs forest { tour with entered := callee :: tour.entered }
      (CallStage.andThen (Forest.visitStage Forest.collect callee) (enter callee))
      (CallStage.andThen (Forest.visitStage Forest.collect callee) (twin callee))
      (fun arena => (Region.visit callee).add (.below arena callee)) := by
  obtain ⟨node, affords⟩ := enough
  have hUnderway : now.Underway forest { tour with entered := callee :: tour.entered } :=
    ⟨underway.sound, underway.knows.cons outermost.known,
      List.nodup_cons.mpr ⟨fresh, underway.nodup⟩, underway.goesOn⟩
  have hRoom := underway.sound.arena.length_le_extent hUnderway.nodup hUnderway.knows
  have hAffords : now.Affords forest depth { tour with entered := callee :: tour.entered } callee :=
    ⟨outermost.known, Forest.demand_enter hRoom affords.enough⟩
  refine (visitStage_performs hUnderway callee).andThen ?_
  intro later next hNext onward
  exact enters later next callee hNext (hAffords.keep onward)

theorem calleeStage_performs {node : NodeId} (underway : now.Underway forest tour)
    (affords : now.Affords forest depth tour node) :
    now.Performs forest tour (forest.calleeStage Forest.collect enter node)
      (forest.calleeStage Forest.collect twin node) (fun _ => .call node) := by
  have hCallee := callee?_fixes underway.sound affords.known
  obtain ⟨hFunction, hLasts⟩ := hCallee.answer
  have hSound := hCallee.sound
  have hKeeps := hCallee.allows
  unfold Performs
  rw [Forest.calleeStage_run, Forest.calleeStage_run]
  generalize ((forest.callee? node).run now).2 = later at *
  generalize ((forest.callee? node).run now).1 = found at *
  cases found with
  | none => exact ⟨(tour, later), rfl, rfl, .stay_call underway hSound hKeeps hLasts nofun⟩
  | some callee =>
      dsimp only
      by_cases hBefore : tour.entered.contains callee
      · rw [if_pos hBefore, if_pos hBefore]
        refine ⟨(tour, later), rfl, rfl, .stay_call underway hSound hKeeps hLasts ?_⟩
        rintro _ ⟨⟩
        exact List.contains_iff_mem.mp hBefore
      · rw [if_neg hBefore, if_neg hBefore]
        have hUnderway : later.Underway forest tour :=
          ⟨hSound, underway.knows.keep hKeeps, underway.nodup, underway.goesOn⟩
        have hFresh : callee ∉ tour.entered := fun member =>
          hBefore (List.contains_iff_mem.mpr member)
        obtain ⟨out, hStage, hTwin, gathers⟩ := enter_performs enters hUnderway
          (hFunction callee rfl) hFresh ⟨node, affords.keep ⟨hKeeps, Nat.le_refl _⟩⟩
        exact ⟨out, hStage, hTwin, gathers.enter hKeeps hLasts (hFunction callee rfl)⟩

theorem nodesStage_performs {nodes : List NodeId} (underway : now.Underway forest tour)
    (affords : ∀ node ∈ nodes, now.Affords forest depth tour node) :
    now.Performs forest tour (forest.nodesStage Forest.collect enter nodes)
      (forest.nodesStage Forest.collect twin nodes) (fun arena => .trees arena nodes) := by
  induction nodes generalizing now tour with
  | nil =>
      refine ⟨(tour, now), rfl, rfl, .stay underway underway.sound (.refl now) (fun _ _ => rfl) ?_⟩
      rintro _ _ _ _ _ ⟨_, member, _⟩
      cases member
  | cons node rest ih =>
      have hNode := affords node List.mem_cons_self
      have hPerforms := (visitStage_performs underway node).andThen fun _ _ hVisited visited =>
        (calleeStage_performs enters hVisited (hNode.keep visited)).andThen fun _ _ hCalled called =>
        (enters _ _ node hCalled (hNode.keep (visited.trans called))).andThen
          fun _ _ hEntered entered => ih hEntered fun other member =>
            (affords other (List.mem_cons_of_mem node member)).keep
              ((visited.trans called).trans entered)
      refine hPerforms.congr ?_
      intro last _ _
      rw [Region.trees_cons]

end Depth

/-- A tour with enough depth never gets to its bottom, and goes through everything below its node. -/
theorem expandOver_performs (bottom other : NodeId → CallStage (List NodeId)) (depth : Nat)
    {node : NodeId} (underway : now.Underway forest tour)
    (affords : now.Affords forest depth tour node) :
    now.Performs forest tour (forest.expandOver Forest.collect bottom depth node)
      (forest.expandOver Forest.collect other depth node) (fun arena => .below arena node) := by
  induction depth generalizing now tour node with
  | zero =>
      have hNever := affords.enough
      unfold Forest.demand at hNever
      omega
  | succ depth ih =>
      have hChildren := children_yields .all underway.sound affords.known
      have hKeeps : now.Extends ((forest.children node).run now).2 := hChildren.allows
      have hNode := affords.keep ⟨hKeeps, Nat.le_refl _⟩
      have hUnderway : ((forest.children node).run now).2.Underway forest tour :=
        ⟨hChildren.sound, underway.knows.keep hKeeps, underway.nodup, underway.goesOn⟩
      have hInner : ((forest.children node).run now).2.Performs forest tour
          (forest.nodesStage Forest.collect (forest.expandOver Forest.collect bottom depth)
            ((forest.children node).run now).1)
          (forest.nodesStage Forest.collect (forest.expandOver Forest.collect other depth)
            ((forest.children node).run now).1) (fun arena => .below arena node) := by
        refine (nodesStage_performs (fun _ _ _ hNext hAffords => ih hNext hAffords) hUnderway ?_).congr
          ?_
        · intro child member
          have hLess := hChildren.sound.arena.rank_child_lt hNode.known hChildren.answer member
          have hKnown := (hChildren.sound.arena.of_mem_children hNode.known hChildren.answer member).2.1
          exact ⟨hKnown, Forest.demand_below hLess hNode.enough⟩
        · intro last sound since
          exact Region.trees_children sound.arena (since.arena.lt hNode.known)
            (since.arena.children node _ hNode.known hChildren.answer)
      obtain ⟨out, hStage, hTwin, keeps, hOut, gains⟩ := hInner
      exact ⟨out, hStage, hTwin, hKeeps.trans keeps, hOut, gains⟩

end Stages

end Session

end SyntaxAtlas
