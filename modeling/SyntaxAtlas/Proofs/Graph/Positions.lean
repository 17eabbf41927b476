import SyntaxAtlas.Loader
import SyntaxAtlas.Proofs.Graph.Copies
import SyntaxAtlas.Proofs.Source.Placement

/-! Positions in a loaded package. A node gets its span from an element, moved to the base of its
unit, and the check of the snapshot keeps it inside the text of that unit. A loader places the units
so that positions are offsets in the text of the whole package, and the text of a node is the part
of it between the ends of the node. -/
namespace SyntaxAtlas

/-- What is reached from the root lies in the text. -/
theorem Snapshot.WellFormed.inside_of_reached {snapshot : Snapshot} {textLength : Nat}
    (h : snapshot.WellFormed textLength) {id : ElementId} (reached : snapshot.Reached id)
    {element : Element} (found : snapshot.get? id = some element) :
    (Span.mk 0 textLength).Encloses element.span := by
  induction reached generalizing element with
  | refl => exact h.inside element found
  | tail _ lists ih =>
      obtain ⟨lister, hLister, listed⟩ := mem_children_iff.mp lists
      exact (ih hLister).trans (h.nested _ lister hLister _ listed element found)

namespace Forest

/-- A span lies in the unit of an origin, and does not end before it starts. -/
def Lies (forest : Forest) (origin : Origin) (span : Span) : Prop :=
  ∃ number unit, origin.unit? = some number ∧ forest.units[number]? = some unit ∧
    unit.source.span.Encloses span ∧ span.start ≤ span.stop

variable {forest : Forest} {origin : Origin} {sprout : Sprout}

theorem lies_of_mem_sproutsOf {number : UnitId} {unit : ParsedUnit} {id : ElementId}
    (hUnit : forest.units[number]? = some unit) (reached : unit.snapshot.Reached id)
    (member : sprout ∈ unit.sproutsOf number id) : forest.Lies sprout.origin sprout.span := by
  have hFormed := (forest.wellFormed (List.mem_of_getElem? hUnit)).2
  obtain ⟨element, found, hSprout⟩ := ParsedUnit.mem_sproutsOf member
  obtain ⟨hSpan, _⟩ := encloses_of_mem_sproutsOf hUnit found member
  have hInside : unit.source.span.Encloses (element.span.shift unit.source.base) := by
    have hElement := (hFormed.inside_of_reached reached found).2
    simp only [Span.Encloses, Span.shift, SourceUnit.span] at hElement ⊢
    omega
  refine ⟨number, unit, ?_, hUnit, hInside.trans hSpan, ?_⟩
  · rcases hSprout with rfl | ⟨name, _, rfl⟩ <;> rfl
  · rcases hSprout with rfl | ⟨name, hName, rfl⟩
    · exact Nat.add_le_add_right (hFormed.ordered id element found) _
    · obtain ⟨label, hLabel, hNested⟩ := exists_label hUnit found hName
      have hOrdered := hFormed.ordered name label hLabel
      rw [ParsedUnit.splitSprout_span hLabel]
      exact Nat.add_le_add_right (Nat.le_trans hOrdered hNested.2) _

theorem lies_of_mem_sprouts (grounded : forest.Grounded origin)
    (member : sprout ∈ forest.sprouts origin) : forest.Lies sprout.origin sprout.span := by
  cases hPlace : origin.place? with
  | none =>
      obtain rfl := Origin.eq_package_of_place? hPlace
      obtain ⟨number, unit, hUnit, rfl⟩ := of_mem_sprouts_package member
      exact ⟨number, unit, rfl, hUnit, ⟨Nat.le_refl _, Nat.le_refl _⟩, Nat.le_add_right _ _⟩
  | some place =>
      obtain ⟨number, lister⟩ := place
      obtain ⟨unit, child, hUnit, lists, hSprout⟩ := of_mem_sprouts hPlace member
      obtain ⟨other, hOther, hReached⟩ := grounded number lister hPlace
      obtain rfl := Option.some.inj (hUnit.symm.trans hOther)
      exact lies_of_mem_sproutsOf hUnit (hReached.tail lists) hSprout

end Forest

/-- Every node but the root lies in its unit. -/
theorem Arena.WellNumbered.lies {forest : Forest} {arena : Arena} (h : arena.WellNumbered forest)
    {id : NodeId} (known : id < arena.size) (inner : id ≠ Arena.root) :
    forest.Lies (arena.origin id) (arena.span id) := by
  obtain ⟨parent, _, hParent, _, _, above⟩ := h.exists_parent known inner
  obtain ⟨sprout, member, hShows⟩ := h.exists_sprout above
  rw [hShows.origin, hShows.span]
  exact Forest.lies_of_mem_sprouts (h.grounded hParent) member

namespace Forest

variable {forest : Forest} {arena : Arena} {id : NodeId} {number : UnitId} {unit : ParsedUnit}

theorem unit?_eq (hNumber : (arena.origin id).unit? = some number)
    (hUnit : forest.units[number]? = some unit) :
    forest.unit? arena id = some unit.source := by
  simp [unit?, hNumber, hUnit]

theorem sourceText_eq_slice (hNumber : (arena.origin id).unit? = some number)
    (hUnit : forest.units[number]? = some unit) :
    forest.sourceText arena id = (unit.source.slice? (arena.span id)).getD "" := by
  have hOwn := unit?_eq hNumber hUnit
  unfold sourceText
  cases hOrigin : arena.origin id with
  | package => simp [hOrigin, Origin.unit?] at hNumber
  | element => simp [hOwn]
  | split => simp [hOwn]

theorem sourceText_root (h : arena.WellNumbered forest) {package : Package}
    (hPackage : forest.package = some package) :
    forest.sourceText arena Arena.root = forest.sources.joined := by
  have hOrigin : arena.origin Arena.root = .package := by
    rw [h.root.origin]
    simp [rootSprout, hPackage]
  rw [sourceText, hOrigin]

/-- The forest of a package keeps the units where they were placed. -/
theorem sources_ofPackage {package : Package} {sources : SourceMap} {snapshots : List Snapshot}
    (h : ofPackage package sources snapshots = .ok forest) : forest.sources = sources := by
  obtain ⟨agree, hUnits, _⟩ := of_ofPackage h
  rw [Forest.sources, hUnits, ← List.map_uncurry_zip_eq_zipWith, List.map_map]
  exact congrArg SourceMap.mk (List.map_fst_zip (Nat.le_of_eq agree))

theorem get?_sources (hUnit : forest.units[number]? = some unit) :
    forest.sources.get? number = some unit.source := by
  simp [sources, SourceMap.get?, hUnit]

/-- The text of a node is the part of a text between the ends of the node. There is no such part
when an end is inside a character, and then the text of the node is empty. -/
def Cuts (forest : Forest) (arena : Arena) (text : List Char) (id : NodeId) : Prop :=
  let span := arena.span id
  (Text.Boundary text span.start ∧ Text.Boundary text span.stop →
    Text.Part text span (forest.sourceText arena id).toList) ∧
  (¬ (Text.Boundary text span.start ∧ Text.Boundary text span.stop) →
    forest.sourceText arena id = "")

theorem cuts_joined {texts : List (String × String)} (hSources : forest.sources = .ofTexts texts)
    (hNumber : (arena.origin id).unit? = some number) (hUnit : forest.units[number]? = some unit)
    (inside : unit.source.span.Encloses (arena.span id))
    (ordered : (arena.span id).start ≤ (arena.span id).stop) :
    forest.Cuts arena forest.sources.joined.toList id := by
  have hPlaced := get?_sources hUnit
  rw [hSources] at hPlaced ⊢
  have hSlice := SourceMap.slice?_ofTexts hPlaced inside ordered
  have hText := sourceText_eq_slice hNumber hUnit
  constructor
  · rintro ⟨hStart, hStop⟩
    obtain ⟨part, hPart⟩ := Text.Part.of_boundaries hStart hStop ordered
    rw [hText, (hSlice part).mpr hPart]
    simpa using hPart
  · intro hCut
    rw [hText]
    cases hFound : unit.source.slice? (arena.span id) with
    | none => rfl
    | some part =>
        have hPart := (hSlice part.toList).mp (by rw [hFound, String.ofList_toList])
        exact absurd hPart.boundaries hCut

end Forest

namespace Loader

variable {loader : Loader} {loaded : LoadedGraph}

/-- The graph of a package comes from a loader, which was given its units or found them in a
directory. -/
inductive Makes (loader : Loader) (loaded : LoadedGraph) : Prop where
  | package {name : String} {units : List LoadedUnit}
      (h : loader.loadPackage name units = .ok loaded) : Makes loader loaded
  | directory {files : FileTree} {path : String} {graphs : List LoadedGraph}
      (h : loader.loadDirectory files path = .ok graphs) (member : loaded ∈ graphs) :
      Makes loader loaded

theorem exists_of_bind_ok {ε α β : Type} {first : Except ε α} {next : α → Except ε β} {result : β}
    (h : (first >>= next) = .ok result) : ∃ value, first = .ok value ∧ next value = .ok result := by
  cases first with
  | error error => cases h
  | ok value => exact ⟨value, rfl, h⟩

/-- What is asked for one after the other is answered in the same order. -/
theorem forall₂_of_mapM {ε α β : Type} {f : α → Except ε β} {entries : List α} {results : List β}
    (h : entries.mapM f = .ok results) :
    List.Forall₂ (fun entry result => f entry = .ok result) entries results := by
  induction entries generalizing results with
  | nil =>
      cases h
      exact .nil
  | cons entry rest ih =>
      rw [List.mapM_cons] at h
      obtain ⟨first, hFirst, h⟩ := exists_of_bind_ok h
      obtain ⟨others, hRest, h⟩ := exists_of_bind_ok h
      cases h
      exact .cons hFirst (ih hRest)

theorem exists_of_mem_mapM {ε α β : Type} {f : α → Except ε β} {entries : List α}
    {results : List β} (h : entries.mapM f = .ok results) {result : β} (member : result ∈ results) :
    ∃ entry ∈ entries, f entry = .ok result := by
  have hAnswers := forall₂_of_mapM h
  clear h
  induction hAnswers with
  | nil => cases member
  | @cons entry first rest others hFirst _ ih =>
      rcases List.mem_cons.mp member with rfl | hOther
      · exact ⟨entry, List.mem_cons_self, hFirst⟩
      · obtain ⟨other, hListed, hFound⟩ := ih hOther
        exact ⟨other, List.mem_cons_of_mem entry hListed, hFound⟩

/-- The graphs of a directory are made from units, too. -/
theorem Makes.exists_units (makes : loader.Makes loaded) :
    ∃ name units, loader.loadPackage name units = .ok loaded := by
  cases makes with
  | package h => exact ⟨_, _, h⟩
  | directory h member =>
      obtain ⟨paths, _, h⟩ := exists_of_bind_ok h
      obtain ⟨units, _, h⟩ := exists_of_bind_ok h
      obtain ⟨⟨name, units⟩, _, hLoaded⟩ := exists_of_mem_mapM h member
      exact ⟨name, units, hLoaded⟩

/-- A made graph is that of a package whose units were placed one behind the other, and nothing was
looked at. -/
theorem Makes.forest (makes : loader.Makes loaded) :
    (∃ package, loaded.graph.forest.package = some package) ∧
      (∃ texts, loaded.graph.forest.sources = .ofTexts texts) ∧
      loaded.graph.session = .start loaded.graph.forest := by
  obtain ⟨name, units, h⟩ := makes.exists_units
  unfold loadPackage at h
  dsimp only at h
  split at h
  · cases h
  · rename_i forest hForest
    obtain rfl := Except.ok.inj h
    obtain ⟨_, _, hPackage⟩ := Forest.of_ofPackage hForest
    exact ⟨⟨_, hPackage⟩, ⟨_, Forest.sources_ofPackage hForest⟩, rfl⟩

end Loader

namespace Sample

/-- Two units. The identifier of the first one ends inside a character, and the second one declares
two names at once. -/
def joinedUnits : List LoadedUnit := [
  ⟨"a.go", "é", ⟨#[
    { kind := "source_file", span := ⟨0, 2⟩, children := [1] },
    { kind := "identifier", span := ⟨0, 1⟩ }]⟩, []⟩,
  ⟨"b.go", "é,b x", ⟨#[
    { kind := "source_file", span := ⟨0, 6⟩, children := [1] },
    { kind := "parameter_declaration", span := ⟨0, 6⟩, children := [2, 3, 4] },
    { kind := "identifier", span := ⟨0, 2⟩, field := some "name" },
    { kind := "identifier", span := ⟨3, 4⟩, field := some "name" },
    { kind := "type_identifier", span := ⟨5, 6⟩, field := some "type" }]⟩, []⟩]

def joinedForest : Forest where
  units := List.zipWith ParsedUnit.mk
    (SourceMap.ofTexts (joinedUnits.map fun unit => (unit.name, unit.content.text))).units
    (joinedUnits.map fun unit => unit.content.snapshot)
  package := some ⟨"p", .empty⟩
  accepted := by decide
  standalone := by decide

theorem makes_joined :
    ({} : Loader).Makes ⟨.ofForest joinedForest, Loader.engineOf joinedUnits⟩ := by
  have hLoaded : ({} : Loader).loadPackage "p" joinedUnits = .ok _ := rfl
  exact .package hLoaded

/-- The session after all nodes got their numbers. -/
def joinedSession : Session :=
  Query.after joinedForest (.start joinedForest) .materializeAll

theorem leads_joined : Leads joinedForest (.start joinedForest) joinedSession :=
  .ask .materializeAll (.nil _)

end Sample

end SyntaxAtlas
