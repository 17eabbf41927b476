import Mathlib.Data.List.Forall2
import Mathlib.Data.List.Induction
import Mathlib.Data.List.Nodup
import Mathlib.Data.List.Perm.Basic
import SyntaxAtlas.Proofs.Graph.Positions
import SyntaxAtlas.Proofs.SortedMap

/-! The packages of a directory. The files come in one order, each of them names its package, and
they are grouped through a map that is sorted by these names. No file is lost or doubled on the way, and
inside a package the order stays. That is so for any list of files; how they were found in a directory
does not matter. -/
namespace SyntaxAtlas

/-- Grouping by keys, each of which counts once, loses and doubles nothing. -/
theorem perm_flatMap_filter {α κ : Type} [DecidableEq κ] (key : α → κ) {keys : List κ}
    (distinct : keys.Nodup) {items : List α} (covered : ∀ item ∈ items, key item ∈ keys) :
    (keys.flatMap fun group => items.filter fun item => key item = group).Perm items := by
  induction keys generalizing items with
  | nil =>
      have hNone : items = [] := by
        rw [List.eq_nil_iff_forall_not_mem]
        intro item member
        cases covered item member
      rw [hNone]
      exact .nil
  | cons first rest ih =>
      obtain ⟨hFresh, hRest⟩ := List.nodup_cons.mp distinct
      -- the other groups are those of the items with other keys
      have hOthers : (rest.flatMap fun group => items.filter fun item => key item = group) =
          rest.flatMap fun group =>
            (items.filter fun item => !decide (key item = first)).filter
              fun item => key item = group := by
        apply List.flatMap_congr
        intro group member
        rw [List.filter_filter]
        apply List.filter_congr
        intro item _
        have hOther : group ≠ first := fun hSame => hFresh (hSame ▸ member)
        by_cases hGroup : key item = group
        · simp [hGroup, hOther]
        · simp [hGroup]
      have hCovered : ∀ item ∈ items.filter (fun item => !decide (key item = first)),
          key item ∈ rest := by
        intro item member
        obtain ⟨hItem, hOther⟩ := List.mem_filter.mp member
        rcases List.mem_cons.mp (covered item hItem) with hSame | hLater
        · simp [hSame] at hOther
        · exact hLater
      rw [List.flatMap_cons, hOthers]
      exact (((ih hRest hCovered).append_left _)).trans (List.filter_append_perm _ items)

theorem map_eq_map_of_forall₂ {α β γ : Type} {related : α → β → Prop} {left : α → γ} {right : β → γ}
    {first : List α} {second : List β} (h : List.Forall₂ related first second)
    (same : ∀ one other, related one other → left one = right other) :
    first.map left = second.map right := by
  induction h with
  | nil => rfl
  | cons head _ ih => rw [List.map_cons, List.map_cons, same _ _ head, ih]

namespace Loader

variable {files : FileTree} {path package : String} {unit : LoadedUnit}

/-- The package that a file names in its package clause. -/
def packageOf? (files : FileTree) (path : String) : Option String :=
  match files.read path with
  | .error _ => none
  | .ok content => (content.snapshot.packageName? content.text.toList).map String.ofList

/-- A unit that was read has the name and the content of its file, and goes to the package that the
file names. -/
theorem of_readPackaged (h : readPackaged files path = .ok (package, unit)) :
    packageOf? files path = some package ∧ unit.name = path ∧
      files.read path = .ok unit.content := by
  unfold readPackaged at h
  obtain ⟨read, hRead, h⟩ := exists_of_bind_ok h
  unfold readUnit at hRead
  cases hFile : files.read path with
  | error reason =>
      rw [hFile] at hRead
      cases hRead
  | ok content =>
      rw [hFile] at hRead
      cases hRead
      dsimp only at h
      cases hClause : content.snapshot.packageName? content.text.toList with
      | none =>
          rw [hClause] at h
          cases h
      | some name =>
          rw [hClause] at h
          cases h
          refine ⟨?_, rfl, rfl⟩
          rw [packageOf?, hFile]
          simp [hClause]

section Groups

variable {units : List (String × LoadedUnit)} {members : List LoadedUnit}

/-- The units that go to a package, in order. -/
def unitsOf (package : String) (units : List (String × LoadedUnit)) : List LoadedUnit :=
  (units.filter fun entry => entry.1 = package).map Prod.snd

theorem unitsOf_concat (package : String) (units : List (String × LoadedUnit))
    (entry : String × LoadedUnit) :
    unitsOf package (units ++ [entry]) =
      if package = entry.1 then unitsOf package units ++ [entry.2] else unitsOf package units := by
  by_cases hSame : package = entry.1
  · simp [unitsOf, hSame]
  · simp [unitsOf, hSame, Ne.symm hSame]

/-- A package is there when some unit goes to it, and then it has all of them. -/
theorem get?_groupByPackage (units : List (String × LoadedUnit)) (package : String) :
    (groupByPackage units).get? package =
      if unitsOf package units = [] then none else some (unitsOf package units) := by
  induction units using List.reverseRecOn generalizing package with
  | nil => rfl
  | append_singleton units entry ih =>
      have hStep : groupByPackage (units ++ [entry]) = (groupByPackage units).insert entry.1
          (((groupByPackage units).get? entry.1).getD [] ++ [entry.2]) :=
        List.foldl_concat ..
      have hHeld : ((groupByPackage units).get? entry.1).getD [] = unitsOf entry.1 units := by
        rw [ih]
        split_ifs with hNone
        · exact hNone.symm
        · rfl
      rw [hStep, SortedMap.get?_insert, hHeld, unitsOf_concat, ih]
      by_cases hSame : package = entry.1
      · rw [if_pos hSame, if_pos hSame, hSame]
        simp
      · rw [if_neg hSame, if_neg hSame]

theorem mem_groupByPackage :
    (package, members) ∈ (groupByPackage units).entries ↔
      members = unitsOf package units ∧ members ≠ [] := by
  rw [SortedMap.mem_entries_iff, get?_groupByPackage]
  split_ifs with hNone
  · simp [hNone]
  · constructor
    · rintro ⟨⟩
      exact ⟨rfl, hNone⟩
    · rintro ⟨rfl, _⟩
      rfl

/-- The groups together hold every unit as often as it was read. -/
theorem perm_groupByPackage (units : List (String × LoadedUnit)) :
    ((groupByPackage units).entries.flatMap Prod.snd).Perm (units.map Prod.snd) := by
  have hGroups : (groupByPackage units).entries.flatMap Prod.snd =
      (((groupByPackage units).entries.map Prod.fst).flatMap fun package =>
        units.filter fun entry => entry.1 = package).map Prod.snd := by
    rw [List.flatMap_map, List.map_flatMap]
    apply List.flatMap_congr
    rintro ⟨package, members⟩ listed
    exact (mem_groupByPackage.mp listed).1
  have hCovered : ∀ entry ∈ units, entry.1 ∈ (groupByPackage units).entries.map Prod.fst := by
    intro entry member
    have hMember : entry.2 ∈ unitsOf entry.1 units :=
      List.mem_map_of_mem (List.mem_filter.mpr ⟨member, by simp⟩)
    exact List.mem_map_of_mem (mem_groupByPackage.mpr ⟨rfl, List.ne_nil_of_mem hMember⟩)
  rw [hGroups]
  exact (perm_flatMap_filter Prod.fst (groupByPackage units).nodup_keys hCovered).map Prod.snd

end Groups

end Loader

namespace LoadedGraph

/-- The name of the package that a graph is of. -/
def packageName? (loaded : LoadedGraph) : Option String :=
  loaded.graph.forest.package.map Package.name

/-- The names of the units of a graph, which are the paths of their files. -/
def paths (loaded : LoadedGraph) : List String :=
  loaded.graph.forest.units.map fun unit => unit.source.name

/-- The name, the text and the snapshot of every unit. -/
def contents (loaded : LoadedGraph) : List (String × String × Snapshot) :=
  loaded.graph.forest.units.map fun unit => (unit.source.name, unit.source.text, unit.snapshot)

theorem map_fst_contents (loaded : LoadedGraph) : loaded.contents.map Prod.fst = loaded.paths := by
  rw [contents, List.map_map]
  rfl

end LoadedGraph

namespace Loader

variable {loader : Loader} {files : FileTree} {directory : String} {loaded : LoadedGraph}

/-- What a unit brings into a graph. -/
def brought (unit : LoadedUnit) : String × String × Snapshot :=
  (unit.name, unit.content.text, unit.content.snapshot)

theorem map_zipWith_placeFrom (base : Nat) (units : List LoadedUnit) :
    (List.zipWith ParsedUnit.mk
        (SourceMap.placeFrom base (units.map fun unit => (unit.name, unit.content.text)))
        (units.map fun unit => unit.content.snapshot)).map
      (fun unit => (unit.source.name, unit.source.text, unit.snapshot)) = units.map brought := by
  induction units generalizing base with
  | nil => rfl
  | cons unit rest ih =>
      rw [List.map_cons, List.map_cons, SourceMap.placeFrom, List.zipWith_cons_cons, List.map_cons,
        ih, List.map_cons, brought]

/-- The graph of a package holds its units in order, and the symbol table that is registered for the
package. -/
theorem of_loadPackage {package : String} {units : List LoadedUnit}
    (h : loader.loadPackage package units = .ok loaded) :
    loaded.graph.forest.package = some ⟨package, loader.tableFor package⟩ ∧
      loaded.contents = units.map brought := by
  unfold loadPackage at h
  dsimp only at h
  split at h
  · cases h
  · rename_i forest hForest
    obtain rfl := Except.ok.inj h
    obtain ⟨_, hUnits, hPackage⟩ := Forest.of_ofPackage hForest
    refine ⟨hPackage, ?_⟩
    rw [LoadedGraph.contents]
    dsimp only [Graph.ofForest]
    rw [hUnits]
    exact map_zipWith_placeFrom 0 units

section Directories

variable {paths : List String} {units : List (String × LoadedUnit)} {graphs : List LoadedGraph}

/-- The steps of loading files: they are read, and then grouped. -/
theorem of_loadPaths (h : loader.loadPaths files paths = .ok graphs) :
    ∃ units, paths.mapM (readPackaged files) = .ok units ∧
      (groupByPackage units).entries.mapM
        (fun entry => loader.loadPackage entry.1 entry.2) = .ok graphs :=
  exists_of_bind_ok h

section Units

variable (hUnits : paths.mapM (readPackaged files) = .ok units)
include hUnits

theorem map_name_units : units.map (fun entry => entry.2.name) = paths := by
  have hNames : paths.map id = units.map fun entry => entry.2.name :=
    map_eq_map_of_forall₂ (forall₂_of_mapM hUnits)
      fun _ _ hRead => (of_readPackaged hRead).2.1.symm
  rw [← hNames, List.map_id]

theorem of_mem_units {entry : String × LoadedUnit} (member : entry ∈ units) :
    packageOf? files entry.2.name = some entry.1 ∧
      files.read entry.2.name = .ok entry.2.content := by
  obtain ⟨path, _, hRead⟩ := exists_of_mem_mapM hUnits member
  obtain ⟨hPackage, rfl, hFile⟩ := of_readPackaged hRead
  exact ⟨hPackage, hFile⟩

/-- The units of a package are the files that name it, in the order in which they were found. -/
theorem map_name_unitsOf (package : String) :
    (unitsOf package units).map LoadedUnit.name =
      paths.filter fun path => packageOf? files path = some package := by
  have hSame : units.filter (fun entry => entry.1 = package) =
      units.filter ((fun path => decide (packageOf? files path = some package)) ∘
        fun entry => entry.2.name) := by
    apply List.filter_congr
    intro entry member
    simp [(of_mem_units hUnits member).1]
  rw [← map_name_units hUnits, unitsOf, hSame, List.map_map, List.filter_map]
  rfl

end Units

section Graphs

variable (hGraphs : (groupByPackage units).entries.mapM
  (fun entry => loader.loadPackage entry.1 entry.2) = .ok graphs)
include hGraphs

/-- The graphs have the names of the groups, in their order. -/
theorem map_packageName?_graphs : graphs.map LoadedGraph.packageName? =
    ((groupByPackage units).entries.map Prod.fst).map some := by
  rw [List.map_map]
  symm
  apply map_eq_map_of_forall₂ (forall₂_of_mapM hGraphs)
  intro entry loaded hLoaded
  rw [LoadedGraph.packageName?, (of_loadPackage hLoaded).1]
  rfl

theorem flatMap_paths_graphs : graphs.flatMap LoadedGraph.paths =
    ((groupByPackage units).entries.flatMap Prod.snd).map LoadedUnit.name := by
  have hPaths : graphs.map LoadedGraph.paths =
      (groupByPackage units).entries.map fun entry => entry.2.map LoadedUnit.name := by
    symm
    apply map_eq_map_of_forall₂ (forall₂_of_mapM hGraphs)
    intro entry loaded hLoaded
    rw [← LoadedGraph.map_fst_contents, (of_loadPackage hLoaded).2, List.map_map]
    rfl
  rw [List.flatMap_def, hPaths, List.map_flatMap, List.flatMap_def]

/-- A graph is of a package, and has the units that go to it. -/
theorem of_mem_graphs (member : loaded ∈ graphs) :
    ∃ package, loaded.graph.forest.package = some ⟨package, loader.tableFor package⟩ ∧
      loaded.contents = (unitsOf package units).map brought ∧ unitsOf package units ≠ [] := by
  obtain ⟨⟨package, members⟩, hListed, hLoaded⟩ := exists_of_mem_mapM hGraphs member
  obtain ⟨rfl, hSome⟩ := mem_groupByPackage.mp hListed
  obtain ⟨hPackage, hContents⟩ := of_loadPackage hLoaded
  exact ⟨package, hPackage, hContents, hSome⟩

theorem eq_of_packageName? {other : LoadedGraph} (member : loaded ∈ graphs) (hOther : other ∈ graphs)
    (same : loaded.packageName? = other.packageName?) : loaded = other := by
  have hDistinct : (graphs.map LoadedGraph.packageName?).Nodup := by
    rw [map_packageName?_graphs hGraphs]
    exact (groupByPackage units).nodup_keys.map fun _ _ => Option.some.inj
  exact List.inj_on_of_nodup_map hDistinct member hOther same

end Graphs

/-- The graphs share out some files by the packages that the files name. -/
structure Partitions (loader : Loader) (files : FileTree) (paths : List String)
    (graphs : List LoadedGraph) : Prop where
  /-- The packages come by name. -/
  increasing : ∃ names : List String, graphs.map LoadedGraph.packageName? = names.map some ∧
    names.Pairwise (· < ·)
  /-- No file is lost or doubled. -/
  together : (graphs.flatMap LoadedGraph.paths).Perm paths
  /-- A file is in the graph of the package that it names, and in no other. -/
  once : ∀ path ∈ paths, ∃ loaded ∈ graphs, loaded.packageName? = packageOf? files path ∧
    ∀ other ∈ graphs, path ∈ other.paths ↔ other = loaded
  /-- A graph has the files that name its package, in order, and the table of the package. -/
  grouped : ∀ loaded ∈ graphs, ∃ package,
    loaded.graph.forest.package = some ⟨package, (loader.tables.get? package).getD .empty⟩ ∧
      loaded.paths = (paths.filter fun path => packageOf? files path = some package) ∧
      loaded.paths ≠ []
  /-- The units are what was read. -/
  contents : ∀ loaded ∈ graphs, ∀ unit ∈ loaded.contents, ∃ content,
    files.read unit.1 = .ok content ∧ unit.2 = (content.text, content.snapshot)

section Sharing

variable (hUnits : paths.mapM (readPackaged files) = .ok units)
  (hGraphs : (groupByPackage units).entries.mapM
    (fun entry => loader.loadPackage entry.1 entry.2) = .ok graphs)
include hUnits hGraphs

theorem flatMap_paths_perm : (graphs.flatMap LoadedGraph.paths).Perm paths := by
  have hRead : (units.map Prod.snd).map LoadedUnit.name = paths := by
    rw [List.map_map]
    exact map_name_units hUnits
  rw [flatMap_paths_graphs hGraphs, ← hRead]
  exact (perm_groupByPackage units).map LoadedUnit.name

theorem paths_of_mem_graphs (member : loaded ∈ graphs) :
    ∃ package, loaded.graph.forest.package = some ⟨package, loader.tableFor package⟩ ∧
      loaded.paths = (paths.filter fun path => packageOf? files path = some package) ∧
      loaded.paths ≠ [] := by
  obtain ⟨package, hPackage, hContents, hSome⟩ := of_mem_graphs hGraphs member
  have hPaths : loaded.paths = (unitsOf package units).map LoadedUnit.name := by
    rw [← LoadedGraph.map_fst_contents, hContents, List.map_map]
    rfl
  refine ⟨package, hPackage, hPaths.trans (map_name_unitsOf hUnits package), ?_⟩
  rwa [hPaths, ne_eq, List.map_eq_nil_iff]

/-- A file that is in a graph names its package. -/
theorem packageName?_eq_packageOf? {path : String} (member : loaded ∈ graphs)
    (inside : path ∈ loaded.paths) : loaded.packageName? = packageOf? files path := by
  obtain ⟨package, hPackage, hPaths, _⟩ := paths_of_mem_graphs hUnits hGraphs member
  rw [hPaths, List.mem_filter] at inside
  rw [LoadedGraph.packageName?, hPackage]
  exact (of_decide_eq_true inside.2).symm

/-- What the groups become shares out the files. -/
theorem partitions_of_groups : loader.Partitions files paths graphs where
  increasing := ⟨_, map_packageName?_graphs hGraphs,
    List.pairwise_map.mpr (groupByPackage units).sorted⟩
  together := flatMap_paths_perm hUnits hGraphs
  once := by
    intro path found
    obtain ⟨loaded, member, inside⟩ :=
      List.mem_flatMap.mp ((flatMap_paths_perm hUnits hGraphs).mem_iff.mpr found)
    have hOwn := packageName?_eq_packageOf? hUnits hGraphs member inside
    refine ⟨loaded, member, hOwn, fun other hOther => ⟨?_, ?_⟩⟩
    · intro hInside
      apply eq_of_packageName? hGraphs hOther member
      rw [packageName?_eq_packageOf? hUnits hGraphs hOther hInside, hOwn]
    · rintro rfl
      exact inside
  grouped _ member := paths_of_mem_graphs hUnits hGraphs member
  contents := by
    intro loaded member unit hUnit
    obtain ⟨package, _, hContents, _⟩ := of_mem_graphs hGraphs member
    rw [hContents, unitsOf] at hUnit
    obtain ⟨read, hRead, rfl⟩ := List.mem_map.mp hUnit
    obtain ⟨entry, hEntry, rfl⟩ := List.mem_map.mp hRead
    exact ⟨entry.2.content, (of_mem_units hUnits (List.mem_of_mem_filter hEntry)).2, rfl⟩

end Sharing

/-- Files that are all read name packages, each of them. -/
theorem exists_packageOf? (hUnits : paths.mapM (readPackaged files) = .ok units) {path : String}
    (found : path ∈ paths) : ∃ package, packageOf? files path = some package := by
  rw [← map_name_units hUnits] at found
  obtain ⟨entry, member, rfl⟩ := List.mem_map.mp found
  exact ⟨entry.1, (of_mem_units hUnits member).1⟩

/-- Loading files shares them out by the packages that they name. A file without a package clause is
a reason to fail. -/
theorem loadPaths_partitions (loader : Loader) (files : FileTree) (paths : List String) :
    (∀ graphs, loader.loadPaths files paths = .ok graphs → loader.Partitions files paths graphs) ∧
    ∀ path ∈ paths, packageOf? files path = none →
      ∃ error, loader.loadPaths files paths = .error error := by
  constructor
  · intro graphs h
    obtain ⟨units, hUnits, hGraphs⟩ := of_loadPaths h
    exact partitions_of_groups hUnits hGraphs
  · intro path member hNone
    cases h : loader.loadPaths files paths with
    | error error => exact ⟨error, rfl⟩
    | ok graphs =>
        obtain ⟨units, hUnits, _⟩ := of_loadPaths h
        obtain ⟨package, hPackage⟩ := exists_packageOf? hUnits member
        cases hNone.symm.trans hPackage

/-- Loading a directory shares out the files that are found there by the packages that they name. A
file without a package clause is a reason to fail. -/
theorem loadDirectory_partitions (loader : Loader) (files : FileTree) (directory : String) :
    (∀ graphs, loader.loadDirectory files directory = .ok graphs →
      ∃ paths, loader.discoverFiles files directory = .ok paths ∧
        loader.Partitions files paths graphs) ∧
    ∀ paths path, loader.discoverFiles files directory = .ok paths → path ∈ paths →
      packageOf? files path = none → ∃ error, loader.loadDirectory files directory = .error error := by
  constructor
  · intro graphs h
    obtain ⟨paths, hPaths, h⟩ := exists_of_bind_ok h
    exact ⟨paths, hPaths, (loader.loadPaths_partitions files paths).1 graphs h⟩
  · intro paths path hPaths found hNone
    obtain ⟨error, hError⟩ := (loader.loadPaths_partitions files paths).2 path found hNone
    refine ⟨error, ?_⟩
    rw [loadDirectory, hPaths]
    exact hError

end Directories

end Loader

namespace Sample

/-- A file with nothing but a package clause for a name of one character. -/
def clauseFile (text : String) : FileTree :=
  .file {
    text := text
    snapshot := ⟨#[
      { kind := "source_file", span := ⟨0, 9⟩, children := [1] },
      { kind := "package_clause", span := ⟨0, 9⟩, children := [2] },
      { kind := "package_identifier", span := ⟨8, 9⟩ }]⟩ }

/-- In the first directory the files of two packages take turns, and in the second one there is an empty
file. -/
def shelves : FileTree := .directory [
  ("d", .directory [
    ("a.go", clauseFile "package y"),
    ("b.go", clauseFile "package x"),
    ("c.go", clauseFile "package y")]),
  ("e", .directory [
    ("a.go", .file { text := "", snapshot := ⟨#[{ kind := "source_file", span := ⟨0, 0⟩ }]⟩ })])]

def registered : SymbolTable :=
  .define {} 0 ⟨"f", .func, none⟩

/-- One of the packages has a symbol table. -/
def shelfLoader : Loader where
  tables := .insert .empty "x" registered

end Sample

/-- The file between the two others is alone in the first graph, which gets the table. The empty file
cannot be loaded. -/
theorem Loader.loadDirectory_partitions_sample :
    (∃ graphs, Sample.shelfLoader.loadDirectory Sample.shelves "d" = .ok graphs ∧
      Sample.shelfLoader.Partitions Sample.shelves ["d/a.go", "d/b.go", "d/c.go"] graphs ∧
      ∃ loaded ∈ graphs, loaded.graph.forest.package = some ⟨"x", Sample.registered⟩ ∧
        loaded.paths = ["d/b.go"]) ∧
    ∃ error, Sample.shelfLoader.loadDirectory Sample.shelves "e" = .error error := by
  have hFound : Sample.shelfLoader.discoverFiles Sample.shelves "d" =
      .ok ["d/a.go", "d/b.go", "d/c.go"] := by decide +kernel
  have hEmpty : Sample.shelfLoader.discoverFiles Sample.shelves "e" = .ok ["e/a.go"] := by
    decide +kernel
  have hLoads : (Sample.shelfLoader.loadDirectory Sample.shelves "d").isOk := by decide +kernel
  obtain ⟨hParts, _⟩ := Loader.loadDirectory_partitions Sample.shelfLoader Sample.shelves "d"
  obtain ⟨_, hFails⟩ := Loader.loadDirectory_partitions Sample.shelfLoader Sample.shelves "e"
  refine ⟨?_, hFails ["e/a.go"] "e/a.go" hEmpty (by decide) (by decide +kernel)⟩
  cases hLoaded : Sample.shelfLoader.loadDirectory Sample.shelves "d" with
  | error error =>
      rw [hLoaded] at hLoads
      cases hLoads
  | ok graphs =>
      obtain ⟨paths, hPaths, parts⟩ := hParts graphs hLoaded
      obtain rfl := Except.ok.inj (hFound.symm.trans hPaths)
      obtain ⟨loaded, member, hNamed, _⟩ := parts.once "d/b.go" (by decide)
      obtain ⟨package, hPackage, hFiles, _⟩ := parts.grouped loaded member
      have hClause : Loader.packageOf? Sample.shelves "d/b.go" = some "x" := by decide +kernel
      rw [LoadedGraph.packageName?, hPackage, hClause] at hNamed
      obtain rfl : package = "x" := Option.some.inj hNamed
      have hTable : (Sample.shelfLoader.tables.get? "x").getD .empty = Sample.registered := by
        decide +kernel
      have hAlone : (["d/a.go", "d/b.go", "d/c.go"].filter fun path =>
          Loader.packageOf? Sample.shelves path = some "x") = ["d/b.go"] := by decide +kernel
      rw [hTable] at hPackage
      exact ⟨graphs, rfl, parts, loaded, member, hPackage, hFiles.trans hAlone⟩

end SyntaxAtlas
