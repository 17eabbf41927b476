import Mathlib.Data.List.Find
import SyntaxAtlas.Proofs.Graph.Splitting
import SyntaxAtlas.Proofs.Snapshot.Conversion
import SyntaxAtlas.Proofs.Source.Placement

/-! The name in a package clause. It is read from the concrete tree, from the snapshot and from the
nodes of the unit, each time by looking for the first clause and for the first identifier in it. The
snapshot mirrors the tree and the nodes stand for the elements, so that all of them find the same
place in the text. Only a clause or an identifier that the parser supposed could make a difference.
-/
namespace SyntaxAtlas

/-- Searches through related lists that test the same find related items. -/
theorem find?_related {α β : Type} {related : α → β → Prop} {first : α → Bool} {second : β → Bool}
    {left : List α} {right : List β} (pairs : List.Forall₂ related left right)
    (same : ∀ item other, related item other → first item = second other) :
    Option.Rel related (left.find? first) (right.find? second) := by
  induction pairs with
  | nil => exact .none
  | @cons item other _ _ hRelated _ ih =>
      have hSame := same item other hRelated
      cases hFirst : first item with
      | true =>
          rw [List.find?_cons_of_pos hFirst, List.find?_cons_of_pos (hSame.symm.trans hFirst)]
          exact .some hRelated
      | false =>
          have hSecond : ¬ second other := by simp [← hSame, hFirst]
          rw [List.find?_cons_of_neg (by simp [hFirst]), List.find?_cons_of_neg hSecond]
          exact ih

namespace ConcreteTree

variable {tree inner : ConcreteTree} {text : List Char}

/-- The parser supposed no node. -/
def Actual (tree : ConcreteTree) : Prop :=
  ∀ label ∈ tree.labels, label.isMissing = false

/-- Every node starts and ends between characters of a text. -/
def Aligned (tree : ConcreteTree) (text : List Char) : Prop :=
  ∀ label ∈ tree.labels,
    Text.Boundary text label.span.start ∧ Text.Boundary text label.span.stop

instance (tree : ConcreteTree) : Decidable tree.Actual :=
  inferInstanceAs (Decidable (∀ label ∈ tree.labels, label.isMissing = false))

instance (tree : ConcreteTree) (text : List Char) : Decidable (tree.Aligned text) :=
  inferInstanceAs (Decidable (∀ label ∈ tree.labels,
    Text.Boundary text label.span.start ∧ Text.Boundary text label.span.stop))

/-- The identifier in the package clause. -/
def packageIdent? (tree : ConcreteTree) : Option ConcreteTree :=
  (tree.namedChild? "package_clause").bind fun clause => clause.namedChild? "package_identifier"

theorem label_mem_labels (tree : ConcreteTree) : tree.label ∈ tree.labels := by
  obtain ⟨label, children⟩ := tree
  rw [labels]
  exact List.mem_cons_self

theorem mem_labelsOfAll {trees : List ConcreteTree} {label : ConcreteLabel} :
    label ∈ labelsOfAll trees ↔ ∃ tree ∈ trees, label ∈ tree.labels := by
  induction trees with
  | nil => simp [labelsOfAll]
  | cons tree rest ih => simp [labelsOfAll, ih]

theorem labels_subset (member : inner ∈ tree.children) : inner.labels ⊆ tree.labels := by
  obtain ⟨top, children⟩ := tree
  intro label hLabel
  rw [labels]
  exact List.mem_cons_of_mem _ (mem_labelsOfAll.mpr ⟨inner, member, hLabel⟩)

theorem mem_of_namedChild? {kind : String} (found : tree.namedChild? kind = some inner) :
    inner ∈ tree.children :=
  List.mem_of_find?_eq_some found

theorem Actual.child (actual : tree.Actual) (member : inner ∈ tree.children) : inner.Actual :=
  fun label hLabel => actual label (labels_subset member hLabel)

theorem Aligned.child (aligned : tree.Aligned text) (member : inner ∈ tree.children) :
    inner.Aligned text :=
  fun label hLabel => aligned label (labels_subset member hLabel)

theorem Nested.child (nested : tree.Nested) (member : inner ∈ tree.children) : inner.Nested := by
  cases nested with
  | node _ _ below => exact below inner member

/-- What an aligned node covers is a part of the text. -/
theorem Aligned.slice?_isSome (aligned : tree.Aligned text) (nested : tree.Nested) :
    (Text.slice? tree.label.span.start tree.label.span.stop text).isSome := by
  obtain ⟨hStart, hStop⟩ := aligned _ tree.label_mem_labels
  have hOrdered : tree.label.span.start ≤ tree.label.span.stop := by
    cases nested with
    | node ordered _ _ => exact ordered
  obtain ⟨part, hPart⟩ := Text.Part.of_boundaries hStart hStop hOrdered
  rw [Text.slice?_eq_some_iff.mpr hPart]
  rfl

/-- When nothing is supposed, the first named child of a kind is the first one that is kept. -/
theorem find?_filter_isKept (actual : tree.Actual) (kind : String) :
    (tree.children.filter isKept).find? (fun child => child.label.kind == kind) =
      tree.namedChild? kind := by
  rw [List.find?_filter, namedChild?]
  refine List.find?_congr ?_
  intro child member
  have hHere := (actual.child member) _ child.label_mem_labels
  simp [isKept, hHere, Bool.beq_eq_decide_eq]

end ConcreteTree

namespace Snapshot

variable {snapshot : Snapshot} {field : Option String} {id : ElementId} {tree : ConcreteTree}

/-- The identifier in the package clause. -/
def packageIdent? (snapshot : Snapshot) : Option ElementId :=
  (snapshot.childOfKind? 0 "package_clause").bind fun clause =>
    snapshot.childOfKind? clause "package_identifier"

theorem Mirrors.kind_eq (mirrors : snapshot.Mirrors field id tree) :
    (snapshot.get? id).map Element.kind = some tree.label.kind := by
  cases mirrors with
  | node found _ =>
      rw [found]
      rfl

/-- The first child of a kind mirrors the first named child of this kind. -/
theorem Mirrors.childOfKind? (mirrors : snapshot.Mirrors field id tree) (actual : tree.Actual)
    (kind : String) :
    Option.Rel (fun child inner => snapshot.Mirrors inner.label.field child inner)
      (snapshot.childOfKind? id kind) (tree.namedChild? kind) := by
  rw [← ConcreteTree.find?_filter_isKept actual kind, Snapshot.childOfKind?]
  cases mirrors with
  | @node _ _ _ ids found below =>
      have hChildren : snapshot.children id = ids := by simp [children, found]
      rw [hChildren]
      refine find?_related below ?_
      intro child inner hInner
      rw [hInner.kind_eq]
      rfl

theorem Mirrors.packageIdent? (mirrors : snapshot.Mirrors field 0 tree) (actual : tree.Actual) :
    Option.Rel (fun id inner => snapshot.Mirrors inner.label.field id inner)
      snapshot.packageIdent? tree.packageIdent? := by
  have hClauses := mirrors.childOfKind? actual "package_clause"
  unfold Snapshot.packageIdent? ConcreteTree.packageIdent?
  cases hClause : tree.namedChild? "package_clause" with
  | none =>
      rw [hClause] at hClauses
      generalize snapshot.childOfKind? 0 "package_clause" = found at hClauses ⊢
      cases hClauses
      exact .none
  | some clause =>
      rw [hClause] at hClauses
      generalize snapshot.childOfKind? 0 "package_clause" = found at hClauses ⊢
      cases hClauses with
      | some hInner =>
          exact hInner.childOfKind? (actual.child (ConcreteTree.mem_of_namedChild? hClause)) _

end Snapshot

namespace ParsedUnit

variable {unit : ParsedUnit} {number : UnitId} {kind : Kind} {word : String}

/-- Of the nodes of some elements, the first one of a kind that is never split is the node of the
first element of the grammar kind. -/
theorem find?_kind_sprouts
    (only : ∀ grammarKind, Kind.classify grammarKind = kind ↔ grammarKind = word)
    (whole : kind.isSplittable = false) {ids : List ElementId}
    (present : ∀ id ∈ ids, ∃ element, unit.snapshot.get? id = some element) :
    ((ids.flatMap (unit.sproutsOf number)).find? fun sprout =>
      sprout.kind == kind).map Sprout.origin =
      (ids.find? fun id => ((unit.snapshot.get? id).map Element.kind) == some word).map
        (.element number) := by
  induction ids with
  | nil => rfl
  | cons id ids ih =>
      obtain ⟨⟨element, found⟩, hRest⟩ := List.forall_mem_cons.mp present
      rw [List.flatMap_cons, List.find?_append]
      by_cases hKind : Kind.classify element.kind = kind
      · have hSplits : unit.splits id = false := by simp [splits, found, hKind, whole]
        have hWord := (only element.kind).mp hKind
        rw [sproutsOf_of_not_splits found hSplits, List.find?_cons_of_pos (by simp [hKind]),
          List.find?_cons_of_pos (by simp [found, hWord])]
        rfl
      · have hNone :
            (unit.sproutsOf number id).find? (fun sprout => sprout.kind == kind) = none := by
          refine List.find?_eq_none.mpr ?_
          intro sprout member
          obtain ⟨other, hOther, hSame⟩ := kind_of_mem_sproutsOf member
          obtain rfl := Option.some.inj (found.symm.trans hOther)
          simpa [hSame] using hKind
        have hWord := (only element.kind).not.mp hKind
        rw [hNone, Option.none_or, List.find?_cons_of_neg (by simp [found, hWord])]
        exact ih hRest

end ParsedUnit

/-- The root of a file on its own sprouts for its only unit. -/
theorem Forest.rootSprout_eq {forest : Forest} {number : UnitId} {unit : ParsedUnit}
    (hUnit : forest.units[number]? = some unit)
    (hOrigin : forest.rootSprout.origin = .element number 0) :
    forest.rootSprout = unit.rootSprout number := by
  unfold Forest.rootSprout at hOrigin ⊢
  split at hOrigin
  · rename_i only rest _ hUnits
    cases hOrigin
    rw [hUnits] at hUnit
    obtain rfl := Option.some.inj hUnit
    rfl
  · cases hOrigin

namespace Arena.WellNumbered

variable {forest : Forest} {arena : Arena} {node : NodeId} {ids : List NodeId} {number : UnitId}
  {unit : ParsedUnit} {id : ElementId}

/-- The first child of a kind that is never split is the node of the first element of the grammar
kind. -/
theorem find?_kind_children {kind : Kind} {word : String} (h : arena.WellNumbered forest)
    (known : node < arena.size) (children : arena.children? node = some ids)
    (hUnit : forest.units[number]? = some unit) (hOrigin : arena.origin node = .element number id)
    (only : ∀ grammarKind, Kind.classify grammarKind = kind ↔ grammarKind = word)
    (whole : kind.isSplittable = false) :
    (ids.find? fun child => arena.kind child == kind).map arena.origin =
      (unit.snapshot.childOfKind? id word).map (.element number) := by
  have hShown :
      ids.map arena.shown = (unit.snapshot.children id).flatMap (unit.sproutsOf number) := by
    rw [h.map_shown known children, hOrigin, Forest.sprouts_eq_flatMap_kept rfl hUnit,
      ParsedUnit.kept]
  calc (ids.find? fun child => arena.kind child == kind).map arena.origin
      = ((ids.map arena.shown).find? fun sprout => sprout.kind == kind).map Sprout.origin := by
        rw [List.find?_map, Option.map_map]
        rfl
    _ = (unit.snapshot.childOfKind? id word).map (.element number) := by
        rw [hShown]
        exact ParsedUnit.find?_kind_sprouts only whole
          fun child listed => Forest.exists_of_mem_children hUnit listed

/-- The node of an inner element has the text of the element. -/
theorem sourceText_inner (h : arena.WellNumbered forest) (known : node < arena.size)
    (hUnit : forest.units[number]? = some unit) (hOrigin : arena.origin node = .element number id)
    (inner : id ≠ 0) : forest.sourceText arena node = unit.textOf id := by
  have hCovers := h.covers known
  rw [hOrigin] at hCovers
  generalize hSpan : arena.span node = span at hCovers
  cases hCovers with
  | root => exact absurd rfl inner
  | element hOther _ found =>
      obtain rfl := Option.some.inj (hUnit.symm.trans hOther)
      exact Forest.sourceText_of_whole hUnit found hOrigin hSpan

/-- The node of the root of a unit is what sprouts for it. -/
theorem shows_unitRoot (h : arena.WellNumbered forest) (known : node < arena.size)
    (hUnit : forest.units[number]? = some unit) (hOrigin : arena.origin node = .element number 0) :
    arena.Shows node (unit.rootSprout number) := by
  by_cases hRoot : node = Arena.root
  · rw [hRoot, h.root.origin] at hOrigin
    rw [hRoot, ← Forest.rootSprout_eq hUnit hOrigin]
    exact h.root
  · obtain ⟨parent, _, _, _, _, above⟩ := h.exists_parent known hRoot
    obtain ⟨sprout, member, hShows⟩ := h.exists_sprout above
    have hSprout : sprout.origin = .element number 0 := hShows.origin.symm.trans hOrigin
    cases hPlace : (arena.origin parent).place? with
    | none =>
        rw [Origin.eq_package_of_place? hPlace] at member
        obtain ⟨other, file, hFile, rfl⟩ := Forest.of_mem_sprouts_package member
        cases hSprout
        obtain rfl := Option.some.inj (hUnit.symm.trans hFile)
        exact hShows
    | some place =>
        obtain ⟨child, hChild, hInner⟩ := Forest.place?_of_mem_sprouts hPlace member
        rw [hSprout] at hChild
        cases hChild
        exact absurd rfl hInner

end Arena.WellNumbered

namespace Forest

variable {forest : Forest} {session : Session} {node : NodeId}

/-- A file is named by the first identifier in its first package clause. -/
theorem name?_run_sourceFile (forest : Forest) (file : session.arena.kind node = .sourceFile) :
    ((forest.name? node).run session).1 =
      let clause := (forest.childByKind? .packageClause node).run session
      clause.1.bind fun id =>
        let ident := (forest.childByKind? .packageIdentifier id).run clause.2
        ident.1.map (forest.sourceText ident.2.arena) := by
  rw [name?, Explore.run_read, file]
  dsimp only
  rw [Explore.run_bind, ident?, Explore.run_read, file]
  dsimp only
  rw [Explore.run_bind]
  generalize (forest.childByKind? .packageClause node).run session = clause
  obtain ⟨found, later⟩ := clause
  cases found <;> rfl

end Forest

namespace Session

variable {forest : Forest} {session : Session} {node : NodeId} {number : UnitId}
  {unit : ParsedUnit} {id : ElementId}

/-- The first child of a kind, asked for at any time. -/
theorem childByKind?_element {kind : Kind} {word : String} (sound : session.Sound forest)
    (known : node < session.arena.size) (hUnit : forest.units[number]? = some unit)
    (hOrigin : session.arena.origin node = .element number id)
    (only : ∀ grammarKind, Kind.classify grammarKind = kind ↔ grammarKind = word)
    (whole : kind.isSplittable = false) :
    session.Yields forest .all (forest.childByKind? kind node) (fun later found =>
      later.Finds found ∧
        found.map later.arena.origin =
          (unit.snapshot.childOfKind? id word).map (.element number)) := by
  have hFinds : session.Yields forest .all (forest.childByKind? kind node) Finds :=
    childByKind?_yields sound known
  have hAsked := children_yields .all sound known
  refine ⟨hFinds.sound, hFinds.allows, hFinds.answer, ?_⟩
  exact hAsked.sound.arena.find?_kind_children (hAsked.allows.arena.lt known) hAsked.answer hUnit
    ((hAsked.allows.arena.origin node known).trans hOrigin) only whole

/-- The node of a file is named by the identifier that the snapshot has in its package clause. -/
theorem Sound.name?_file (sound : session.Sound forest) (known : node < session.arena.size)
    (hUnit : forest.units[number]? = some unit)
    (hOrigin : session.arena.origin node = .element number 0)
    (file : (unit.rootSprout number).kind = .sourceFile) :
    ((forest.name? node).run session).1 = unit.snapshot.packageIdent?.map unit.textOf := by
  have hFile := (sound.arena.shows_unitRoot known hUnit hOrigin).kind.trans file
  rw [forest.name?_run_sourceFile hFile, Snapshot.packageIdent?]
  have hClauseKind : ∀ word, Kind.classify word = .packageClause ↔ word = "package_clause" :=
    fun _ => Kind.classify_eq_iff rfl (by decide +kernel)
  have hIdentKind : ∀ word,
      Kind.classify word = .packageIdentifier ↔ word = "package_identifier" :=
    fun _ => Kind.classify_eq_iff rfl (by decide +kernel)
  obtain ⟨hSound, _, hFinds, hClause⟩ :=
    childByKind?_element sound known hUnit hOrigin hClauseKind rfl
  dsimp only
  generalize (forest.childByKind? .packageClause node).run session = clause at *
  obtain ⟨found, middle⟩ := clause
  cases found with
  | none =>
      have hNone := Option.map_eq_none_iff.mp hClause.symm
      rw [hNone]
      rfl
  | some clause =>
      obtain ⟨clauseId, hClauseId, hClauseOrigin⟩ := Option.map_eq_some_iff.mp hClause.symm
      obtain ⟨hSound, _, hFinds, hIdent⟩ := childByKind?_element hSound (hFinds clause rfl) hUnit
        hClauseOrigin.symm hIdentKind rfl
      rw [hClauseId, Option.bind_some, Option.bind_some]
      dsimp only
      generalize (forest.childByKind? .packageIdentifier clause).run middle = ident at *
      obtain ⟨found, last⟩ := ident
      cases found with
      | none =>
          have hNone := Option.map_eq_none_iff.mp hIdent.symm
          rw [hNone]
          rfl
      | some ident =>
          obtain ⟨identId, hIdentId, hIdentOrigin⟩ := Option.map_eq_some_iff.mp hIdent.symm
          have hListed : unit.snapshot.Lists clauseId identId := List.mem_of_find?_eq_some hIdentId
          have hFormed := (forest.wellFormed (List.mem_of_getElem? hUnit)).2
          have hInner : identId ≠ 0 := Nat.ne_zero_of_lt (hFormed.lt_of_lists hListed).1
          rw [hIdentId]
          exact congrArg some
            (hSound.arena.sourceText_inner (hFinds ident rfl) hUnit hIdentOrigin.symm hInner)

end Session

namespace ConcreteTree

variable {tree : ConcreteTree} {source : SourceUnit} {text : List Char}

theorem packageName?_eq (tree : ConcreteTree) (text : List Char) :
    tree.packageName? text = tree.packageIdent?.bind fun ident =>
      Text.slice? ident.label.span.start ident.label.span.stop text := by
  rw [packageName?, packageIdent?, Option.bind_assoc]
  rfl

theorem packageName?_toSnapshot_eq (tree : ConcreteTree) (text : List Char) :
    tree.toSnapshot.packageName? text = tree.toSnapshot.packageIdent?.bind fun ident =>
      (tree.toSnapshot.get? ident).bind fun element =>
        Text.slice? element.span.start element.span.stop text := by
  have hRoot : tree.toSnapshot.root? = some 0 := by
    have hSize : tree.toSnapshot.size ≠ 0 := by
      rw [size_toSnapshot]
      omega
    exact if_neg hSize
  rw [Snapshot.packageName?, hRoot, Snapshot.packageIdent?, Option.bind_assoc]
  rfl

/-- The tree and its snapshot name the same package. -/
theorem packageName?_toSnapshot (actual : tree.Actual) (text : List Char) :
    tree.toSnapshot.packageName? text = tree.packageName? text := by
  have hIdents := tree.toSnapshot_mirrors.packageIdent? actual
  rw [packageName?_eq, packageName?_toSnapshot_eq]
  generalize tree.toSnapshot.packageIdent? = found at hIdents ⊢
  generalize tree.packageIdent? = found' at hIdents ⊢
  cases hIdents with
  | none => rfl
  | @some id inner hMirrors =>
      cases hMirrors with
      | node hFound _ =>
          rw [Option.bind_some, Option.bind_some, hFound]
          rfl

/-- The text of the identifier that a snapshot has in its package clause is the name that the tree
gives. -/
theorem map_textOf_packageIdent? (fits : tree.Fits source.length) (actual : tree.Actual)
    (aligned : tree.Aligned source.chars) :
    tree.toSnapshot.packageIdent?.map (ParsedUnit.mk source tree.toSnapshot).textOf =
      (tree.packageName? source.chars).map String.ofList := by
  have hIdents := tree.toSnapshot_mirrors.packageIdent? actual
  rw [packageName?_eq]
  cases hIdent : tree.packageIdent? with
  | none =>
      rw [hIdent] at hIdents
      generalize tree.toSnapshot.packageIdent? = found at hIdents ⊢
      cases hIdents
      rfl
  | some ident =>
      obtain ⟨clause, hClause, hInner⟩ := Option.bind_eq_some_iff.mp hIdent
      have hMember := mem_of_namedChild? hClause
      have hMember' := mem_of_namedChild? hInner
      have hSlice := ((aligned.child hMember).child hMember').slice?_isSome
        ((fits.nested.child hMember).child hMember')
      obtain ⟨part, hPart⟩ := Option.isSome_iff_exists.mp hSlice
      rw [hIdent] at hIdents
      generalize tree.toSnapshot.packageIdent? = found at hIdents ⊢
      cases hIdents with
      | @some id _ hMirrors =>
          cases hMirrors with
          | node hFound _ =>
              simp [ParsedUnit.textOf, hFound, element, hPart]

/-- For a parsed source without supposed nodes, the concrete tree and the snapshot name the same
package. When the root is a source file, so does the node of the file in every graph that the
snapshot is part of, on its own or in a package, whatever was asked before. -/
theorem packageName_agrees (fits : tree.Fits source.length) (actual : tree.Actual)
    (aligned : tree.Aligned source.chars) :
    let package := tree.packageName? source.chars
    tree.toSnapshot.packageName? source.chars = package ∧
    (tree.label.kind = "source_file" →
      (∃ forest, Forest.ofFile source tree.toSnapshot = .ok forest ∧
        ∀ session, Reachable forest session →
          ((forest.name? Arena.root).run session).1 = package.map String.ofList) ∧
      ∀ (forest : Forest) (number : UnitId) (session : Session) (node : NodeId),
        forest.units[number]? = some ⟨source, tree.toSnapshot⟩ → Reachable forest session →
        node < session.arena.size → session.arena.origin node = .element number 0 →
          ((forest.name? node).run session).1 = package.map String.ofList) := by
  intro package
  refine ⟨packageName?_toSnapshot actual source.chars, ?_⟩
  intro file
  have hFile : ((ParsedUnit.mk source tree.toSnapshot).rootSprout 0).kind = .sourceFile := by
    rw [ParsedUnit.rootSprout, tree.toSnapshot_hasFrom.1]
    simp only [element, file, Option.map_some, Option.getD_some]
    decide +kernel
  have hEvery : ∀ (forest : Forest) (number : UnitId) (session : Session) (node : NodeId),
      forest.units[number]? = some ⟨source, tree.toSnapshot⟩ → Reachable forest session →
      node < session.arena.size → session.arena.origin node = .element number 0 →
        ((forest.name? node).run session).1 = package.map String.ofList := by
    intro forest number session node hUnit reached known hOrigin
    rw [reached.sound.name?_file known hUnit hOrigin hFile]
    exact map_textOf_packageIdent? fits actual aligned
  refine ⟨?_, hEvery⟩
  have hAnswers := Forest.ofFile_answers source tree.toSnapshot
  obtain ⟨forest, hForest⟩ := hAnswers.exists_ok_iff.mpr (by
    intro unit hUnit
    obtain rfl := List.mem_singleton.mp hUnit
    exact fits.unit_wellFormed)
  obtain ⟨hUnits, hPackage⟩ := hAnswers.of_ok hForest
  refine ⟨forest, hForest, ?_⟩
  intro session reached
  have hUnit : forest.units[0]? = some ⟨source, tree.toSnapshot⟩ := by rw [hUnits]; rfl
  refine hEvery forest 0 session Arena.root hUnit reached reached.sound.arena.nonempty ?_
  rw [reached.sound.arena.root.origin]
  rcases forest.rootSprout_origin with ⟨hSome, _⟩ | ⟨_, hOrigin⟩
  · rw [hPackage] at hSome
    cases hSome
  · exact hOrigin

end ConcreteTree

namespace Sample

/-- A clause behind a comment. The unit does not start at the first position. -/
def clauseSource : SourceUnit :=
  ⟨"a.go", 5, "/**/package é"⟩

def clauseTree : ConcreteTree :=
  .node ⟨"source_file", true, false, false, ⟨0, 14⟩, none⟩ [
    .node ⟨"comment", true, false, false, ⟨0, 4⟩, none⟩ [],
    .node ⟨"package_clause", true, false, false, ⟨4, 14⟩, none⟩ [
      .node ⟨"package", false, false, false, ⟨4, 11⟩, none⟩ [],
      .node ⟨"package_identifier", true, false, false, ⟨12, 14⟩, none⟩ []]]

theorem clauseTree_fits : clauseTree.Fits clauseSource.length := by
  have hLeaf : ∀ label : ConcreteLabel, label.span.start ≤ label.span.stop →
      (ConcreteTree.node label []).Nested :=
    fun _ ordered => .node ordered (by simp) (by simp)
  refine ⟨.node (by decide) (by decide) ?_, by decide⟩
  simp only [List.forall_mem_cons]
  refine ⟨hLeaf _ (by decide), .node (by decide) (by decide) ?_, by simp⟩
  simp only [List.forall_mem_cons]
  exact ⟨hLeaf _ (by decide), hLeaf _ (by decide), by simp⟩

end Sample

/-- The name is a letter of two bytes. -/
theorem ConcreteTree.packageName_agrees_sample :
    Sample.clauseTree.toSnapshot.packageName? Sample.clauseSource.chars = some ['é'] ∧
      ∃ forest, Forest.ofFile Sample.clauseSource Sample.clauseTree.toSnapshot = .ok forest ∧
        ((forest.name? Arena.root).run (.start forest)).1 = some "é" := by
  have hName : Sample.clauseTree.packageName? Sample.clauseSource.chars = some ['é'] := by
    decide +kernel
  obtain ⟨hSnapshot, hFile⟩ := ConcreteTree.packageName_agrees Sample.clauseTree_fits
    (by decide +kernel) (by decide +kernel)
  obtain ⟨⟨forest, hForest, hSessions⟩, _⟩ := hFile rfl
  rw [hName] at hSnapshot hSessions
  exact ⟨hSnapshot, forest, hForest, hSessions _ (.refl _)⟩

end SyntaxAtlas
