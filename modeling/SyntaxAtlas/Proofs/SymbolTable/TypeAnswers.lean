import Mathlib.Data.List.Forall2
import Mathlib.Data.List.Induction
import SyntaxAtlas.Proofs.SymbolTable.Documents

/-! The types that tables answer. The first question builds an index, a copy takes it along, a
document leaves it out, and recording a type drops it. So the index that a question meets is that of
the types at hand, and the answer is what a search through everything recorded so far gives. Several
tables are worked on side by side: a copy and its original may be told different things afterwards. -/
namespace SyntaxAtlas

section Related

variable {α β : Type} {relation : α → β → Prop} {first : List α} {second : List β}

theorem forall₂_modify {change : α → α} {other : β → β}
    (related : List.Forall₂ relation first second)
    (keeps : ∀ a b, relation a b → relation (change a) (other b)) (place : Nat) :
    List.Forall₂ relation (first.modify place change) (second.modify place other) := by
  induction related generalizing place with
  | nil => simp
  | cons head tail ih =>
      cases place with
      | zero => exact .cons (keeps _ _ head) tail
      | succ place => exact .cons head (ih place)

theorem forall₂_getElem? (related : List.Forall₂ relation first second) (place : Nat) :
    List.Forall₂ relation first[place]?.toList second[place]?.toList := by
  induction related generalizing place with
  | nil => simp
  | cons head tail ih =>
      cases place with
      | zero => exact .cons head .nil
      | succ place => exact ih place

end Related

namespace TypeIndex

/-- Of several entries with one span the first one stays. -/
theorem lookup_insertNew (index : TypeIndex) (key span : Span) (place : Nat) :
    (index.insertNew key place).lookup span =
      (index.lookup span).or (if key = span then some place else none) := by
  unfold insertNew
  by_cases hSame : key = span
  · subst hSame
    cases hKnown : index.lookup key with
    | none => simp [hKnown, List.lookup_append]
    | some first => simp [hKnown]
  · have hOther : (span == key) = false := beq_eq_false_iff_ne.mpr (Ne.symm hSame)
    split_ifs
    · simp
    · simp [List.lookup_append, List.lookup_cons, hOther]

theorem build_concat (types : List TypedSpan) (entry : TypedSpan) :
    build (types ++ [entry]) = (build types).insertNew entry.span types.length := by
  simp [build, List.zipIdx_append]

/-- The index leads to the first entry with a span. -/
theorem lookup_build (types : List TypedSpan) (span : Span) :
    (build types).lookup span = types.findIdx? fun entry => entry.span == span := by
  induction types using List.reverseRecOn with
  | nil => rfl
  | append_singleton types entry ih =>
      rw [build_concat, lookup_insertNew, ih, List.findIdx?_append]
      by_cases hSame : entry.span = span
      · simp [hSame]
      · simp [hSame]

end TypeIndex

namespace IndexedTable

/-- The type that was recorded first for exactly a given span. -/
def firstType? (record : List TypedSpan) (span : Span) : Option String :=
  (record.find? fun entry => entry.span == span).map TypedSpan.type

theorem firstType?_eq_none_iff {record : List TypedSpan} {span : Span} :
    firstType? record span = none ↔ ∀ entry ∈ record, entry.span ≠ span := by
  simp [firstType?]

/-- With an index of the types at hand, the answer is the one of a search through them. -/
theorem Current.typeOf_eq {indexed : IndexedTable} (current : indexed.Current) (span : Span) :
    (indexed.typeOf span).1 = firstType? indexed.table.types span := by
  rw [firstType?, List.find?_eq_bind_findIdx?_getElem?, ← TypeIndex.lookup_build,
    ← current.theIndex_eq]
  simp only [typeOf]
  cases indexed.theIndex.lookup span with
  | none => rfl
  | some place => exact Option.map_eq_bind.symm

/-- What is recorded about types after a step, whatever becomes of the index. -/
def Step.record (record : List TypedSpan) : Step → List TypedSpan
  | recordType span type => record ++ [⟨span, type⟩]
  | define .. | refer .. | addScope _ | askType _ => record

/-- What can be done with tables side by side, each known by its place. -/
inductive Move where
  /-- A table that knows nothing is put behind the others. -/
  | create
  /-- A step with one of the tables. -/
  | use (place : Nat) (step : Step)
  /-- One of the tables is copied as it is, its index included. -/
  | copy (place : Nat)
  /-- The table in a document is put behind the others, if it has one. It comes without an index. -/
  | decode (document : List Char)

namespace Move

/-- The tables after a move. -/
def apply (tables : List IndexedTable) : Move → List IndexedTable
  | create => tables ++ [{}]
  | use place step => tables.modify place fun indexed => step.apply indexed
  | copy place => tables ++ tables[place]?.toList
  | decode document =>
    tables ++ (SymbolTable.read? document).toList.map fun table => ⟨table, none⟩

/-- What is recorded about types in each of the tables. -/
def record (records : List (List TypedSpan)) : Move → List (List TypedSpan)
  | create => records ++ [[]]
  | use place step => records.modify place fun record => step.record record
  | copy place => records ++ records[place]?.toList
  | decode document => records ++ (SymbolTable.read? document).toList.map SymbolTable.types

end Move

/-- The tables after some moves, from none. -/
def afterMoves (moves : List Move) : List IndexedTable :=
  moves.foldl Move.apply []

/-- What was recorded in them. -/
def recordedBy (moves : List Move) : List (List TypedSpan) :=
  moves.foldl Move.record []

/-- A table holds what was recorded, and no outdated index. -/
structure Holds (indexed : IndexedTable) (record : List TypedSpan) : Prop where
  current : indexed.Current
  types : indexed.table.types = record

theorem Holds.unindexed (table : SymbolTable) : Holds ⟨table, none⟩ table.types where
  current := by simp [Current]
  types := rfl

theorem Holds.step {indexed : IndexedTable} {record : List TypedSpan}
    (holds : indexed.Holds record) (step : Step) :
    (step.apply indexed).Holds (step.record record) := by
  refine ⟨holds.current.step step, ?_⟩
  rw [← holds.types]
  cases step <;> rfl

/-- One move. A copy takes the index along with the types that it belongs to. -/
theorem Move.holds (move : Move) {tables : List IndexedTable} {records : List (List TypedSpan)}
    (holds : List.Forall₂ Holds tables records) :
    List.Forall₂ Holds (move.apply tables) (move.record records) := by
  cases move with
  | create => exact List.rel_append holds (.cons (.unindexed .empty) .nil)
  | use place step => exact forall₂_modify holds (fun _ _ held => held.step step) place
  | copy place => exact List.rel_append holds (forall₂_getElem? holds place)
  | decode document =>
      apply List.rel_append holds
      cases SymbolTable.read? document with
      | none => exact .nil
      | some table => exact .cons (.unindexed table) .nil

/-- All moves, by induction on the last one. -/
theorem holds_afterMoves (moves : List Move) :
    List.Forall₂ Holds (afterMoves moves) (recordedBy moves) := by
  induction moves using List.reverseRecOn with
  | nil => exact .nil
  | append_singleton moves last ih =>
      rw [afterMoves, recordedBy, List.foldl_concat, List.foldl_concat]
      exact last.holds ih

/-- Whatever was done with the tables, each of them answers for a span with the type that was recorded
first for it, and does not answer only when none was. -/
theorem afterMoves_answer (moves : List Move) :
    List.Forall₂ (fun indexed record => ∀ span,
        (indexed.typeOf span).1 = firstType? record span ∧
          ((indexed.typeOf span).1 = none ↔ ∀ entry ∈ record, entry.span ≠ span))
      (afterMoves moves) (recordedBy moves) := by
  apply (holds_afterMoves moves).imp
  intro indexed record holds span
  have hAnswer : (indexed.typeOf span).1 = firstType? record span := by
    rw [holds.current.typeOf_eq, holds.types]
  exact ⟨hAnswer, by rw [hAnswer, firstType?_eq_none_iff]⟩

/-- The copy takes an index along, and it is dropped when the copy learns of a type. The span of the
original has two types by then, of which the first one counts. -/
example :
    (afterMoves [.create, .use 0 (.recordType ⟨0, 3⟩ "int"), .use 0 (.askType ⟨0, 3⟩), .copy 0,
      .use 1 (.recordType ⟨4, 5⟩ "string"), .use 0 (.recordType ⟨0, 3⟩ "any")]).map
        (fun indexed => ((indexed.typeOf ⟨0, 3⟩).1, (indexed.typeOf ⟨4, 5⟩).1)) =
      [(some "int", none), (some "int", some "string")] := by
  decide

end IndexedTable

end SyntaxAtlas
