import SyntaxAtlas.Proofs.Json.Records
import SyntaxAtlas.SymbolTable.Json

/-! Symbol tables as documents. A table that was recorded entry by entry is what its document says.
The index of types is not part of the document; it always agrees with the list of types, so that the
table which is read back answers like the one that was written. -/
namespace SyntaxAtlas

namespace SortedMap

variable {α : Type}

/-- A key behind all others is put at the end. -/
theorem insertEntry_of_forall_lt {key : Nat} {value : α} {entries : List (Nat × α)}
    (h : ∀ entry ∈ entries, entry.1 < key) :
    insertEntry key value entries = entries ++ [(key, value)] := by
  induction entries with
  | nil => rfl
  | cons entry rest ih =>
      obtain ⟨hFirst, hRest⟩ := List.forall_mem_cons.mp h
      simp [insertEntry, ih hRest, Nat.not_lt.mpr (Nat.le_of_lt hFirst), hFirst]

theorem entries_foldl_insert (map : SortedMap Nat α) {entries : List (Nat × α)}
    (h : (map.entries ++ entries).Pairwise fun first second => first.1 < second.1) :
    (entries.foldl (fun map entry => map.insert entry.1 entry.2) map).entries =
      map.entries ++ entries := by
  induction entries generalizing map with
  | nil => simp
  | cons entry rest ih =>
      have hBehind : ∀ earlier ∈ map.entries, earlier.1 < entry.1 := fun earlier member =>
        (List.pairwise_append.mp h).2.2 earlier member entry List.mem_cons_self
      have hInsert : (map.insert entry.1 entry.2).entries = map.entries ++ [entry] :=
        insertEntry_of_forall_lt hBehind
      rw [List.append_cons, ← hInsert] at h
      rw [List.foldl_cons, ih _ h, hInsert]
      simp

/-- A map is made of its entries, put one after the other. -/
theorem ofEntries_entries (map : SortedMap Nat α) : ofEntries map.entries = map := by
  have hEntries : (ofEntries map.entries).entries = map.entries :=
    entries_foldl_insert empty map.sorted
  generalize ofEntries map.entries = made at hEntries
  cases made
  cases map
  cases hEntries
  rfl

end SortedMap

namespace Symbol

theorem plain_toJson (symbol : Symbol) : symbol.toJson.Plain := by
  apply Json.plain_record
  obtain ⟨name, kind, type⟩ := symbol
  cases type <;> simp [Json.plain_ofText]

theorem ofJson?_toJson (symbol : Symbol) : ofJson? symbol.toJson = some symbol := by
  have hSlots : symbol.toJson.slots? ["name", "kind", "type"] =
      some [some (.ofText symbol.name), some (.ofText symbol.kind.name),
        symbol.type.map .ofText] := by
    apply Json.slots?_eq _ _ (by decide) rfl
    obtain ⟨name, kind, type⟩ := symbol
    cases type <;> rfl
  have hKind : SymbolKind.ofJson? (.ofText symbol.kind.name) = some symbol.kind := by
    have hName : SymbolKind.ofName? symbol.kind.name = some symbol.kind := by
      cases symbol.kind <;> decide
    change (Json.text? (.ofText symbol.kind.name)).bind SymbolKind.ofName? = _
    rw [Json.text?_ofText]
    exact hName
  have hType : Json.optional? none (Json.nullable? Json.text?) (symbol.type.map .ofText) =
      some symbol.type :=
    Json.optional?_nullable (fun text _ => Json.text?_ofText text) rfl
  simp only [ofJson?, hSlots, Json.required?, Option.bind_eq_bind, Option.bind_some,
    Json.text?_ofText, hKind, hType]
  rfl

end Symbol

namespace Scope

/-- Positions and the number of the parent are such that a document may mention them. -/
def Fits (scope : Scope) : Prop :=
  scope.owner.Fits ∧ scope.range.Fits ∧ ∀ parent ∈ scope.parent, parent ≤ maxPosition

instance (scope : Scope) : Decidable scope.Fits :=
  inferInstanceAs (Decidable (_ ∧ _))

theorem plain_toJson (scope : Scope) : scope.toJson.Plain := by
  have hNames : (Json.arr (scope.names.map .ofText)).Plain := Json.plain_array Json.plain_ofText
  apply Json.plain_record
  obtain ⟨owner, range, names, parent⟩ := scope
  cases names <;> cases parent <;> simp_all [Span.plain_toJson, Json.Plain.number]

theorem ofJson?_toJson {scope : Scope} (fits : scope.Fits) : ofJson? scope.toJson = some scope := by
  obtain ⟨hOwner, hRange, hParent⟩ := fits
  have hSlots : scope.toJson.slots? ["owner", "range", "names", "parent"] =
      some [some scope.owner.toJson, some scope.range.toJson,
        if scope.names.isEmpty then none else some (.arr (scope.names.map .ofText)),
        scope.parent.map .ofNat] := by
    apply Json.slots?_eq _ _ (by decide) rfl
    obtain ⟨owner, range, names, parent⟩ := scope
    cases names <;> cases parent <;> rfl
  have hNames := Json.optional?_list fun name (_ : name ∈ scope.names) => Json.text?_ofText name
  have hNumber : Json.optional? none (Json.nullable? (Json.nat? maxPosition))
      (scope.parent.map .ofNat) = some scope.parent :=
    Json.optional?_nullable (fun parent member => Json.nat?_ofNat (hParent parent member)) rfl
  simp only [ofJson?, hSlots, Json.required?, Option.bind_eq_bind, Option.bind_some,
    Span.ofJson?_toJson hOwner, Span.ofJson?_toJson hRange, hNames, hNumber]
  rfl

end Scope

namespace TypedSpan

theorem plain_toJson (entry : TypedSpan) : entry.toJson.Plain := by
  apply Json.plain_record
  simp [Span.plain_toJson, Json.plain_ofText]

theorem ofJson?_toJson {entry : TypedSpan} (fits : entry.span.Fits) :
    ofJson? entry.toJson = some entry := by
  have hSlots : entry.toJson.slots? ["span", "type"] =
      some [some entry.span.toJson, some (.ofText entry.type)] :=
    Json.slots?_eq _ _ (by decide) rfl rfl
  simp [ofJson?, hSlots, Json.required?, Span.ofJson?_toJson fits, Json.text?_ofText]

end TypedSpan

namespace SymbolTable

/-- All positions of the table are such that a document may mention them. -/
structure Fits (table : SymbolTable) : Prop where
  defs : ∀ entry ∈ table.defs.entries, entry.1 ≤ maxPosition
  uses : ∀ entry ∈ table.uses.entries, entry.1 ≤ maxPosition
  scopes : ∀ scope ∈ table.scopes, scope.Fits
  types : ∀ entry ∈ table.types, entry.span.Fits

theorem plain_symbolsToJson (symbols : SortedMap Nat Symbol) : (symbolsToJson symbols).Plain := by
  apply Json.Plain.object
  · intro member hMember
    obtain ⟨⟨pos, symbol⟩, _, rfl⟩ := List.mem_map.mp hMember
    exact ⟨Text.decimal pos, (Json.escape_decimal pos).symm⟩
  · intro member hMember
    obtain ⟨⟨pos, symbol⟩, _, rfl⟩ := List.mem_map.mp hMember
    exact symbol.plain_toJson

theorem symbolsOfJson?_symbolsToJson {symbols : SortedMap Nat Symbol}
    (fits : ∀ entry ∈ symbols.entries, entry.1 ≤ maxPosition) :
    symbolsOfJson? (symbolsToJson symbols) = some symbols := by
  rw [symbolsToJson, symbolsOfJson?, List.mapM_map, Json.mapM_eq_some_map (g := id)]
  · simp [SortedMap.ofEntries_entries]
  · intro entry member
    simp [Text.ofDecimal?_decimal, Option.filter_some, fits entry member, Symbol.ofJson?_toJson]

theorem plain_toJson (table : SymbolTable) : table.toJson.Plain := by
  have hScopes : (Json.arr (table.scopes.map Scope.toJson)).Plain :=
    Json.plain_array Scope.plain_toJson
  have hTypes : (Json.arr (table.types.map TypedSpan.toJson)).Plain :=
    Json.plain_array TypedSpan.plain_toJson
  apply Json.plain_record
  simp [plain_symbolsToJson, hScopes, hTypes]

theorem ofJson?_toJson {table : SymbolTable} (fits : table.Fits) :
    ofJson? table.toJson = some table := by
  have hSlots : table.toJson.slots? ["defs", "uses", "scopes", "types"] =
      some [some (symbolsToJson table.defs), some (symbolsToJson table.uses),
        some (.arr (table.scopes.map Scope.toJson)),
        some (.arr (table.types.map TypedSpan.toJson))] :=
    Json.slots?_eq _ _ (by decide) rfl rfl
  have hScopes := Json.list?_map fun scope member =>
    Scope.ofJson?_toJson (fits.scopes scope member)
  have hTypes := Json.list?_map fun entry member =>
    TypedSpan.ofJson?_toJson (fits.types entry member)
  simp [ofJson?, hSlots, Json.optional?, symbolsOfJson?_symbolsToJson fits.defs,
    symbolsOfJson?_symbolsToJson fits.uses, hScopes, hTypes]

theorem read?_write_of_fits {table : SymbolTable} (fits : table.Fits) :
    read? table.write = some table := by
  rw [read?, write, table.plain_toJson.read?_pretty]
  exact ofJson?_toJson fits

end SymbolTable

namespace IndexedTable

/-- What can be done to a table. A question for a type changes what the table holds, too: it builds
the index. -/
inductive Step where
  | define (pos : Nat) (symbol : Symbol)
  | refer (pos : Nat) (symbol : Symbol)
  | addScope (scope : Scope)
  | recordType (span : Span) (type : String)
  | askType (span : Span)

namespace Step

def apply (indexed : IndexedTable) : Step → IndexedTable
  | define pos symbol => indexed.define pos symbol
  | refer pos symbol => indexed.refer pos symbol
  | addScope scope => indexed.addScope scope
  | recordType span type => indexed.recordType span type
  | askType span => (indexed.typeOf span).2

/-- The step records positions that a document may mention. -/
def Fits : Step → Prop
  | define pos _ | refer pos _ => pos ≤ maxPosition
  | addScope scope => scope.Fits
  | recordType span _ => span.Fits
  | askType _ => True

instance : (step : Step) → Decidable step.Fits
  | define .. | refer .. => inferInstanceAs (Decidable (_ ≤ _))
  | addScope scope => inferInstanceAs (Decidable scope.Fits)
  | recordType span _ => inferInstanceAs (Decidable span.Fits)
  | askType _ => .isTrue trivial

end Step

/-- The table after some steps, from an empty one. -/
def afterSteps (steps : List Step) : IndexedTable :=
  steps.foldl Step.apply {}

/-- An index that is there is that of the types. -/
def Current (indexed : IndexedTable) : Prop :=
  ∀ index, indexed.typeIndex = some index → index = .build indexed.table.types

namespace Current

variable {indexed : IndexedTable}

theorem theIndex_eq (current : indexed.Current) : indexed.theIndex = .build indexed.table.types := by
  unfold theIndex
  cases hIndex : indexed.typeIndex with
  | none => rfl
  | some index => exact current index hIndex

/-- One step. Recording a type drops the index, and a question builds it from the types. -/
theorem step (current : indexed.Current) (step : Step) : (step.apply indexed).Current := by
  cases step with
  | define | refer | addScope => exact current
  | recordType span type => exact fun _ hIndex => nomatch hIndex
  | askType span =>
      rintro index ⟨⟩
      exact current.theIndex_eq

end Current

/-- What every step keeps: positions fit, and the index is that of the types. -/
structure Kept (indexed : IndexedTable) : Prop where
  fits : indexed.table.Fits
  current : ∀ index, indexed.typeIndex = some index → index = .build indexed.table.types

namespace Kept

theorem start : ({} : IndexedTable).Kept where
  fits := by constructor <;> simp [SymbolTable.empty, SortedMap.empty]
  current := by simp

variable {indexed : IndexedTable}

/-- The answer about a type does not depend on whether the index was there. -/
theorem typeOf_eq (kept : indexed.Kept) (span : Span) :
    (indexed.typeOf span).1 = ((⟨indexed.table, none⟩ : IndexedTable).typeOf span).1 := by
  simp only [typeOf, Current.theIndex_eq kept.current]
  rfl

theorem insert_fits {symbols : SortedMap Nat Symbol} {pos : Nat} {symbol : Symbol}
    (fits : ∀ entry ∈ symbols.entries, entry.1 ≤ maxPosition) (here : pos ≤ maxPosition) :
    ∀ entry ∈ (symbols.insert pos symbol).entries, entry.1 ≤ maxPosition := by
  intro entry member
  rcases SortedMap.fst_of_mem_insertEntry member with hNew | ⟨old, hOld, hSame⟩
  · rw [hNew]
    exact here
  · rw [← hSame]
    exact fits old hOld

/-- One step. What it puts into the table fits. -/
theorem step (kept : indexed.Kept) {step : Step} (fits : step.Fits) :
    (step.apply indexed).Kept := by
  refine ⟨?_, Current.step kept.current step⟩
  cases step with
  | define pos symbol => exact { kept.fits with defs := insert_fits kept.fits.defs fits }
  | refer pos symbol => exact { kept.fits with uses := insert_fits kept.fits.uses fits }
  | addScope scope =>
      have hScopes : ∀ other ∈ indexed.table.scopes ++ [scope], other.Fits := by
        simpa [or_imp, forall_and] using ⟨kept.fits.scopes, fits⟩
      exact { kept.fits with scopes := hScopes }
  | recordType span type =>
      have hTypes : ∀ entry ∈ indexed.table.types ++ [⟨span, type⟩], entry.span.Fits := by
        simpa [or_imp, forall_and] using ⟨kept.fits.types, fits⟩
      exact { kept.fits with types := hTypes }
  | askType span => exact kept.fits

theorem steps {steps : List Step} (kept : indexed.Kept) (fits : ∀ step ∈ steps, step.Fits) :
    (steps.foldl Step.apply indexed).Kept := by
  induction steps generalizing indexed with
  | nil => exact kept
  | cons step rest ih =>
      obtain ⟨hFirst, hRest⟩ := List.forall_mem_cons.mp fits
      exact ih (kept.step hFirst) hRest

end Kept

/-- Whatever was recorded and asked, the document of the table gives the same table again, and it
answers about types as before although its index is built anew. -/
theorem afterSteps_reload {steps : List Step} (fits : ∀ step ∈ steps, step.Fits) :
    SymbolTable.read? (afterSteps steps).table.write = some (afterSteps steps).table ∧
      ∀ span, ((⟨(afterSteps steps).table, none⟩ : IndexedTable).typeOf span).1 =
        ((afterSteps steps).typeOf span).1 := by
  have hKept : (afterSteps steps).Kept := Kept.start.steps fits
  exact ⟨SymbolTable.read?_write_of_fits hKept.fits, fun span => (hKept.typeOf_eq span).symm⟩

end IndexedTable

namespace Sample

/-- Texts that need escapes, the largest positions, a scope that is its own parent, a redefinition,
and a type that is recorded twice with a question in between. -/
def tableSteps : List IndexedTable.Step := [
  .define 18446744073709551615 { name := "\"\\/\n\x01\x7f", kind := .var, type := some "" },
  .define 0 { name := "", kind := .nil },
  .define 0 { name := "é😀", kind := .label, type := some "[]\t" },
  .refer 7 { name := "\u2028", kind := .builtin },
  .addScope { owner := ⟨9, 3⟩, range := ⟨0, 18446744073709551615⟩, names := ["a", "", "\""],
              parent := some 0 },
  .addScope { owner := ⟨1, 2⟩, range := ⟨2, 1⟩ },
  .recordType ⟨4, 6⟩ "int",
  .askType ⟨4, 6⟩,
  .recordType ⟨4, 6⟩ "string"]

end Sample

theorem IndexedTable.afterSteps_reload_sample :
    (∀ step ∈ Sample.tableSteps, step.Fits) ∧
    SymbolTable.read? (afterSteps Sample.tableSteps).table.write =
      some (afterSteps Sample.tableSteps).table ∧
    ∀ span, ((⟨(afterSteps Sample.tableSteps).table, none⟩ : IndexedTable).typeOf span).1 =
      ((afterSteps Sample.tableSteps).typeOf span).1 := by
  have hFits : ∀ step ∈ Sample.tableSteps, step.Fits := by decide
  exact ⟨hFits, IndexedTable.afterSteps_reload hFits⟩

end SyntaxAtlas
