import SyntaxAtlas.Proofs.Json.Records
import SyntaxAtlas.Snapshot.Json

/-! Snapshots as documents. What is left out when a snapshot is written is what the reader fills in,
so that a document stands for one snapshot. Nothing is asked of the shape of the snapshot. -/
namespace SyntaxAtlas

namespace Element

/-- Positions and children are numbers that a document may mention. -/
def Fits (element : Element) : Prop :=
  element.span.Fits ∧ ∀ child ∈ element.children, child ≤ Json.maxElement

instance (element : Element) : Decidable element.Fits :=
  inferInstanceAs (Decidable (_ ∧ _))

theorem slots?_toJson (element : Element) :
    element.toJson.slots? ["kind", "span", "field", "operator", "children"] =
      some [some (.ofText element.kind), some element.span.toJson, element.field.map .ofText,
        element.operator.map .ofText,
        if element.children.isEmpty then none else some (.arr (element.children.map .ofNat))] := by
  apply Json.slots?_eq _ _ (by decide) rfl
  obtain ⟨kind, span, field, operator, children⟩ := element
  cases field <;> cases operator <;> cases children <;> rfl

theorem ofJson?_toJson {element : Element} (fits : element.Fits) :
    ofJson? element.toJson = some element := by
  have hSpan := Span.ofJson?_toJson fits.1
  have hText : ∀ text : Option String,
      Json.optional? none (Json.nullable? Json.text?) (text.map .ofText) = some text :=
    fun text => Json.optional?_nullable (fun text _ => Json.text?_ofText text) rfl
  have hChildren : ∀ child ∈ element.children,
      Json.nat? Json.maxElement (.ofNat child) = some child :=
    fun child member => Json.nat?_ofNat (fits.2 child member)
  simp only [ofJson?, slots?_toJson, Json.required?, Option.bind_eq_bind, Option.bind_some,
    Json.text?_ofText, hSpan, hText, Json.optional?_list hChildren]
  rfl

theorem plain_toJson (element : Element) : element.toJson.Plain := by
  have hChildren : (Json.arr (element.children.map .ofNat)).Plain := Json.plain_array .number
  apply Json.plain_record
  obtain ⟨kind, span, field, operator, children⟩ := element
  cases field <;> cases operator <;> cases children <;>
    simp_all [Json.plain_ofText, Span.plain_toJson]

end Element

namespace Snapshot

/-- All numbers are such that a document may mention them. -/
def Fits (snapshot : Snapshot) : Prop :=
  ∀ element ∈ snapshot.elements, element.Fits

instance (snapshot : Snapshot) : Decidable snapshot.Fits :=
  inferInstanceAs (Decidable (∀ element ∈ snapshot.elements, element.Fits))

theorem plain_toJson (snapshot : Snapshot) : snapshot.toJson.Plain := by
  apply Json.plain_record
  simpa using Json.plain_array Element.plain_toJson

theorem ofJson?_toJson {snapshot : Snapshot} (fits : snapshot.Fits) :
    ofJson? snapshot.toJson = some snapshot := by
  have hSlots : snapshot.toJson.slots? ["elements"] =
      some [some (.arr (snapshot.elements.toList.map Element.toJson))] :=
    Json.slots?_eq _ _ (by decide) rfl rfl
  have hElements : ∀ element ∈ snapshot.elements.toList,
      Element.ofJson? element.toJson = some element :=
    fun element member => Element.ofJson?_toJson (fits element (Array.mem_def.mpr member))
  simp [ofJson?, hSlots, Json.required?, Json.list?_map hElements]

/-- A snapshot is what its document says, also when its elements do not make a tree. -/
theorem read?_write {snapshot : Snapshot} (fits : snapshot.Fits) :
    read? snapshot.write = some snapshot := by
  rw [read?, write, snapshot.plain_toJson.read?_compact]
  exact ofJson?_toJson fits

end Snapshot

namespace Sample

/-- Two elements with an inverted span, children that do not exist or are listed twice, the largest
numbers, and texts that need escapes. -/
def wildSnapshot : Snapshot where
  elements := #[
    { kind := "\"\\/\n\x01\x1f\x7f", span := ⟨18446744073709551615, 0⟩, field := some "",
      operator := some ":=", children := [4294967295, 0, 0] },
    { kind := "", span := ⟨7, 7⟩, operator := some "é😀" }]

end Sample

theorem Snapshot.read?_write_sample :
    Sample.wildSnapshot.Fits ∧ read? Sample.wildSnapshot.write = some Sample.wildSnapshot := by
  have hFits : Sample.wildSnapshot.Fits := by decide
  exact ⟨hFits, Snapshot.read?_write hFits⟩

end SyntaxAtlas
