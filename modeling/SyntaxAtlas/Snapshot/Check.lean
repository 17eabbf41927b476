import SyntaxAtlas.Snapshot.Basic
/-!
The check of a snapshot.

A snapshot can be unfolded into a tree when every child exists, comes after its parent and has one
parent, and when every span is ordered and lies inside the span of its parent, that of the root
inside the unit. The check goes once through the elements and reports the first defect. Along the
way it collects, for every child already listed, the span it has to stay inside. An element that
nobody lists has no such bound.
-/
namespace SyntaxAtlas

/-- What can be wrong with an element. -/
inductive Defect where
  /-- A listed child is the element itself or comes before it. -/
  | childBeforeParent (child : ElementId)
  /-- A listed child does not exist. -/
  | missingChild (child : ElementId)
  /-- A listed child was listed before. -/
  | sharedChild (child : ElementId)
  /-- The span ends before it starts. -/
  | invertedSpan (span : Span)
  /-- The span leaves that of the parent, or the unit. -/
  | spanOutOfBounds (span : Span)
deriving DecidableEq, Repr

/-- What a report says about an element with a defect. -/
def Defect.message : Defect → String
  | .childBeforeParent child =>
    "lists child " ++ toString child ++ ", which does not come after it"
  | .missingChild child => "lists child " ++ toString child ++ ", which does not exist"
  | .sharedChild child => "lists child " ++ toString child ++ ", which already has a parent"
  | .invertedSpan span => "spans " ++ span.render ++ ", which ends before it starts"
  | .spanOutOfBounds span => "spans " ++ span.render ++ ", outside its parent or its unit"

namespace Snapshot

/-- The spans that listed elements have to stay inside. -/
abbrev Bounds := List (ElementId × Span)

/-- The bounds after the children of one element, or the first defect among these children. -/
def checkChildren (size : Nat) (id : ElementId) (span : Span) :
    List ElementId → Bounds → Except Defect Bounds
  | [], bounds => .ok bounds
  | child :: rest, bounds =>
    if size ≤ child then
      .error (.missingChild child)
    else if child ≤ id then
      .error (.childBeforeParent child)
    else if (bounds.lookup child).isSome then
      .error (.sharedChild child)
    else
      checkChildren size id span rest ((child, span) :: bounds)

/-- The bounds after one element, or its first defect. -/
def checkElement (size : Nat) (id : ElementId) (element : Element) (bounds : Bounds) :
    Except Defect Bounds :=
  if element.span.stop < element.span.start then
    .error (.invertedSpan element.span)
  else if (bounds.lookup id).any fun outer => ¬ outer.Encloses element.span then
    .error (.spanOutOfBounds element.span)
  else
    checkChildren size id element.span element.children bounds

/-- The first defect among the elements from a place on. -/
def checkFrom (size : Nat) : ElementId → List Element → Bounds → Option (ElementId × Defect)
  | _, [], _ => none
  | id, element :: rest, bounds =>
    match checkElement size id element bounds with
    | .error defect => some (id, defect)
    | .ok bounds => checkFrom size (id + 1) rest bounds

/-- The first defect of a snapshot of a text with a given number of bytes. -/
def firstDefect? (snapshot : Snapshot) (textLength : Nat) : Option (ElementId × Defect) :=
  checkFrom snapshot.size 0 snapshot.elements.toList [(0, ⟨0, textLength⟩)]

end Snapshot

end SyntaxAtlas
