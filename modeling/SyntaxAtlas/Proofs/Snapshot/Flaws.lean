import Mathlib.Data.List.Nodup
import SyntaxAtlas.Snapshot.Check

/-! What the check of a snapshot finds. A flaw of an element is said without the bounds table that
the check fills while it reads it; the check names the first element with a flaw, and it accepts
exactly the well-formed snapshots. Links between elements may be arbitrary, cycles included. -/
namespace SyntaxAtlas.Snapshot

/-- An element before a place lists the child. -/
def ListedBefore (snapshot : Snapshot) (place child : ElementId) : Prop :=
  ∃ lister element, lister < place ∧ snapshot.get? lister = some element ∧
    child ∈ element.children

/-- The elements before a place confine a child to a span. The root is confined to the text from
the start, and an element that nobody lists is not confined at all. -/
def Confines (snapshot : Snapshot) (textLength : Nat) (place child : ElementId) (outer : Span) :
    Prop :=
  (child = 0 ∧ outer = ⟨0, textLength⟩) ∨
    ∃ lister element, lister < place ∧ snapshot.get? lister = some element ∧
      child ∈ element.children ∧ outer = element.span

/-- An element has a defect. Only what stands before the element, and its own list, counts. -/
inductive Flaw (snapshot : Snapshot) (textLength : Nat) (id : ElementId) : Defect → Prop where
  | invertedSpan {element : Element} (found : snapshot.get? id = some element)
      (inverted : element.span.stop < element.span.start) :
      Flaw snapshot textLength id (.invertedSpan element.span)
  | spanOutOfBounds {element : Element} {outer : Span} (found : snapshot.get? id = some element)
      (confined : snapshot.Confines textLength id id outer)
      (leaves : ¬ outer.Encloses element.span) :
      Flaw snapshot textLength id (.spanOutOfBounds element.span)
  | missingChild {element : Element} {child : ElementId}
      (found : snapshot.get? id = some element) (listed : child ∈ element.children)
      (missing : snapshot.size ≤ child) :
      Flaw snapshot textLength id (.missingChild child)
  | childBeforeParent {element : Element} {child : ElementId}
      (found : snapshot.get? id = some element) (listed : child ∈ element.children)
      (before : child ≤ id) :
      Flaw snapshot textLength id (.childBeforeParent child)
  | sharedChild {element : Element} {child : ElementId}
      (found : snapshot.get? id = some element) (listed : child ∈ element.children)
      (again : snapshot.ListedBefore id child ∨ 2 ≤ element.children.count child) :
      Flaw snapshot textLength id (.sharedChild child)

/-- An element without any defect. -/
def Flawless (snapshot : Snapshot) (textLength : Nat) (id : ElementId) : Prop :=
  ∀ defect, ¬ snapshot.Flaw textLength id defect

/-- A snapshot that unfolds into one tree inside its text. Spans of elements that nobody lists are
ordered as well, but they need not lie anywhere. -/
structure WellFormed (snapshot : Snapshot) (textLength : Nat) : Prop where
  /-- No span ends before it starts. -/
  ordered : ∀ id element, snapshot.get? id = some element →
    element.span.start ≤ element.span.stop
  /-- Children exist and come after the element that lists them. -/
  forward : ∀ id element, snapshot.get? id = some element →
    ∀ child ∈ element.children, id < child ∧ child < snapshot.size
  /-- No element is listed twice, by one element or by two. -/
  unshared : (snapshot.elements.toList.flatMap Element.children).Nodup
  /-- The root lies in the text. -/
  inside : ∀ root, snapshot.get? 0 = some root → (Span.mk 0 textLength).Encloses root.span
  /-- A child lies in the element that lists it. -/
  nested : ∀ id element, snapshot.get? id = some element →
    ∀ child ∈ element.children, ∀ inner, snapshot.get? child = some inner →
      element.span.Encloses inner.span

theorem get?_eq_getElem? (snapshot : Snapshot) (id : ElementId) :
    snapshot.get? id = snapshot.elements.toList[id]? := by
  simp [get?]

theorem exists_get?_of_lt {snapshot : Snapshot} {id : ElementId} (h : id < snapshot.size) :
    ∃ element, snapshot.get? id = some element :=
  ⟨snapshot.elements[id], Array.getElem?_eq_getElem h⟩

/-- No element is listed twice, said of two listings at a time. -/
theorem unshared_iff (snapshot : Snapshot) :
    (snapshot.elements.toList.flatMap Element.children).Nodup ↔
      ∀ id element, snapshot.get? id = some element → element.children.Nodup ∧
        ∀ child ∈ element.children, ¬ snapshot.ListedBefore id child := by
  rw [List.nodup_flatMap, List.pairwise_iff_getElem]
  constructor
  · rintro ⟨hNodup, hApart⟩ id element found
    rw [get?_eq_getElem?] at found
    obtain ⟨hId, rfl⟩ := List.getElem?_eq_some_iff.mp found
    refine ⟨hNodup _ (List.getElem_mem hId), ?_⟩
    rintro child listed ⟨lister, other, hBefore, hOther, hListed⟩
    rw [get?_eq_getElem?] at hOther
    obtain ⟨hLister, rfl⟩ := List.getElem?_eq_some_iff.mp hOther
    exact hApart lister id hLister hId hBefore hListed listed
  · intro h
    have hFound : ∀ id (hId : id < snapshot.elements.toList.length),
        snapshot.get? id = some snapshot.elements.toList[id] := by
      intro id hId
      rw [get?_eq_getElem?]
      exact List.getElem?_eq_getElem hId
    refine ⟨?_, ?_⟩
    · intro element hElement
      obtain ⟨id, hId, rfl⟩ := List.mem_iff_getElem.mp hElement
      exact (h id _ (hFound id hId)).1
    · intro i j hi hj hij child hLeft hRight
      exact (h j _ (hFound j hj)).2 child hRight ⟨i, _, hij, hFound i hi, hLeft⟩

/-- The snapshots without flaws are the well-formed ones. A flaw looks only at what stands before
its element, well-formedness at all elements at once. -/
theorem wellFormed_iff_flawless (snapshot : Snapshot) (textLength : Nat) :
    snapshot.WellFormed textLength ↔ ∀ id, snapshot.Flawless textLength id := by
  constructor
  · rintro h id defect hFlaw
    have hUnshared := (unshared_iff snapshot).mp h.unshared
    cases hFlaw with
    | invertedSpan found inverted =>
        have hOrdered := h.ordered id _ found
        omega
    | spanOutOfBounds found confined leaves =>
        rcases confined with ⟨rfl, rfl⟩ | ⟨lister, element, _, hLister, listed, rfl⟩
        · exact leaves (h.inside _ found)
        · exact leaves (h.nested lister element hLister id listed _ found)
    | missingChild found listed missing =>
        exact Nat.not_lt.mpr missing (h.forward id _ found _ listed).2
    | childBeforeParent found listed before =>
        exact Nat.not_lt.mpr before (h.forward id _ found _ listed).1
    | sharedChild found listed again =>
        obtain ⟨hNodup, hFresh⟩ := hUnshared id _ found
        rcases again with again | again
        · exact hFresh _ listed again
        · exact Nat.not_lt.mpr (List.nodup_iff_count_le_one.mp hNodup _) again
  · intro h
    have hForward : ∀ id element, snapshot.get? id = some element →
        ∀ child ∈ element.children, id < child ∧ child < snapshot.size := by
      intro id element found child listed
      refine ⟨?_, ?_⟩
      · by_contra hBefore
        exact h id _ (.childBeforeParent found listed (Nat.not_lt.mp hBefore))
      · by_contra hMissing
        exact h id _ (.missingChild found listed (Nat.not_lt.mp hMissing))
    refine ⟨?_, hForward, ?_, ?_, ?_⟩
    · intro id element found
      by_contra hInverted
      exact h id _ (.invertedSpan found (by omega))
    · refine (unshared_iff snapshot).mpr ?_
      intro id element found
      refine ⟨List.nodup_iff_count_le_one.mpr ?_, ?_⟩
      · intro child
        by_contra hTwice
        have listed : child ∈ element.children := List.count_pos_iff.mp (by omega)
        exact h id _ (.sharedChild found listed (.inr (Nat.not_le.mp hTwice)))
      · intro child listed hBefore
        exact h id _ (.sharedChild found listed (.inl hBefore))
    · intro root found
      by_contra hLeaves
      exact h 0 _ (.spanOutOfBounds found (.inl ⟨rfl, rfl⟩) hLeaves)
    · intro id element found child listed inner hInner
      by_contra hLeaves
      have hBefore := (hForward id element found child listed).1
      exact h child _ (.spanOutOfBounds hInner
        (.inr ⟨id, element, hBefore, found, listed, rfl⟩) hLeaves)

/-- There is nothing wrong where there is no element. -/
theorem flawless_of_get?_none {snapshot : Snapshot} {textLength : Nat} {id : ElementId}
    (absent : snapshot.get? id = none) : snapshot.Flawless textLength id := by
  intro defect hFlaw
  cases hFlaw <;> simp_all

/-- One more element confines its children to its own span. -/
theorem confines_succ {snapshot : Snapshot} {textLength : Nat} {id child : ElementId}
    {element : Element} {outer : Span} (found : snapshot.get? id = some element) :
    snapshot.Confines textLength (id + 1) child outer ↔
      snapshot.Confines textLength id child outer ∨
        child ∈ element.children ∧ outer = element.span := by
  constructor
  · rintro (hText | ⟨lister, other, hBefore, hOther, listed, rfl⟩)
    · exact .inl (.inl hText)
    · rcases Nat.lt_succ_iff_lt_or_eq.mp hBefore with hBefore | rfl
      · exact .inl (.inr ⟨lister, other, hBefore, hOther, listed, rfl⟩)
      · obtain rfl : other = element := Option.some.inj (hOther.symm.trans found)
        exact .inr ⟨listed, rfl⟩
  · rintro ((hText | ⟨lister, other, hBefore, hOther, listed, rfl⟩) | ⟨listed, rfl⟩)
    · exact .inl hText
    · exact .inr ⟨lister, other, Nat.lt_succ_of_lt hBefore, hOther, listed, rfl⟩
    · exact .inr ⟨id, element, Nat.lt_succ_self id, found, listed, rfl⟩

/-- The table of bounds holds what the elements before a place say, and nothing else. -/
def Records (snapshot : Snapshot) (textLength : Nat) (place : ElementId) (bounds : Bounds) : Prop :=
  ∀ child outer, bounds.lookup child = some outer ↔
    snapshot.Confines textLength place child outer

/-- At the start only the root is confined, to the text. -/
theorem records_start (snapshot : Snapshot) (textLength : Nat) :
    snapshot.Records textLength 0 [(0, ⟨0, textLength⟩)] := by
  intro child outer
  simp only [List.lookup_cons, List.lookup_nil, Confines, Nat.not_lt_zero, false_and, exists_false,
    or_false]
  by_cases hRoot : child = 0
  · simp [hRoot, eq_comm]
  · simp [hRoot, beq_eq_false_iff_ne.mpr hRoot]

/-- Children that pass come after their lister, are new to the table and differ from each other,
and all of them are entered with the span of the lister. -/
theorem checkChildren_ok {size : Nat} {id : ElementId} {span : Span}
    {children : List ElementId} {bounds after : Bounds}
    (h : checkChildren size id span children bounds = .ok after) :
    (∀ child ∈ children, id < child ∧ child < size ∧ bounds.lookup child = none) ∧
      children.Nodup ∧
      ∀ child, after.lookup child =
        if child ∈ children then some span else bounds.lookup child := by
  induction children generalizing bounds with
  | nil =>
      obtain rfl : bounds = after := Except.ok.inj h
      simp
  | cons head rest ih =>
      simp only [checkChildren] at h
      split_ifs at h with hMissing hBefore hShared
      obtain ⟨hPass, hNodup, hAfter⟩ := ih h
      have hHead : bounds.lookup head = none := Option.not_isSome_iff_eq_none.mp hShared
      have hFresh : head ∉ rest := by
        intro hAgain
        have hLookup := (hPass head hAgain).2.2
        simp at hLookup
      refine ⟨?_, List.nodup_cons.mpr ⟨hFresh, hNodup⟩, ?_⟩
      · intro child listed
        rcases List.mem_cons.mp listed with rfl | listed
        · exact ⟨Nat.not_le.mp hBefore, Nat.not_le.mp hMissing, hHead⟩
        · obtain ⟨hAfterId, hExists, hLookup⟩ := hPass child listed
          have hOther : (child == head) = false :=
            beq_eq_false_iff_ne.mpr (fun hSame => hFresh (hSame ▸ listed))
          exact ⟨hAfterId, hExists, by simpa [List.lookup_cons, hOther] using hLookup⟩
      · intro child
        rw [hAfter]
        by_cases hSame : child = head
        · simp [hSame, hFresh]
        · simp [hSame, List.lookup_cons, beq_eq_false_iff_ne.mpr hSame]

/-- A refused list names one of its members, and what is said about it is true. -/
theorem checkChildren_error {size : Nat} {id : ElementId} {span : Span}
    {children : List ElementId} {bounds : Bounds} {defect : Defect}
    (h : checkChildren size id span children bounds = .error defect) :
    ∃ child ∈ children, (defect = .missingChild child ∧ size ≤ child) ∨
      (defect = .childBeforeParent child ∧ child ≤ id) ∨
      (defect = .sharedChild child ∧ id < child ∧
        ((bounds.lookup child).isSome ∨ 2 ≤ children.count child)) := by
  induction children generalizing bounds with
  | nil => cases h
  | cons head rest ih =>
      simp only [checkChildren] at h
      split_ifs at h with hMissing hBefore hShared
      · exact ⟨head, List.mem_cons_self, .inl ⟨(Except.error.inj h).symm, hMissing⟩⟩
      · exact ⟨head, List.mem_cons_self, .inr (.inl ⟨(Except.error.inj h).symm, hBefore⟩)⟩
      · exact ⟨head, List.mem_cons_self,
          .inr (.inr ⟨(Except.error.inj h).symm, Nat.not_le.mp hBefore, .inl hShared⟩)⟩
      · obtain ⟨child, listed, hMissing | hBefore | ⟨hDefect, hAfter, hAgain⟩⟩ := ih h
        · exact ⟨child, List.mem_cons_of_mem _ listed, .inl hMissing⟩
        · exact ⟨child, List.mem_cons_of_mem _ listed, .inr (.inl hBefore)⟩
        · refine ⟨child, List.mem_cons_of_mem _ listed, .inr (.inr ⟨hDefect, hAfter, ?_⟩)⟩
          by_cases hSame : child = head
          · subst hSame
            have hPos := List.count_pos_iff.mpr listed
            exact .inr (by rw [List.count_cons_self]; omega)
          · rcases hAgain with hAgain | hAgain
            · exact .inl (by simpa [List.lookup_cons, beq_eq_false_iff_ne.mpr hSame] using hAgain)
            · exact .inr (Nat.le_trans hAgain (List.count_le_count_cons ..))

section Element

variable {snapshot : Snapshot} {textLength : Nat} {id : ElementId} {element : Element}
  {bounds : Bounds}

/-- A listed child that the table does not know was not listed before. -/
theorem Records.not_listedBefore {child : ElementId}
    (records : snapshot.Records textLength id bounds) (fresh : bounds.lookup child = none) :
    ¬ snapshot.ListedBefore id child := by
  rintro ⟨lister, other, hBefore, hOther, listed⟩
  have hKnown := (records child other.span).mpr (.inr ⟨lister, other, hBefore, hOther, listed, rfl⟩)
  rw [fresh] at hKnown
  cases hKnown

/-- A child that comes after its lister and that the table knows was listed before. It is not the
root, which the table knows without a lister. -/
theorem Records.listedBefore {child : ElementId}
    (records : snapshot.Records textLength id bounds) (known : (bounds.lookup child).isSome)
    (after : id < child) : snapshot.ListedBefore id child := by
  obtain ⟨outer, hOuter⟩ := Option.isSome_iff_exists.mp known
  rcases (records child outer).mp hOuter with ⟨rfl, _⟩ | ⟨lister, other, hBefore, hOther, listed, _⟩
  · exact absurd after (Nat.not_lt_zero _)
  · exact ⟨lister, other, hBefore, hOther, listed⟩

/-- An element that passes has no flaw, and the table then holds its children as well. -/
theorem checkElement_ok {after : Bounds} (records : snapshot.Records textLength id bounds)
    (found : snapshot.get? id = some element)
    (h : checkElement snapshot.size id element bounds = .ok after) :
    snapshot.Flawless textLength id ∧ snapshot.Records textLength (id + 1) after := by
  simp only [checkElement] at h
  split_ifs at h with hInverted hLeaves
  obtain ⟨hPass, hNodup, hAfter⟩ := checkChildren_ok h
  refine ⟨?_, ?_⟩
  · intro defect hFlaw
    cases hFlaw with
    | invertedSpan found' inverted =>
        obtain rfl := Option.some.inj (found'.symm.trans found)
        exact hInverted inverted
    | spanOutOfBounds found' confined leaves =>
        obtain rfl := Option.some.inj (found'.symm.trans found)
        exact hLeaves (by simp [(records id _).mpr confined, leaves])
    | missingChild found' listed missing =>
        obtain rfl := Option.some.inj (found'.symm.trans found)
        exact Nat.not_lt.mpr missing (hPass _ listed).2.1
    | childBeforeParent found' listed before =>
        obtain rfl := Option.some.inj (found'.symm.trans found)
        exact Nat.not_lt.mpr before (hPass _ listed).1
    | sharedChild found' listed again =>
        obtain rfl := Option.some.inj (found'.symm.trans found)
        rcases again with again | again
        · exact records.not_listedBefore (hPass _ listed).2.2 again
        · exact Nat.not_lt.mpr (List.nodup_iff_count_le_one.mp hNodup _) again
  · intro child outer
    rw [hAfter, confines_succ found, ← records child outer]
    by_cases listed : child ∈ element.children
    · simp [listed, (hPass child listed).2.2, eq_comm]
    · simp [listed]

/-- What is said about a refused element is true. -/
theorem checkElement_error {defect : Defect} (records : snapshot.Records textLength id bounds)
    (found : snapshot.get? id = some element)
    (h : checkElement snapshot.size id element bounds = .error defect) :
    snapshot.Flaw textLength id defect := by
  simp only [checkElement] at h
  split_ifs at h with hInverted hLeaves
  · cases h
    exact .invertedSpan found hInverted
  · cases h
    obtain ⟨outer, hOuter, leaves⟩ := (Option.any_eq_true _ _).mp hLeaves
    exact .spanOutOfBounds found ((records id outer).mp hOuter) (of_decide_eq_true leaves)
  · obtain ⟨child, listed, ⟨rfl, hMissing⟩ | ⟨rfl, hBefore⟩ | ⟨rfl, hAfter, hAgain⟩⟩ :=
      checkChildren_error h
    · exact .missingChild found listed hMissing
    · exact .childBeforeParent found listed hBefore
    · exact .sharedChild found listed (hAgain.imp_left (records.listedBefore · hAfter))

end Element

/-- A report about the elements from a place on: none of them has a flaw, or the one named is the
first that has a flaw, and its defect is the one reported. -/
def FirstFlaw (snapshot : Snapshot) (textLength : Nat) (place : ElementId) :
    Option (ElementId × Defect) → Prop
  | none => ∀ id, place ≤ id → snapshot.Flawless textLength id
  | some (id, defect) => place ≤ id ∧ snapshot.Flaw textLength id defect ∧
      ∀ earlier, place ≤ earlier → earlier < id → snapshot.Flawless textLength earlier

/-- An element without flaw in front does not change which flaw is the first. -/
theorem FirstFlaw.cons {snapshot : Snapshot} {textLength : Nat} {place : ElementId}
    {report : Option (ElementId × Defect)} (head : snapshot.Flawless textLength place)
    (rest : snapshot.FirstFlaw textLength (place + 1) report) :
    snapshot.FirstFlaw textLength place report := by
  have hSplit : ∀ id, place ≤ id → (place + 1 ≤ id → snapshot.Flawless textLength id) →
      snapshot.Flawless textLength id := by
    intro id hPlace hLater
    rcases Nat.eq_or_lt_of_le hPlace with rfl | hPlace
    · exact head
    · exact hLater hPlace
  cases report with
  | none => exact fun id hPlace => hSplit id hPlace (rest id)
  | some found =>
      obtain ⟨hPlace, hFlaw, hEarlier⟩ := rest
      exact ⟨Nat.le_of_succ_le hPlace, hFlaw,
        fun id hId hBefore => hSplit id hId (fun hLater => hEarlier id hLater hBefore)⟩

/-- The pass over the elements from a place on, with a table that holds what came before. -/
theorem checkFrom_firstFlaw {snapshot : Snapshot} {textLength : Nat} {place : ElementId}
    {rest : List Element} {bounds : Bounds}
    (hRest : snapshot.elements.toList.drop place = rest)
    (records : snapshot.Records textLength place bounds) :
    snapshot.FirstFlaw textLength place (checkFrom snapshot.size place rest bounds) := by
  induction rest generalizing place bounds with
  | nil =>
      intro id hPlace
      apply flawless_of_get?_none
      rw [get?_eq_getElem?, List.getElem?_eq_none_iff]
      exact Nat.le_trans (List.drop_eq_nil_iff.mp hRest) hPlace
  | cons element rest ih =>
      have found : snapshot.get? place = some element := by
        rw [get?_eq_getElem?, ← List.head?_drop, hRest, List.head?_cons]
      have hTail : snapshot.elements.toList.drop (place + 1) = rest := by
        rw [← List.tail_drop, hRest, List.tail_cons]
      rw [checkFrom]
      cases hCheck : checkElement snapshot.size place element bounds with
      | error defect =>
          refine ⟨Nat.le_refl _, checkElement_error records found hCheck, ?_⟩
          intro earlier hPlace hBefore
          exact absurd hBefore (Nat.not_lt.mpr hPlace)
      | ok after =>
          obtain ⟨hFlawless, hAfter⟩ := checkElement_ok records found hCheck
          exact (ih hTail hAfter).cons hFlawless

/-- The check names the first element with a flaw, and a flaw that it has. -/
theorem firstDefect?_firstFlaw (snapshot : Snapshot) (textLength : Nat) :
    snapshot.FirstFlaw textLength 0 (snapshot.firstDefect? textLength) :=
  checkFrom_firstFlaw (List.drop_zero ..) (records_start snapshot textLength)

/-- The check accepts exactly the well-formed snapshots. -/
theorem firstDefect?_eq_none_iff (snapshot : Snapshot) (textLength : Nat) :
    snapshot.firstDefect? textLength = none ↔ snapshot.WellFormed textLength := by
  rw [wellFormed_iff_flawless]
  have hFirst := firstDefect?_firstFlaw snapshot textLength
  cases hReport : snapshot.firstDefect? textLength with
  | none =>
      rw [hReport] at hFirst
      simpa using fun id => hFirst id (Nat.zero_le id)
  | some report =>
      rw [hReport] at hFirst
      simp only [reduceCtorEq, false_iff]
      exact fun hFlawless => hFlawless report.1 report.2 hFirst.2.1

end SyntaxAtlas.Snapshot
