import SyntaxAtlas.Span
import SyntaxAtlas.Text.Bytes
/-!
Structural patterns.

Patterns are compiled and matched by an engine outside of this library. Here is what it reports,
and a bounded cache of compiled patterns.
-/
namespace SyntaxAtlas

/-- One match of a pattern in a text. -/
structure PatternMatch where
  /-- The bytes of the text that match. -/
  span : Span
  /-- The grammar kind of the syntax that matches. -/
  kind : String
  /-- The texts captured by the variables of the pattern. -/
  captures : List (String × String)
deriving DecidableEq, Repr, Inhabited

/-- The text that matches. -/
def PatternMatch.text (found : PatternMatch) (source : List Char) : String :=
  String.ofList ((Text.slice? found.span.start found.span.stop source).getD [])

/-- The refusal of a pattern. -/
structure PatternError where
  /-- The pattern. -/
  pattern : String
  /-- What the engine says about it. -/
  reason : String
deriving DecidableEq, Repr, Inhabited

/-- The report of a refusal. -/
def PatternError.message (error : PatternError) : String :=
  "invalid pattern `" ++ error.pattern ++ "`: " ++ error.reason

/-- What the engine says about a pattern in a text: all of its matches, or its reason to refuse the
pattern. -/
abbrev PatternAnswer := Except String (List PatternMatch)

/-- The matches inside a range of bytes. -/
def PatternMatch.inRange (range : Span) (found : List PatternMatch) : List PatternMatch :=
  found.filter fun hit => decide (range.Encloses hit.span)

/-- Compiled patterns by their texts. -/
structure PatternCache (γ : Type) where
  /-- The texts and what they compile to. -/
  entries : List (String × γ) := []
deriving Repr, Inhabited

namespace PatternCache

variable {γ : Type}

/-- How many patterns a cache holds. -/
def capacity : Nat := 128

/-- The number of patterns in the cache. -/
def size (cache : PatternCache γ) : Nat :=
  cache.entries.length

/-- The cache with one more pattern. A full cache is emptied first. -/
def insert (cache : PatternCache γ) (pattern : String) (compiled : γ) : PatternCache γ :=
  if capacity ≤ cache.size then
    ⟨[(pattern, compiled)]⟩
  else
    ⟨(pattern, compiled) :: cache.entries⟩

/-- The cache without its patterns. -/
def clear (_ : PatternCache γ) : PatternCache γ :=
  {}

/-- A pattern compiled by the engine, or taken from the cache, and the cache afterwards. A refused
pattern leaves the cache alone. -/
def compile (cache : PatternCache γ) (engine : String → Except String γ) (pattern : String) :
    Except PatternError γ × PatternCache γ :=
  match cache.entries.lookup pattern with
  | some compiled => (.ok compiled, cache)
  | none =>
    match engine pattern with
    | .error reason => (.error ⟨pattern, reason⟩, cache)
    | .ok compiled => (.ok compiled, cache.insert pattern compiled)

end PatternCache

end SyntaxAtlas
