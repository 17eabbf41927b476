import Mathlib.Data.List.Nodup
import SyntaxAtlas.Pattern

/-! The cache of compiled patterns. A client compiles patterns and clears the cache in any order. The
cache never shows in an answer, for each of its entries is what the engine would compile, and it never
outgrows its capacity, for it is emptied when it is full. A refused pattern leaves no trace in it. -/
namespace SyntaxAtlas

namespace PatternCache

variable {γ : Type} {engine : String → Except String γ} {cache : PatternCache γ} {pattern : String}

/-- What compiling a pattern gives when there is no cache. -/
def fresh (engine : String → Except String γ) (pattern : String) : Except PatternError γ :=
  (engine pattern).mapError fun reason => ⟨pattern, reason⟩

/-- What a client can do to the cache. -/
inductive Step where
  | compile (pattern : String)
  | clear

namespace Step

def apply (engine : String → Except String γ) (cache : PatternCache γ) : Step → PatternCache γ
  | compile pattern => (cache.compile engine pattern).2
  | clear => cache.clear

end Step

/-- The cache after some steps, from an empty one. -/
def afterSteps (engine : String → Except String γ) (steps : List Step) : PatternCache γ :=
  steps.foldl (Step.apply engine) {}

/-- What every step keeps. -/
structure Kept (engine : String → Except String γ) (cache : PatternCache γ) : Prop where
  bounded : cache.size ≤ capacity
  distinct : (cache.entries.map Prod.fst).Nodup
  compiled : ∀ entry ∈ cache.entries, engine entry.1 = .ok entry.2

section Compile

/-- A pattern that is in the cache. -/
theorem compile_hit {compiled : γ} (found : cache.entries.lookup pattern = some compiled) :
    cache.compile engine pattern = (.ok compiled, cache) := by
  simp [compile, found]

/-- A pattern that the engine refuses. -/
theorem compile_refused {reason : String} (missing : cache.entries.lookup pattern = none)
    (refused : engine pattern = .error reason) :
    cache.compile engine pattern = (.error ⟨pattern, reason⟩, cache) := by
  simp [compile, missing, refused]

/-- A pattern that the engine compiles now. -/
theorem compile_miss {compiled : γ} (missing : cache.entries.lookup pattern = none)
    (accepted : engine pattern = .ok compiled) :
    cache.compile engine pattern = (.ok compiled, cache.insert pattern compiled) := by
  simp [compile, missing, accepted]

/-- One more pattern goes in front of the others, or stands alone when the cache was full. -/
theorem insert_cases (cache : PatternCache γ) (pattern : String) (compiled : γ) :
    capacity ≤ cache.size ∧ (cache.insert pattern compiled).entries = [(pattern, compiled)] ∨
      cache.size < capacity ∧
        (cache.insert pattern compiled).entries = (pattern, compiled) :: cache.entries := by
  unfold insert
  split_ifs with hFull
  · exact .inl ⟨hFull, rfl⟩
  · exact .inr ⟨Nat.lt_of_not_le hFull, rfl⟩

theorem lookup_insert (cache : PatternCache γ) (pattern : String) (compiled : γ) :
    (cache.insert pattern compiled).entries.lookup pattern = some compiled := by
  rcases cache.insert_cases pattern compiled with ⟨_, hAlone⟩ | ⟨_, hFront⟩
  · simp [hAlone]
  · simp [hFront]

end Compile

namespace Kept

theorem empty : ({} : PatternCache γ).Kept engine where
  bounded := Nat.zero_le capacity
  distinct := .nil
  compiled := by simp

/-- What is found in the cache is what the engine gives. -/
theorem of_lookup (kept : cache.Kept engine) {compiled : γ}
    (found : cache.entries.lookup pattern = some compiled) : engine pattern = .ok compiled := by
  obtain ⟨before, after, hEntries, _⟩ := List.lookup_eq_some_iff.mp found
  exact kept.compiled (pattern, compiled) (by simp [hEntries])

/-- The cache has room for a pattern that it misses, if need be by dropping the others. -/
theorem insert (kept : cache.Kept engine) {compiled : γ}
    (missing : cache.entries.lookup pattern = none) (accepted : engine pattern = .ok compiled) :
    (cache.insert pattern compiled).Kept engine := by
  rcases cache.insert_cases pattern compiled with ⟨_, hAlone⟩ | ⟨hRoom, hFront⟩
  · constructor
    · rw [size, hAlone]
      exact Nat.succ_le_of_lt (Nat.zero_lt_succ 127)
    · simp [hAlone]
    · simpa [hAlone] using accepted
  · have hNew : pattern ∉ cache.entries.map Prod.fst := by
      intro member
      obtain ⟨entry, hEntry, rfl⟩ := List.mem_map.mp member
      have hOther := List.lookup_eq_none_iff.mp missing entry hEntry
      simp at hOther
    constructor
    · rw [size, hFront]
      exact hRoom
    · rw [hFront]
      exact .cons hNew kept.distinct
    · rw [hFront]
      exact List.forall_mem_cons.mpr ⟨accepted, kept.compiled⟩

/-- One step. A hit and a refusal leave the cache alone. -/
theorem step (kept : cache.Kept engine) (step : Step) : (step.apply engine cache).Kept engine := by
  cases step with
  | clear => exact empty
  | compile pattern =>
      change (cache.compile engine pattern).2.Kept engine
      cases hFound : cache.entries.lookup pattern with
      | some compiled => rwa [compile_hit hFound]
      | none =>
          cases hEngine : engine pattern with
          | error reason => rwa [compile_refused hFound hEngine]
          | ok compiled =>
              rw [compile_miss hFound hEngine]
              exact kept.insert hFound hEngine

theorem steps (kept : cache.Kept engine) (steps : List Step) :
    (steps.foldl (Step.apply engine) cache).Kept engine := by
  induction steps generalizing cache with
  | nil => exact kept
  | cons first rest ih => exact ih (kept.step first)

/-- The answer does not depend on what is in the cache. -/
theorem compile_eq (kept : cache.Kept engine) (pattern : String) :
    (cache.compile engine pattern).1 = fresh engine pattern := by
  unfold fresh
  cases hFound : cache.entries.lookup pattern with
  | some compiled =>
      rw [compile_hit hFound, kept.of_lookup hFound]
      rfl
  | none =>
      cases hEngine : engine pattern with
      | error reason =>
          rw [compile_refused hFound hEngine]
          rfl
      | ok compiled =>
          rw [compile_miss hFound hEngine]
          rfl

/-- A refused pattern is not in the cache, so that the engine is asked and nothing is stored. -/
theorem compile_of_refused (kept : cache.Kept engine) {reason : String}
    (refused : engine pattern = .error reason) : (cache.compile engine pattern).2 = cache := by
  cases hFound : cache.entries.lookup pattern with
  | some compiled =>
      have hAccepted := kept.of_lookup hFound
      rw [refused] at hAccepted
      cases hAccepted
  | none => rw [compile_refused hFound refused]

/-- A compiled pattern is in the cache from then on. -/
theorem lookup_compile (kept : cache.Kept engine) {compiled : γ}
    (accepted : engine pattern = .ok compiled) :
    (cache.compile engine pattern).2.entries.lookup pattern = some compiled := by
  cases hFound : cache.entries.lookup pattern with
  | some stored =>
      have hStored := kept.of_lookup hFound
      rw [accepted] at hStored
      cases hStored
      rw [compile_hit hFound, hFound]
  | none =>
      rw [compile_miss hFound accepted]
      exact cache.lookup_insert pattern compiled

end Kept

/-- Nothing is dropped while there is room. -/
theorem size_compiles {patterns : List String} (distinct : patterns.Nodup)
    (accepted : ∀ pattern ∈ patterns, ∃ compiled, engine pattern = .ok compiled)
    (missing : ∀ pattern ∈ patterns, cache.entries.lookup pattern = none)
    (room : cache.size + patterns.length ≤ capacity) :
    ((patterns.map Step.compile).foldl (Step.apply engine) cache).size =
      cache.size + patterns.length := by
  induction patterns generalizing cache with
  | nil => rfl
  | cons pattern rest ih =>
      obtain ⟨hNew, hRest⟩ := List.nodup_cons.mp distinct
      obtain ⟨compiled, hAccepted⟩ := accepted pattern List.mem_cons_self
      rw [List.length_cons] at room
      have hStep : Step.apply engine cache (.compile pattern) = cache.insert pattern compiled :=
        congrArg Prod.snd (compile_miss (missing pattern List.mem_cons_self) hAccepted)
      rcases cache.insert_cases pattern compiled with ⟨hFull, _⟩ | ⟨_, hFront⟩
      · omega
      · have hSize : (cache.insert pattern compiled).size = cache.size + 1 := by
          rw [size, hFront]
          rfl
        rw [List.map_cons, List.foldl_cons, hStep, ih hRest, hSize, List.length_cons]
        · omega
        · exact fun other member => accepted other (List.mem_cons_of_mem pattern member)
        · intro other member
          have hOther : other ≠ pattern := fun hSame => hNew (hSame ▸ member)
          rw [hFront, List.lookup_cons, beq_false_of_ne hOther]
          exact missing other (List.mem_cons_of_mem pattern member)
        · omega

/-- After any steps the cache holds at most as many patterns as it may, each of them once and as the
engine compiles it. The next pattern gets the answer that it would get without a cache. It is in the
cache then, unless it is refused: then the cache is what it was, full or not. -/
theorem afterSteps_transparent (engine : String → Except String γ) (steps : List Step) :
    let cache := afterSteps engine steps
    cache.size ≤ capacity ∧ (cache.entries.map Prod.fst).Nodup ∧
      (∀ entry ∈ cache.entries, fresh engine entry.1 = .ok entry.2) ∧
      ∀ pattern, (cache.compile engine pattern).1 = fresh engine pattern ∧
        (∀ compiled, engine pattern = .ok compiled →
          (cache.compile engine pattern).2.entries.lookup pattern = some compiled) ∧
        ∀ reason, engine pattern = .error reason → (cache.compile engine pattern).2 = cache := by
  intro cache
  have hKept : cache.Kept engine := Kept.empty.steps steps
  refine ⟨hKept.bounded, hKept.distinct, ?_, ?_⟩
  · intro entry member
    rw [fresh, hKept.compiled entry member]
    rfl
  · intro pattern
    exact ⟨hKept.compile_eq pattern, fun _ accepted => hKept.lookup_compile accepted,
      fun _ refused => hKept.compile_of_refused refused⟩

end PatternCache

namespace Sample

/-- The engine counts the letters of a pattern and refuses the empty one. -/
def countingEngine (pattern : String) : Except String Nat :=
  if pattern = "" then .error "no text" else .ok pattern.length

/-- As many patterns as the cache may hold. -/
def fillingPatterns : List String :=
  (List.range PatternCache.capacity).map fun count => String.ofList (List.replicate (count + 1) 'f')

/-- The cache when all of them were compiled. -/
def fullCache : PatternCache Nat :=
  .afterSteps countingEngine (fillingPatterns.map .compile)

theorem size_fullCache : fullCache.size = PatternCache.capacity := by
  have hLength : fillingPatterns.length = PatternCache.capacity := by simp [fillingPatterns]
  refine (PatternCache.size_compiles ?_ ?_ (fun _ _ => rfl) ?_).trans ?_
  · refine List.Nodup.map ?_ List.nodup_range
    intro first second hSame
    have hLengths := congrArg (fun text => text.toList.length) hSame
    simpa using hLengths
  · intro pattern member
    obtain ⟨count, _, rfl⟩ := List.mem_map.mp member
    refine ⟨_, if_neg ?_⟩
    intro hEmpty
    have hText := congrArg String.toList hEmpty
    simp [List.replicate_succ] at hText
  · rw [hLength]
    exact Nat.le_of_eq (Nat.zero_add PatternCache.capacity)
  · rw [hLength]
    exact Nat.zero_add PatternCache.capacity

end Sample

/-- A refused pattern leaves a full cache alone. -/
theorem PatternCache.afterSteps_transparent_sample :
    Sample.fullCache.size = 128 ∧
      (Sample.fullCache.compile Sample.countingEngine "").1 = .error ⟨"", "no text"⟩ ∧
      (Sample.fullCache.compile Sample.countingEngine "").2 = Sample.fullCache := by
  obtain ⟨_, _, _, hNext⟩ := afterSteps_transparent Sample.countingEngine
    (Sample.fillingPatterns.map .compile)
  obtain ⟨hAnswer, _, hRefused⟩ := hNext ""
  exact ⟨Sample.size_fullCache, hAnswer.trans (by decide), hRefused "no text" (by decide)⟩

end SyntaxAtlas
