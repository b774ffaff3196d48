import Mathlib.Data.List.Basic
import Mathlib.Data.List.Dedup
import Mathlib.Data.List.Nodup

/-! RDF datasets: quads in named graphs, the enumeration order of a dataset, and what insertion
and deletion do to any pattern over it. -/
namespace ToolArtifactRegistry.Library.Rdf

inductive Node where
  | named (iri : String)
  | blank (label : String)
  deriving DecidableEq, Repr

inductive Term where
  | named (iri : String)
  | blank (label : String)
  | literal (value : String) (datatype : String) (language : Option String)
  deriving DecidableEq, Repr

def Node.term : Node → Term
  | .named iri => .named iri
  | .blank label => .blank label

def Node.iri? : Node → Option String
  | .named iri => some iri
  | .blank _ => none

/-- A literal cannot be a subject. -/
def Term.node? : Term → Option Node
  | .named iri => some (.named iri)
  | .blank label => some (.blank label)
  | .literal .. => none

def xsdString : String := "http://www.w3.org/2001/XMLSchema#string"

def Term.simple (value : String) : Term := .literal value xsdString none

structure Quad where
  subject : Node
  predicate : String
  object : Term
  graph : String
  deriving DecidableEq, Repr

/-- Quads without repetition, in the order the store enumerates them. -/
structure Dataset where
  quads : List Quad
  nodup : quads.Nodup

namespace Dataset

def empty : Dataset := ⟨[], List.nodup_nil⟩

instance : Membership Quad Dataset where
  mem data quad := quad ∈ data.quads

instance (quad : Quad) (data : Dataset) : Decidable (quad ∈ data) :=
  inferInstanceAs (Decidable (quad ∈ data.quads))

@[ext] theorem ext {left right : Dataset} (same : left.quads = right.quads) : left = right := by
  cases left; cases right; cases same; rfl

theorem mem_def {quad : Quad} {data : Dataset} : quad ∈ data ↔ quad ∈ data.quads := Iff.rfl

@[simp] theorem not_mem_empty (quad : Quad) : quad ∉ empty := by simp [mem_def, empty]

/-- The quads that answer a pattern. -/
def matching (data : Dataset) (pattern : Quad → Bool) : List Quad := data.quads.filter pattern

@[simp] theorem mem_matching {data : Dataset} {pattern : Quad → Bool} {quad : Quad} :
    quad ∈ data.matching pattern ↔ quad ∈ data ∧ pattern quad = true := by
  simp [matching, mem_def]

def any (data : Dataset) (pattern : Quad → Bool) : Bool := data.quads.any pattern

theorem any_eq_true {data : Dataset} {pattern : Quad → Bool} :
    data.any pattern = true ↔ ∃ quad ∈ data, pattern quad = true := by
  simp [any, mem_def]

theorem any_eq_matching (data : Dataset) (pattern : Quad → Bool) :
    data.any pattern = !(data.matching pattern).isEmpty := by
  unfold any matching
  induction data.quads with
  | nil => rfl
  | cons quad rest ih => by_cases hit : pattern quad = true <;> simp_all

def insert (data : Dataset) (quad : Quad) : Dataset :=
  if fresh : quad ∈ data.quads then data
  else ⟨data.quads.concat quad, data.nodup.concat fresh⟩

theorem mem_insert {data : Dataset} {quad other : Quad} :
    other ∈ data.insert quad ↔ other ∈ data ∨ other = quad := by
  unfold insert
  split
  · rename_i present
    constructor
    · exact Or.inl
    · rintro (mem | rfl)
      · exact mem
      · exact present
  · simp [mem_def]

def extend (data : Dataset) (quads : List Quad) : Dataset := quads.foldl insert data

@[simp] theorem extend_nil (data : Dataset) : data.extend [] = data := rfl

@[simp] theorem mem_extend {data : Dataset} {quads : List Quad} {quad : Quad} :
    quad ∈ data.extend quads ↔ quad ∈ data ∨ quad ∈ quads := by
  induction quads generalizing data with
  | nil => simp
  | cons head tail ih =>
    change quad ∈ (data.insert head).extend tail ↔ _
    rw [ih, mem_insert]
    simp [or_assoc]

/-- Insertion leaves a pattern alone when it matches nothing new. -/
theorem matching_extend {data : Dataset} {quads : List Quad} {pattern : Quad → Bool}
    (silent : ∀ quad ∈ quads, pattern quad = true → quad ∈ data) :
    (data.extend quads).matching pattern = data.matching pattern := by
  induction quads generalizing data with
  | nil => rfl
  | cons head tail ih =>
    change ((data.insert head).extend tail).matching pattern = _
    rw [ih]
    · unfold insert
      split
      · rfl
      · rename_i absent
        by_cases hit : pattern head = true
        · exact absurd (silent head (by simp) hit) absent
        · simp [matching, List.filter_append, hit]
    · intro quad mem hit
      exact mem_insert.2 (Or.inl (silent quad (by simp [mem]) hit))

def discard (data : Dataset) (doomed : Quad → Bool) : Dataset :=
  ⟨data.quads.filter (fun quad => !doomed quad), data.nodup.filter _⟩

@[simp] theorem mem_discard {data : Dataset} {doomed : Quad → Bool} {quad : Quad} :
    quad ∈ data.discard doomed ↔ quad ∈ data ∧ doomed quad = false := by
  simp [discard, mem_def]

theorem matching_discard {data : Dataset} {doomed pattern : Quad → Bool}
    (spared : ∀ quad ∈ data, pattern quad = true → doomed quad = false) :
    (data.discard doomed).matching pattern = data.matching pattern := by
  unfold discard matching
  rw [List.filter_filter]
  apply List.filter_congr
  intro quad mem
  by_cases hit : pattern quad = true
  · simp [hit, spared quad mem hit]
  · simp [hit]

end Dataset

end ToolArtifactRegistry.Library.Rdf
