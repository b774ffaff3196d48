import ToolArtifactRegistry.Domain.Artifact
import ToolArtifactRegistry.Domain.Digest
import ToolArtifactRegistry.Domain.Vocabulary
import ToolArtifactRegistry.Library.Orders

/-! What a write may put in a vocabulary-valued field: the terms it names, how they are held in the two stores,
and the verdict on each. -/
namespace ToolArtifactRegistry.Domain.Terms

open Library.Rdf Library.Text Library.Orders Vocabulary

/-! The terms of a write. -/

/-- A vocabulary term found in a candidate write. -/
structure VocabularyTerm where
  iri : String
  slot : Slot
  /-- The request field it was put in. -/
  field : String
  path : String
  focus : String
  deriving DecidableEq

/-- The predicate a term stands behind, the slot it expects, and the field it belongs to. -/
def slotOf (predicate : String) : Option (Slot × String) :=
  match stripPrefix predicate Ns.dct with
  | some word =>
    if word = "conformsTo" then some (.type, "conforms_to")
    else if word = "subject" then some (.topic, "topics")
    else none
  | none =>
    match stripPrefix predicate Ns.tar with
    | some word =>
      if word = "produces" then some (.type, "capability.produces")
      else if word = "consumes" then some (.type, "capability.consumes")
      else none
    | none => none

def named (term : Term) : Option String := term.node?.bind Node.iri?

def nodeText (node : Node) : String :=
  match node with
  | .named iri => "<" ++ iri ++ ">"
  | .blank label => "_:" ++ label

def artifacts (quads : List Quad) : List String :=
  (quads.filter (fun quad => decide (quad.predicate = Ns.rdfType ∧ named quad.object = some Artifact.typeDataset))).map
    (fun quad => nodeText quad.subject)

def conformsTo : String := Ns.dct ++ "conformsTo"

def trimAngles (text : String) : String :=
  let angle (c : Char) : Bool := c == '<' || c == '>'
  trimEndMatches (trimStartMatches text angle) angle

/-- The term a quad names; an artifact's type is only what an artifact conforms to. -/
def termOf (quads : List Quad) (quad : Quad) : Option VocabularyTerm :=
  match slotOf quad.predicate, named quad.object with
  | some (slot, field), some object =>
    if quad.predicate = conformsTo ∧ nodeText quad.subject ∉ artifacts quads then none
    else some ⟨object, slot, field, quad.predicate, trimAngles (nodeText quad.subject)⟩
  | _, _ => none

def slotLe : Slot → Slot → Bool
  | .type, .topic => false
  | _, _ => true

def termLe (one other : VocabularyTerm) : Bool :=
  if one.iri = other.iri then
    if one.slot = other.slot then decide (one.field ≤ other.field) else slotLe one.slot other.slot
  else decide (one.iri ≤ other.iri)

def sameTerm (one other : VocabularyTerm) : Bool :=
  decide (one.iri = other.iri ∧ one.slot = other.slot ∧ one.field = other.field)

/-- Of neighbours that are the same the first is kept. -/
def dedupFrom (kept : VocabularyTerm) : List VocabularyTerm → List VocabularyTerm
  | [] => [kept]
  | next :: rest => if sameTerm next kept then dedupFrom kept rest else kept :: dedupFrom next rest

def dedup : List VocabularyTerm → List VocabularyTerm
  | [] => []
  | first :: rest => dedupFrom first rest

def termsIn (quads : List Quad) : List VocabularyTerm := dedup ((quads.filterMap (termOf quads)).mergeSort termLe)

/-! How terms are held. -/

structure Row where
  t : String
  g : String
  class_ : Option Term
  deriving DecidableEq

/-- The graphs in which an IRI is a concept. -/
def declaring (data : Dataset) (iri : String) : List String :=
  (data.matching (fun quad => decide (quad.subject = .named iri ∧ quad.predicate = Ns.rdfType ∧
    quad.object = .named (Ns.t Ns.skos "Concept")))).map Quad.graph

/-- A class from the registry's namespace, as its text begins. -/
def ours (class_ : Term) : Bool :=
  match class_ with
  | .named text | .literal text _ _ => startsWith text Ns.tar
  | .blank _ => false

/-- The classes on an IRI, in any graph. -/
def classesOf (data : Dataset) (iri : String) : List Term :=
  ((data.matching (fun quad => decide (quad.subject = .named iri ∧ quad.predicate = Ns.rdfType))).map Quad.object).filter ours

/-- What a store answers about some IRIs: each graph that declares one, with each of its classes if it has any. -/
def rows (data : Dataset) (iris : List String) : List Row :=
  (iris.flatMap (fun t => (declaring data t).flatMap (fun g =>
    if classesOf data t = [] then [⟨t, g, none⟩] else (classesOf data t).map (fun class_ => ⟨t, g, some class_⟩)))).eraseDups

/-- What was gathered about one IRI so far. -/
structure Tally where
  classes : List String := []
  onlyPeer : Bool := true

def Tally.add (tally : Tally) (row : Row) : Tally :=
  { classes :=
      match row.class_.bind named with
      | some class_ => if class_ ∈ conceptClasses ∧ class_ ∉ tally.classes then tally.classes ++ [class_] else tally.classes
      | none => tally.classes
    onlyPeer := tally.onlyPeer && startsWith row.g Ns.gPeerPrefix }

def gather (known : String → Option Tally) (row : Row) : String → Option Tally :=
  fun key => if key = row.t then some (((known key).getD {}).add row) else known key

section Stores

variable (platform : Platform) (order : Order Row)

/-- One question to one store, which answers its rows in some order; an IRI that does not parse spoils it. -/
def heldIn (data : Dataset) (iris : List String) : Option (String → Option Held) :=
  if iris.all platform.validIri then
    let known := (order.arrange (rows data iris)).foldl gather (fun _ => none)
    some (fun key => (known key).map (fun tally => ⟨tally.classes.mergeSort, tally.onlyPeer⟩))
  else none

/-- The reference store is asked first, and the record store about what it does not hold. -/
def held (reference data : Dataset) (iris : List String) : Option (String → Option Held) :=
  if iris = [] then some (fun _ => none)
  else
    match heldIn platform order reference iris with
    | none => none
    | some out =>
      let missing := iris.filter (fun iri => (out iri).isNone)
      if missing = [] then some out
      else (heldIn platform order data missing).map (fun more key => (more key).or (out key))

inductive Verdict where
  | unknown
  | wrongClass (classes : List String)
  deriving DecidableEq

def judge (known : String → Option Held) (term : VocabularyTerm) : Option Verdict :=
  match known term.iri with
  | none => some .unknown
  | some held => if held.usableAs term.slot then none else some (.wrongClass held.classes)

/-- A term without a verdict conformed; a store that cannot be read gives no verdicts. -/
def verdicts (reference data : Dataset) (terms : List VocabularyTerm) : List (Nat × Verdict) :=
  if terms = [] then []
  else
    match held platform order reference data (terms.map VocabularyTerm.iri) with
    | none => []
    | some known => terms.zipIdx.filterMap (fun entry => (judge known entry.1).map (fun verdict => (entry.2, verdict)))

end Stores

/-! What a write is told about the vocabulary terms it may not name. -/
open Digest (Finding)

/-- The branch a caller searches to be offered the terms of a slot. -/
def branch : Slot → String
  | .topic => "topic"
  | .type => "data"

namespace Verdict

/-- What is wrong, in one sentence, naming no vocabulary. -/
def describe (verdict : Verdict) (iri : String) (slot : Slot) : String :=
  match verdict, slot with
  | .unknown, .type => iri ++ " is not an artifact type this registry knows"
  | .unknown, .topic => iri ++ " is not a topic this registry knows"
  | .wrongClass _, .type =>
    iri ++ " is a term this registry holds, but it names a subject area rather than a kind of data, so it cannot be what " ++
      "an artifact is"
  | .wrongClass _, .topic =>
    iri ++ " is a term this registry holds, but not one it classifies software by — it is kept so that records already " ++
      "citing it still render a label"

/-- What is wrong, then the ways out. -/
def message (verdict : Verdict) (iri : String) (slot : Slot) : String :=
  let search := "search for one with GET /api/v1/vocab/search?branch=" ++ branch slot ++ "&q=… and use the `iri` it returns"
  match slot with
  | .type =>
    verdict.describe iri slot ++ ". First " ++ search ++ ". If the term is defined somewhere this registry does not carry " ++
      "and you have its IRI, adopt it with POST /api/v1/types, sending that `iri`. Mint a new one with POST /api/v1/types, " ++
      "without an `iri`, only when nothing anywhere names this thing."
  | .topic => verdict.describe iri slot ++ ". Either " ++ search ++ ", or leave the field out."

end Verdict

def findingOf (term : VocabularyTerm) (verdict : Verdict) : Finding where
  severity := .violation
  focus := term.focus
  path := term.path
  constraint := "InConstraintComponent"
  message := verdict.message term.iri term.slot
  field := term.field
  value := some term.iri

/-- A finding for each term of a write with a verdict. -/
def findings (platform : Platform) (order : Order Row) (reference data : Dataset) (quads : List Quad) : List Finding :=
  (verdicts platform order reference data (termsIn quads)).filterMap (fun entry =>
    (termsIn quads)[entry.1]?.map (fun term => findingOf term entry.2))

end ToolArtifactRegistry.Domain.Terms
