import ToolArtifactRegistry.Domain.Vocabulary
import ToolArtifactRegistry.Library.Orders
import ToolArtifactRegistry.Rdf.Build
import ToolArtifactRegistry.Rdf.Props

/-! Reference data: the bundles that ship with a build, and the copy of them in the record store. The graph of a bundle
is written again only when another digest is recorded for it than the build's own. -/
namespace ToolArtifactRegistry.Bundles

open Library.Rdf Library.Text Library.Orders Ids Store Rdf.Build
open Rdf.Props (termValue)

abbrev Triple := Node × String × Term

/-- An entry of the artifact keyword list, with what the scheme says of it. -/
structure Entry extends Domain.Keywords.Keyword where
  definition : String

/-- Where the quads of a bundle come from. -/
inductive Body where
  | turtle (text : String)
  | keywords (list : List Entry)

structure Bundle where
  name : String
  source : String
  graph : String
  body : Body

/-- The graphs that migrations leave to the bundles. -/
def reserved (graph : String) : Bool := startsWith graph Ns.gBundlePrefix || decide (graph = Ns.gShapes)

/-- Each bundle owns a graph of its own. -/
structure Build where
  bundles : List Bundle
  apart : (bundles.map Bundle.graph).Nodup
  reserved : ∀ bundle ∈ bundles, reserved bundle.graph = true

/-- SHA-256 in hexadecimal, and a quad as N-Quads writes it. -/
structure Digester where
  sha256 : String → String
  nonempty : ∀ text, sha256 text ≠ ""
  printQuad : Quad → String

def layoutVersion : String := "2"

def schemeIri (base : String) : String := trimSlash base ++ "/scheme/artifact-keywords"

section Content

variable (platform : Platform) (base : String)

def schemeStatements : List Statement :=
  a (Ns.t Ns.skos "ConceptScheme") ++ text Ns.skos "prefLabel" "Artifact keywords" ++
    text Ns.skos "definition" "The keywords this registry recognises on artifacts. A keyword outside the list is kept as free text."

def entryStatements (entry : Entry) : List Statement :=
  a (Ns.t Ns.skos "Concept") ++ text Ns.skos "prefLabel" entry.label ++ text Ns.skos "definition" entry.definition ++
    texts Ns.skos "altLabel" entry.aliases ++ link platform Ns.skos "inScheme" (schemeIri base) ++
      a Domain.Vocabulary.classArtifactKeyword

/-- The artifact keyword scheme in the graph of its bundle. -/
def keywordQuads (graph : String) (list : List Entry) : List Quad :=
  finish (.named (schemeIri base)) graph schemeStatements ++
    list.flatMap (fun entry => finish (.named (Domain.Keywords.iri base entry.slug)) graph (entryStatements platform base entry))

/-- What a bundle holds under a base, when its file parses. -/
def Bundle.triples (bundle : Bundle) : Option (List Triple) :=
  match bundle.body with
  | .turtle text => (platform.turtle text base).toOption
  | .keywords list =>
    some ((keywordQuads platform base bundle.graph list).map (fun quad => (quad.subject, quad.predicate, quad.object)))

/-- The text a bundle is told by: its file, or its quads in an order of their own. -/
def Bundle.content (digester : Digester) (bundle : Bundle) : String :=
  match bundle.body with
  | .turtle text => text
  | .keywords list => join "\n" (((keywordQuads platform base bundle.graph list).map digester.printQuad).mergeSort le)

def Bundle.digest (digester : Digester) (bundle : Bundle) : String :=
  digester.sha256 (join "\x00" [layoutVersion, bundle.name, bundle.graph, base, bundle.content platform base digester])

end Content

/-- A triple in a graph, its blank nodes named as a load names them. -/
def placed (label : String → String) (graph : String) (triple : Triple) : Quad :=
  let node : Node → Node
    | .named iri => .named iri
    | .blank inner => .blank (label inner)
  let term : Term → Term
    | .blank inner => .blank (label inner)
    | other => other
  ⟨node triple.1, triple.2.1, term triple.2.2, graph⟩

/-- A start of a build on the record store: the order of the rows it reads, the blank nodes it draws, and the clock. The
reference store has taken every bundle before the record store is asked. -/
structure Boot (platform : Platform) where
  build : Build
  base : String
  parses : ∀ bundle ∈ build.bundles, (bundle.triples platform base).isSome = true
  order : Order (String × String)
  label : String → String → String
  label_inj : ∀ graph, Function.Injective (label graph)
  checksum : String → String
  checksum_inj : Function.Injective checksum
  now : String

section Sync

variable {platform : Platform}

/-- The graph of a bundle as a load leaves it: as much of the bundle as was loaded. -/
def loadInto (boot : Boot platform) (bundle : Bundle) (upTo : Nat) (data : Dataset) : Dataset :=
  (clearGraph data bundle.graph).extend
    ((((bundle.triples platform boot.base).getD []).take upTo).map (placed (boot.label bundle.graph) bundle.graph))

def descriptionStatements (platform : Platform) (bundle : Bundle) (triples : Nat) (now checksum : String) : List Statement :=
  a (Ns.t Ns.void "Dataset") ++ text Ns.dct "title" bundle.source ++ int Ns.void "triples" triples ++
    datetime platform Ns.dct "modified" now ++ [(Ns.t Ns.spdx "checksum", .blank checksum)]

def checksumStatements (platform : Platform) (digest : String) : List Statement :=
  a (Ns.t Ns.spdx "Checksum") ++ link platform Ns.spdx "algorithm" (Ns.spdx ++ "checksumAlgorithm_sha256") ++
    text Ns.spdx "checksumValue" digest

/-- What is recorded of a bundle graph: what it holds, how big it is, what it hashes to and when it was written. -/
def description (boot : Boot platform) (bundle : Bundle) (digest : String) (triples : Nat) : List Quad :=
  finish (.named bundle.graph) Ns.gBundles
      (descriptionStatements platform bundle triples boot.now (boot.checksum bundle.graph)) ++
    finish (.blank (boot.checksum bundle.graph)) Ns.gBundles (checksumStatements platform digest)

variable (digester : Digester)

/-- The description is replaced with the graph, not added to. -/
def record (boot : Boot platform) (bundle : Bundle) (triples : Nat) (data : Dataset) : Dataset :=
  effect data ((({} : GraphTx).replaceSubject bundle.graph Ns.gBundles).extend
    (description boot bundle (bundle.digest platform boot.base digester) triples))

/-- A bundle's graph dropped, loaded and described. -/
def reload (boot : Boot platform) (bundle : Bundle) (data : Dataset) : Dataset :=
  let triples := (bundle.triples platform boot.base).getD []
  let loaded := loadInto boot bundle triples.length data
  record digester boot bundle (loaded.quads.length - (clearGraph data bundle.graph).quads.length) loaded

/-- The rows of the recorded digests: a bundle graph, and the value of a checksum of it. -/
def digestRows (data : Dataset) : List (String × String) :=
  (data.matching (fun quad => decide (quad.graph = Ns.gBundles ∧ quad.predicate = Ns.t Ns.spdx "checksum"))).flatMap (fun has =>
    (data.matching (fun quad => decide (quad.graph = Ns.gBundles ∧ quad.predicate = Ns.t Ns.spdx "checksumValue" ∧
      some quad.subject = has.object.node?))).filterMap (fun value => has.subject.iri?.map (fun graph => (graph, termValue value.object))))

/-- The digest a map made of the rows has for a graph: that of the last row. -/
def storedDigest (rows : List (String × String)) (graph : String) : Option String :=
  (rows.filter (fun row => decide (row.1 = graph))).getLast?.map Prod.snd

/-- A bundle is current when the digest recorded for its graph is the build's own. -/
def unchanged (boot : Boot platform) (rows : List (String × String)) (bundle : Bundle) : Bool :=
  decide (storedDigest rows bundle.graph = some (bundle.digest platform boot.base digester))

def bring (boot : Boot platform) (rows : List (String × String)) (data : Dataset) (bundle : Bundle) : Dataset :=
  if unchanged digester boot rows bundle then data else reload digester boot bundle data

def rowsRead (boot : Boot platform) (data : Dataset) : List (String × String) := boot.order.arrange (digestRows data)

/-- The bundle graphs brought up to date, one after the other. -/
def sync (boot : Boot platform) (data : Dataset) : Dataset :=
  boot.build.bundles.foldl (bring digester boot (rowsRead boot data)) data

/-- The bundles a start writes. -/
def rewritten (boot : Boot platform) (data : Dataset) : List Bundle :=
  boot.build.bundles.filter (fun bundle => !unchanged digester boot (rowsRead boot data) bundle)

/-- How far a start got that was interrupted: some bundles were done, and the graph of the next one, when it was being
written, had been dropped and loaded this far. -/
structure Cut where
  done : Nat
  halfway : Option Nat

/-- The bundle whose graph was being written when a start was interrupted. -/
def Cut.torn (cut : Cut) (boot : Boot platform) (data : Dataset) : Option (Bundle × Nat) :=
  match cut.halfway, boot.build.bundles[cut.done]? with
  | some upTo, some bundle => if unchanged digester boot (rowsRead boot data) bundle then none else some (bundle, upTo)
  | _, _ => none

def syncCut (boot : Boot platform) (cut : Cut) (data : Dataset) : Dataset :=
  let after := (boot.build.bundles.take cut.done).foldl (bring digester boot (rowsRead boot data)) data
  match cut.torn digester boot data with
  | some (bundle, upTo) => loadInto boot bundle upTo after
  | none => after

end Sync

section Graphs

/-- A bundle graph is none of the other graphs of the registry. -/
theorem reserved_apart {graph : String} (owned : reserved graph = true) :
    graph ≠ Ns.gBundles ∧ graph ≠ Ns.gLocal ∧ graph ≠ Ns.gLegacyVocab ∧ startsWith graph Ns.gPeerPrefix = false := by
  unfold reserved at owned
  rw [Bool.or_eq_true, decide_eq_true_eq] at owned
  rcases owned with prefixed | same
  · obtain ⟨rest, rfl⟩ := startsWith_iff.1 prefixed
    have peers : startsWith (Ns.gBundlePrefix ++ rest) Ns.gPeerPrefix = false := by
      simp [startsWith, Ns.gBundlePrefix, Ns.gPeerPrefix]
      rfl
    refine ⟨?_, ?_, ?_, peers⟩ <;>
      · intro same
        have letters := congrArg String.toList same
        simp [Ns.gBundlePrefix, Ns.gBundles, Ns.gLocal, Ns.gLegacyVocab] at letters
  · rw [same]
    decide

theorem unsaid {predicate other : String} {statements : List Statement} (only : Only other statements) (apart : predicate ≠ other)
    {object : Term} : (predicate, object) ∉ statements := fun mem => apart (only _ mem)

theorem node?_eq_some {term : Term} {node : Node} : term.node? = some node ↔ term = node.term := by
  cases term <;> cases node <;> simp [Term.node?, Node.term]

end Graphs

section Records

variable {platform : Platform} {digester : Digester} {boot : Boot platform} {bundle : Bundle} {data : Dataset}

theorem mem_digestRows {graph digest : String} : (graph, digest) ∈ digestRows data ↔ ∃ node value,
    (⟨.named graph, Ns.t Ns.spdx "checksum", node.term, Ns.gBundles⟩ : Quad) ∈ data ∧
      (⟨node, Ns.t Ns.spdx "checksumValue", value, Ns.gBundles⟩ : Quad) ∈ data ∧ termValue value = digest := by
  unfold digestRows
  rw [List.mem_flatMap]
  constructor
  · intro row
    obtain ⟨⟨subject, predicate, object, here⟩, hasMem, row⟩ := row
    obtain ⟨⟨node, valuePredicate, value, there⟩, valueMem, read⟩ := List.mem_filterMap.1 row
    obtain ⟨has, checksum⟩ := Dataset.mem_matching.1 hasMem
    obtain ⟨held, valued⟩ := Dataset.mem_matching.1 valueMem
    obtain ⟨rfl, rfl⟩ := of_decide_eq_true checksum
    obtain ⟨rfl, rfl, joined⟩ := of_decide_eq_true valued
    have object_ : object = node.term := node?_eq_some.1 joined.symm
    cases subject with
    | blank label => cases read
    | named iri =>
      obtain ⟨rfl, rfl⟩ := Prod.mk.inj (Option.some.inj read)
      rw [object_] at has
      exact ⟨node, value, has, held, rfl⟩
  · intro right
    obtain ⟨node, value, has, held, rfl⟩ := right
    refine ⟨_, Dataset.mem_matching.2 ⟨has, decide_eq_true ⟨rfl, rfl⟩⟩, List.mem_filterMap.2 ⟨_,
      Dataset.mem_matching.2 ⟨held, decide_eq_true ⟨rfl, rfl, ?_⟩⟩, rfl⟩⟩
    exact (node?_eq_some.2 rfl).symm

/-- What is said of digests is all in the graph of the bundles. -/
theorem digestRows_congr {other : Dataset}
    (same : ∀ quad : Quad, quad.graph = Ns.gBundles →
      quad.predicate ∈ [Ns.t Ns.spdx "checksum", Ns.t Ns.spdx "checksumValue"] → (quad ∈ other ↔ quad ∈ data))
    (row : String × String) : row ∈ digestRows other ↔ row ∈ digestRows data := by
  obtain ⟨graph, digest⟩ := row
  rw [mem_digestRows, mem_digestRows]
  apply exists_congr
  intro node
  apply exists_congr
  intro value
  rw [same _ rfl List.mem_cons_self, same _ rfl (List.mem_cons_of_mem _ List.mem_cons_self)]

theorem mem_of_storedDigest {rows : List (String × String)} {graph digest : String}
    (stored : storedDigest rows graph = some digest) : (graph, digest) ∈ rows := by
  unfold storedDigest at stored
  obtain ⟨⟨here, value⟩, last, rfl⟩ := Option.map_eq_some_iff.1 stored
  obtain ⟨mem, same⟩ := List.mem_filter.1 (List.mem_of_getLast? last)
  rw [← of_decide_eq_true same]
  exact mem

/-- A bundle that passes for current has its own digest among those recorded for its graph. -/
theorem recorded_of_unchanged (current : unchanged digester boot (rowsRead boot data) bundle = true) :
    (bundle.graph, bundle.digest platform boot.base digester) ∈ digestRows data :=
  Order.mem_arrange.1 (mem_of_storedDigest (of_decide_eq_true current))

theorem mem_loadInto {upTo : Nat} {quad : Quad} : quad ∈ loadInto boot bundle upTo data ↔
    (quad ∈ data ∧ quad.graph ≠ bundle.graph) ∨
      ∃ triple ∈ ((bundle.triples platform boot.base).getD []).take upTo, quad = placed (boot.label bundle.graph) bundle.graph triple := by
  unfold loadInto
  rw [Dataset.mem_extend, mem_clearGraph, List.mem_map]
  simp only [eq_comm]

/-- A load leaves the other graphs. -/
theorem mem_loadInto_other {upTo : Nat} {quad : Quad} (other : quad.graph ≠ bundle.graph) :
    quad ∈ loadInto boot bundle upTo data ↔ quad ∈ data := by
  rw [mem_loadInto]
  constructor
  · intro either
    rcases either with ⟨held, _⟩ | ⟨triple, _, rfl⟩
    · exact held
    · exact absurd rfl other
  · intro held
    exact Or.inl ⟨held, other⟩

theorem description_graph {digest : String} {triples : Nat} {quad : Quad} (mem : quad ∈ description boot bundle digest triples) :
    quad.graph = Ns.gBundles := by
  unfold description at mem
  rcases List.mem_append.1 mem with whole | checksum
  · exact (mem_finish.1 whole).2.1
  · exact (mem_finish.1 checksum).2.1

theorem mem_record {triples : Nat} {quad : Quad} : quad ∈ record digester boot bundle triples data ↔
    (quad ∈ data ∧ ¬(quad.graph = Ns.gBundles ∧ Owns data Ns.gBundles (.named bundle.graph) quad.subject)) ∨
      quad ∈ description boot bundle (bundle.digest platform boot.base digester) triples := by
  unfold record effect GraphTx.replaceSubject GraphTx.extend
  rw [Dataset.mem_extend]
  dsimp only [List.foldl_nil, List.nil_append, List.foldl_cons]
  rw [mem_deleteSubject]

/-- Recording a bundle leaves the graphs that hold something else. -/
theorem mem_record_other {triples : Nat} {quad : Quad} (other : quad.graph ≠ Ns.gBundles) :
    quad ∈ record digester boot bundle triples data ↔ quad ∈ data := by
  rw [mem_record]
  constructor
  · intro either
    rcases either with ⟨held, _⟩ | described
    · exact held
    · exact absurd (description_graph described) other
  · intro held
    exact Or.inl ⟨held, fun deleted => other deleted.1⟩

/-- A description says one thing of checksums, and one of their values. -/
theorem description_checksum {digest : String} {triples : Nat} {subject : Node} {object : Term} {graph : String} :
    (⟨subject, Ns.t Ns.spdx "checksum", object, graph⟩ : Quad) ∈ description boot bundle digest triples ↔
      subject = .named bundle.graph ∧ object = .blank (boot.checksum bundle.graph) ∧ graph = Ns.gBundles := by
  have modified : (Ns.t Ns.spdx "checksum", object) ∉ datetime platform Ns.dct "modified" boot.now := unsaid (only_datetime platform Ns.dct "modified" boot.now) (by decide)
  have algorithm : (Ns.t Ns.spdx "checksum", object) ∉ link platform Ns.spdx "algorithm" (Ns.spdx ++ "checksumAlgorithm_sha256") :=
    unsaid (only_link platform Ns.spdx "algorithm" _) (by decide)
  have title : (Ns.t Ns.spdx "checksum", object) ∉ text Ns.dct "title" bundle.source := unsaid (only_text Ns.dct "title" _) (by decide)
  have value : (Ns.t Ns.spdx "checksum", object) ∉ text Ns.spdx "checksumValue" digest := unsaid (only_text Ns.spdx "checksumValue" _) (by decide)
  have type : Ns.t Ns.spdx "checksum" ≠ Ns.rdfType := by decide
  have count : Ns.t Ns.spdx "checksum" ≠ Ns.t Ns.void "triples" := by decide
  unfold description descriptionStatements checksumStatements
  simp only [List.mem_append, mem_finish, a, int, List.mem_singleton, Prod.mk.injEq, type, count, modified, algorithm, title, value,
    false_and, and_false, false_or, or_false, true_and]
  tauto

theorem description_value {digest : String} {triples : Nat} {subject : Node} {object : Term} {graph : String}
    (described : (⟨subject, Ns.t Ns.spdx "checksumValue", object, graph⟩ : Quad) ∈ description boot bundle digest triples) :
    subject = .blank (boot.checksum bundle.graph) ∧ object = .simple digest := by
  have modified : (Ns.t Ns.spdx "checksumValue", object) ∉ datetime platform Ns.dct "modified" boot.now := unsaid (only_datetime platform Ns.dct "modified" boot.now) (by decide)
  have algorithm : (Ns.t Ns.spdx "checksumValue", object) ∉
      link platform Ns.spdx "algorithm" (Ns.spdx ++ "checksumAlgorithm_sha256") := unsaid (only_link platform Ns.spdx "algorithm" _) (by decide)
  have title : (Ns.t Ns.spdx "checksumValue", object) ∉ text Ns.dct "title" bundle.source := unsaid (only_text Ns.dct "title" _) (by decide)
  have type : Ns.t Ns.spdx "checksumValue" ≠ Ns.rdfType := by decide
  have count : Ns.t Ns.spdx "checksumValue" ≠ Ns.t Ns.void "triples" := by decide
  have whole : Ns.t Ns.spdx "checksumValue" ≠ Ns.t Ns.spdx "checksum" := by decide
  unfold description descriptionStatements checksumStatements at described
  simp only [List.mem_append, mem_finish, a, int, List.mem_singleton, Prod.mk.injEq, type, count, whole, modified, algorithm, title,
    false_and, and_false, false_or, or_false] at described
  obtain ⟨rfl, -, said⟩ := described
  refine ⟨rfl, ?_⟩
  unfold text at said
  split at said
  · cases said
  · exact (Prod.mk.inj (List.mem_singleton.1 said)).2

/-- The graph of the bundles does not mention a blank node. -/
def Unmentioned (label : String) (data : Dataset) : Prop :=
  ∀ quad ∈ data, quad.graph = Ns.gBundles → quad.subject ≠ .blank label ∧ quad.object ≠ .blank label

instance (label : String) (data : Dataset) : Decidable (Unmentioned label data) :=
  inferInstanceAs (Decidable (∀ quad ∈ data.quads, quad.graph = Ns.gBundles → quad.subject ≠ .blank label ∧ quad.object ≠ .blank label))

/-- The blank nodes a start draws for its checksums are new. -/
def Drawn (boot : Boot platform) (data : Dataset) : Prop := ∀ bundle ∈ boot.build.bundles, Unmentioned (boot.checksum bundle.graph) data

instance (boot : Boot platform) (data : Dataset) : Decidable (Drawn boot data) :=
  inferInstanceAs (Decidable (∀ bundle ∈ boot.build.bundles, _))

theorem Unmentioned.load {label : String} {upTo : Nat} (unused : Unmentioned label data) (owned : reserved bundle.graph = true) :
    Unmentioned label (loadInto boot bundle upTo data) := by
  intro quad mem here
  have other : quad.graph ≠ bundle.graph := by
    rw [here]
    exact (reserved_apart owned).1.symm
  exact unused quad ((mem_loadInto_other other).1 mem) here

theorem digestRows_loadInto {upTo : Nat} (owned : reserved bundle.graph = true) (row : String × String) :
    row ∈ digestRows (loadInto boot bundle upTo data) ↔ row ∈ digestRows data := by
  apply digestRows_congr
  intro quad here _
  have other : quad.graph ≠ bundle.graph := by
    rw [here]
    exact (reserved_apart owned).1.symm
  exact mem_loadInto_other other

/-- The digest of a bundle is the only one recorded for its graph once it is recorded; the others stand or go. -/
theorem digestRows_record {triples : Nat} (unused : Unmentioned (boot.checksum bundle.graph) data) {graph digest : String}
    (recorded : (graph, digest) ∈ digestRows (record digester boot bundle triples data)) :
    (graph = bundle.graph ∧ digest = bundle.digest platform boot.base digester) ∨
      (graph ≠ bundle.graph ∧ (graph, digest) ∈ digestRows data) := by
  obtain ⟨node, value, has, held, rfl⟩ := mem_digestRows.1 recorded
  rcases mem_record.1 has with ⟨old, spared⟩ | new
  · right
    have apart : graph ≠ bundle.graph := by
      intro same
      rw [same] at spared
      exact spared ⟨rfl, Relation.ReflTransGen.refl⟩
    refine ⟨apart, ?_⟩
    rcases mem_record.1 held with ⟨oldValue, _⟩ | newValue
    · exact mem_digestRows.2 ⟨node, value, old, oldValue, rfl⟩
    · have fresh := (unused _ old rfl).2
      rw [(description_value newValue).1] at fresh
      exact absurd rfl fresh
  · left
    obtain ⟨subject, object, _⟩ := description_checksum.1 new
    have blank : node = .blank (boot.checksum bundle.graph) := by
      cases node with
      | named iri => cases object
      | blank label => exact congrArg Node.blank (Term.blank.inj object)
    refine ⟨Node.named.inj subject, ?_⟩
    rcases mem_record.1 held with ⟨oldValue, _⟩ | newValue
    · exact absurd blank (unused _ oldValue rfl).1
    · rw [(description_value newValue).2]
      rfl

section Blank

variable {ns localName predicate label : String}

theorem text_named (value : String) : (predicate, Term.blank label) ∉ text ns localName value := by
  unfold text
  split <;> simp [Term.simple]

theorem link_named (target : String) : (predicate, Term.blank label) ∉ link platform ns localName target := by
  unfold link
  split
  · simp
  · split <;> simp [Term.simple]

theorem datetime_named (value : String) : (predicate, Term.blank label) ∉ datetime platform ns localName value := by
  unfold datetime
  split
  · simp
  · split
    · simp
    · exact text_named value

end Blank

/-- The one blank node a description draws. -/
theorem description_blank {digest label : String} {triples : Nat} {quad : Quad}
    (mem : quad ∈ description boot bundle digest triples)
    (mentions : quad.subject = .blank label ∨ quad.object = .blank label) : label = boot.checksum bundle.graph := by
  have subject_ : quad.subject = .named bundle.graph ∨ quad.subject = .blank (boot.checksum bundle.graph) := by
    unfold description at mem
    rcases List.mem_append.1 mem with whole | checksum
    · exact Or.inl (mem_finish.1 whole).1
    · exact Or.inr (mem_finish.1 checksum).1
  rcases mentions with subject | object
  · rcases subject_ with named | blank
    · rw [named] at subject
      cases subject
    · rw [blank] at subject
      exact (Node.blank.inj subject).symm
  · unfold description descriptionStatements checksumStatements at mem
    simp only [List.mem_append, mem_finish, a, int, List.mem_singleton, Prod.mk.injEq, object, text_named, link_named,
      datetime_named, reduceCtorEq, and_false, false_or, or_false, Term.blank.injEq] at mem
    exact mem.2.2.2

/-- What a start writes of other bundles draws on other blank nodes. -/
theorem Unmentioned.record {label : String} {triples : Nat} (unused : Unmentioned label data) (apart : label ≠ boot.checksum bundle.graph) :
    Unmentioned label (record digester boot bundle triples data) := by
  intro quad mem here
  rcases mem_record.1 mem with ⟨held, _⟩ | new
  · exact unused quad held here
  · exact ⟨fun subject => apart (description_blank new (Or.inl subject)), fun object => apart (description_blank new (Or.inr object))⟩

theorem mem_reload_other {quad : Quad} (apart : quad.graph ≠ bundle.graph) (elsewhere : quad.graph ≠ Ns.gBundles) :
    quad ∈ reload digester boot bundle data ↔ quad ∈ data :=
  (mem_record_other elsewhere).trans (mem_loadInto_other apart)

theorem digestRows_reload (owned : reserved bundle.graph = true) (unused : Unmentioned (boot.checksum bundle.graph) data)
    {graph digest : String} (recorded : (graph, digest) ∈ digestRows (reload digester boot bundle data)) :
    (graph = bundle.graph ∧ digest = bundle.digest platform boot.base digester) ∨
      (graph ≠ bundle.graph ∧ (graph, digest) ∈ digestRows data) := by
  rcases digestRows_record (unused.load owned) recorded with own | ⟨apart, before⟩
  · exact Or.inl own
  · exact Or.inr ⟨apart, (digestRows_loadInto owned _).1 before⟩

/-- A start leaves the graphs that are not among the bundles it works through. -/
theorem mem_brought_other {rows : List (String × String)} {some_ : List Bundle} {quad : Quad}
    (apart : quad.graph ∉ some_.map Bundle.graph) (elsewhere : quad.graph ≠ Ns.gBundles) :
    quad ∈ some_.foldl (bring digester boot rows) data ↔ quad ∈ data := by
  induction some_ generalizing data with
  | nil => exact Iff.rfl
  | cons first rest ih =>
    rw [List.map_cons, List.mem_cons, not_or] at apart
    have later := @ih (bring digester boot rows data first) apart.2
    refine later.trans ?_
    unfold bring
    split
    · exact Iff.rfl
    · exact mem_reload_other apart.1 elsewhere

end Records

end ToolArtifactRegistry.Bundles
