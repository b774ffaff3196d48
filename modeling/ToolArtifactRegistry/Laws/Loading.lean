import ToolArtifactRegistry.HttpStore
import ToolArtifactRegistry.Laws.Specimen

/-! Bulk loads on both backends. The external endpoint names the blank nodes of each chunk anew, the embedded store those of
the whole document; both give the same dataset when no blank node is in two chunks. -/
namespace ToolArtifactRegistry.Laws

open Library.Rdf Library.Updates Library.Relabelling HttpStore BulkLoading

section Loading

variable {platform : Platform} {parsers : Parsers} {display : Term → String} {endpoint : Endpoint}
  {quads rows : List Statement} {before after one other data : Finset Statement}

/-- No graph is named by a blank node. -/
def NamedGraphs (quads : List Statement) : Prop := ∀ quad ∈ quads, ∀ label, quad.graph ≠ .blank label

/-- No blank node is in two of the chunks. -/
def ChunkedApart (quads : List Statement) : Prop :=
  (chunks quads).Pairwise (fun one other => Disjoint (labelsIn one.toFinset) (labelsIn other.toFinset))

/-- The server takes the insertion of each chunk for what it is. -/
def ReadsChunks (endpoint : Endpoint) (display : Term → String) (quads : List Statement) : Prop :=
  ∀ chunk ∈ chunks quads, endpoint.Sequential display [insertData chunk]

theorem placed_named {quad : Statement} (named : ∀ label, quad.graph ≠ .blank label) :
    placed (graphKey quad) quad = quad := by
  obtain ⟨subject, predicate, object, graph⟩ := quad
  cases graph with
  | named | default => rfl
  | blank label => exact absurd rfl (named label)

theorem contents_named (named : NamedGraphs quads) : contents (byGraph quads) = quads.toFinset := by
  have same : quads.map (fun quad => placed (graphKey quad) quad) = quads :=
    (List.map_congr_left (fun quad mem => placed_named (named quad mem))).trans (List.map_id quads)
  rw [contents_byGraph, same]

theorem chunks_nil : chunks [] = [] := by rw [chunks, if_pos rfl]

theorem chunks_cons (filled : quads ≠ []) : chunks quads = quads.take bulkChunk :: chunks (quads.drop bulkChunk) := by
  rw [chunks, if_neg filled]

/-- The chunks are the document. -/
theorem unionOf_chunks : unionOf ((chunks quads).map List.toFinset) = quads.toFinset := by
  induction quads using chunks.induct with
  | case1 => rw [chunks_nil, List.map_nil, unionOf_nil, List.toFinset_nil]
  | case2 quads filled ih =>
    rw [chunks_cons filled, List.map_cons, unionOf_cons, ih, ← List.toFinset_append, List.take_append_drop]

theorem mem_of_mem_chunk {chunk : List Statement} {quad : Statement} (listed : chunk ∈ chunks quads) (mem : quad ∈ chunk) :
    quad ∈ quads := by
  have within : quad ∈ unionOf ((chunks quads).map List.toFinset) := by
    generalize chunks quads = parts at listed
    induction parts with
    | nil => cases listed
    | cons part rest ih =>
      rw [List.map_cons, unionOf_cons, Finset.mem_union]
      rcases List.mem_cons.1 listed with rfl | later
      · exact Or.inl (List.mem_toFinset.2 mem)
      · exact Or.inr (ih later)
  exact List.mem_toFinset.1 (unionOf_chunks ▸ within)

/-- Chunk by chunk the blank nodes are renamed apart from all that is there. -/
theorem sends_putIn {parts : List (List Statement)} (named : ∀ chunk ∈ parts, NamedGraphs chunk)
    (reads : ∀ chunk ∈ parts, endpoint.Sequential display [insertData chunk])
    (sends : Sends display endpoint before parts after) :
    PutIn before (parts.map List.toFinset) after := by
  induction parts generalizing before with
  | nil => exact sends ▸ PutIn.none before
  | cons chunk rest ih =>
    obtain ⟨middle, executed, onward⟩ := sends
    have inserts := executes_single.1 (reads chunk List.mem_cons_self _ _ executed)
    rw [insertData, Operation.Leaves, contents_named (named chunk List.mem_cons_self)] at inserts
    obtain ⟨f, anew, rfl⟩ := inserts
    exact PutIn.part f anew (ih (fun part mem => named part (List.mem_cons_of_mem _ mem))
      (fun part mem => reads part (List.mem_cons_of_mem _ mem)) onward)

/-- A document whose graphs have names ends up alike just when no blank node of it is in two chunks. -/
theorem sent_alike_iff {f : String → String} (named : NamedGraphs quads) (reads : ReadsChunks endpoint display quads)
    (anew : Anew (labelsIn before) quads.toFinset f) (sends : Sends display endpoint before (chunks quads) after) :
    Isomorphic (before ∪ withLabels f quads.toFinset) after ↔ ChunkedApart quads := by
  have puts := sends_putIn (fun chunk listed quad mem => named quad (mem_of_mem_chunk listed mem)) reads sends
  rw [← unionOf_chunks] at anew ⊢
  rw [isomorphic_parts_iff anew puts, List.pairwise_map]
  rfl

/-- Whatever a store is that is loaded with a document, its dataset is what the embedded store would hold. -/
theorem loads_named {backend : Backend} {document : Document} (read : documentQuads platform parsers document = .ok quads)
    (careful : backend = .external → NamedGraphs quads ∧ ChunkedApart quads ∧ ReadsChunks endpoint display quads)
    (loads : Loads platform parsers display endpoint backend document before after) :
    ∃ f, Anew (labelsIn before) quads.toFinset f ∧ after = before ∪ withLabels f quads.toFinset := by
  unfold Loads at loads
  rw [read] at loads
  cases backend with
  | embedded => exact loads
  | external =>
    obtain ⟨named, apart, reads⟩ := careful rfl
    have puts := sends_putIn (fun chunk listed quad mem => named quad (mem_of_mem_chunk listed mem)) reads loads
    have whole := puts.at_once (List.pairwise_map.2 apart)
    rwa [unionOf_chunks] at whole

theorem document_alike {document : Document}
    (careful : ∀ quads, documentQuads platform parsers document = .ok quads →
      NamedGraphs quads ∧ ChunkedApart quads ∧ ReadsChunks endpoint display quads)
    (local_ : Loads platform parsers display endpoint .embedded document before one)
    (remote : Loads platform parsers display endpoint .external document before other) : Isomorphic one other := by
  unfold Loads at local_ remote
  cases read : documentQuads platform parsers document with
  | error e =>
    rw [read] at local_ remote
    rw [local_, remote]
    exact .refl before
  | ok quads =>
    obtain ⟨named, apart, reads⟩ := careful quads read
    rw [read] at local_ remote
    obtain ⟨f, anew, rfl⟩ := local_
    exact (sent_alike_iff named reads anew remote).2 apart

/-- Documents load alike, and dumps are restored, where graphs have names and no blank node is in two chunks. -/
theorem bulk_loads_agree :
    (∀ document before one other,
      (∀ quads, documentQuads platform parsers document = .ok quads →
        NamedGraphs quads ∧ ChunkedApart quads ∧ ReadsChunks endpoint display quads) →
      Loads platform parsers display endpoint .embedded document before one →
      Loads platform parsers display endpoint .external document before other → Isomorphic one other) ∧
    (∀ source target data rows restored, DumpRows source data rows →
      (source = .external → ∀ statement ∈ data, statement.graph ≠ .default) →
      parsers.nquads (dumpText display rows) = .ok rows →
      (target = .external → NamedGraphs rows ∧ ChunkedApart rows ∧ ReadsChunks endpoint display rows) →
      Loads platform parsers display endpoint target (.nquads (dumpText display rows)) ∅ restored →
      Isomorphic data restored) := by
  constructor
  · exact fun document before one other careful local_ remote => document_alike careful local_ remote
  · intro source target data rows restored dumped graphs parses careful loads
    have read : documentQuads platform parsers (.nquads (dumpText display rows)) = .ok rows := by
      simp only [documentQuads, parses]
    obtain ⟨g, anew, rfl⟩ := loads_named read careful loads
    rw [Finset.empty_union]
    rw [show labelsIn (∅ : Finset Statement) = ∅ from labelsIn_empty] at anew
    cases source with
    | embedded =>
      have same : rows.toFinset = data := dumped
      rw [same] at anew ⊢
      exact ⟨g, anew.injOn, rfl⟩
    | external =>
      obtain ⟨f, injOn, same⟩ := dumped
      rw [Finset.filter_true_of_mem (graphs rfl)] at same
      rw [same] at anew ⊢
      exact anew.copy injOn

end Loading

section Specimen

open Specimen

def spelledNode (term : Term) : String :=
  match term with
  | .named iri => Library.Queries.angle iri
  | .blank label => "_:" ++ label
  | .literal value _ _ => Library.Queries.inQuotes value

def knows : String := "http://xmlns.com/foaf/0.1/knows"

/-- Two blank nodes in a graph with a name. -/
def friends : Statement := ⟨.blank "a", knows, .blank "b", .named "https://reg.example/people"⟩

/-- A graph that a blank node names. -/
def nameless : Statement := ⟨.named "https://reg.example/a", knows, .named "https://reg.example/b", .blank "g"⟩

/-- Documents of one line. -/
def lineParsers : Parsers where
  turtle _ _ := .ok []
  nquads text := match [friends, nameless].find? (fun statement => dumpText spelledNode [statement] == text) with
    | some statement => .ok [statement]
    | none => .error "no such line"

/-- A server that inserts one chunk. -/
def inserting (statement : Statement) : Endpoint :=
  ⟨fun data text after => text = requestText spelledNode [insertData [statement]] ∧
    Executes data [insertData [statement]] after⟩

def lineOf (statement : Statement) : Document := .nquads (dumpText spelledNode [statement])

theorem chunks_line (statement : Statement) : chunks [statement] = [[statement]] := by
  rw [chunks_cons (by simp)]
  exact congrArg (List.cons [statement]) chunks_nil

theorem reads_line (statement : Statement) : ReadsChunks (inserting statement) spelledNode [statement] := by
  intro chunk listed
  rw [chunks_line, List.mem_singleton] at listed
  subst listed
  exact fun _ _ executed => executed.2

theorem read_friends : documentQuads (platform []) lineParsers (lineOf friends) = .ok [friends] := by
  have found : lineParsers.nquads (dumpText spelledNode [friends]) = .ok [friends] := by decide
  simp only [documentQuads, lineOf, found]

theorem read_nameless : documentQuads (platform []) lineParsers (lineOf nameless) = .ok [nameless] := by
  have found : lineParsers.nquads (dumpText spelledNode [nameless]) = .ok [nameless] := by decide
  simp only [documentQuads, lineOf, found]

/-- Labels that are new in an empty store. -/
def suffixed (suffix label : String) : String := label ++ suffix

theorem suffixed_anew (suffix : String) (set : Finset Statement) :
    Anew (labelsIn (∅ : Finset Statement)) set (suffixed suffix) :=
  ⟨fun _ _ _ _ same => (String.append_left_inj suffix).1 same, fun _ _ => Finset.notMem_empty _⟩

theorem embedded_line {statement : Statement}
    (read : documentQuads (platform []) lineParsers (lineOf statement) = .ok [statement]) :
    Loads (platform []) lineParsers spelledNode (inserting statement) .embedded (lineOf statement) ∅
      (∅ ∪ withLabels (suffixed "1") [statement].toFinset) := by
  unfold Loads
  rw [read]
  exact ⟨_, suffixed_anew "1" _, rfl⟩

theorem external_line {statement : Statement}
    (read : documentQuads (platform []) lineParsers (lineOf statement) = .ok [statement]) :
    Loads (platform []) lineParsers spelledNode (inserting statement) .external (lineOf statement) ∅
      (∅ ∪ withLabels (suffixed "2") (contents (byGraph [statement]))) := by
  unfold Loads
  rw [read]
  show Sends spelledNode (inserting statement) ∅ (chunks [statement]) _
  rw [chunks_line]
  exact ⟨_, ⟨rfl, executes_single.2 ⟨_, suffixed_anew "2" _, rfl⟩⟩, rfl⟩

theorem friends_named : NamedGraphs [friends] := by
  intro quad mem label
  rw [List.mem_singleton.1 mem]
  exact GraphName.noConfusion

theorem friends_apart : ChunkedApart [friends] := by
  unfold ChunkedApart
  rw [chunks_line]
  exact List.pairwise_singleton _ _

/-- A document in a graph with a name, and a dump of it. -/
theorem friends_agree :
    Isomorphic (∅ ∪ withLabels (suffixed "1") [friends].toFinset)
        (∅ ∪ withLabels (suffixed "2") (contents (byGraph [friends]))) ∧
      Isomorphic [friends].toFinset (∅ ∪ withLabels (suffixed "2") (contents (byGraph [friends]))) := by
  have careful : NamedGraphs [friends] ∧ ChunkedApart [friends] ∧ ReadsChunks (inserting friends) spelledNode [friends] :=
    ⟨friends_named, friends_apart, reads_line friends⟩
  have both := @bulk_loads_agree (platform []) lineParsers spelledNode (inserting friends)
  constructor
  · refine both.1 (lineOf friends) ∅ _ _ (fun quads read => ?_) (embedded_line read_friends) (external_line read_friends)
    rw [read_friends] at read
    cases read
    exact careful
  · exact both.2 .embedded .external _ [friends] _ rfl (fun external => by cases external) (by decide)
      (fun _ => careful) (external_line read_friends)

/-- A graph that a blank node names is one of its own in the embedded store, and part of the default graph behind the
endpoint. -/
theorem nameless_graph_moved :
    Loads (platform []) lineParsers spelledNode (inserting nameless) .embedded (lineOf nameless) ∅
      (∅ ∪ withLabels (suffixed "1") [nameless].toFinset) ∧
    Loads (platform []) lineParsers spelledNode (inserting nameless) .external (lineOf nameless) ∅
      (∅ ∪ withLabels (suffixed "2") (contents (byGraph [nameless]))) ∧
    ReadsChunks (inserting nameless) spelledNode [nameless] ∧
    ¬Isomorphic (∅ ∪ withLabels (suffixed "1") [nameless].toFinset)
      (∅ ∪ withLabels (suffixed "2") (contents (byGraph [nameless]))) := by
  refine ⟨embedded_line read_nameless, external_line read_nameless, reads_line nameless, fun iso => ?_⟩
  have count := card_labels iso
  revert count
  decide

end Specimen

end ToolArtifactRegistry.Laws
