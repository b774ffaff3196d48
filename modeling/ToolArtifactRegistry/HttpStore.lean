import ToolArtifactRegistry.Library.Updates
import ToolArtifactRegistry.Store

/-! The graph store over an external SPARQL endpoint: a transaction as one request, and what the request deletes. -/
namespace ToolArtifactRegistry.HttpStore

open Library.Rdf Library.Text Library.Queries Library.Updates Library.Worklist Store

/-! The pattern that matches a subject and everything it owns, within one graph. -/

def nodeVar (hop : Nat) : String := "x" ++ toString hop

def predicateVar (hop : Nat) : String := "p" ++ toString hop

/-- The subject, or where a hop lands. -/
def landing (subject : String) (hop : Nat) : Place := if hop = 0 then .iri subject else .var (nodeVar hop)

/-- Hop 1 starts at the subject; every later hop starts where the last one landed. -/
def hopClauses (subject graph : String) (hop : Nat) : List Clause :=
  [.graph ⟨.iri graph, landing subject (hop - 1), .var (predicateVar hop), .var (nodeVar hop)⟩,
    .blankOr (nodeVar hop) (predicateVar hop) ownedSubresourcePredicates]

/-- What is said where a level lands. -/
def lastClauses (subject graph : String) (level : Nat) : List Clause :=
  [.graph ⟨.iri graph, landing subject level, .var "p", .var "o"⟩, .bind (landing subject level) "s"]

def closureBranch (subject graph : String) (level : Nat) : Group :=
  (List.range level).map (fun before => hopClauses subject graph (before + 1)) ++ [lastClauses subject graph level]

def ownedClosureBody (subject graph : String) (depth : Nat) : List Group :=
  (List.range (depth + 1)).map (closureBranch subject graph)

/-! `INSERT DATA`, grouped by graph. -/

/-- A blank node cannot be written as the name of a graph; its quads are grouped with the default graph. -/
def graphKey (quad : Statement) : Option String :=
  match quad.graph with
  | .named graph => some graph
  | .blank _ | .default => none

/-- The default graph comes first. -/
def keyBefore (one other : Option String) : Bool :=
  match one, other with
  | none, some _ => true
  | some one, some other => decide (one < other)
  | _, none => false

def enterBlock (quad : Statement) : List Block → List Block
  | [] => [(graphKey quad, [quad])]
  | block :: rest =>
    if graphKey quad = block.1 then (block.1, block.2 ++ [quad]) :: rest
    else if keyBefore (graphKey quad) block.1 then (graphKey quad, [quad]) :: block :: rest
    else block :: enterBlock quad rest

def byGraph (quads : List Statement) : List Block := quads.foldl (fun blocks quad => enterBlock quad blocks) []

def insertData (quads : List Statement) : Operation := .insertData (byGraph quads)

/-! A transaction. -/

def everything (graph : String) : Pattern := ⟨.iri graph, .var "s", .var "p", .var "o"⟩

def deleteOperation (target : String × String) : Operation :=
  .delete (everything target.2) (ownedClosureBody target.1 target.2 defaultDepth)

def propertyOperation (target : String × String × String) : Operation :=
  .deleteWhere ⟨.iri target.2.2, .iri target.1, .iri target.2.1, .var "o"⟩

def deletions (tx : GraphTx) : List Operation :=
  tx.clearGraphs.map .clear ++ tx.deleteSubjects.map deleteOperation ++ tx.deleteProperties.map propertyOperation

def operations (tx : GraphTx) : List Operation :=
  deletions tx ++ if tx.insert.isEmpty then [] else [insertData (tx.insert.map Statement.of)]

/-- Every IRI that is checked as the request is written, in the order they are. -/
def checked (tx : GraphTx) : List String :=
  tx.clearGraphs ++ tx.deleteSubjects.flatMap (fun target => [target.2, target.1]) ++
    tx.deleteProperties.flatMap (fun target => [target.2.2, target.1, target.2.1])

/-- The whole transaction as one request, when there is anything to send. -/
def request (platform : Platform) (display : Term → String) (tx : GraphTx) : AppResult (Option String) :=
  if tx.isEmpty then .ok none
  else match (checked tx).find? (fun iri => !platform.validIri iri) with
    | some bad => .error (AppError.internal s!"bad IRI {bad}")
    | none => .ok (some (requestText display (operations tx)))

/-- A server behind the SPARQL protocol: what it may hold after it answered an update with success. -/
structure Endpoint where
  execute : Finset Statement → String → Finset Statement → Prop

/-- The server takes the text for the operations it was written for, and carries them out in their order. -/
def Endpoint.Sequential (endpoint : Endpoint) (display : Term → String) (operations : List Operation) : Prop :=
  ∀ data after, endpoint.execute data (requestText display operations) after → Executes data operations after

/-- What the server may hold after a transaction. -/
def Applies (platform : Platform) (display : Term → String) (endpoint : Endpoint) (data : Finset Statement) (tx : GraphTx)
    (after : Finset Statement) : Prop :=
  match request platform display tx with
  | .ok (some text) => endpoint.execute data text after
  | .ok none | .error _ => after = data

/-- A dataset as a server holds it. -/
def onServer (data : Dataset) : Finset Statement := (data.quads.map Statement.of).toFinset

theorem mem_onServer {data : Dataset} {statement : Statement} :
    statement ∈ onServer data ↔ ∃ quad ∈ data, Statement.of quad = statement := by
  simp [onServer, Dataset.mem_def]

theorem of_mem_onServer {data : Dataset} {quad : Quad} : Statement.of quad ∈ onServer data ↔ quad ∈ data := by
  rw [mem_onServer]
  exact ⟨fun ⟨_, mem, same⟩ => of_injective same ▸ mem, fun mem => ⟨quad, mem, rfl⟩⟩

section Blocks

variable {quads : List Statement} {blocks : List Block} {quad statement : Statement}

theorem mem_enterBlock {name : Option String} :
    (∃ block ∈ enterBlock quad blocks, block.1 = name ∧ statement ∈ block.2) ↔
      (graphKey quad = name ∧ statement = quad) ∨ ∃ block ∈ blocks, block.1 = name ∧ statement ∈ block.2 := by
  induction blocks with
  | nil => simp [enterBlock]
  | cons block rest ih =>
    unfold enterBlock
    split
    · rename_i same
      simp only [List.exists_mem_cons_iff, List.mem_append, List.mem_singleton, same]
      tauto
    · split
      · simp only [List.exists_mem_cons_iff, List.mem_singleton]
      · simp only [List.exists_mem_cons_iff, ih]
        tauto

theorem mem_byGraph {name : Option String} :
    (∃ block ∈ byGraph quads, block.1 = name ∧ statement ∈ block.2) ↔ statement ∈ quads ∧ graphKey statement = name := by
  have from_ : ∀ blocks : List Block,
      (∃ block ∈ quads.foldl (fun blocks quad => enterBlock quad blocks) blocks, block.1 = name ∧ statement ∈ block.2) ↔
        (statement ∈ quads ∧ graphKey statement = name) ∨ ∃ block ∈ blocks, block.1 = name ∧ statement ∈ block.2 := by
    induction quads with
    | nil => simp
    | cons head rest ih =>
      intro blocks
      rw [List.foldl_cons, ih, mem_enterBlock, List.mem_cons]
      constructor
      · rintro (⟨mem, key⟩ | ⟨key, rfl⟩ | there)
        · exact Or.inl ⟨Or.inr mem, key⟩
        · exact Or.inl ⟨Or.inl rfl, key⟩
        · exact Or.inr there
      · rintro (⟨rfl | mem, key⟩ | there)
        · exact Or.inr (Or.inl ⟨key, rfl⟩)
        · exact Or.inl ⟨mem, key⟩
        · exact Or.inr (Or.inr there)
  simpa [byGraph] using from_ []

/-- Grouping loses nothing. -/
theorem contents_byGraph : contents (byGraph quads) = (quads.map (fun quad => placed (graphKey quad) quad)).toFinset := by
  ext statement
  rw [mem_contents, List.mem_toFinset, List.mem_map]
  constructor
  · rintro ⟨block, listed, before, mem, same⟩
    obtain ⟨there, key⟩ := mem_byGraph.1 ⟨block, listed, rfl, mem⟩
    exact ⟨before, there, key ▸ same⟩
  · rintro ⟨before, mem, same⟩
    obtain ⟨block, listed, key, there⟩ := mem_byGraph.2 ⟨mem, rfl⟩
    exact ⟨block, listed, before, there, key ▸ same⟩

end Blocks

section Closure

/-- Up to the depth that is followed no two of the variables are the same. -/
theorem names_apart : ∀ hop ≤ defaultDepth, ∀ other ≤ defaultDepth,
    (nodeVar hop = nodeVar other → hop = other) ∧ (predicateVar hop = predicateVar other → hop = other) ∧
      nodeVar hop ≠ predicateVar other := by decide

theorem names_free : ∀ hop ≤ defaultDepth, ∀ name ∈ ["s", "p", "o"], nodeVar hop ≠ name ∧ predicateVar hop ≠ name := by
  decide

variable {data : Dataset} {subject graph : String} {solution other : Solution} {level : Nat} {node : Node}

theorem term_injective : Function.Injective Node.term := by
  intro one other same
  cases one <;> cases other <;> cases same <;> rfl

/-- The quad is followed to the node in its object. -/
theorem follow_iff {quad : Quad} : follow quad = some node ↔
    quad.object = node.term ∧ ((∃ label, quad.object = .blank label) ∨ quad.predicate ∈ ownedSubresourcePredicates) := by
  unfold follow
  cases object : quad.object <;> cases node <;>
    simp [Node.term, isOwnedSubresource, and_comm]

/-- Solutions that agree on the variables up to a hop. -/
def Agree (level : Nat) (solution other : Solution) : Prop :=
  ∀ hop ≤ level, other (nodeVar hop) = solution (nodeVar hop) ∧ other (predicateVar hop) = solution (predicateVar hop)

theorem Agree.landing (agree : Agree level solution other) (subject : String) {hop : Nat} (bound : hop ≤ level) :
    valueOf other (landing subject hop) = valueOf solution (landing subject hop) := by
  unfold HttpStore.landing
  split
  · rfl
  · exact (agree hop bound).1

@[simp] theorem valueOf_var (name : String) : valueOf solution (.var name) = solution name := rfl

@[simp] theorem valueOf_iri (text : String) : valueOf solution (.iri text) = some (.named text) := rfl

/-- A pattern in the graph is matched by a quad of it. -/
theorem graph_holds {start predicate object : Place} :
    Clause.Holds (onServer data) solution (.graph ⟨.iri graph, start, predicate, object⟩) ↔
      ∃ quad ∈ data, quad.graph = graph ∧ valueOf solution start = some quad.subject.term ∧
      valueOf solution predicate = some (.named quad.predicate) ∧ valueOf solution object = some quad.object := by
  constructor
  · rintro ⟨statement, there, ⟨place, inside, named⟩, matched⟩
    obtain ⟨quad, mem, rfl⟩ := mem_onServer.1 there
    cases inside
    cases named
    exact ⟨quad, mem, rfl, matched⟩
  · rintro ⟨quad, mem, rfl, matched⟩
    exact ⟨.of quad, of_mem_onServer.2 mem, ⟨quad.graph, rfl, rfl⟩, matched⟩

/-- A hop goes over a quad that is followed wherever it leads to a node. -/
theorem hop_holds {hop : Nat} : (∀ clause ∈ hopClauses subject graph hop, clause.Holds (onServer data) solution) ↔
    ∃ quad ∈ data, quad.graph = graph ∧ valueOf solution (landing subject (hop - 1)) = some quad.subject.term ∧
      solution (predicateVar hop) = some (.named quad.predicate) ∧ solution (nodeVar hop) = some quad.object ∧
      ((∃ label, quad.object = .blank label) ∨ quad.predicate ∈ ownedSubresourcePredicates) := by
  simp only [hopClauses, List.forall_mem_cons, List.not_mem_nil, false_implies, implies_true, and_true, graph_holds,
    valueOf_var]
  constructor
  · rintro ⟨⟨quad, mem, here, start, predicate, object⟩, goes⟩
    refine ⟨quad, mem, here, start, predicate, object, ?_⟩
    rcases goes with ⟨label, blank⟩ | ⟨iri, listed, owned⟩
    · exact Or.inl ⟨label, Option.some.inj (object.symm.trans blank)⟩
    · cases predicate.symm.trans owned
      exact Or.inr listed
  · rintro ⟨quad, mem, here, start, predicate, object, goes⟩
    refine ⟨⟨quad, mem, here, start, predicate, object⟩, ?_⟩
    rcases goes with ⟨label, blank⟩ | owned
    · exact Or.inl ⟨label, object.trans (congrArg some blank)⟩
    · exact Or.inr ⟨quad.predicate, owned, predicate⟩

/-- The last clauses say something of the node where the level lands. -/
theorem last_holds : (∀ clause ∈ lastClauses subject graph level, clause.Holds (onServer data) solution) ↔
    (∃ quad ∈ data, quad.graph = graph ∧ valueOf solution (landing subject level) = some quad.subject.term ∧
      solution "p" = some (.named quad.predicate) ∧ solution "o" = some quad.object) ∧
      ∃ term, valueOf solution (landing subject level) = some term ∧ solution "s" = some term := by
  simp only [lastClauses, List.forall_mem_cons, List.not_mem_nil, false_implies, implies_true, and_true, graph_holds,
    valueOf_var]
  rfl

theorem Agree.hops (agree : Agree level solution other) {hop : Nat} (bound : hop ≤ level)
    (holds : ∀ clause ∈ hopClauses subject graph hop, clause.Holds (onServer data) solution) :
    ∀ clause ∈ hopClauses subject graph hop, clause.Holds (onServer data) other := by
  have start := agree.landing subject (Nat.le_trans (Nat.sub_le hop 1) bound)
  rw [hop_holds] at holds ⊢
  rw [start, (agree hop bound).1, (agree hop bound).2]
  exact holds

theorem agree_bind {name : String} {value : Term} (node : ∀ hop ≤ level, nodeVar hop ≠ name)
    (predicate : ∀ hop ≤ level, predicateVar hop ≠ name) : Agree level solution (solution.bind name value) :=
  fun hop bound => ⟨if_neg (node hop bound), if_neg (predicate hop bound)⟩

theorem Agree.trans {third : Solution} (one : Agree level solution other) (two : Agree level other third) :
    Agree level solution third :=
  fun hop bound => ⟨(two hop bound).1.trans (one hop bound).1, (two hop bound).2.trans (one hop bound).2⟩

/-- Hops that hold lead to the ring as many steps away. -/
theorem hops_sound
    (holds : ∀ hop < level, ∀ clause ∈ hopClauses subject graph (hop + 1), clause.Holds (onServer data) solution)
    (lands : valueOf solution (landing subject level) = some node.term) :
    node ∈ ring (edges (data.matching (inGraph graph))) (.named subject) level := by
  induction level generalizing node with
  | zero =>
    have same : Node.term (.named subject) = node.term := Option.some.inj lands
    exact List.mem_singleton.2 (term_injective same.symm)
  | succ level ih =>
    obtain ⟨quad, mem, here, start, _, object, goes⟩ := hop_holds.1 (holds level (Nat.lt_succ_self level))
    have before := ih (fun hop bound => holds hop (Nat.lt_succ_of_lt bound)) start
    have reached : quad.object = node.term := Option.some.inj (object.symm.trans lands)
    exact mem_ring_succ.2 ⟨quad.subject, before,
      mem_edges.2 ⟨quad, Dataset.mem_matching.2 ⟨mem, decide_eq_true here⟩, rfl, follow_iff.2 ⟨reached, goes⟩⟩⟩

/-- Every node of a ring is where some hops land. -/
theorem hops_complete (bound : level ≤ defaultDepth)
    (mem : node ∈ ring (edges (data.matching (inGraph graph))) (.named subject) level) :
    ∃ solution, (∀ hop < level, ∀ clause ∈ hopClauses subject graph (hop + 1), clause.Holds (onServer data) solution) ∧
      valueOf solution (landing subject level) = some node.term := by
  induction level generalizing node with
  | zero =>
    obtain rfl := List.mem_singleton.1 mem
    exact ⟨.unbound, fun _ absent => absurd absent (Nat.not_lt_zero _), rfl⟩
  | succ level ih =>
    obtain ⟨middle, inRing, link⟩ := mem_ring_succ.1 mem
    obtain ⟨solution, holds, lands⟩ := ih (Nat.le_of_succ_le bound) inRing
    obtain ⟨quad, inside, rfl, goes⟩ := mem_edges.1 link
    obtain ⟨stored, here⟩ := Dataset.mem_matching.1 inside
    obtain ⟨reached, followed⟩ := follow_iff.1 goes
    -- the two variables of the new hop are not among those of the hops before
    have fresh : Agree level solution
        ((solution.bind (predicateVar (level + 1)) (.named quad.predicate)).bind (nodeVar (level + 1)) quad.object) := by
      refine (agree_bind ?_ ?_).trans (agree_bind ?_ ?_) <;> intro hop within same
      · exact (names_apart hop (by omega) (level + 1) bound).2.2 same
      · have := (names_apart hop (by omega) (level + 1) bound).2.1 same
        omega
      · have := (names_apart hop (by omega) (level + 1) bound).1 same
        omega
      · exact (names_apart (level + 1) bound hop (by omega)).2.2 same.symm
    have node_ : ((solution.bind (predicateVar (level + 1)) (.named quad.predicate)).bind (nodeVar (level + 1)) quad.object)
        (nodeVar (level + 1)) = some quad.object := if_pos rfl
    have predicate : ((solution.bind (predicateVar (level + 1)) (.named quad.predicate)).bind (nodeVar (level + 1))
        quad.object) (predicateVar (level + 1)) = some (.named quad.predicate) :=
      (if_neg (fun same => (names_apart (level + 1) bound (level + 1) bound).2.2 same.symm)).trans (if_pos rfl)
    refine ⟨(solution.bind (predicateVar (level + 1)) (.named quad.predicate)).bind (nodeVar (level + 1)) quad.object, ?_,
      node_.trans (congrArg some reached)⟩
    intro hop before
    rcases Nat.lt_succ_iff_lt_or_eq.1 before with earlier | rfl
    · exact fresh.hops earlier (holds hop earlier)
    · have start := (fresh.landing subject (Nat.le_refl hop)).trans lands
      exact hop_holds.2 ⟨quad, stored, of_decide_eq_true here, start, predicate, node_, followed⟩

/-- The request deletes what is said in the graph of the nodes so many followed edges away. -/
theorem doomed_iff {depth : Nat} (bound : depth ≤ defaultDepth) {quad : Quad} (stored : quad ∈ data) :
    Doomed (onServer data) (everything graph) (ownedClosureBody subject graph depth) (.of quad) ↔
      quad.graph = graph ∧
        ∃ level ≤ depth, quad.subject ∈ ring (edges (data.matching (inGraph graph))) (.named subject) level := by
  unfold Doomed ownedClosureBody
  simp only [List.mem_map, List.mem_range, exists_exists_and_eq_and, Nat.lt_succ_iff]
  constructor
  · rintro ⟨level, within, solution, solves, ⟨place, inside, named⟩, start, _⟩
    unfold Solves closureBranch at solves
    obtain ⟨_, term, lands, bound_⟩ := last_holds.1 (solves (lastClauses subject graph level) (by simp))
    have same : term = quad.subject.term := Option.some.inj (bound_.symm.trans start)
    refine ⟨?_, level, within, hops_sound (fun hop before => solves _ ?_) (lands.trans (congrArg some same))⟩
    · cases inside
      cases named
      rfl
    · exact List.mem_append_left _ (List.mem_map.2 ⟨hop, List.mem_range.2 before, rfl⟩)
  · rintro ⟨rfl, level, within, inRing⟩
    have deep := Nat.le_trans within bound
    obtain ⟨solution, holds, lands⟩ := hops_complete deep inRing
    have fresh : Agree level solution
        (((solution.bind "p" (.named quad.predicate)).bind "o" quad.object).bind "s" quad.subject.term) := by
      refine ((agree_bind ?_ ?_).trans (agree_bind ?_ ?_)).trans (agree_bind ?_ ?_) <;> intro hop upTo <;>
        first
        | exact (names_free hop (Nat.le_trans upTo deep) _ (by decide)).1
        | exact (names_free hop (Nat.le_trans upTo deep) _ (by decide)).2
    refine ⟨level, within, ((solution.bind "p" (.named quad.predicate)).bind "o" quad.object).bind "s" quad.subject.term, ?_,
      ⟨quad.graph, rfl, rfl⟩, rfl, rfl, rfl⟩
    intro line listed
    rcases List.mem_append.1 listed with hop | last
    · obtain ⟨before, below, rfl⟩ := List.mem_map.1 hop
      exact fresh.hops (List.mem_range.1 below) (holds before (List.mem_range.1 below))
    · rw [List.mem_singleton.1 last]
      have here := (fresh.landing subject (Nat.le_refl _)).trans lands
      exact last_holds.2 ⟨⟨quad, stored, rfl, here, rfl, rfl⟩, _, here, rfl⟩

end Closure

end ToolArtifactRegistry.HttpStore

/-! Documents that are loaded into a store, and dumps of it, on both backends. The external endpoint is sent a document in
chunks, each an insertion of its own; it is asked for what it holds by a query over its named graphs. -/
namespace ToolArtifactRegistry.BulkLoading

open Library.Rdf Library.Text Library.Queries Library.Updates Library.Relabelling HttpStore

/-- How many quads go into one insertion. -/
def bulkChunk : Nat := 2000

def chunks (quads : List Statement) : List (List Statement) :=
  if quads = [] then [] else quads.take bulkChunk :: chunks (quads.drop bulkChunk)
termination_by quads.length
decreasing_by
  rename_i filled
  have long := List.length_pos_of_ne_nil filled
  rw [List.length_drop]
  exact Nat.sub_lt long (by decide)

inductive Document where
  | turtle (data graph : String) (base : Option String)
  | nquads (data : String)

/-- The parsers the source calls. -/
structure Parsers where
  turtle : Option String → String → Except String (List (Node × String × Term))
  nquads : String → Except String (List Statement)

/-- The quads of a document; a Turtle document goes into one graph. -/
def documentQuads (platform : Platform) (parsers : Parsers) (document : Document) : AppResult (List Statement) :=
  match document with
  | .turtle data graph base =>
    if platform.validIri graph = false then .error (AppError.internal s!"bad IRI {graph}")
    else if base.any (fun base => !platform.validIri base) then .error (AppError.internal "bad base IRI")
    else match parsers.turtle base data with
      | .ok triples => .ok (triples.map (fun triple => ⟨triple.1, triple.2.1, triple.2.2, .named graph⟩))
      | .error message => .error (AppError.internal message)
  | .nquads data =>
    match parsers.nquads data with
    | .ok quads => .ok quads
    | .error message => .error (AppError.internal message)

inductive Backend where
  | embedded
  | external

section Loading

variable (platform : Platform) (parsers : Parsers) (display : Term → String) (endpoint : Endpoint)

/-- One request after the other, each answered with success. -/
def Sends : Finset Statement → List (List Statement) → Finset Statement → Prop
  | data, [], after => after = data
  | data, chunk :: rest, after =>
    ∃ middle, endpoint.execute data (requestText display [insertData chunk]) middle ∧ Sends middle rest after

/-- What a store may hold after a document is loaded. The embedded store renames the blank nodes of a document apart, all
at once; a document that does not parse changes nothing. -/
def Loads (backend : Backend) (document : Document) (before after : Finset Statement) : Prop :=
  match documentQuads platform parsers document with
  | .error _ => after = before
  | .ok quads =>
    match backend with
    | .embedded => ∃ f, Anew (labelsIn before) quads.toFinset f ∧ after = before ∪ withLabels f quads.toFinset
    | .external => Sends display endpoint before (chunks quads) after

/-- How many quads a query over the named graphs counts. -/
def count (data : Finset Statement) : Nat := (data.filter (fun statement => statement.graph ≠ .default)).card

/-- How many quads a load says it brought. -/
def loaded (backend : Backend) (before after : Finset Statement) : Nat :=
  match backend with
  | .embedded => after.card - before.card
  | .external => count after - count before

def graphWritten (graph : GraphName) : String :=
  match graph with
  | .named iri => " " ++ display (.named iri)
  | .blank label => " " ++ display (.blank label)
  | .default => ""

/-- A line of N-Quads. -/
def dumpLine (statement : Statement) : String :=
  display statement.subject.term ++ " " ++ angle statement.predicate ++ " " ++ display statement.object ++
    graphWritten display statement.graph ++ " .\n"

def dumpText (rows : List Statement) : String := join "" (rows.map (dumpLine display))

/-- The rows a dump may write, in any order. The labels of the rows of a query are those of its answer. -/
def DumpRows (backend : Backend) (data : Finset Statement) (rows : List Statement) : Prop :=
  match backend with
  | .embedded => rows.toFinset = data
  | .external => ∃ f, Set.InjOn f (labelsIn data) ∧
    rows.toFinset = withLabels f (data.filter (fun statement => statement.graph ≠ .default))

end Loading

end ToolArtifactRegistry.BulkLoading
