import ToolArtifactRegistry.Auth.Authenticate

/-! What a peer says about its own records, trimmed to a stub and kept in the peer's graph. -/
namespace ToolArtifactRegistry.Api.Peers

open Library.Rdf Library.Text Ids Store Auth Domain

/-- One statement of a document. -/
abbrev Triple := Node × String × Term

/-- The namespaces the record model reads. -/
def stubNamespaces : List String :=
  [Ns.rdf, Ns.rdfs, Ns.dct, Ns.dcat, Ns.prov, Ns.schema, Ns.skos, Ns.spdx, Ns.codemeta, Ns.foaf, Ns.tar]

def owlSameAs : String := "http://www.w3.org/2002/07/owl#sameAs"

def wanted (predicate : String) : Bool :=
  decide (predicate = owlSameAs) || stubNamespaces.any (fun ns => startsWith predicate ns)

def quadIn (graph : String) (triple : Triple) : Quad := ⟨triple.1, triple.2.1, triple.2.2, graph⟩

/-- The triples of a node a stub keeps. -/
def keptAbout (parsed : List Triple) (node : Node) : List Triple :=
  parsed.filter (fun triple => decide (triple.1 = node) && wanted triple.2.1)

/-- The nodes a kept node owns, as the store's own closure would find them. -/
def ownedBy (parsed : List Triple) (node : Node) : List Node :=
  (keptAbout parsed node).filterMap (fun triple => follow (quadIn "" triple))

/-- Ownership from the requested IRI, no deeper than a description goes at first. -/
def collect (parsed : List Triple) : Nat → List (Node × Nat) → List Node → List Node
  | 0, _, seen => seen
  | _ + 1, [], seen => seen
  | fuel + 1, (node, depth) :: rest, seen =>
    if node ∈ seen then collect parsed fuel rest seen
    else
      let next := if depth < defaultDepth then (ownedBy parsed node).map (fun child => (child, depth + 1)) else []
      collect parsed fuel (next.reverse ++ rest) (seen ++ [node])

structure Stub where
  quads : List Quad
  /-- Named subjects of the document that are not part of the stub. -/
  others : List String

def stubQuads (iri graph : String) (parsed : List Triple) : Stub :=
  let seen := collect parsed (1 + parsed.length) [(.named iri, 0)] []
  { quads := seen.flatMap (fun node => (keptAbout parsed node).map (quadIn graph))
    others := ((parsed.map Prod.fst).filter (fun node => decide (node ∉ seen))).filterMap Node.iri? |>.eraseDups }

/-- What came back when the IRI was dereferenced. -/
inductive Answer where
  | body (turtle : String)
  | failure (message : String)

section

variable (server : Server)

def owningPeer (ops : Ops) (iri : String) : Option PeerRecord :=
  ops.peers.find? (fun peer => startsWith iri peer.baseIri)

def contacted (now : String) (error : Option String) (peer : PeerRecord) : PeerRecord :=
  match error with
  | none => { peer with lastSeenAt := some now, resolveStatus := "ok" }
  | some _ => { peer with resolveStatus := "error" }

/-- Record on the peer that it answered, or that it did not. -/
def notePeerContact (ops : Ops) (peer : Option PeerRecord) (now : String) (error : Option String) : Ops :=
  match peer with
  | some known => { ops with peers := ops.peers.map (fun row => if row.id = known.id then contacted now error row else row) }
  | none => ops

def countRecord (ops : Ops) (peer : Option PeerRecord) (wasCached : Bool) : Ops :=
  match peer with
  | some known =>
    if wasCached then ops
    else { ops with peers := ops.peers.map (fun row => if row.id = known.id then { row with recordCount := known.recordCount + 1 } else row) }
  | none => ops

def graphOf (peer : Option PeerRecord) : String := Ns.peerGraph ((peer.map PeerRecord.id).getD "unknown")

/-- Whatever was cached before goes, with the records of an untrimmed document nobody tracks. -/
def stubTx (ops : Ops) (iri graph : String) (stub : Stub) : GraphTx :=
  (((stub.others.filter (fun other => decide (other ∉ ops.resolveQueue))).foldl
    (fun tx other => GraphTx.replaceSubject tx other graph) (({} : GraphTx).replaceSubject iri graph))).extend stub.quads

structure StubOut where
  iri : String
  graph : String
  triples : Nat
  peer : Option String

/-- Dereference a foreign IRI, and keep a stub of it in its peer's graph. -/
def fetchStub (state : State) (now iri : String) (answer : Answer) : Outcome StubOut :=
  let peer := owningPeer state.ops iri
  let failed (ops : Ops) (message : String) : Outcome StubOut :=
    ⟨{ state with ops := notePeerContact ops peer now (some message) }, .error (AppError.badRequest message)⟩
  match answer with
  | .failure message => failed state.ops message
  | .body turtle =>
    let ops := notePeerContact state.ops peer now none
    match server.platform.turtle iri turtle with
    | .error e => failed ops (iri ++ " did not return parseable Turtle: " ++ e)
    | .ok parsed =>
      let graph := graphOf peer
      let stub := stubQuads iri graph parsed
      let wasCached := state.data.any (fun quad => decide (quad.subject = .named iri ∧ quad.graph = graph))
      match Store.apply server.platform state.data (stubTx ops iri graph stub) with
      | .error e => ⟨{ state with ops }, .error e⟩
      | .ok data => ⟨⟨data, countRecord (ops.queueResolve iri) peer wasCached⟩,
          .ok ⟨iri, graph, stub.quads.length, peer.map PeerRecord.baseIri⟩⟩

/-- Removing a peer drops its graph. -/
def remove (state : State) (principal : Principal) (id : String) : Outcome Unit :=
  Outcome.planned state principal.requireAdmin (fun _ =>
    match state.ops.peers.find? (fun peer => decide (peer.id = id ∨ peer.baseIri = id)) with
    | none => ⟨state, .error (AppError.notFound s!"no peer {id}")⟩
    | some peer =>
      (Outcome.commit server state { clearGraphs := [Ns.peerGraph peer.id] } (fun _ => .ok ())).andThen
        (fun state _ => ⟨{ state with ops := { state.ops with
          peers := state.ops.peers.filter (fun row => decide (row.id ≠ peer.id)) } }, .ok ()⟩))

end

end ToolArtifactRegistry.Api.Peers
