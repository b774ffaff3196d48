import ToolArtifactRegistry.Api.Peers
import ToolArtifactRegistry.Laws.Specimen
import ToolArtifactRegistry.Library.Distance
import ToolArtifactRegistry.Touching

/-! A stub against what its record owns. The stack of nodes is worked off going down before going on, so a node may
first be come to on a long way although a short one leads there. -/
namespace ToolArtifactRegistry.Laws

open Library.Rdf Library.Descent Library.Worklist Library.Reaching Store Api.Peers

namespace Trimming

/-- The ownership a document tells of, an edge for each triple a stub keeps and follows. -/
def ownership (parsed : List Triple) : List (Node × Node) :=
  parsed.filterMap (fun triple =>
    if wanted triple.2.1 then (follow (quadIn "" triple)).map (fun child => (triple.1, child)) else none)

/-- The last node found is looked at first. -/
def links (parsed : List Triple) (node : Node) : List Node := (ownedBy parsed node).reverse

/-- The nodes of a document in the order they are come to, each with the number of edges it was come to by. -/
def visits (parsed : List Triple) (iri : String) : List (Node × Nat) :=
  descend (fun _ => links parsed) defaultDepth 0 [] (.named iri)

/-- The document has something for a stub to keep about the node, or names it as a subject. -/
def Mentioned (parsed : List Triple) (node : Node) : Prop :=
  keptAbout parsed node ≠ [] ∨ ∃ iri, node = .named iri ∧ node ∈ parsed.map Prod.fst

/-- The statements of the bounded owned closure and no others, and the other named subjects. -/
structure Bounded (iri graph : String) (parsed : List Triple) : Prop where
  quads : ∀ quad, quad ∈ (stubQuads iri graph parsed).quads ↔ ∃ triple ∈ parsed, wanted triple.2.1 = true ∧
    Nearby (ownership parsed) (.named iri) defaultDepth triple.1 ∧ quad = quadIn graph triple
  others : ∀ other, other ∈ (stubQuads iri graph parsed).others ↔
    Node.named other ∈ parsed.map Prod.fst ∧ ¬Nearby (ownership parsed) (.named iri) defaultDepth (.named other)

section Walking

variable {parsed : List Triple}

theorem mem_keptAbout {node : Node} {triple : Triple} :
    triple ∈ keptAbout parsed node ↔ triple ∈ parsed ∧ triple.1 = node ∧ wanted triple.2.1 = true := by
  simp only [keptAbout, List.mem_filter, Bool.and_eq_true, decide_eq_true_eq]

theorem linked_iff {node child : Node} : Linked (ownership parsed) node child ↔ child ∈ ownedBy parsed node := by
  unfold Linked ownership ownedBy
  simp only [List.mem_filterMap, mem_keptAbout]
  constructor
  · intro edge
    obtain ⟨triple, mem, same⟩ := edge
    by_cases keeps : wanted triple.2.1 = true
    · rw [if_pos keeps, Option.map_eq_some_iff] at same
      obtain ⟨found, follows, pair⟩ := same
      rw [Prod.mk.injEq] at pair
      exact ⟨triple, ⟨mem, pair.1, keeps⟩, by rw [follows, pair.2]⟩
    · rw [if_neg keeps] at same
      cases same
  · intro owned
    obtain ⟨triple, ⟨mem, subject, keeps⟩, follows⟩ := owned
    exact ⟨triple, mem, by rw [if_pos keeps, follows, subject]; rfl⟩

theorem linked_reverse {node child : Node} : child ∈ links parsed node ↔ Linked (ownership parsed) node child := by
  rw [linked_iff, links, List.mem_reverse]

theorem mentioned_of_linked {node child : Node} (linked : Linked (ownership parsed) node child) : Mentioned parsed node := by
  left
  intro nothing
  have owned := linked_iff.1 linked
  rw [ownedBy, nothing] at owned
  cases owned

/-- Triples whose subject is still to be looked at. -/
def waiting (parsed : List Triple) (seen : List Node) : List Triple := parsed.filter (fun triple => triple.1 ∉ seen)

/-- A node looked at takes its triples out of what is waiting. -/
theorem waiting_split {seen : List Node} {node : Node} (new : node ∉ seen) :
    (ownedBy parsed node).length + (waiting parsed (seen ++ [node])).length ≤ (waiting parsed seen).length := by
  have owned : (ownedBy parsed node).length ≤ (keptAbout parsed node).length := List.length_filterMap_le _ _
  have split : (keptAbout parsed node).length + (waiting parsed (seen ++ [node])).length ≤ (waiting parsed seen).length := by
    clear owned
    induction parsed with
    | nil => exact Nat.le_refl _
    | cons triple rest ih =>
      unfold keptAbout waiting at ih ⊢
      simp only [List.filter_cons, List.mem_append, List.mem_singleton] at ih ⊢
      by_cases here : triple.1 = node
      · have fresh : triple.1 ∉ seen := here ▸ new
        rw [here] at fresh
        simp only [here, decide_true, Bool.true_and, fresh, or_true, not_true_eq_false, decide_false, not_false_eq_true,
          if_true, List.length_cons, Bool.false_eq_true, if_false]
        split
        · rw [List.length_cons]
          omega
        · omega
      · by_cases old : triple.1 ∈ seen <;>
          simp only [here, old, decide_true, decide_false, Bool.false_and, true_or, false_or, not_true_eq_false,
            not_false_eq_true, Bool.false_eq_true, if_false, if_true, List.length_cons] <;> omega
  omega

/-- With fuel for the nodes on the stack and the triples that are waiting, more fuel finds no more. -/
theorem collect_more {fuel extra : Nat} {frontier : List (Node × Nat)} {seen : List Node}
    (enough : frontier.length + (waiting parsed seen).length ≤ fuel) :
    collect parsed (fuel + extra) frontier seen = collect parsed fuel frontier seen := by
  induction fuel generalizing frontier seen with
  | zero =>
    have none_ : frontier = [] := List.length_eq_zero_iff.1 (by omega)
    rw [none_]
    cases extra <;> rfl
  | succ fuel ih =>
    rw [Nat.succ_add]
    match frontier with
    | [] => rfl
    | (node, depth) :: rest =>
      rw [List.length_cons] at enough
      rw [collect, collect]
      by_cases known : node ∈ seen
      · rw [if_pos known, if_pos known]
        exact ih (by omega)
      · rw [if_neg known, if_neg known]
        have fewer := @waiting_split parsed seen node known
        apply ih
        rw [List.length_append, List.length_reverse]
        split
        · rw [List.length_map]
          omega
        · rw [List.length_nil]
          omega

/-- Working off a node and all that is put on the stack because of it goes down from that node. -/
theorem collect_descend {room depth : Nat} (bound : depth + room = defaultDepth) (met rest : List (Node × Nat)) (node : Node) :
    ∃ turns, ∀ fuel, collect parsed (turns + fuel) ((node, depth) :: rest) (nodes met) =
      collect parsed fuel rest (nodes (descend (fun _ => links parsed) room depth met node)) := by
  induction room generalizing depth met rest node with
  | zero =>
    refine ⟨1, fun fuel => ?_⟩
    by_cases known : node ∈ nodes met
    · rw [Nat.add_comm, collect, if_pos known, descend_known known]
    · rw [Nat.add_comm, collect, if_neg known, if_neg (by omega), descend_zero known, nodes_append]
      rfl
  | succ room ih =>
    by_cases known : node ∈ nodes met
    · refine ⟨1, fun fuel => ?_⟩
      rw [Nat.add_comm, collect, if_pos known, descend_known known]
    · have below : ∀ (children : List Node) (begun : List (Node × Nat)), ∃ turns, ∀ fuel,
          collect parsed (turns + fuel) (children.map (fun child => (child, depth + 1)) ++ rest) (nodes begun) =
            collect parsed fuel rest (nodes (children.foldl (descend (fun _ => links parsed) room (depth + 1)) begun)) := by
        intro children
        induction children with
        | nil => exact fun begun => ⟨0, fun fuel => by rw [Nat.zero_add]; rfl⟩
        | cons child others inner =>
          intro begun
          obtain ⟨turns, first⟩ := ih (by omega : depth + 1 + room = defaultDepth) begun
            (others.map (fun child => (child, depth + 1)) ++ rest) child
          obtain ⟨later, remaining⟩ := inner (descend (fun _ => links parsed) room (depth + 1) begun child)
          refine ⟨turns + later, fun fuel => ?_⟩
          rw [Nat.add_assoc, List.map_cons, List.cons_append, first, remaining]
          rfl
      obtain ⟨turns, same⟩ := below (links parsed node) (met ++ [(node, depth)])
      refine ⟨turns + 1, fun fuel => ?_⟩
      have pushed : ((ownedBy parsed node).map (fun child => (child, depth + 1))).reverse =
          (links parsed node).map (fun child => (child, depth + 1)) := by
        rw [links, List.map_reverse]
      rw [nodes_append] at same
      rw [Nat.add_right_comm, collect, if_neg known, if_pos (by omega), descend_succ known]
      dsimp only
      rw [pushed]
      exact same fuel

/-- The nodes of a stub are those the walk comes to. -/
theorem collect_visits (iri : String) :
    collect parsed (1 + parsed.length) [(.named iri, 0)] [] = nodes (visits parsed iri) := by
  obtain ⟨turns, same⟩ := @collect_descend parsed defaultDepth 0 (Nat.zero_add _) [] [] (.named iri)
  have enough : [((Node.named iri), 0)].length + (waiting parsed []).length ≤ 1 + parsed.length := by
    have fewer : (waiting parsed []).length ≤ parsed.length := List.length_filter_le _ _
    rw [List.length_singleton]
    omega
  rw [← @collect_more parsed (1 + parsed.length) turns _ _ enough, Nat.add_comm]
  have worked := same (1 + parsed.length)
  rw [Nat.add_comm 1 parsed.length, collect] at worked
  rw [Nat.add_comm 1 parsed.length]
  exact worked

end Walking

section Stubs

variable {iri graph : String} {parsed : List Triple}

theorem mem_quads {quad : Quad} : quad ∈ (stubQuads iri graph parsed).quads ↔
    ∃ triple ∈ parsed, wanted triple.2.1 = true ∧ triple.1 ∈ nodes (visits parsed iri) ∧ quad = quadIn graph triple := by
  unfold stubQuads
  dsimp only
  rw [collect_visits]
  simp only [List.mem_flatMap, List.mem_map, mem_keptAbout]
  constructor
  · intro kept
    obtain ⟨node, met, triple, ⟨mem, subject, keeps⟩, same⟩ := kept
    exact ⟨triple, mem, keeps, subject ▸ met, same.symm⟩
  · intro kept
    obtain ⟨triple, mem, keeps, met, same⟩ := kept
    exact ⟨triple.1, met, triple, ⟨mem, rfl, keeps⟩, same.symm⟩

theorem iri_eq_some {node : Node} {other : String} : node.iri? = some other ↔ node = .named other := by
  cases node <;> simp [Node.iri?]

theorem mem_others {other : String} : other ∈ (stubQuads iri graph parsed).others ↔
    Node.named other ∈ parsed.map Prod.fst ∧ Node.named other ∉ nodes (visits parsed iri) := by
  unfold stubQuads
  dsimp only
  rw [collect_visits]
  simp only [List.mem_eraseDups, List.mem_filterMap, List.mem_filter, decide_eq_true_eq, iri_eq_some]
  constructor
  · intro listed
    obtain ⟨node, both, same⟩ := listed
    rw [same] at both
    exact both
  · exact fun both => ⟨_, both, rfl⟩

/-- A stub is the bounded closure exactly when everything told of within the bound is come to. -/
theorem bounded_iff_met : Bounded iri graph parsed ↔
    ∀ node, Mentioned parsed node → Nearby (ownership parsed) (.named iri) defaultDepth node → node ∈ nodes (visits parsed iri) := by
  have sound : ∀ node, node ∈ nodes (visits parsed iri) → Nearby (ownership parsed) (.named iri) defaultDepth node :=
    fun node met => nearby_of_met (fun _ _ _ => linked_reverse) met
  constructor
  · intro right node told within
    rcases told with something | ⟨named, same, subject⟩
    · obtain ⟨triple, kept⟩ := List.exists_mem_of_ne_nil _ something
      obtain ⟨mem, about, keeps⟩ := mem_keptAbout.1 kept
      have quad := (right.quads (quadIn graph triple)).2 ⟨triple, mem, keeps, about ▸ within, rfl⟩
      obtain ⟨other, _, _, met, twin⟩ := mem_quads.1 quad
      have subjects : triple.1 = other.1 := congrArg Quad.subject twin
      rw [← about, subjects]
      exact met
    · rw [same] at subject within ⊢
      by_contra unmet
      exact ((right.others named).1 (mem_others.2 ⟨subject, unmet⟩)).2 within
  · intro met
    constructor
    · intro quad
      rw [mem_quads]
      constructor
      · intro kept
        obtain ⟨triple, mem, keeps, here, same⟩ := kept
        exact ⟨triple, mem, keeps, sound _ here, same⟩
      · intro kept
        obtain ⟨triple, mem, keeps, within, same⟩ := kept
        have something : keptAbout parsed triple.1 ≠ [] := List.ne_nil_of_mem (mem_keptAbout.2 ⟨mem, rfl, keeps⟩)
        exact ⟨triple, mem, keeps, met triple.1 (Or.inl something) within, same⟩
    · intro other
      rw [mem_others]
      constructor
      · exact fun both => ⟨both.1, fun within => both.2 (met _ (Or.inr ⟨other, rfl, both.1⟩) within)⟩
      · exact fun both => ⟨both.1, fun here => both.2 (sound _ here)⟩

end Stubs

end Trimming

open Trimming

/-- A stub is the bounded closure of what its record owns exactly when no node that is first come to at the bound, though
nearer by another way, keeps from the stub something that is told of and that no node come to earlier owns. -/
theorem stub_bounded_iff (iri graph : String) (parsed : List Triple) : Bounded iri graph parsed ↔
    Unhidden (ownership parsed) (.named iri) defaultDepth (Mentioned parsed) (visits parsed iri) := by
  rw [bounded_iff_met]
  exact met_iff_unhidden (fun _ _ _ => linked_reverse) (fun _ _ => mentioned_of_linked)

/-- A distribution that is reached by a long way as well, with a checksum of its own. The long way is told of last. -/
def sharedDistribution : List Triple :=
  [(.named "http://a", Ns.t Ns.dcat "distribution", .blank "shared"),
    (.named "http://a", Ns.t Ns.prov "wasGeneratedBy", .blank "one"),
    (.blank "one", Ns.t Ns.prov "qualifiedUsage", .blank "two"),
    (.blank "two", Ns.t Ns.prov "entity", .blank "three"),
    (.blank "three", Ns.t Ns.dcat "distribution", .blank "shared"),
    (.blank "shared", Ns.t Ns.spdx "checksum", .blank "sum"),
    (.blank "sum", Ns.t Ns.spdx "checksumValue", .simple "00")]

/-- Two edges away from the record, the checksum is left out of the stub. -/
theorem checksum_hidden : ¬Bounded "http://a" "http://peers" sharedDistribution := by
  have evaluated : keptAbout sharedDistribution (.blank "sum") ≠ [] ∧
      Nearby (ownership sharedDistribution) (.named "http://a") defaultDepth (.blank "sum") ∧
        Node.blank "sum" ∉ nodes (visits sharedDistribution "http://a") := by decide
  intro right
  exact evaluated.2.2 (bounded_iff_met.1 right _ (Or.inl evaluated.1) evaluated.2.1)

end ToolArtifactRegistry.Laws

/-! Stubs beside each other. A fetch replaces one stub, and with it what the named subjects of its document own that
nobody tracks; what belongs to another stub is not tracked by itself. -/
namespace ToolArtifactRegistry.Laws

open Library.Rdf Library.Runs Library.Worklist Ids Store Domain Registry

section Refreshing

variable (server : Server)

/-- One dereferencing of a foreign IRI, with what came back. -/
structure Fetch where
  now : String
  iri : String
  answer : Api.Peers.Answer

def fetched (state : State) (fetch : Fetch) : State := step server state (.fetchStub fetch.now fetch.iri fetch.answer)

/-- What a document does to the store: the stub of its IRI and the subjects of it that are nobody's stub are replaced. -/
def replacement (state : State) (fetch : Fetch) : Option GraphTx :=
  if isLocal server.base fetch.iri then none
  else match fetch.answer with
    | .failure _ => none
    | .body turtle =>
      match server.platform.turtle fetch.iri turtle with
      | .error _ => none
      | .ok parsed =>
        let graph := Api.Peers.graphOf (Api.Peers.owningPeer state.ops fetch.iri)
        let tx := Api.Peers.stubTx state.ops fetch.iri graph (Api.Peers.stubQuads fetch.iri graph parsed)
        if ∀ iri ∈ tx.references, server.platform.validIri iri = true then some tx else none

/-- What a document writes or takes away of what another stub owns was there before and is written again. -/
def Beside (other : String) (state : State) (fetch : Fetch) : Prop :=
  ∀ tx ∈ replacement server state fetch, ∀ quad ∈ touched state.data tx,
    quad.subject ∈ reach (edges state.data.quads) (.named other) → quad ∈ state.data ∧ quad ∈ tx.insert

instance (other : String) (state : State) (fetch : Fetch) : Decidable (Beside server other state fetch) :=
  inferInstanceAs (Decidable (∀ tx ∈ replacement server state fetch, ∀ quad ∈ touched state.data tx,
    quad.subject ∈ reach (edges state.data.quads) (.named other) → quad ∈ state.data ∧ quad ∈ tx.insert))

/-- Two stores give one description. -/
def SameDescription (before after : Dataset) (iri : String) : Prop :=
  ∀ quad, quad ∈ describeQuads after iri ↔ quad ∈ describeQuads before iri

section Stubs

variable {ops : Ops} {iri graph : String} {stub : Api.Peers.Stub}

/-- A stub's transaction replaces subjects of one graph and does nothing else but insert. -/
structure Replaces (graph : String) (tx : GraphTx) : Prop where
  cleared : tx.clearGraphs = []
  stripped : tx.deleteProperties = []
  one : ∀ target ∈ tx.deleteSubjects, target.2 = graph

theorem replaces_stubTx : Replaces graph (Api.Peers.stubTx ops iri graph stub) := by
  unfold Api.Peers.stubTx
  generalize stub.others.filter _ = others
  have first : Replaces graph (({} : GraphTx).replaceSubject iri graph) :=
    ⟨rfl, rfl, fun target mem => congrArg Prod.snd (List.mem_singleton.1 mem)⟩
  have all : Replaces graph (others.foldl (fun tx other => tx.replaceSubject other graph)
      (({} : GraphTx).replaceSubject iri graph)) := by
    generalize ({} : GraphTx).replaceSubject iri graph = tx at first
    induction others generalizing tx with
    | nil => exact first
    | cons other rest ih =>
      apply ih
      refine ⟨first.cleared, first.stripped, fun target mem => ?_⟩
      rcases List.mem_append.1 mem with old | new
      · exact first.one target old
      · exact congrArg Prod.snd (List.mem_singleton.1 new)
  exact ⟨all.cleared, all.stripped, all.one⟩

end Stubs

section Fetching

variable {server} {state : State} {fetch : Fetch}

/-- Noting that a peer answered leaves what is tracked. -/
theorem stubTx_noted {ops : Ops} {peer : Option PeerRecord} {now iri graph : String} {error : Option String}
    {stub : Api.Peers.Stub} :
    Api.Peers.stubTx (Api.Peers.notePeerContact ops peer now error) iri graph stub =
      Api.Peers.stubTx ops iri graph stub := by
  cases peer <;> rfl

/-- The store after a fetch is what the replacement leaves, if there is one. -/
theorem fetched_data : (fetched server state fetch).data =
    match replacement server state fetch with
    | some tx => effect state.data tx
    | none => state.data := by
  unfold fetched replacement step
  dsimp only
  by_cases local_ : isLocal server.base fetch.iri = true
  · rw [if_pos local_, if_pos local_]
  · rw [if_neg local_, if_neg local_]
    unfold Api.Peers.fetchStub
    cases fetch.answer with
    | failure message => rfl
    | body turtle =>
      dsimp only
      cases server.platform.turtle fetch.iri turtle with
      | error e => rfl
      | ok parsed =>
        dsimp only
        rw [stubTx_noted]
        generalize Api.Peers.stubTx state.ops fetch.iri _ _ = tx
        unfold Store.apply
        by_cases valid : ∀ iri ∈ tx.references, server.platform.validIri iri = true
        · have none_ : tx.references.find? (fun iri => !server.platform.validIri iri) = none := by
            rw [List.find?_eq_none]
            intro iri mem
            rw [valid iri mem]
            decide
          rw [if_pos valid, none_]
        · have some_ : ∃ bad, tx.references.find? (fun iri => !server.platform.validIri iri) = some bad := by
            rw [← Option.isSome_iff_exists, List.find?_isSome]
            by_contra clear
            apply valid
            intro iri mem
            by_contra bad
            exact clear ⟨iri, mem, by simpa using bad⟩
          obtain ⟨bad, found⟩ := some_
          rw [if_neg valid, found]

theorem replaces_replacement {tx : GraphTx} (made : replacement server state fetch = some tx) :
    ∃ graph, Replaces graph tx := by
  unfold replacement at made
  split at made
  · cases made
  · split at made
    · cases made
    · split at made
      · cases made
      · dsimp only at made
        split at made
        · rw [← Option.some.inj made]
          exact ⟨_, replaces_stubTx⟩
        · cases made

/-- A fetch beside another stub leaves its description. -/
theorem description_stands {other : String} (beside : Beside server other state fetch) :
    SameDescription state.data (fetched server state fetch).data other := by
  intro quad
  rw [fetched_data]
  cases made : replacement server state fetch with
  | none => rfl
  | some tx =>
    obtain ⟨graph, replaces⟩ := replaces_replacement made
    exact describe_untouched replaces.cleared replaces.stripped replaces.one (beside tx made) quad

end Fetching

end Refreshing

/-- However many fetches there are, each beside a stub, the stub is described as before. -/
theorem stub_stands (server : Server) (other : String) (start : State) (fetches : List Fetch)
    (beside : Meets (fetched server) (Beside server other) start fetches) :
    SameDescription start.data (run (fetched server) start fetches).data other := by
  refine run_invariant (fetched server) (fun state => SameDescription start.data state.data other)
    (fun _ => Iff.rfl) ?_ beside
  intro state fetch same apart quad
  exact (description_stands apart quad).trans (same quad)

section Specimen

open Specimen

/-- Three documents of a peer: two records, one of them with a file, and another that tells of that file. -/
def library : List (String × List Api.Peers.Triple) :=
  [("b", [(.named "https://peer.example/b", Ns.t Ns.dcat "distribution", .named "https://peer.example/file"),
      (.named "https://peer.example/file", Ns.t Ns.dct "title", .simple "numbers")]),
    ("a", [(.named "https://peer.example/a", Ns.t Ns.dct "title", .simple "other numbers")]),
    ("tells", [(.named "https://peer.example/a", Ns.t Ns.dct "title", .simple "other numbers"),
      (.named "https://peer.example/file", Ns.t Ns.dct "license", .simple "free")])]

def reading : Server := { registry [] with platform := { platform [] with
  turtle := fun _ text => .ok (((library.find? (fun entry => entry.1 == text)).map Prod.snd).getD []) } }

def fetchOf (iri document : String) : Fetch := ⟨"2026-01-01T00:00:00Z", iri, .body document⟩

/-- A registry that keeps the stub of the record with the file. -/
def keeping : State := fetched reading State.empty (fetchOf "https://peer.example/b" "b")

/-- The other record's document leaves it. -/
theorem other_record_beside : SameDescription keeping.data
    (run (fetched reading) keeping [fetchOf "https://peer.example/a" "a"]).data "https://peer.example/b" :=
  stub_stands reading "https://peer.example/b" keeping [fetchOf "https://peer.example/a" "a"] (by decide)

/-- A document that tells of the file as well takes the file's description from the stub, which is tracked. -/
theorem shared_file_lost : "https://peer.example/b" ∈ keeping.ops.resolveQueue ∧
    ¬SameDescription keeping.data (fetched reading keeping (fetchOf "https://peer.example/a" "tells")).data
      "https://peer.example/b" := by
  have evaluated : "https://peer.example/b" ∈ keeping.ops.resolveQueue ∧
      (∃ quad ∈ describeQuads keeping.data "https://peer.example/b",
        quad ∉ describeQuads (fetched reading keeping (fetchOf "https://peer.example/a" "tells")).data
          "https://peer.example/b") := by decide
  refine ⟨evaluated.1, fun same => ?_⟩
  obtain ⟨quad, before, gone⟩ := evaluated.2
  exact gone ((same quad).2 before)

end Specimen

end ToolArtifactRegistry.Laws
