import ToolArtifactRegistry.HttpStore
import ToolArtifactRegistry.Laws.Specimen

/-! One transaction on both backends. The request deletes what the embedded store deletes, whatever went before it in the
same transaction, because a deletion takes all that a node owned with it. What is inserted has its blank nodes renamed by
the endpoint and kept by the embedded store. -/
namespace ToolArtifactRegistry.Laws

open Library.Rdf Library.Updates Library.Relabelling Library.Worklist Store HttpStore

section Transacting

variable {data left : Dataset} {after : Finset Statement} {quad other : Quad}

/-- What is no longer there went with everything it owned. -/
structure Severed (data left : Dataset) : Prop where
  subset : ∀ quad ∈ left, quad ∈ data
  whole : ∀ quad ∈ data, quad ∉ left → ∀ other ∈ left, other.graph = quad.graph →
    ¬Store.Owns data quad.graph quad.subject other.subject

theorem Severed.refl (data : Dataset) : Severed data data := ⟨fun _ mem => mem, fun _ mem gone => absurd mem gone⟩

/-- The way to what is still there is still there. -/
theorem Severed.link (severed : Severed data left) {node next : Node} (mem : quad ∈ left)
    (link : Linked (edges (data.matching (inGraph quad.graph))) node next)
    (onward : Store.Owns data quad.graph next quad.subject) :
    Linked (edges (left.matching (inGraph quad.graph))) node next := by
  obtain ⟨edge, inside, rfl, goes⟩ := mem_edges.1 link
  obtain ⟨held, here⟩ := Dataset.mem_matching.1 inside
  have same : edge.graph = quad.graph := of_decide_eq_true here
  refine mem_edges.2 ⟨edge, Dataset.mem_matching.2 ⟨?_, here⟩, rfl, goes⟩
  by_contra gone
  refine severed.whole edge held gone quad mem same.symm ?_
  rw [same]
  exact Relation.ReflTransGen.head link onward

theorem Severed.owns (severed : Severed data left) {node : Node} (mem : quad ∈ left)
    (owns : Store.Owns data quad.graph node quad.subject) : Store.Owns left quad.graph node quad.subject := by
  unfold Store.Owns Reaches at owns
  induction owns using Relation.ReflTransGen.head_induction_on with
  | refl => exact Relation.ReflTransGen.refl
  | head link onward ih => exact Relation.ReflTransGen.head (severed.link mem link onward) ih

theorem Severed.within (severed : Severed data left) {subject : String} {level : Nat} {node : Node} (mem : quad ∈ left)
    (inRing : node ∈ ring (edges (data.matching (inGraph quad.graph))) (.named subject) level)
    (onward : Store.Owns data quad.graph node quad.subject) :
    node ∈ ring (edges (left.matching (inGraph quad.graph))) (.named subject) level := by
  induction level generalizing node with
  | zero => exact inRing
  | succ level ih =>
    obtain ⟨middle, before, link⟩ := mem_ring_succ.1 inRing
    exact mem_ring_succ.2 ⟨middle, ih before (Relation.ReflTransGen.head link onward), severed.link mem link onward⟩

theorem Severed.clear (severed : Severed data left) (graph : String) : Severed data (clearGraph left graph) := by
  refine ⟨fun quad mem => severed.subset quad (mem_clearGraph.1 mem).1, ?_⟩
  intro quad held gone other mem same owns
  obtain ⟨there, apart⟩ := mem_clearGraph.1 mem
  by_cases before : quad ∈ left
  · exact gone (mem_clearGraph.2 ⟨before, fun here => apart (same.trans here)⟩)
  · exact severed.whole quad held before other there same owns

theorem Severed.delete (severed : Severed data left) (target : String × String) :
    Severed data (deleteSubject left target) := by
  obtain ⟨subject, graph⟩ := target
  refine ⟨fun quad mem => severed.subset quad (mem_deleteSubject.1 mem).1, ?_⟩
  intro quad held gone other mem same owns
  obtain ⟨there, spared⟩ := mem_deleteSubject.1 mem
  by_cases before : quad ∈ left
  · -- the quad was deleted with this subject, which then owned the other one too
    have doomed : quad.graph = graph ∧ Store.Owns left graph (.named subject) quad.subject := by
      by_contra kept
      exact gone (mem_deleteSubject.2 ⟨before, kept⟩)
    obtain ⟨rfl, path⟩ := doomed
    rw [← same] at owns path spared
    exact spared ⟨rfl, path.trans (severed.owns there owns)⟩
  · exact severed.whole quad held before other there same owns

/-- A subject owns no statement further away than the request follows. -/
def Shallow (data : Dataset) (target : String × String) : Prop :=
  ∀ quad ∈ data, quad.graph = target.2 → Store.Owns data target.2 (.named target.1) quad.subject →
    ∃ level ≤ defaultDepth, quad.subject ∈ ring (edges (data.matching (inGraph target.2))) (.named target.1) level

/-- An operation that deletes what a step does leaves what the step leaves. -/
theorem leaves_onServer {less : Dataset} {gone : Statement → Prop}
    (same : ∀ quad ∈ left, quad ∈ less ↔ ¬gone (.of quad)) (subset : ∀ quad ∈ less, quad ∈ left) :
    (∀ statement, statement ∈ after ↔ statement ∈ onServer left ∧ ¬gone statement) ↔ after = onServer less := by
  have members : ∀ statement, statement ∈ onServer less ↔ statement ∈ onServer left ∧ ¬gone statement := by
    intro statement
    rw [mem_onServer, mem_onServer]
    constructor
    · rintro ⟨quad, mem, rfl⟩
      exact ⟨⟨quad, subset quad mem, rfl⟩, (same quad (subset quad mem)).1 mem⟩
    · rintro ⟨⟨quad, mem, rfl⟩, kept⟩
      exact ⟨quad, (same quad mem).2 kept, rfl⟩
  constructor
  · intro each
    ext statement
    rw [each, members]
  · rintro rfl
    exact members

theorem clear_leaves (graph : String) :
    (Operation.clear graph).Leaves (onServer left) after ↔ after = onServer (clearGraph left graph) := by
  refine leaves_onServer ?_ (fun quad mem => (mem_clearGraph.1 mem).1)
  intro quad mem
  simp [mem_clearGraph, mem, Statement.of]

/-- The request deletes as much as the walk of the embedded store. -/
theorem delete_leaves (severed : Severed data left) {target : String × String} (shallow : Shallow data target) :
    (deleteOperation target).Leaves (onServer left) after ↔ after = onServer (deleteSubject left target) := by
  obtain ⟨subject, graph⟩ := target
  refine leaves_onServer ?_ (fun quad mem => (mem_deleteSubject.1 mem).1)
  intro quad mem
  rw [doomed_iff (Nat.le_refl _) mem, mem_deleteSubject, and_iff_right mem]
  apply not_congr
  apply and_congr_right
  rintro rfl
  constructor
  · intro owns
    have before := owns_mono severed.subset owns
    obtain ⟨level, bound, inRing⟩ := shallow quad (severed.subset quad mem) rfl before
    exact ⟨level, bound, severed.within mem inRing Relation.ReflTransGen.refl⟩
  · rintro ⟨level, _, inRing⟩
    exact reaches_of_mem_ring inRing

theorem property_leaves (target : String × String × String) :
    (propertyOperation target).Leaves (onServer left) after ↔ after = onServer (deleteProperty left target) := by
  obtain ⟨subject, predicate, graph⟩ := target
  have matches_ : ∀ quad : Quad,
      (∃ solution, Pattern.Matches ⟨.iri graph, .iri subject, .iri predicate, .var "o"⟩ solution (.of quad)) ↔
      isProperty (subject, predicate, graph) quad = true := by
    intro quad
    simp only [isProperty, decide_eq_true_eq]
    constructor
    · rintro ⟨solution, ⟨place, inside, named⟩, start, same, _⟩
      cases inside
      cases named
      have at_ : Node.term (.named subject) = quad.subject.term := Option.some.inj start
      cases same
      exact ⟨(term_injective at_).symm, rfl, rfl⟩
    · rintro ⟨start, rfl, rfl⟩
      refine ⟨fun _ => some quad.object, ⟨quad.graph, rfl, rfl⟩, ?_, rfl, rfl⟩
      show some (Node.term (.named subject)) = some quad.subject.term
      rw [start]
  refine leaves_onServer ?_ (fun quad mem => (mem_deleteProperty.1 mem).1)
  intro quad mem
  rw [doomed_where (of_mem_onServer.2 mem), matches_, mem_deleteProperty, and_iff_right mem, Bool.not_eq_true]

/-- Operations that each leave what a step does leave together what the steps do. -/
theorem executes_steps {Target : Type} {step : Dataset → Target → Dataset} {operation : Target → Operation}
    {keeps : Dataset → Prop} {targets : List Target}
    (each : ∀ left, keeps left → ∀ target ∈ targets, ∀ after,
      (operation target).Leaves (onServer left) after ↔ after = onServer (step left target))
    (on_ : ∀ left, keeps left → ∀ target ∈ targets, keeps (step left target)) (start : keeps left) :
    (Executes (onServer left) (targets.map operation) after ↔ after = onServer (targets.foldl step left)) ∧
      keeps (targets.foldl step left) := by
  induction targets generalizing left with
  | nil => exact ⟨executes_nil, start⟩
  | cons target rest ih =>
    have next := ih (fun left kept target mem => each left kept target (List.mem_cons_of_mem _ mem))
      (fun left kept target mem => on_ left kept target (List.mem_cons_of_mem _ mem))
      (on_ left start target List.mem_cons_self)
    refine ⟨?_, next.2⟩
    rw [List.foldl_cons, ← next.1, List.map_cons]
    simp only [Executes, each left start target List.mem_cons_self, exists_eq_left]

/-- What the deletions of a transaction leave. -/
def deletedBy (data : Dataset) (tx : GraphTx) : Dataset :=
  tx.deleteProperties.foldl deleteProperty (tx.deleteSubjects.foldl deleteSubject (tx.clearGraphs.foldl clearGraph data))

variable {tx : GraphTx}

theorem severed_cleared (data : Dataset) (graphs : List String) : Severed data (graphs.foldl clearGraph data) := by
  have all : ∀ left, Severed data left → Severed data (graphs.foldl clearGraph left) := by
    induction graphs with
    | nil => exact fun _ severed => severed
    | cons graph rest ih => exact fun left severed => ih _ (severed.clear graph)
  exact all data (.refl data)

theorem executes_deletions (shallow : ∀ target ∈ tx.deleteSubjects, Shallow data target) :
    Executes (onServer data) (deletions tx) after ↔ after = onServer (deletedBy data tx) := by
  have clears := fun after => (@executes_steps data after String clearGraph .clear (fun _ => True) tx.clearGraphs
    (fun _ _ _ _ _ => clear_leaves _) (fun _ _ _ _ => trivial) trivial).1
  have subjects := fun after => (@executes_steps _ after _ deleteSubject deleteOperation _ tx.deleteSubjects
    (fun left severed target mem _ => delete_leaves severed (shallow target mem))
    (fun left severed target _ => severed.delete target) (severed_cleared data tx.clearGraphs)).1
  have properties := fun left after => (@executes_steps left after _ deleteProperty propertyOperation (fun _ => True)
    tx.deleteProperties (fun _ _ _ _ _ => property_leaves _) (fun _ _ _ _ => trivial) trivial).1
  unfold deletions
  simp only [executes_append, clears, subjects, properties, exists_eq_left, deletedBy]

/-- The statements a transaction inserts. -/
def insertedBy (tx : GraphTx) : Finset Statement := (tx.insert.map Statement.of).toFinset

theorem contents_inserted : contents (byGraph (tx.insert.map Statement.of)) = insertedBy tx := by
  rw [contents_byGraph, List.map_map]
  rfl

theorem executes_operations (shallow : ∀ target ∈ tx.deleteSubjects, Shallow data target) :
    Executes (onServer data) (operations tx) after ↔ ∃ f, Anew (labelsIn (onServer (deletedBy data tx))) (insertedBy tx) f ∧
      after = onServer (deletedBy data tx) ∪ withLabels f (insertedBy tx) := by
  unfold operations
  rw [executes_append]
  simp only [executes_deletions shallow, exists_eq_left]
  split
  · rename_i empty
    have nothing : insertedBy tx = ∅ := by
      unfold insertedBy
      rw [List.isEmpty_iff.1 empty]
      rfl
    rw [executes_nil, nothing]
    simp only [withLabels, Finset.image_empty, Finset.union_empty]
    exact ⟨fun same => ⟨id, ⟨Function.injective_id.injOn, by simp [labelsIn_empty]⟩, same⟩,
      fun left => left.elim (fun _ both => both.2)⟩
  · rw [executes_single, insertData, Operation.Leaves, contents_inserted]

theorem onServer_effect : onServer (effect data tx) = onServer (deletedBy data tx) ∪ insertedBy tx := by
  ext statement
  simp only [effect, mem_onServer, Dataset.mem_extend, Finset.mem_union, insertedBy, List.mem_toFinset, List.mem_map,
    deletedBy]
  constructor
  · rintro ⟨quad, kept | new, same⟩
    · exact Or.inl ⟨quad, kept, same⟩
    · exact Or.inr ⟨quad, new, same⟩
  · rintro (⟨quad, kept, same⟩ | ⟨quad, new, same⟩)
    · exact ⟨quad, Or.inl kept, same⟩
    · exact ⟨quad, Or.inr new, same⟩

theorem mem_cleared {graphs : List String} :
    quad ∈ graphs.foldl clearGraph left ↔ quad ∈ left ∧ quad.graph ∉ graphs := by
  induction graphs generalizing left with
  | nil => simp
  | cons graph rest ih =>
    rw [List.foldl_cons, ih, mem_clearGraph, List.mem_cons, not_or, and_assoc]

theorem mem_stripped {targets : List (String × String × String)} :
    quad ∈ targets.foldl deleteProperty left ↔ quad ∈ left ∧ ∀ target ∈ targets, isProperty target quad = false := by
  induction targets generalizing left with
  | nil => simp
  | cons target rest ih =>
    rw [List.foldl_cons, ih, mem_deleteProperty, List.forall_mem_cons, and_assoc]

/-- A subject that is deleted later takes what it owned at the start. -/
theorem mem_severed (severed : Severed data left) {targets : List (String × String)} :
    quad ∈ targets.foldl deleteSubject left ↔
      quad ∈ left ∧
        ∀ target ∈ targets, ¬(quad.graph = target.2 ∧ Store.Owns data target.2 (.named target.1) quad.subject) := by
  induction targets generalizing left with
  | nil => simp
  | cons target rest ih =>
    have first : quad ∈ deleteSubject left target ↔
        quad ∈ left ∧ ¬(quad.graph = target.2 ∧ Store.Owns data target.2 (.named target.1) quad.subject) := by
      refine mem_deleteSubject.trans (and_congr_right (fun mem => not_congr (and_congr_right ?_)))
      intro here
      rw [← here]
      exact ⟨owns_mono severed.subset, severed.owns mem⟩
    rw [List.foldl_cons, ih (severed.delete target), first, List.forall_mem_cons, and_assoc]

/-- The deletions leave the quads that are spared. -/
theorem mem_deleted : quad ∈ deletedBy data tx ↔ quad ∈ data ∧ Spares data tx quad := by
  unfold deletedBy
  rw [mem_stripped, mem_severed (severed_cleared data tx.clearGraphs), mem_cleared]
  exact ⟨fun ⟨⟨⟨held, graphs⟩, subjects⟩, properties⟩ => ⟨held, graphs, subjects, properties⟩,
    fun ⟨held, spared⟩ => ⟨⟨⟨held, spared.graphs⟩, spared.subjects⟩, spared.properties⟩⟩

/-- No blank node that the transaction writes is in a quad it leaves. -/
def Unshared (data : Dataset) (tx : GraphTx) : Prop :=
  ∀ quad ∈ data, Spares data tx quad → ∀ new ∈ tx.insert, Disjoint (Statement.of quad).labels (Statement.of new).labels

theorem apart_iff :
    Unshared data tx ↔ Disjoint (labelsIn (onServer (deletedBy data tx))) (labelsIn (insertedBy tx)) := by
  unfold labelsIn
  rw [Finset.disjoint_biUnion_left]
  simp only [Finset.disjoint_biUnion_right, mem_onServer, insertedBy, List.mem_toFinset, List.mem_map, mem_deleted]
  constructor
  · rintro apart _ ⟨quad, ⟨mem, spared⟩, rfl⟩ _ ⟨new, listed, rfl⟩
    exact apart quad mem spared new listed
  · intro apart quad mem spared new listed
    exact apart _ ⟨quad, ⟨mem, spared⟩, rfl⟩ _ ⟨new, listed, rfl⟩

/-- What the embedded store holds after a transaction; a transaction that is refused changes nothing. -/
def embeddedAfter (platform : Platform) (data : Dataset) (tx : GraphTx) : Dataset :=
  match Store.apply platform data tx with
  | .ok after => after
  | .error _ => data

theorem mem_checked {iri : String} : iri ∈ checked tx ↔ iri ∈ tx.references := by
  simp only [checked, GraphTx.references, List.mem_append, List.mem_flatMap, List.mem_cons, List.not_mem_nil, or_false]
  have subjects : (∃ target ∈ tx.deleteSubjects, iri = target.2 ∨ iri = target.1) ↔
      ∃ target ∈ tx.deleteSubjects, iri = target.1 ∨ iri = target.2 := by simp only [or_comm]
  have properties : (∃ target ∈ tx.deleteProperties, iri = target.2.2 ∨ iri = target.1 ∨ iri = target.2.1) ↔
      ∃ target ∈ tx.deleteProperties, iri = target.1 ∨ iri = target.2.1 ∨ iri = target.2.2 := by
    refine exists_congr (fun target => and_congr_right (fun _ => ?_))
    tauto
  rw [subjects, properties]

variable {platform : Platform} {display : Term → String} {endpoint : Endpoint}

/-- An IRI that does not parse stops both backends before anything is changed. -/
theorem refused_alike {iri : String} (mem : iri ∈ tx.references) (bad : platform.validIri iri = false)
    (applies : Applies platform display endpoint (onServer data) tx after) :
    after = onServer (embeddedAfter platform data tx) := by
  have stops : ∀ list : List String, iri ∈ list → ∃ first, list.find? (fun iri => !platform.validIri iri) = some first := by
    intro list there
    refine Option.isSome_iff_exists.1 (List.find?_isSome.2 ⟨iri, there, ?_⟩)
    rw [bad]
    rfl
  have filled : tx.isEmpty = false := by
    unfold GraphTx.references at mem
    by_contra empty
    simp only [GraphTx.isEmpty, Bool.not_eq_false, Bool.and_eq_true, List.isEmpty_iff] at empty
    simp [empty.1.1.2, empty.1.2, empty.2] at mem
  obtain ⟨first, found⟩ := stops _ (mem_checked.2 mem)
  obtain ⟨other, also⟩ := stops _ mem
  have kept : embeddedAfter platform data tx = data := by
    unfold embeddedAfter Store.apply
    rw [also]
  unfold Applies request at applies
  rw [filled, found] at applies
  rw [kept]
  exact applies

/-- A transaction without a bad IRI is carried out on both backends. -/
theorem accepted_alike (valid : ∀ iri ∈ tx.references, platform.validIri iri = true)
    (shallow : ∀ target ∈ tx.deleteSubjects, Shallow data target)
    (sequential : endpoint.Sequential display (operations tx))
    (applies : Applies platform display endpoint (onServer data) tx after) :
    onServer (embeddedAfter platform data tx) = onServer (deletedBy data tx) ∪ insertedBy tx ∧
      ∃ f, Anew (labelsIn (onServer (deletedBy data tx))) (insertedBy tx) f ∧
        after = onServer (deletedBy data tx) ∪ withLabels f (insertedBy tx) := by
  have passes : ∀ list : List String, (∀ iri ∈ list, iri ∈ tx.references) →
      list.find? (fun iri => !platform.validIri iri) = none := by
    intro list within
    refine List.find?_eq_none.2 (fun iri mem => ?_)
    rw [valid iri (within iri mem)]
    decide
  have kept : embeddedAfter platform data tx = effect data tx := by
    unfold embeddedAfter Store.apply
    rw [passes _ (fun _ mem => mem)]
  refine ⟨kept ▸ onServer_effect, ?_⟩
  have runs : Executes (onServer data) (operations tx) after := by
    unfold Applies request at applies
    split at applies
    · rename_i text made
      split at made
      · cases made
      · rw [passes _ (fun iri mem => mem_checked.1 mem)] at made
        cases made
        exact sequential _ _ applies
    · rename_i made
      split at made
      · -- nothing is sent for an empty transaction
        rename_i empty
        simp only [GraphTx.isEmpty, Bool.and_eq_true, List.isEmpty_iff] at empty
        unfold operations deletions
        rw [empty.1.1.1, empty.1.1.2, empty.1.2, empty.2]
        exact applies
      · rw [passes _ (fun iri mem => mem_checked.1 mem)] at made
        cases made
    · rename_i refusal made
      split at made
      · cases made
      · rw [passes _ (fun iri mem => mem_checked.1 mem)] at made
        cases made
  exact (executes_operations shallow).1 runs

/-- The two backends end alike just when the transaction is refused, or writes no blank node that is in a quad it leaves. -/
theorem backends_agree_iff (shallow : ∀ target ∈ tx.deleteSubjects, Shallow data target)
    (sequential : endpoint.Sequential display (operations tx))
    (applies : Applies platform display endpoint (onServer data) tx after) :
    Isomorphic (onServer (embeddedAfter platform data tx)) after ↔
      (∃ iri ∈ tx.references, platform.validIri iri = false) ∨ Unshared data tx := by
  by_cases refused : ∃ iri ∈ tx.references, platform.validIri iri = false
  · obtain ⟨iri, mem, bad⟩ := refused
    rw [refused_alike mem bad applies]
    exact iff_of_true (.refl _) (Or.inl ⟨iri, mem, bad⟩)
  · have valid : ∀ iri ∈ tx.references, platform.validIri iri = true := by
      intro iri mem
      by_contra bad
      exact refused ⟨iri, mem, by simpa using bad⟩
    obtain ⟨same, f, anew, left⟩ := accepted_alike valid shallow sequential applies
    rw [same, left, isomorphic_union_iff anew, or_iff_right refused, apart_iff]

end Transacting

section Specimen

open Specimen

def sharedGraph : String := Ns.gPeerPrefix ++ "other"

/-- A file of a peer with a checksum, which is a blank node of the peer's document. -/
def checksumOf (subject label : String) : Quad := ⟨.named subject, Ns.t Ns.spdx "checksum", .blank label, sharedGraph⟩

def oneStub : Dataset := Dataset.empty.extend [checksumOf "https://peer.example/a" "c1"]

/-- Another stub of the same peer is stored, from a document that labels its blank node so. -/
def anotherStub (label : String) : GraphTx :=
  (({} : GraphTx).replaceSubject "https://peer.example/b" sharedGraph).extend [checksumOf "https://peer.example/b" label]

/-- A server that carries out the request it is sent. -/
def obedient (display : Term → String) (tx : GraphTx) : Endpoint :=
  ⟨fun data text after => text = requestText display (operations tx) ∧ Executes data (operations tx) after⟩

def spelledTerm (term : Term) : String :=
  match term with
  | .named iri => Library.Queries.angle iri
  | .blank label => "_:" ++ label
  | .literal value _ _ => Library.Queries.inQuotes value

theorem obedient_sequential (tx : GraphTx) : (obedient spelledTerm tx).Sequential spelledTerm (operations tx) :=
  fun _ _ runs => runs.2

theorem oneStub_shallow : Shallow oneStub ("https://peer.example/b", sharedGraph) := by
  intro quad mem _ owns
  obtain rfl : quad = checksumOf "https://peer.example/a" "c1" := by
    rcases Dataset.mem_extend.1 mem with absent | listed
    · exact absurd absent (Dataset.not_mem_empty quad)
    · exact List.mem_singleton.1 listed
  exact absurd owns (by decide)

theorem deleted_oneStub (label : String) : deletedBy oneStub (anotherStub label) = oneStub := by
  ext1
  rfl

theorem labels_oneStub : labelsIn (onServer oneStub) = {"c1"} := by decide

theorem labels_anotherStub (label : String) : labelsIn (insertedBy (anotherStub label)) = {label} := rfl

/-- The server names the blank node it is sent anew. -/
def servedStub (label : String) : Finset Statement :=
  onServer oneStub ∪ withLabels (fun _ => "c2") (insertedBy (anotherStub label))

theorem served_anew (label : String) :
    Anew (labelsIn (onServer oneStub)) (insertedBy (anotherStub label)) (fun _ => "c2") := by
  rw [labels_oneStub]
  refine ⟨?_, fun _ _ => by decide⟩
  rw [labels_anotherStub, Finset.coe_singleton]
  exact Set.injOn_singleton _ _

theorem served_applies (label : String) :
    Applies (platform []) spelledTerm (obedient spelledTerm (anotherStub label)) (onServer oneStub) (anotherStub label)
      (servedStub label) := by
  have sent : request (platform []) spelledTerm (anotherStub label) =
      .ok (some (requestText spelledTerm (operations (anotherStub label)))) := rfl
  have shallow : ∀ target ∈ (anotherStub label).deleteSubjects, Shallow oneStub target := by
    intro target mem
    rw [List.mem_singleton.1 mem]
    exact oneStub_shallow
  unfold Applies
  rw [sent]
  refine ⟨rfl, (executes_operations shallow).2 ?_⟩
  rw [deleted_oneStub]
  exact ⟨_, served_anew label, rfl⟩

theorem apart_c3 : Unshared oneStub (anotherStub "c3") := by
  rw [apart_iff, deleted_oneStub, labels_oneStub, labels_anotherStub]
  decide

/-- With labels of its own the stub ends up alike on both. -/
theorem other_label_alike :
    Isomorphic (onServer (embeddedAfter (platform []) oneStub (anotherStub "c3"))) (servedStub "c3") :=
  (backends_agree_iff (fun _ mem => List.mem_singleton.1 mem ▸ oneStub_shallow) (obedient_sequential (anotherStub "c3"))
    (served_applies "c3")).2 (Or.inr apart_c3)

/-- With the label of a stub that is there already, the embedded store gives both stubs one checksum, and the server two. -/
theorem same_label_shared : Shallow oneStub ("https://peer.example/b", sharedGraph) ∧
    (obedient spelledTerm (anotherStub "c1")).Sequential spelledTerm (operations (anotherStub "c1")) ∧
    Applies (platform []) spelledTerm (obedient spelledTerm (anotherStub "c1")) (onServer oneStub) (anotherStub "c1")
      (servedStub "c1") ∧
    ¬Isomorphic (onServer (embeddedAfter (platform []) oneStub (anotherStub "c1"))) (servedStub "c1") := by
  refine ⟨oneStub_shallow, obedient_sequential _, served_applies "c1", fun iso => ?_⟩
  have count := card_labels iso
  revert count
  decide

end Specimen

end ToolArtifactRegistry.Laws
