import ToolArtifactRegistry.Dispatch
import ToolArtifactRegistry.Laws.Specimen
import ToolArtifactRegistry.Seed

/-! A start settles: what it wrote it finds again, and a second start writes nothing. It keeps the types of a registry unless
the corrections it makes take one for something else. -/
namespace ToolArtifactRegistry.Laws

open Library.Rdf Library.Text Store Bundles Seed
open Domain.Vocabulary (Slot heldIn classArtifactType conceptClasses)
open Domain.Artifact (typeArtifactSeries)

section Booting

variable {platform : Platform}

/-- What the graph of the bundles says of the bundles of a build: one digest of each, and no node belongs to two of them. -/
structure Filed (build : Build) (data : Dataset) : Prop where
  single : ∀ graph left right, (graph, left) ∈ digestRows data → (graph, right) ∈ digestRows data → left = right
  apart : ∀ left ∈ build.bundles, ∀ right ∈ build.bundles, left.graph ≠ right.graph →
    ∀ node, Store.Owns data Ns.gBundles (.named left.graph) node → ¬Store.Owns data Ns.gBundles (.named right.graph) node

/-- A store as the builds write it: its graphs are those they know, and the graph of the bundles describes bundles. -/
structure AsBuilt (build : Build) (data : Dataset) : Prop where
  graphs : ∀ quad ∈ data, quad.graph ∈ [Ns.gLocal, Ns.gLegacyVocab, Ns.gBundles] ∨ reserved quad.graph = true ∨
    startsWith quad.graph Ns.gPeerPrefix = true
  descriptions : ∀ quad ∈ data, quad.graph = Ns.gBundles → quad.object ≠ .named concept
  filed : Filed build data

/-- A write may name the IRI as an artifact type. -/
def Usable (platform : Platform) (reference data : Dataset) (iri : String) : Prop :=
  ∃ held, Domain.Vocabulary.holding platform reference data iri = some held ∧ held.usableAs .type = true

/-- A class of a term as it stands once the retired graph is emptied. -/
def Stands (data : Dataset) (iri class_ graph : String) : Prop :=
  ((⟨.named iri, Ns.rdfType, .named class_, graph⟩ : Quad) ∈ data ∧ graph ≠ Ns.gLegacyVocab) ∨
    (graph = Ns.gLocal ∧ (⟨.named iri, Ns.rdfType, .named class_, Ns.gLegacyVocab⟩ : Quad) ∈ data ∧ iri ∈ rescue data)

/-- A graph names the term both a concept and a version series. -/
def Claimed (data : Dataset) (iri graph : String) : Prop :=
  opened graph = true ∧ Stands data iri concept graph ∧ Stands data iri typeArtifactSeries graph

/-- The term is a concept of the local graph without a class, and not the record of something else. -/
def Granted (data : Dataset) (iri : String) : Prop :=
  Stands data iri concept Ns.gLocal ∧ (∀ class_ ∈ conceptClasses, ∀ graph, ¬Stands data iri class_ graph) ∧
    isARecordThatIsNotAType iri = false

/-- Some graph that does not name the term a version series calls it a concept, and one gives it the class of artifact types,
or it is given that class now, or only peers are left to call it a concept. -/
def Survives (data : Dataset) (iri : String) : Prop :=
  (∃ graph, Stands data iri concept graph ∧ ¬Claimed data iri graph) ∧
    ((∃ graph, (Stands data iri classArtifactType graph ∨ (Granted data iri ∧ graph = Ns.gLocal)) ∧ ¬Claimed data iri graph) ∨
      ∀ graph, Stands data iri concept graph → ¬Claimed data iri graph → startsWith graph Ns.gPeerPrefix = true)

end Booting

section Usable

variable {platform : Platform} {reference data : Dataset} {iri : String}

/-- What one store says of the use of a term as a type. -/
def UsableIn (data : Dataset) (iri : String) : Prop :=
  (∃ graph, (⟨.named iri, Ns.rdfType, .named concept, graph⟩ : Quad) ∈ data) ∧
    ((∃ graph, (⟨.named iri, Ns.rdfType, .named classArtifactType, graph⟩ : Quad) ∈ data) ∨
      ∀ graph, (⟨.named iri, Ns.rdfType, .named concept, graph⟩ : Quad) ∈ data → startsWith graph Ns.gPeerPrefix = true)

theorem mem_typed {class_ graph : String} {quad : Quad} : quad = ⟨.named iri, Ns.rdfType, .named class_, graph⟩ ↔
    (quad.subject = .named iri ∧ quad.predicate = Ns.rdfType ∧ quad.object = .named class_) ∧ quad.graph = graph := by
  obtain ⟨subject, predicate, object, here⟩ := quad
  simp only [Quad.mk.injEq, and_assoc]

/-- The concept classes of a term are read in any graph. -/
theorem mem_classes : classArtifactType ∈ (((data.matching (fun quad => decide (quad.subject = .named iri ∧
    quad.predicate = Ns.rdfType))).filterMap (fun quad => quad.object.node?.bind Node.iri?)).filter
      (fun class_ => decide (class_ ∈ conceptClasses))).eraseDups ↔
    ∃ graph, (⟨.named iri, Ns.rdfType, .named classArtifactType, graph⟩ : Quad) ∈ data := by
  rw [List.mem_eraseDups, List.mem_filter, List.mem_filterMap]
  constructor
  · intro listed
    obtain ⟨⟨quad, mem, read⟩, _⟩ := listed
    obtain ⟨held, typed⟩ := Dataset.mem_matching.1 mem
    obtain ⟨subject, predicate⟩ := of_decide_eq_true typed
    obtain ⟨node, named, iri_⟩ := Option.bind_eq_some_iff.1 read
    have object : quad.object = .named classArtifactType := by
      rw [node?_eq_some.1 named]
      cases node with
      | named other => exact congrArg Term.named (Option.some.inj iri_)
      | blank label => cases iri_
    refine ⟨quad.graph, ?_⟩
    rw [← mem_typed.2 ⟨⟨subject, predicate, object⟩, rfl⟩]
    exact held
  · intro some_
    obtain ⟨graph, held⟩ := some_
    refine ⟨⟨_, Dataset.mem_matching.2 ⟨held, decide_eq_true ⟨rfl, rfl⟩⟩, rfl⟩, ?_⟩
    decide

theorem usableIn_iff : (∃ held, heldIn data iri = some held ∧ held.usableAs .type = true) ↔ UsableIn data iri := by
  have declared (quad : Quad) : quad ∈ data.matching (fun quad => decide (quad.subject = .named iri ∧ quad.predicate = Ns.rdfType ∧
      quad.object = .named (Ns.t Ns.skos "Concept"))) ↔ ∃ graph, quad = ⟨.named iri, Ns.rdfType, .named concept, graph⟩ ∧ quad ∈ data := by
    rw [Dataset.mem_matching, decide_eq_true_eq]
    simp only [mem_typed]
    constructor
    · intro here
      exact ⟨quad.graph, ⟨here.2, rfl⟩, here.1⟩
    · intro here
      obtain ⟨_, ⟨typed, _⟩, held⟩ := here
      exact ⟨held, typed⟩
  have usable (classes : List String) (fromPeer : Bool) : (Domain.Vocabulary.Held.mk classes fromPeer).usableAs .type = true ↔
      classArtifactType ∈ classes ∨ fromPeer = true := by
    unfold Domain.Vocabulary.Held.usableAs Slot.class_
    simp
  unfold heldIn UsableIn
  split
  · next none_ =>
    rw [none_] at declared
    constructor
    · intro held
      obtain ⟨held, absurd_, _⟩ := held
      cases absurd_
    · intro right
      obtain ⟨⟨graph, held⟩, _⟩ := right
      exact absurd ((declared _).2 ⟨graph, rfl, held⟩) List.not_mem_nil
  · next some_ =>
    have peers : (data.matching (fun quad => decide (quad.subject = .named iri ∧ quad.predicate = Ns.rdfType ∧
        quad.object = .named (Ns.t Ns.skos "Concept")))).all (fun quad => startsWith quad.graph Ns.gPeerPrefix) = true ↔
        ∀ graph, (⟨.named iri, Ns.rdfType, .named concept, graph⟩ : Quad) ∈ data → startsWith graph Ns.gPeerPrefix = true := by
      rw [List.all_eq_true]
      constructor
      · intro all graph held
        exact all _ ((declared _).2 ⟨graph, rfl, held⟩)
      · intro all quad mem
        obtain ⟨graph, same, held⟩ := (declared quad).1 mem
        rw [same] at held ⊢
        exact all graph held
    have held_ : ∃ graph, (⟨.named iri, Ns.rdfType, .named concept, graph⟩ : Quad) ∈ data := by
      obtain ⟨quad, mem⟩ := List.exists_mem_of_ne_nil _ some_
      obtain ⟨graph, same, held⟩ := (declared quad).1 mem
      exact ⟨graph, same ▸ held⟩
    dsimp only
    constructor
    · intro usable_
      obtain ⟨held, same, use⟩ := usable_
      rw [← Option.some.inj same, usable, mem_classes, peers] at use
      exact ⟨held_, use⟩
    · intro right
      refine ⟨_, rfl, ?_⟩
      rw [usable, mem_classes, peers]
      exact right.2

theorem usable_iff : Usable platform reference data iri ↔ platform.validIri iri = true ∧
    (UsableIn reference iri ∨ (heldIn reference iri = none ∧ UsableIn data iri)) := by
  unfold Usable Domain.Vocabulary.holding
  by_cases valid : platform.validIri iri = true
  · rw [if_pos valid]
    cases known : heldIn reference iri with
    | none =>
      have unheld : ¬UsableIn reference iri := by
        rw [← usableIn_iff, known]
        simp
      simp only [Option.none_or, usableIn_iff, valid, unheld, true_and, false_or]
    | some held =>
      have here : UsableIn reference iri ↔ held.usableAs .type = true := by
        rw [← usableIn_iff, known]
        simp
      simp [valid, here]
  · rw [if_neg valid]
    simp [valid]

end Usable

section Stages

variable {data : Dataset} {iri class_ graph : String}

/-- The store as the migrations leave it one after the other. -/
def adopted (data : Dataset) : Dataset := dropLegacy (moveLegacy data)

def unmarked (data : Dataset) : Dataset := dropBranchMarkers (classExistingTypes (adopted data))

theorem migrate_all (data : Dataset) : migrate migrations.length data = unclaimSeriesConcepts (unmarked data) := by
  unfold migrate migrations
  rw [List.take_length]
  simp only [List.foldl_cons, List.foldl_nil]
  rfl

theorem adopted_stands : (⟨.named iri, Ns.rdfType, .named class_, graph⟩ : Quad) ∈ adopted data ↔ Stands data iri class_ graph := by
  unfold adopted
  rw [mem_adopted]
  unfold Stands
  simp only [Node.named.injEq]
  constructor
  · intro either
    rcases either with held | ⟨here, held, other, listed, rfl⟩
    · exact Or.inl held
    · exact Or.inr ⟨here, held, listed⟩
  · intro either
    rcases either with held | ⟨here, held, listed⟩
    · exact Or.inl held
    · exact Or.inr ⟨here, held, iri, listed, rfl⟩

theorem granted_iff : iri ∈ granted (adopted data) ↔ Granted data iri := by
  rw [mem_granted, adopted_stands]
  simp only [adopted_stands]
  rfl

theorem marker_untyped : conceptBranch ≠ Ns.rdfType := by decide

theorem unmarked_typed : (⟨.named iri, Ns.rdfType, .named class_, graph⟩ : Quad) ∈ unmarked data ↔
    Stands data iri class_ graph ∨ (Granted data iri ∧ class_ = classArtifactType ∧ graph = Ns.gLocal) := by
  unfold unmarked
  rw [mem_unmarked, mem_classed, adopted_stands]
  have spared : ∀ target ∈ markers (classExistingTypes (adopted data)),
      isProperty (target.1, conceptBranch, target.2) ⟨.named iri, Ns.rdfType, .named class_, graph⟩ = false := by
    intro target _
    unfold isProperty
    rw [decide_eq_false_iff_not]
    exact fun same => marker_untyped same.2.1.symm
  simp only [Quad.mk.injEq, Node.named.injEq, Term.named.injEq, true_and]
  constructor
  · intro either
    obtain ⟨stands | ⟨other, given, rfl, classed, local_⟩, _⟩ := either
    · exact Or.inl stands
    · exact Or.inr ⟨granted_iff.1 given, classed, local_⟩
  · intro either
    refine ⟨?_, spared⟩
    rcases either with stands | ⟨given, classed, local_⟩
    · exact Or.inl stands
    · exact Or.inr ⟨iri, granted_iff.2 given, rfl, classed, local_⟩

theorem concept_untyped : concept ≠ classArtifactType := by decide

theorem series_untyped : typeArtifactSeries ≠ classArtifactType := by decide

theorem claimed_iff : (iri, graph) ∈ claimedSeries (unmarked data) ↔ Claimed data iri graph := by
  rw [mem_claimedSeries, unmarked_typed, unmarked_typed]
  simp only [concept_untyped, series_untyped, false_and, and_false, or_false]
  rfl

/-- The classes of a term once every migration is made. -/
theorem migrated_typed (other : class_ ≠ typeArtifactSeries) :
    (⟨.named iri, Ns.rdfType, .named class_, graph⟩ : Quad) ∈ migrate migrations.length data ↔
      (Stands data iri class_ graph ∨ (Granted data iri ∧ class_ = classArtifactType ∧ graph = Ns.gLocal)) ∧
        ¬Claimed data iri graph := by
  rw [migrate_all, mem_unclaimed, unmarked_typed]
  have deleted : (∀ target ∈ claimedSeries (unmarked data),
      isProperty (target.1, Ns.rdfType, target.2) ⟨.named iri, Ns.rdfType, .named class_, graph⟩ = false) ↔
        ¬Claimed data iri graph := by
    rw [← claimed_iff]
    constructor
    · intro spared listed
      have typed := spared _ listed
      unfold isProperty at typed
      rw [decide_eq_false_iff_not] at typed
      exact typed ⟨rfl, rfl, rfl⟩
    · intro unlisted target listed
      unfold isProperty
      rw [decide_eq_false_iff_not]
      intro same
      obtain ⟨subject, -, graph_⟩ := same
      apply unlisted
      rw [Node.named.inj subject, show graph = target.2 from graph_]
      exact listed
  rw [deleted]
  constructor
  · intro either
    rcases either with kept | ⟨target, _, same⟩
    · exact kept
    · exact absurd (Term.named.inj (Quad.mk.inj same).2.2.1) other
  · exact Or.inl

theorem concept_unlike : concept ≠ typeArtifactSeries := by decide

theorem classed_unlike : classArtifactType ≠ typeArtifactSeries := by decide

/-- What survives a start is what is usable after it. -/
theorem survives_iff : UsableIn (migrate migrations.length data) iri ↔ Survives data iri := by
  unfold UsableIn Survives
  simp only [migrated_typed concept_unlike, migrated_typed classed_unlike, concept_untyped, false_and, and_false, or_false,
    true_and, and_imp]

end Stages

section Filing

variable {platform : Platform} {digester : Digester} {boot : Boot platform} {bundle : Bundle} {data : Dataset}

theorem blank_of_follow {quad : Quad} {label : String} (goes : follow quad = some (.blank label)) : quad.object = .blank label := by
  unfold follow at goes
  split at goes
  · next same => rw [same, Node.blank.inj (Option.some.inj goes)]
  · split at goes <;> cases goes
  · cases goes

/-- A named node owns no blank node that the graph does not mention. -/
theorem owns_unused {iri label : String} (unused : Unmentioned label data) : ¬Store.Owns data Ns.gBundles (.named iri) (.blank label) := by
  intro owns
  rcases Relation.ReflTransGen.cases_tail owns with same | ⟨node, _, edge⟩
  · cases same
  · obtain ⟨quad, mem, _, goes⟩ := mem_edges.1 edge
    obtain ⟨held, here⟩ := Dataset.mem_matching.1 mem
    exact (unused quad held (of_decide_eq_true here)).2 (blank_of_follow goes)

def filed : List String :=
  [Ns.rdfType, Ns.t Ns.dct "title", Ns.t Ns.void "triples", Ns.t Ns.dct "modified", Ns.t Ns.spdx "checksum",
    Ns.t Ns.spdx "algorithm", Ns.t Ns.spdx "checksumValue"]

theorem description_predicate {digest : String} {triples : Nat} {quad : Quad}
    (mem : quad ∈ description boot bundle digest triples) : quad.predicate ∈ filed := by
  have each {predicate : String} {statements : List Rdf.Build.Statement} (only : Rdf.Build.Only predicate statements)
      (listed : predicate ∈ filed) : (quad.predicate, quad.object) ∈ statements → quad.predicate ∈ filed := fun said => by
    rw [show quad.predicate = predicate from only _ said]
    exact listed
  unfold description at mem
  rcases List.mem_append.1 mem with whole | checksum
  · have said := (Rdf.Build.mem_finish.1 whole).2.2
    unfold descriptionStatements at said
    simp only [List.mem_append, List.mem_singleton, Prod.mk.injEq] at said
    rcases said with (((type | title) | count) | modified) | ⟨same, _⟩
    · exact each (Rdf.Build.only_a _) (by decide) type
    · exact each (Rdf.Build.only_text Ns.dct "title" _) (by decide) title
    · exact each (Rdf.Build.only_int Ns.void "triples" _) (by decide) count
    · exact each (Rdf.Build.only_datetime platform Ns.dct "modified" _) (by decide) modified
    · rw [same]
      decide
  · have said := (Rdf.Build.mem_finish.1 checksum).2.2
    unfold checksumStatements at said
    simp only [List.mem_append] at said
    rcases said with (type | algorithm) | value
    · exact each (Rdf.Build.only_a _) (by decide) type
    · exact each (Rdf.Build.only_link platform Ns.spdx "algorithm" _) (by decide) algorithm
    · exact each (Rdf.Build.only_text Ns.spdx "checksumValue" _) (by decide) value

/-- A description owns its checksum and nothing else. -/
theorem description_follow {digest : String} {triples : Nat} {quad : Quad} {node : Node}
    (mem : quad ∈ description boot bundle digest triples) (goes : follow quad = some node) :
    node = .blank (boot.checksum bundle.graph) := by
  have owned : ∀ predicate ∈ filed, isOwnedSubresource predicate = true → predicate = Ns.t Ns.spdx "checksum" := by decide
  unfold follow at goes
  split at goes
  · next label object =>
    rw [← Option.some.inj goes, description_blank mem (Or.inr object)]
  · next iri object =>
    split at goes
    · next own =>
      obtain ⟨subject, predicate, object_, graph⟩ := quad
      dsimp only at object own
      have checksum := owned predicate (description_predicate mem) own
      rw [checksum, description_checksum, object] at mem
      cases mem.2.1
    · cases goes
  · cases goes

theorem owns_loadInto {upTo : Nat} {iri : String} {node : Node} (reserved_ : reserved bundle.graph = true)
    (owns : Store.Owns (loadInto boot bundle upTo data) Ns.gBundles (.named iri) node) : Store.Owns data Ns.gBundles (.named iri) node := by
  refine Relation.ReflTransGen.mono ?_ _ _ owns
  intro here next linked
  obtain ⟨quad, mem, subject, goes⟩ := mem_edges.1 linked
  obtain ⟨held, graph⟩ := Dataset.mem_matching.1 mem
  have apart : quad.graph ≠ bundle.graph := by
    rw [show quad.graph = Ns.gBundles from of_decide_eq_true graph]
    exact (reserved_apart reserved_).1.symm
  exact mem_edges.2 ⟨quad, Dataset.mem_matching.2 ⟨(mem_loadInto_other apart).1 held, graph⟩, subject, goes⟩

/-- Once a bundle is recorded its graph owns the new checksum, and the other bundles own what they owned. -/
theorem owns_record_own {triples : Nat} {node : Node} (unused : Unmentioned (boot.checksum bundle.graph) data)
    (owns : Store.Owns (record digester boot bundle triples data) Ns.gBundles (.named bundle.graph) node) :
    node = .named bundle.graph ∨ node = .blank (boot.checksum bundle.graph) := by
  induction owns with
  | refl => exact Or.inl rfl
  | tail _ edge ih =>
    right
    obtain ⟨quad, mem, subject, goes⟩ := mem_edges.1 edge
    obtain ⟨held, graph⟩ := Dataset.mem_matching.1 mem
    have here : quad.graph = Ns.gBundles := of_decide_eq_true graph
    rcases mem_record.1 held with ⟨old, spared⟩ | new
    · rcases ih with same | same
      · rw [subject, same] at spared
        exact absurd ⟨here, Relation.ReflTransGen.refl⟩ spared
      · exact absurd (subject.trans same) (unused quad old here).1
    · exact description_follow new goes

theorem owns_record_other {triples : Nat} {iri : String} {node : Node} (unused : Unmentioned (boot.checksum bundle.graph) data)
    (apart : ¬Store.Owns data Ns.gBundles (.named iri) (.named bundle.graph))
    (owns : Store.Owns (record digester boot bundle triples data) Ns.gBundles (.named iri) node) :
    Store.Owns data Ns.gBundles (.named iri) node := by
  induction owns with
  | refl => exact Relation.ReflTransGen.refl
  | tail _ edge ih =>
    obtain ⟨quad, mem, subject, goes⟩ := mem_edges.1 edge
    obtain ⟨held, graph⟩ := Dataset.mem_matching.1 mem
    rcases mem_record.1 held with ⟨old, _⟩ | new
    · exact ih.tail (mem_edges.2 ⟨quad, Dataset.mem_matching.2 ⟨old, graph⟩, subject, goes⟩)
    · unfold description at new
      rcases List.mem_append.1 new with whole | checksum
      · rw [← subject, (Rdf.Build.mem_finish.1 whole).1] at ih
        exact absurd ih apart
      · rw [← subject, (Rdf.Build.mem_finish.1 checksum).1] at ih
        exact absurd ih (owns_unused unused)

theorem Filed.reload (filed : Filed boot.build data) (among : bundle ∈ boot.build.bundles)
    (unused : Unmentioned (boot.checksum bundle.graph) data) : Filed boot.build (reload digester boot bundle data) := by
  have mine := boot.build.reserved bundle among
  have loaded := @Unmentioned.load _ boot bundle data _ ((bundle.triples platform boot.base).getD []).length unused mine
  have others {left : Bundle} (mem : left ∈ boot.build.bundles) (other : left.graph ≠ bundle.graph) {node : Node}
      (owns : Store.Owns (Bundles.reload digester boot bundle data) Ns.gBundles (.named left.graph) node) :
      Store.Owns data Ns.gBundles (.named left.graph) node := by
    refine owns_loadInto mine (owns_record_other loaded ?_ owns)
    intro crosses
    exact filed.apart left mem bundle among other _ (owns_loadInto mine crosses) Relation.ReflTransGen.refl
  constructor
  · intro graph left right first second
    rcases digestRows_reload mine unused first with ⟨same, own⟩ | ⟨other, before⟩
    · rcases digestRows_reload mine unused second with ⟨_, own'⟩ | ⟨other, _⟩
      · rw [own, own']
      · exact absurd same other
    · rcases digestRows_reload mine unused second with ⟨same, _⟩ | ⟨_, before'⟩
      · exact absurd same other
      · exact filed.single graph left right before before'
  · have alone {left right : Bundle} (rightMem : right ∈ boot.build.bundles) (same : left.graph = bundle.graph)
        (different : right.graph ≠ bundle.graph) {node : Node}
        (first : Store.Owns (Bundles.reload digester boot bundle data) Ns.gBundles (.named left.graph) node)
        (second : Store.Owns (Bundles.reload digester boot bundle data) Ns.gBundles (.named right.graph) node) : False := by
      have before := others rightMem different second
      rw [same] at first
      rcases owns_record_own loaded first with rfl | rfl
      · exact filed.apart right rightMem bundle among different _ before Relation.ReflTransGen.refl
      · exact owns_unused unused before
    intro left leftMem right rightMem different node first second
    by_cases leftOwn : left.graph = bundle.graph
    · exact alone rightMem leftOwn (fun same => different (leftOwn.trans same.symm)) first second
    · by_cases rightOwn : right.graph = bundle.graph
      · exact alone leftMem rightOwn leftOwn second first
      · exact filed.apart left leftMem right rightMem different node (others leftMem leftOwn first) (others rightMem rightOwn second)

theorem recorded_reload_own : (bundle.graph, bundle.digest platform boot.base digester) ∈ digestRows (reload digester boot bundle data) := by
  have given : bundle.digest platform boot.base digester ≠ "" := digester.nonempty _
  refine mem_digestRows.2 ⟨.blank (boot.checksum bundle.graph), .simple (bundle.digest platform boot.base digester), ?_, ?_, rfl⟩
  · exact mem_record.2 (Or.inr (description_checksum.2 ⟨rfl, rfl, rfl⟩))
  · refine mem_record.2 (Or.inr (List.mem_append_right _ (Rdf.Build.mem_finish.2 ⟨rfl, rfl, List.mem_append_right _ ?_⟩)))
    unfold Rdf.Build.text
    rw [if_neg given]
    exact List.mem_singleton_self _

theorem follow_checksum {graph : String} {node : Node} :
    follow ⟨.named graph, Ns.t Ns.spdx "checksum", node.term, Ns.gBundles⟩ = some node := by
  have owned : isOwnedSubresource (Ns.t Ns.spdx "checksum") = true := by decide
  cases node with
  | named iri =>
    unfold follow
    exact if_pos owned
  | blank label => rfl

/-- The record of one bundle outlasts that of another. -/
theorem recorded_reload_other {other : Bundle} {digest : String} (filed : Filed boot.build data) (among : bundle ∈ boot.build.bundles)
    (otherAmong : other ∈ boot.build.bundles) (different : other.graph ≠ bundle.graph)
    (recorded : (other.graph, digest) ∈ digestRows data) : (other.graph, digest) ∈ digestRows (reload digester boot bundle data) := by
  have mine := boot.build.reserved bundle among
  have elsewhere {quad : Quad} (here : quad.graph = Ns.gBundles) : quad.graph ≠ bundle.graph := by
    rw [here]
    exact (reserved_apart mine).1.symm
  obtain ⟨node, value, has, held, same⟩ := mem_digestRows.1 recorded
  have owns : Store.Owns data Ns.gBundles (.named other.graph) node := Relation.ReflTransGen.single
    (mem_edges.2 ⟨_, Dataset.mem_matching.2 ⟨has, decide_eq_true rfl⟩, rfl, follow_checksum⟩)
  have spared {target : Node} (theirs : Store.Owns data Ns.gBundles (.named other.graph) target) :
      ¬Store.Owns (loadInto boot bundle ((bundle.triples platform boot.base).getD []).length data) Ns.gBundles (.named bundle.graph) target :=
    fun doomed => filed.apart other otherAmong bundle among different target theirs (owns_loadInto mine doomed)
  refine mem_digestRows.2 ⟨node, value, ?_, ?_, same⟩
  · exact mem_record.2 (Or.inl ⟨(mem_loadInto_other (elsewhere rfl)).2 has, fun doomed => spared Relation.ReflTransGen.refl doomed.2⟩)
  · exact mem_record.2 (Or.inl ⟨(mem_loadInto_other (elsewhere rfl)).2 held, fun doomed => spared owns doomed.2⟩)

/-- What stands while a start works through the bundles: its own digest is recorded for those that are done or were current. -/
structure Filling (digester : Digester) (boot : Boot platform) (rows : List (String × String)) (data : Dataset) (rest : List Bundle) :
    Prop where
  filed : Filed boot.build data
  unused : ∀ bundle ∈ rest, Unmentioned (boot.checksum bundle.graph) data
  recorded : ∀ bundle ∈ boot.build.bundles, bundle ∉ rest ∨ unchanged digester boot rows bundle = true →
    (bundle.graph, bundle.digest platform boot.base digester) ∈ digestRows data

theorem Filling.through {rows : List (String × String)} {rest : List Bundle} (among : ∀ bundle ∈ rest, bundle ∈ boot.build.bundles)
    (apart : (rest.map Bundle.graph).Nodup) (filling : Filling digester boot rows data rest) :
    Filling digester boot rows (rest.foldl (bring digester boot rows) data) [] := by
  induction rest generalizing data with
  | nil => exact filling
  | cons first more ih =>
    rw [List.map_cons, List.nodup_cons] at apart
    have here := among first List.mem_cons_self
    have mine := boot.build.reserved first here
    have distinct {other : Bundle} (mem : other ∈ more) : other.graph ≠ first.graph := fun same =>
      apart.1 (List.mem_map.2 ⟨other, mem, same⟩)
    have next : Filling digester boot rows (bring digester boot rows data first) more := by
      unfold bring
      by_cases current : unchanged digester boot rows first = true
      · rw [if_pos current]
        refine ⟨filling.filed, fun other mem => filling.unused other (List.mem_cons_of_mem _ mem), ?_⟩
        intro bundle known either
        apply filling.recorded bundle known
        by_cases same : bundle = first
        · rw [same]
          exact Or.inr current
        · exact either.imp (fun gone => by simp [same, gone]) id
      · rw [if_neg current]
        have unused := filling.unused first List.mem_cons_self
        refine ⟨filling.filed.reload here unused, ?_, ?_⟩
        · intro other mem
          refine Unmentioned.record ((filling.unused other (List.mem_cons_of_mem _ mem)).load mine) ?_
          exact fun same => distinct mem (boot.checksum_inj same)
        · intro bundle known either
          by_cases same : bundle = first
          · rw [same]
            exact recorded_reload_own
          · have different : bundle.graph ≠ first.graph := fun graphs =>
              same (List.inj_on_of_nodup_map boot.build.apart known here graphs)
            apply recorded_reload_other filling.filed here known different
            exact filling.recorded bundle known (either.imp (fun gone => by simp [same, gone]) id)
    exact ih (fun other mem => among other (List.mem_cons_of_mem _ mem)) apart.2 next

/-- After a start the digest of each bundle is the one that is recorded for it. -/
theorem sync_filed (filed : Filed boot.build data) (drawn : Drawn boot data) :
    Filed boot.build (sync digester boot data) ∧ ∀ bundle ∈ boot.build.bundles,
      (bundle.graph, bundle.digest platform boot.base digester) ∈ digestRows (sync digester boot data) := by
  have start : Filling digester boot (rowsRead boot data) data boot.build.bundles := by
    refine ⟨filed, drawn, ?_⟩
    intro bundle known either
    rcases either with gone | current
    · exact absurd known gone
    · exact recorded_of_unchanged current
  have last := start.through (fun bundle mem => mem) boot.build.apart
  exact ⟨last.filed, fun bundle known => last.recorded bundle known (Or.inl List.not_mem_nil)⟩

theorem storedDigest_of_single {rows : List (String × String)} {graph digest : String} (recorded : (graph, digest) ∈ rows)
    (single : ∀ other, (graph, other) ∈ rows → other = digest) : storedDigest rows graph = some digest := by
  have listed : (graph, digest) ∈ rows.filter (fun row => decide (row.1 = graph)) := List.mem_filter.2 ⟨recorded, decide_eq_true rfl⟩
  unfold storedDigest
  cases last : (rows.filter (fun row => decide (row.1 = graph))).getLast? with
  | none =>
    rw [List.getLast?_eq_none_iff] at last
    rw [last] at listed
    cases listed
  | some row =>
    obtain ⟨mem, same⟩ := List.mem_filter.1 (List.mem_of_getLast? last)
    obtain ⟨here, value⟩ := row
    have graph_ : here = graph := of_decide_eq_true same
    rw [graph_] at mem
    exact congrArg some (single value mem)

end Filing

section Settled

variable {platform : Platform} {digester : Digester} {boot again : Boot platform} {data : Dataset}

theorem description_concept {bundle : Bundle} {digest : String} {triples : Nat} {quad : Quad}
    (mem : quad ∈ description boot bundle digest triples) : quad.object ≠ .named concept := by
  intro object
  have void : concept ≠ Ns.t Ns.void "Dataset" := by decide
  have checksum : concept ≠ Ns.t Ns.spdx "Checksum" := by decide
  have algorithm : concept ≠ Ns.spdx ++ "checksumAlgorithm_sha256" := by decide
  have said {predicate ns localName value : String} : (predicate, Term.named concept) ∉ Rdf.Build.text ns localName value := by
    unfold Rdf.Build.text
    split <;> simp [Term.simple]
  have dated {predicate ns localName value : String} :
      (predicate, Term.named concept) ∉ Rdf.Build.datetime platform ns localName value := by
    unfold Rdf.Build.datetime
    split
    · simp
    · split
      · simp
      · exact said
  have linked {predicate ns localName : String} :
      (predicate, Term.named concept) ∉ Rdf.Build.link platform ns localName (Ns.spdx ++ "checksumAlgorithm_sha256") := by
    unfold Rdf.Build.link
    split
    · simp
    · split <;> simp [Term.simple, algorithm]
  unfold description descriptionStatements checksumStatements at mem
  simp only [List.mem_append, Rdf.Build.mem_finish, Rdf.Build.a, Rdf.Build.int, List.mem_singleton, Prod.mk.injEq, object, said, dated,
    linked, void, checksum, Term.named.injEq, reduceCtorEq, and_false, or_false] at mem

/-- A start brings concepts into bundle graphs only. -/
theorem concept_of_sync {iri graph : String} (unreserved : reserved graph = false)
    (held : (⟨.named iri, Ns.rdfType, .named concept, graph⟩ : Quad) ∈ sync digester boot data) :
    (⟨.named iri, Ns.rdfType, .named concept, graph⟩ : Quad) ∈ data := by
  have among : ∀ bundle ∈ boot.build.bundles, graph ≠ bundle.graph := by
    intro bundle known same
    rw [same, boot.build.reserved bundle known] at unreserved
    cases unreserved
  unfold sync at held
  generalize rowsRead boot data = rows at held
  generalize boot.build.bundles = bundles at among held
  induction bundles generalizing data with
  | nil => exact held
  | cons first rest ih =>
    have before := ih (fun bundle mem => among bundle (List.mem_cons_of_mem _ mem)) held
    unfold bring at before
    split at before
    · exact before
    · rcases mem_record.1 before with ⟨loaded, _⟩ | new
      · exact (mem_loadInto_other (among first List.mem_cons_self)).1 loaded
      · exact absurd rfl (description_concept new)

/-- Version series are claimedSeries to be concepts in the local graph only. -/
theorem claimed_local (written : AsBuilt boot.build data) {iri graph : String} (claims : Claimed (sync digester boot data) iri graph) :
    graph = Ns.gLocal := by
  obtain ⟨open_, stands, _⟩ := claims
  rcases stands with ⟨held, _⟩ | ⟨here, _⟩
  · unfold opened at open_
    rw [Bool.and_eq_true, Bool.not_eq_true', Bool.not_eq_true'] at open_
    have before := concept_of_sync open_.2 held
    rcases written.graphs _ before with known | owned | peers
    · simp only [List.mem_cons, List.not_mem_nil, or_false] at known
      rcases known with here | legacy | bundles
      · exact here
      · exact absurd legacy (by assumption)
      · exact absurd rfl (written.descriptions _ before bundles)
    · rw [open_.2] at owned
      cases owned
    · rw [open_.1] at peers
      cases peers
  · exact here

theorem unmarked_graph {quad : Quad} (mem : quad ∈ unmarked data) : quad.graph ≠ Ns.gLegacyVocab := by
  have local_ : Ns.gLocal ≠ Ns.gLegacyVocab := by decide
  rcases mem_classed.1 (mem_unmarked.1 mem).1 with held | ⟨iri, _, rfl⟩
  · rcases mem_adopted.1 held with ⟨_, other⟩ | ⟨here, _⟩
    · exact other
    · rw [here]
      exact local_
  · exact local_

/-- The corrections find nothing to correct in what they leave. -/
theorem migrated_quiet {iri graph : String} (local_ : ∀ iri graph, Claimed data iri graph → graph = Ns.gLocal) :
    iri ∉ granted (migrate migrations.length data) ∧ (iri, graph) ∉ markers (migrate migrations.length data) ∧
      (iri, graph) ∉ claimedSeries (migrate migrations.length data) := by
  refine ⟨?_, ?_, ?_⟩
  · intro given
    obtain ⟨held, bare, record⟩ := mem_granted.1 given
    obtain ⟨stands, unclaimed⟩ := (migrated_typed concept_unlike).1 held
    have spared {other : String} : ¬Claimed data iri other := fun claims => unclaimed (local_ iri other claims ▸ claims)
    by_cases grants : Granted data iri
    · exact bare classArtifactType (by decide) Ns.gLocal ((migrated_typed classed_unlike).2 ⟨Or.inr ⟨grants, rfl, rfl⟩, spared⟩)
    · apply grants
      refine ⟨?_, ?_, record⟩
      · rcases stands with stands | ⟨_, classed, _⟩
        · exact stands
        · exact absurd classed concept_untyped
      · intro class_ known other stands
        have unlike : class_ ≠ typeArtifactSeries := fun same =>
          (by decide : typeArtifactSeries ∉ conceptClasses) (same ▸ known)
        exact bare class_ known other ((migrated_typed unlike).2 ⟨Or.inl stands, spared⟩)
  · intro marked
    obtain ⟨open_, object, held⟩ := mem_markers.1 marked
    rw [migrate_all] at held
    rcases mem_unclaimed.1 held with ⟨kept, _⟩ | ⟨target, _, same⟩
    · unfold unmarked at kept
      obtain ⟨before, spared⟩ := mem_unmarked.1 kept
      have deleted := spared _ (mem_markers.2 ⟨open_, object, before⟩)
      unfold isProperty at deleted
      rw [decide_eq_false_iff_not] at deleted
      exact deleted ⟨rfl, rfl, rfl⟩
    · exact marker_untyped (Quad.mk.inj same).2.1
  · intro claims
    obtain ⟨open_, held, series⟩ := mem_claimedSeries.1 claims
    obtain ⟨stands, unclaimed⟩ := (migrated_typed concept_unlike).1 held
    apply unclaimed
    rw [migrate_all] at series
    rcases mem_unclaimed.1 series with ⟨kept, _⟩ | ⟨target, listed, same⟩
    · refine ⟨open_, ?_, ?_⟩
      · rcases stands with stands | ⟨_, classed, _⟩
        · exact stands
        · exact absurd classed concept_untyped
      · rcases unmarked_typed.1 kept with stands | ⟨_, classed, _⟩
        · exact stands
        · exact absurd classed series_untyped
    · obtain ⟨subject, -, -, graph_⟩ := Quad.mk.inj same
      rw [Node.named.inj subject, graph_]
      exact claimed_iff.1 listed

/-- A second start of a build writes nothing. -/
theorem quiet_again (written : AsBuilt boot.build data) (drawn : Drawn boot data) (build : again.build = boot.build)
    (base : again.base = boot.base) : Idle digester again (loadVocab digester boot data) := by
  obtain ⟨filed, recorded⟩ := @sync_filed _ digester boot data written.filed drawn
  have rows (row : String × String) : row ∈ digestRows (loadVocab digester boot data) ↔ row ∈ digestRows (sync digester boot data) := by
    apply digestRows_congr
    intro quad here predicate
    exact Bundled.mem_migrate (Or.inr ⟨here, predicate⟩) _
  have local_ : ∀ iri graph, Claimed (sync digester boot data) iri graph → graph = Ns.gLocal := fun _ _ => claimed_local written
  constructor
  · unfold rewritten
    rw [List.filter_eq_nil_iff]
    intro bundle known
    rw [build] at known
    have here : (bundle.graph, bundle.digest platform boot.base digester) ∈ rowsRead again (loadVocab digester boot data) :=
      Library.Orders.Order.mem_arrange.2 ((rows _).2 (recorded bundle known))
    have current : unchanged digester again (rowsRead again (loadVocab digester boot data)) bundle = true := by
      unfold unchanged
      rw [decide_eq_true_eq, base]
      apply storedDigest_of_single here
      intro other mem
      exact filed.single _ _ _ ((rows _).1 (Library.Orders.Order.mem_arrange.1 mem)) (recorded bundle known)
    simp [current]
  · intro quad mem
    unfold loadVocab at mem
    rw [migrate_all] at mem
    rcases mem_unclaimed.1 mem with ⟨kept, _⟩ | ⟨target, listed, rfl⟩
    · exact unmarked_graph kept
    · exact unmarked_graph (mem_claimedSeries.1 listed).2.2
  · exact List.eq_nil_iff_forall_not_mem.2 (fun iri => (@migrated_quiet (sync digester boot data) iri "" local_).1)
  · exact List.eq_nil_iff_forall_not_mem.2 (fun target => (@migrated_quiet (sync digester boot data) target.1 target.2 local_).2.1)
  · exact List.eq_nil_iff_forall_not_mem.2 (fun target => (@migrated_quiet (sync digester boot data) target.1 target.2 local_).2.2)

theorem sync_current_eq (current : rewritten digester boot data = []) : sync digester boot data = data := by
  unfold rewritten at current
  rw [List.filter_eq_nil_iff] at current
  unfold sync
  generalize boot.build.bundles = bundles at current
  induction bundles with
  | nil => rfl
  | cons first rest ih =>
    have here : unchanged digester boot (rowsRead boot data) first = true := by simpa using current first List.mem_cons_self
    rw [List.foldl_cons]
    unfold bring at ih ⊢
    rw [if_pos here]
    exact ih (fun bundle mem => current bundle (List.mem_cons_of_mem _ mem))

end Settled

/-- A second start writes nothing, and a start with unchanged bundles leaves every usable type usable exactly when each of them
that the reference data does not hold survives the corrections. -/
theorem boot_settles_iff (platform : Platform) (digester : Digester) (boot again : Boot platform) (build : again.build = boot.build)
    (base : again.base = boot.base) (reference data : Dataset) (written : AsBuilt boot.build data) (drawn : Drawn boot data) :
    (Idle digester again (loadVocab digester boot data) ∧ (rewritten digester boot data = [] → ∀ iri,
      Usable platform reference data iri → Usable platform reference (loadVocab digester boot data) iri)) ↔
      (rewritten digester boot data = [] → ∀ iri,
        Usable platform reference data iri → heldIn reference iri = none → Survives data iri) := by
  have quiet := @quiet_again _ digester boot again data written drawn build base
  constructor
  · intro right current iri usable unknown
    have after := usable_iff.1 (right.2 current iri usable)
    unfold loadVocab at after
    rw [sync_current_eq current] at after
    rcases after.2 with held | ⟨_, here⟩
    · obtain ⟨found, known, _⟩ := usableIn_iff.2 held
      rw [unknown] at known
      cases known
    · exact survives_iff.1 here
  · intro condition
    refine ⟨quiet, ?_⟩
    intro current iri usable
    have survives := condition current iri usable
    rw [usable_iff] at usable ⊢
    refine ⟨usable.1, usable.2.imp id ?_⟩
    intro here
    refine ⟨here.1, ?_⟩
    unfold loadVocab
    rw [sync_current_eq current]
    exact survives_iff.2 (survives here.1)

section Specimen

open Specimen Registry

def hasher : Digester := ⟨fun text => "#" ++ text, marked_ne_empty, fun _ => ""⟩

/-- A build with one bundle. -/
def smallBuild : Build where
  bundles := [⟨"vocab", "shapes/vocab.ttl", "urn:tar:bundle:vocab", .turtle ""⟩]
  apart := List.nodup_singleton _
  reserved := by
    intro bundle mem
    rw [List.mem_singleton.1 mem]
    show reserved "urn:tar:bundle:vocab" = true
    decide

/-- A start of it; its blank nodes begin with a mark. -/
def smallBoot (mark : String) : Boot (platform []) where
  build := smallBuild
  base := "https://reg.example"
  parses := by
    intro bundle mem
    rw [List.mem_singleton.1 mem]
    rfl
  order := Library.Orders.Order.asStored
  label _ inner := mark ++ inner
  label_inj _ _ _ same := marked_inj same
  checksum graph := mark ++ graph
  checksum_inj _ _ same := marked_inj same
  now := "2026-01-01T00:00:00Z"

def adoptedTerm : String := "https://terms.example/table"

/-- A registry that was started, and has since adopted a type. -/
def adopting : Dataset :=
  sync hasher (smallBoot "a")
    (Library.Runs.run (step (registry [])) State.empty
      [byRoot "t" (.createType { label := "Table", iri := some adoptedTerm })]).data

/-- The same registry, after an artifact was registered as a version of that type. -/
def versioning : Dataset :=
  sync hasher (smallBoot "a")
    (Library.Runs.run (step (registry [])) State.empty
      [byRoot "t" (.createType { label := "Table", iri := some adoptedTerm }),
        byRoot "v" (.createArtifact { title := some "table", isVersionOf := some adoptedTerm })]).data

instance (platform : Platform) (reference data : Dataset) (iri : String) : Decidable (Usable platform reference data iri) :=
  decidable_of_iff ((Domain.Vocabulary.holding platform reference data iri).any (fun held => held.usableAs .type) = true) (by
    unfold Usable
    cases Domain.Vocabulary.holding platform reference data iri with
    | none => simp
    | some held => simp)

theorem small_written {data : Dataset}
    (graphs : ∀ quad ∈ data, quad.graph ∈ [Ns.gLocal, Ns.gLegacyVocab, Ns.gBundles] ∨ reserved quad.graph = true ∨
      startsWith quad.graph Ns.gPeerPrefix = true)
    (descriptions : ∀ quad ∈ data, quad.graph = Ns.gBundles → quad.object ≠ .named concept)
    (single : ∀ left ∈ digestRows data, ∀ right ∈ digestRows data, left.1 = right.1 → left.2 = right.2) :
    AsBuilt smallBuild data := by
  refine ⟨graphs, descriptions, ⟨fun graph left right first second => single _ first _ second rfl, ?_⟩⟩
  intro left leftMem right rightMem different
  rw [List.mem_singleton.1 leftMem, List.mem_singleton.1 rightMem] at different
  exact absurd rfl different

/-- An adopted type stays one. -/
theorem adopted_type_kept : Idle hasher (smallBoot "c") (loadVocab hasher (smallBoot "b") adopting) ∧
    (rewritten hasher (smallBoot "b") adopting = [] → ∀ iri, Usable (platform []) Dataset.empty adopting iri →
      Usable (platform []) Dataset.empty (loadVocab hasher (smallBoot "b") adopting) iri) := by
  obtain ⟨graphs, descriptions, single, drawn, concepts, series, typed, classed⟩ :
      (∀ quad ∈ adopting, quad.graph ∈ [Ns.gLocal, Ns.gLegacyVocab, Ns.gBundles] ∨ reserved quad.graph = true ∨
        startsWith quad.graph Ns.gPeerPrefix = true) ∧
      (∀ quad ∈ adopting, quad.graph = Ns.gBundles → quad.object ≠ .named concept) ∧
      (∀ left ∈ digestRows adopting, ∀ right ∈ digestRows adopting, left.1 = right.1 → left.2 = right.2) ∧
      Drawn (smallBoot "b") adopting ∧ (∀ quad ∈ adopting, quad.object = .named concept → quad.subject = .named adoptedTerm) ∧
      (∀ quad ∈ adopting, quad.object ≠ .named typeArtifactSeries) ∧
      (⟨.named adoptedTerm, Ns.rdfType, .named concept, Ns.gLocal⟩ : Quad) ∈ adopting ∧
      (⟨.named adoptedTerm, Ns.rdfType, .named classArtifactType, Ns.gLocal⟩ : Quad) ∈ adopting := by decide
  apply (boot_settles_iff (platform []) hasher (smallBoot "b") (smallBoot "c") rfl rfl Dataset.empty adopting
    (small_written graphs descriptions single) drawn).2
  intro _ iri usable _
  have unclaimed : ¬Claimed adopting iri Ns.gLocal := by
    intro claims
    rcases claims.2.2 with ⟨held, _⟩ | ⟨_, held, _⟩
    · exact series _ held rfl
    · exact series _ held rfl
  have here : iri = adoptedTerm := by
    rcases (usable_iff.1 usable).2 with ⟨⟨graph, held⟩, _⟩ | ⟨_, ⟨graph, held⟩, _⟩
    · exact absurd held (Dataset.not_mem_empty _)
    · exact Node.named.inj (concepts _ held rfl)
  rw [here] at unclaimed ⊢
  have apart : Ns.gLocal ≠ Ns.gLegacyVocab := by decide
  exact ⟨⟨Ns.gLocal, Or.inl ⟨typed, apart⟩, unclaimed⟩, Or.inl ⟨Ns.gLocal, Or.inl (Or.inl ⟨classed, apart⟩), unclaimed⟩⟩

/-- A type that an artifact was registered as a version of is taken for a series and lost. -/
theorem versioned_type_lost : AsBuilt smallBuild versioning ∧ Drawn (smallBoot "b") versioning ∧
    rewritten hasher (smallBoot "b") versioning = [] ∧ Usable (platform []) Dataset.empty versioning adoptedTerm ∧
      ¬Usable (platform []) Dataset.empty (loadVocab hasher (smallBoot "b") versioning) adoptedTerm := by
  obtain ⟨graphs, descriptions, single, drawn, current, usable, lost⟩ :
      (∀ quad ∈ versioning, quad.graph ∈ [Ns.gLocal, Ns.gLegacyVocab, Ns.gBundles] ∨ reserved quad.graph = true ∨
        startsWith quad.graph Ns.gPeerPrefix = true) ∧
      (∀ quad ∈ versioning, quad.graph = Ns.gBundles → quad.object ≠ .named concept) ∧
      (∀ left ∈ digestRows versioning, ∀ right ∈ digestRows versioning, left.1 = right.1 → left.2 = right.2) ∧
      Drawn (smallBoot "b") versioning ∧ (rewritten hasher (smallBoot "b") versioning).length = 0 ∧
      Usable (platform []) Dataset.empty versioning adoptedTerm ∧
      ¬Usable (platform []) Dataset.empty (loadVocab hasher (smallBoot "b") versioning) adoptedTerm := by decide
  exact ⟨small_written graphs descriptions single, drawn, List.length_eq_zero_iff.1 current, usable, lost⟩

end Specimen

end ToolArtifactRegistry.Laws
