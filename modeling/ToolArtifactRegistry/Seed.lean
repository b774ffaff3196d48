import ToolArtifactRegistry.Bundles
import ToolArtifactRegistry.Domain.Artifact

/-! The graph work of every start: the bundles first, then the corrections to what older builds wrote, each of which
selects its subjects by a pattern of its own. -/
namespace ToolArtifactRegistry.Seed

open Library.Rdf Library.Text Ids Store Rdf.Build Bundles
open Domain.Vocabulary (classArtifactType conceptClasses)
open Domain.Artifact (typeArtifactSeries)

def concept : String := Ns.t Ns.skos "Concept"

/-- The literal that the concept classes replace. -/
def conceptBranch : String := Ns.t Ns.tar "conceptBranch"

/-- The subjects of the retired vocabulary graph of which neither a bundle graph nor the local one says anything. -/
def rescue (data : Dataset) : List String :=
  ((data.matching (inGraph Ns.gLegacyVocab)).filterMap (fun quad => quad.subject.iri?)).eraseDups.filter (fun iri =>
    !data.any (fun quad => about (.named iri) quad && (reserved quad.graph || inGraph Ns.gLocal quad)))

def rescued (data : Dataset) : List Quad :=
  (data.matching (fun quad => inGraph Ns.gLegacyVocab quad && quad.subject.iri?.any (fun iri => decide (iri ∈ rescue data)))).map
    (fun quad => { quad with graph := Ns.gLocal })

/-- What cannot be regenerated moves to the local graph. -/
def moveLegacy (data : Dataset) : Dataset := effect data { insert := rescued data }

def dropLegacy (data : Dataset) : Dataset := clearGraph data Ns.gLegacyVocab

/-- Whether an IRI is shaped like a record of some kind other than a type, by its last two segments. -/
def isARecordThatIsNotAType (iri : String) : Bool :=
  match (split iri (fun c => c == '/')).reverse with
  | id :: kind :: _ => decide (id ≠ "") && (Kind.fromSegment kind).any (fun kind => decide (kind ≠ .type))
  | _ => false

def isType (iri class_ : String) (quad : Quad) : Bool :=
  decide (quad.subject = .named iri ∧ quad.predicate = Ns.rdfType ∧ quad.object = .named class_)

/-- The concepts of the local graph that carry a concept class in no graph. -/
def unclassed (data : Dataset) : List String :=
  ((data.matching (fun quad => decide (quad.graph = Ns.gLocal ∧ quad.predicate = Ns.rdfType ∧ quad.object = .named concept))).filterMap
    (fun quad => quad.subject.iri?)).eraseDups.filter (fun iri =>
      !data.any (fun quad => conceptClasses.any (fun class_ => isType iri class_ quad)))

/-- The terms that are given the class of artifact types. -/
def granted (data : Dataset) : List String := (unclassed data).filter (fun iri => !isARecordThatIsNotAType iri)

def classExistingTypes (data : Dataset) : Dataset :=
  effect data { insert := (granted data).flatMap (fun iri => describeLocal iri (a classArtifactType)) }

/-- The graphs in which a migration rewrites statements. -/
def opened (graph : String) : Bool := !startsWith graph Ns.gPeerPrefix && !reserved graph

def markers (data : Dataset) : List (String × String) :=
  ((data.matching (fun quad => decide (quad.predicate = conceptBranch) && opened quad.graph)).filterMap
    (fun quad => quad.subject.iri?.map (fun iri => (iri, quad.graph)))).eraseDups

def dropBranchMarkers (data : Dataset) : Dataset :=
  effect data { deleteProperties := (markers data).map (fun target => (target.1, conceptBranch, target.2)) }

/-- The version series that are said to be concepts, each in the graph that says so. -/
def claimedSeries (data : Dataset) : List (String × String) :=
  ((data.matching (fun quad => decide (quad.predicate = Ns.rdfType ∧ quad.object = .named concept) && opened quad.graph &&
    data.any (fun other => decide (other.subject = quad.subject ∧ other.predicate = Ns.rdfType ∧
      other.object = .named typeArtifactSeries ∧ other.graph = quad.graph)))).filterMap
    (fun quad => quad.subject.iri?.map (fun iri => (iri, quad.graph)))).eraseDups

/-- All types of a series are cleared and the one it is given back is the series. -/
def unclaimSeriesConcepts (data : Dataset) : Dataset :=
  effect data
    { deleteProperties := (claimedSeries data).map (fun target => (target.1, Ns.rdfType, target.2))
      insert := (claimedSeries data).flatMap (fun target => finish (.named target.1) target.2 (a typeArtifactSeries)) }

/-- The corrections in the order they are made; the retired graph is emptied in two writes. -/
def migrations : List (Dataset → Dataset) := [moveLegacy, dropLegacy, classExistingTypes, dropBranchMarkers, unclaimSeriesConcepts]

def migrate (count : Nat) (data : Dataset) : Dataset := (migrations.take count).foldl (fun data migration => migration data) data

variable {platform : Platform}

def loadVocab (digester : Digester) (boot : Boot platform) (data : Dataset) : Dataset :=
  migrate migrations.length (sync digester boot data)

/-- A start that finds nothing to write: every bundle is current and no migration selects anything. -/
structure Idle (digester : Digester) (boot : Boot platform) (data : Dataset) : Prop where
  bundles : rewritten digester boot data = []
  legacy : ∀ quad ∈ data, quad.graph ≠ Ns.gLegacyVocab
  classes : granted data = []
  markers : markers data = []
  series : claimedSeries data = []

section Effects

variable {data : Dataset} {quad : Quad}

theorem mem_rescued : quad ∈ rescued data ↔
    quad.graph = Ns.gLocal ∧ ({ quad with graph := Ns.gLegacyVocab } : Quad) ∈ data ∧ ∃ iri ∈ rescue data, quad.subject = .named iri := by
  unfold rescued
  rw [List.mem_map]
  constructor
  · intro moved
    obtain ⟨old, mem, rfl⟩ := moved
    obtain ⟨held, here⟩ := Dataset.mem_matching.1 mem
    rw [Bool.and_eq_true] at here
    have graph : old.graph = Ns.gLegacyVocab := of_decide_eq_true here.1
    refine ⟨rfl, ?_, ?_⟩
    · rw [← graph]
      exact held
    · cases subject : old.subject with
      | named iri =>
        rw [subject] at here
        exact ⟨iri, of_decide_eq_true here.2, rfl⟩
      | blank label => rw [subject] at here; cases here.2
  · intro right
    obtain ⟨here, held, iri, listed, subject⟩ := right
    refine ⟨{ quad with graph := Ns.gLegacyVocab }, Dataset.mem_matching.2 ⟨held, ?_⟩, ?_⟩
    · rw [Bool.and_eq_true]
      refine ⟨decide_eq_true rfl, ?_⟩
      show quad.subject.iri?.any _ = true
      rw [subject]
      exact decide_eq_true listed
    · rw [← here]

/-- The retired graph is emptied into the local one. -/
theorem mem_adopted : quad ∈ dropLegacy (moveLegacy data) ↔
    (quad ∈ data ∧ quad.graph ≠ Ns.gLegacyVocab) ∨
      (quad.graph = Ns.gLocal ∧ ({ quad with graph := Ns.gLegacyVocab } : Quad) ∈ data ∧ ∃ iri ∈ rescue data, quad.subject = .named iri) := by
  unfold dropLegacy moveLegacy
  rw [mem_clearGraph]
  have moved : quad ∈ effect data { insert := rescued data } ↔ quad ∈ data ∨ quad ∈ rescued data := Dataset.mem_extend
  rw [moved, mem_rescued]
  constructor
  · intro kept
    obtain ⟨held | here, other⟩ := kept
    · exact Or.inl ⟨held, other⟩
    · exact Or.inr here
  · intro either
    rcases either with ⟨held, other⟩ | here
    · exact ⟨Or.inl held, other⟩
    · refine ⟨Or.inr here, ?_⟩
      rw [here.1]
      decide

theorem isType_iff {iri class_ : String} : isType iri class_ quad = true ↔
    quad.subject = .named iri ∧ quad.predicate = Ns.rdfType ∧ quad.object = .named class_ := decide_eq_true_iff

theorem mem_granted {iri : String} : iri ∈ granted data ↔
    (⟨.named iri, Ns.rdfType, .named concept, Ns.gLocal⟩ : Quad) ∈ data ∧
      (∀ class_ ∈ conceptClasses, ∀ graph, (⟨.named iri, Ns.rdfType, .named class_, graph⟩ : Quad) ∉ data) ∧
        isARecordThatIsNotAType iri = false := by
  have bare : (!data.any (fun quad => conceptClasses.any (fun class_ => isType iri class_ quad))) = true ↔
      ∀ class_ ∈ conceptClasses, ∀ graph, (⟨.named iri, Ns.rdfType, .named class_, graph⟩ : Quad) ∉ data := by
    rw [Bool.not_eq_true', ← Bool.not_eq_true, Dataset.any_eq_true]
    constructor
    · intro none_ class_ known graph held
      exact none_ ⟨_, held, List.any_eq_true.2 ⟨class_, known, isType_iff.2 ⟨rfl, rfl, rfl⟩⟩⟩
    · intro none_ some_
      obtain ⟨quad, held, classed⟩ := some_
      obtain ⟨class_, known, typed⟩ := List.any_eq_true.1 classed
      obtain ⟨subject, predicate, object⟩ := isType_iff.1 typed
      apply none_ class_ known quad.graph
      rw [← subject, ← predicate, ← object]
      exact held
  unfold granted unclassed
  rw [List.mem_filter, List.mem_filter, bare, List.mem_eraseDups, List.mem_filterMap, Bool.not_eq_true', and_assoc]
  apply and_congr_left
  intro _
  constructor
  · intro some_
    obtain ⟨quad, mem, named⟩ := some_
    obtain ⟨held, here⟩ := Dataset.mem_matching.1 mem
    obtain ⟨graph, predicate, object⟩ := of_decide_eq_true here
    cases subject : quad.subject with
    | named other =>
      rw [subject] at named
      cases Option.some.inj named
      rw [← subject, ← predicate, ← object, ← graph]
      exact held
    | blank label => rw [subject] at named; cases named
  · intro held
    exact ⟨_, Dataset.mem_matching.2 ⟨held, decide_eq_true ⟨rfl, rfl, rfl⟩⟩, rfl⟩

theorem mem_classed : quad ∈ classExistingTypes data ↔
    quad ∈ data ∨ ∃ iri ∈ granted data, quad = ⟨.named iri, Ns.rdfType, .named classArtifactType, Ns.gLocal⟩ := by
  unfold classExistingTypes
  have extended : quad ∈ effect data { insert := (granted data).flatMap (fun iri => describeLocal iri (a classArtifactType)) } ↔
      quad ∈ data ∨ quad ∈ (granted data).flatMap (fun iri => describeLocal iri (a classArtifactType)) := Dataset.mem_extend
  rw [extended, List.mem_flatMap]
  simp only [describeLocal, finish, a, List.map_cons, List.map_nil, List.mem_singleton]

theorem mem_markers {iri graph : String} : (iri, graph) ∈ markers data ↔
    opened graph = true ∧ ∃ object, (⟨.named iri, conceptBranch, object, graph⟩ : Quad) ∈ data := by
  unfold markers
  rw [List.mem_eraseDups, List.mem_filterMap]
  constructor
  · intro some_
    obtain ⟨⟨subject, predicate, object, here⟩, mem, named⟩ := some_
    obtain ⟨held, marks⟩ := Dataset.mem_matching.1 mem
    rw [Bool.and_eq_true, decide_eq_true_eq] at marks
    cases subject with
    | named other =>
      obtain ⟨rfl, rfl⟩ := Prod.mk.inj (Option.some.inj named)
      obtain ⟨rfl, open_⟩ := marks
      exact ⟨open_, object, held⟩
    | blank label => cases named
  · intro right
    obtain ⟨open_, object, held⟩ := right
    refine ⟨_, Dataset.mem_matching.2 ⟨held, ?_⟩, rfl⟩
    rw [Bool.and_eq_true]
    exact ⟨decide_eq_true rfl, open_⟩

theorem mem_deleteProperties {targets : List (String × String × String)} : quad ∈ targets.foldl deleteProperty data ↔
    quad ∈ data ∧ ∀ target ∈ targets, isProperty target quad = false := by
  induction targets generalizing data with
  | nil => simp
  | cons target rest ih =>
    rw [List.foldl_cons, ih, mem_deleteProperty, and_assoc, List.forall_mem_cons]

theorem mem_unmarked : quad ∈ dropBranchMarkers data ↔
    quad ∈ data ∧ ∀ target ∈ markers data, isProperty (target.1, conceptBranch, target.2) quad = false := by
  unfold dropBranchMarkers
  have left : quad ∈ effect data { deleteProperties := (markers data).map (fun target => (target.1, conceptBranch, target.2)) } ↔
      quad ∈ ((markers data).map (fun target => (target.1, conceptBranch, target.2))).foldl deleteProperty data := Iff.rfl
  rw [left, mem_deleteProperties, List.forall_mem_map]

theorem mem_claimedSeries {iri graph : String} : (iri, graph) ∈ claimedSeries data ↔
    opened graph = true ∧ (⟨.named iri, Ns.rdfType, .named concept, graph⟩ : Quad) ∈ data ∧
      (⟨.named iri, Ns.rdfType, .named typeArtifactSeries, graph⟩ : Quad) ∈ data := by
  unfold claimedSeries
  rw [List.mem_eraseDups, List.mem_filterMap]
  constructor
  · intro some_
    obtain ⟨⟨subject, predicate, object, here⟩, mem, named⟩ := some_
    obtain ⟨held, claims⟩ := Dataset.mem_matching.1 mem
    rw [Bool.and_eq_true, Bool.and_eq_true, decide_eq_true_eq, Dataset.any_eq_true] at claims
    obtain ⟨⟨⟨rfl, rfl⟩, open_⟩, other, series, typed⟩ := claims
    have same : other = ⟨subject, Ns.rdfType, .named typeArtifactSeries, here⟩ := by
      cases other
      simpa using of_decide_eq_true typed
    rw [same] at series
    cases subject with
    | named other =>
      obtain ⟨rfl, rfl⟩ := Prod.mk.inj (Option.some.inj named)
      exact ⟨open_, held, series⟩
    | blank label => cases named
  · intro right
    obtain ⟨open_, held, series⟩ := right
    refine ⟨_, Dataset.mem_matching.2 ⟨held, ?_⟩, rfl⟩
    rw [Bool.and_eq_true, Bool.and_eq_true, Dataset.any_eq_true]
    exact ⟨⟨decide_eq_true ⟨rfl, rfl⟩, open_⟩, _, series, decide_eq_true ⟨rfl, rfl, rfl, rfl⟩⟩

theorem mem_unclaimed : quad ∈ unclaimSeriesConcepts data ↔
    (quad ∈ data ∧ ∀ target ∈ claimedSeries data, isProperty (target.1, Ns.rdfType, target.2) quad = false) ∨
      ∃ target ∈ claimedSeries data, quad = ⟨.named target.1, Ns.rdfType, .named typeArtifactSeries, target.2⟩ := by
  unfold unclaimSeriesConcepts effect
  rw [Dataset.mem_extend]
  dsimp only [List.foldl_nil]
  rw [mem_deleteProperties, List.forall_mem_map, List.mem_flatMap]
  simp only [finish, a, List.map_cons, List.map_nil, List.mem_singleton]

theorem mem_moveLegacy : quad ∈ moveLegacy data ↔ quad ∈ data ∨ quad ∈ rescued data := Dataset.mem_extend

/-- What a bundle graph holds, and the digests recorded of the bundles. -/
def Bundled (quad : Quad) : Prop :=
  reserved quad.graph = true ∨
    (quad.graph = Ns.gBundles ∧ quad.predicate ∈ [Ns.t Ns.spdx "checksum", Ns.t Ns.spdx "checksumValue"])

theorem Bundled.graphs (bundled : Bundled quad) : quad.graph ≠ Ns.gLocal ∧ quad.graph ≠ Ns.gLegacyVocab := by
  rcases bundled with owned | ⟨here, _⟩
  · exact ⟨(reserved_apart owned).2.1, (reserved_apart owned).2.2.1⟩
  · rw [here]
    decide

/-- Statements of another predicate than these are rewritten in no graph that is closed to migrations. -/
theorem Bundled.spared (bundled : Bundled quad) {predicate : String} (rewritten : predicate ∈ [conceptBranch, Ns.rdfType])
    {target : String × String} (open_ : opened target.2 = true) : isProperty (target.1, predicate, target.2) quad = false := by
  unfold isProperty
  rw [decide_eq_false_iff_not]
  intro same
  obtain ⟨-, predicate_, graph⟩ := same
  dsimp only at predicate_ graph
  rcases bundled with owned | ⟨-, recorded⟩
  · unfold opened at open_
    rw [← graph, owned] at open_
    simp at open_
  · rw [predicate_] at recorded
    exact absurd recorded
      ((by decide : ∀ predicate ∈ [conceptBranch, Ns.rdfType], predicate ∉ [Ns.t Ns.spdx "checksum", Ns.t Ns.spdx "checksumValue"])
        predicate rewritten)

/-- No migration changes what is bundled. -/
theorem Bundled.migration (bundled : Bundled quad) {migration : Dataset → Dataset} (listed : migration ∈ migrations) :
    quad ∈ migration data ↔ quad ∈ data := by
  have elsewhere := bundled.graphs
  simp only [migrations, List.mem_cons, List.not_mem_nil, or_false] at listed
  rcases listed with rfl | rfl | rfl | rfl | rfl
  · rw [mem_moveLegacy, mem_rescued]
    simp only [elsewhere.1, false_and, or_false]
  · unfold dropLegacy
    rw [mem_clearGraph]
    simp only [elsewhere.2, ne_eq, not_false_eq_true, and_true]
  · rw [mem_classed]
    constructor
    · intro either
      rcases either with held | ⟨iri, _, rfl⟩
      · exact held
      · exact absurd rfl elsewhere.1
    · exact Or.inl
  · rw [mem_unmarked]
    exact and_iff_left (fun target mem => bundled.spared List.mem_cons_self (mem_markers.1 mem).1)
  · rw [mem_unclaimed]
    have spared : ∀ target ∈ claimedSeries data, isProperty (target.1, Ns.rdfType, target.2) quad = false := fun target mem =>
      bundled.spared (List.mem_cons_of_mem _ List.mem_cons_self) (mem_claimedSeries.1 mem).1
    constructor
    · intro either
      rcases either with ⟨held, _⟩ | ⟨target, mem, same⟩
      · exact held
      · have typed : isProperty (target.1, Ns.rdfType, target.2) quad = true := by
          rw [same]
          exact decide_eq_true ⟨rfl, rfl, rfl⟩
        rw [spared target mem] at typed
        cases typed
    · intro held
      exact Or.inl ⟨held, spared⟩

theorem Bundled.mem_migrate (bundled : Bundled quad) (count : Nat) : quad ∈ migrate count data ↔ quad ∈ data := by
  unfold migrate
  have listed : ∀ migration ∈ migrations.take count, migration ∈ migrations := fun migration mem => List.mem_of_mem_take mem
  generalize migrations.take count = some_ at listed
  induction some_ generalizing data with
  | nil => exact Iff.rfl
  | cons first rest ih =>
    have later := @ih (first data) (fun other mem => listed other (List.mem_cons_of_mem _ mem))
    exact later.trans (bundled.migration (listed first List.mem_cons_self))

end Effects

end ToolArtifactRegistry.Seed
