import ToolArtifactRegistry.Api.Openlineage
import ToolArtifactRegistry.Api.Prints

/-! The print of an advertisement and of an ingested event: the run, the artifacts that are new,
and the artifacts that are linked to it. -/
namespace ToolArtifactRegistry

open Library.Rdf Library.Serde Ids Model Store Rdf Build Auth Domain

namespace Ops

theorem lookup_remember {κ : Type} [DecidableEq κ] (table : List (κ × String)) (key other : κ) (value : String) :
    lookup (remember table key value) other = (lookup table other).or (if other = key then some value else none) := by
  have appended : lookup (table ++ [(key, value)]) other =
      (lookup table other).or (if other = key then some value else none) := by
    simp only [lookup, List.find?_append, Option.map_or]
    congr 1
    by_cases same : other = key
    · simp [same]
    · have apart : ¬key = other := fun back => same back.symm
      simp [same, apart]
  unfold remember
  split
  · rename_i held
    by_cases same : other = key
    · obtain ⟨found, here⟩ := Option.isSome_iff_exists.1 held
      simp [same, here]
    · simp [same]
  · exact appended

theorem artifactForKey_rememberArtifact (ops : Ops) (key other iri : String) :
    (ops.rememberArtifact key iri).artifactForKey other =
      (ops.artifactForKey other).or (if other = key then some iri else none) :=
  lookup_remember ops.artifactKeys key other iri

end Ops

namespace Api.Advertise

/-- A transaction in the making keeps within a print. The artifacts known by a key stay known, and
those that are new were minted on the way. -/
structure Within (ops : Ops) (print : Print) (minted : List String) (p : Progress) : Prop where
  graphs : p.tx.clearGraphs = []
  subjects : p.tx.deleteSubjects = []
  properties : ∀ target ∈ p.tx.deleteProperties, (target.1, target.2.1) ∈ print.reset
  inserted : ∀ quad ∈ p.tx.insert, Spoken print.blocks quad
  kept : ∀ key iri, ops.artifactForKey key = some iri → p.ops.artifactForKey key = some iri
  known : ∀ key iri, p.ops.artifactForKey key = some iri → ops.artifactForKey key = some iri ∨ iri ∈ minted
  tokens : p.ops.tokens = ops.tokens

namespace Within

variable {ops : Ops} {print : Print} {minted : List String} {p : Progress}

theorem start (ops : Ops) (print : Print) (minted : List String) : Within ops print minted { ops := ops } :=
  ⟨rfl, rfl, by simp, by simp, fun _ _ held => held, fun _ _ held => Or.inl held, rfl⟩

theorem extend (within : Within ops print minted p) {quads : List Quad}
    (spoken : ∀ quad ∈ quads, Spoken print.blocks quad) : Within ops print minted (p.extend quads) where
  graphs := within.graphs
  subjects := within.subjects
  properties := within.properties
  inserted quad mem := (List.mem_append.1 mem).elim (within.inserted quad) (spoken quad)
  kept := within.kept
  known := within.known
  tokens := within.tokens

/-- Tables other than those of artifacts and tokens do not matter. -/
theorem setOps (within : Within ops print minted p) {other : Progress} (tx : other.tx = p.tx)
    (artifacts : other.ops.artifactKeys = p.ops.artifactKeys) (tokens : other.ops.tokens = p.ops.tokens) :
    Within ops print minted other := by
  have same : ∀ key, other.ops.artifactForKey key = p.ops.artifactForKey key := by
    intro key
    simp only [Ops.artifactForKey, artifacts]
  constructor
  · rw [tx]; exact within.graphs
  · rw [tx]; exact within.subjects
  · rw [tx]; exact within.properties
  · rw [tx]; exact within.inserted
  · intro key iri held
    rw [same]
    exact within.kept key iri held
  · intro key iri held
    rw [same] at held
    exact within.known key iri held
  · rw [tokens]; exact within.tokens

theorem rememberArtifact (within : Within ops print minted p) {key iri : String} (new : iri ∈ minted) :
    Within ops print minted { p with ops := p.ops.rememberArtifact key iri } where
  graphs := within.graphs
  subjects := within.subjects
  properties := within.properties
  inserted := within.inserted
  kept other known held := by
    rw [Ops.artifactForKey_rememberArtifact, within.kept other known held]
    rfl
  known other found held := by
    rw [Ops.artifactForKey_rememberArtifact] at held
    cases before : p.ops.artifactForKey other with
    | some known =>
      rw [before] at held
      exact within.known other found (before.trans held)
    | none =>
      rw [before] at held
      split at held
      · cases held
        exact Or.inr new
      · cases held
  tokens := within.tokens

theorem queueResolve_tables (ops : Ops) (iri : String) :
    (ops.queueResolve iri).artifactKeys = ops.artifactKeys ∧ (ops.queueResolve iri).tokens = ops.tokens := by
  unfold Ops.queueResolve
  split <;> exact ⟨rfl, rfl⟩

theorem claim_tables (ops : Ops) (runIri iri role : String) :
    (ops.claimAdvertisement runIri iri role).2.artifactKeys = ops.artifactKeys ∧
      (ops.claimAdvertisement runIri iri role).2.tokens = ops.tokens := by
  unfold Ops.claimAdvertisement
  simp only []
  split <;> exact ⟨rfl, rfl⟩

theorem reference {server : Server} {data : Dataset} (within : Within ops print minted p) (iri : String) :
    Within ops print minted (Advertise.reference server data p iri) := by
  unfold Advertise.reference
  split
  · exact within
  · split
    · exact within.setOps rfl rfl rfl
    · split
      · exact within
      · exact within.setOps rfl (queueResolve_tables _ _).1 (queueResolve_tables _ _).2

end Within

/-- The write may say this of that node. -/
def Allows (print : Print) (node : Node) (predicate : String) : Prop :=
  ∃ block ∈ print.blocks, node ∈ block.nodes ∧ predicate ∈ block.vocabulary

theorem spoken_of_link {platform : Platform} {print : Print} {iri target ns localName : String} {quad : Quad}
    (allows : Allows print (.named iri) (Ns.t ns localName))
    (mem : quad ∈ describeLocal iri (link platform ns localName target)) : Spoken print.blocks quad := by
  obtain ⟨subject, graph, said⟩ := mem_finish.1 mem
  obtain ⟨block, inPrint, node, predicate⟩ := allows
  have only : quad.predicate = Ns.t ns localName := only_link platform ns localName target _ said
  exact ⟨graph, block, inPrint, subject ▸ node, only ▸ predicate⟩

/-- The link of an advertisement goes from the run, or from the artifact it produced. -/
theorem Within.claim {ops : Ops} {print : Print} {minted : List String} {p : Progress} {platform : Platform}
    {runIri iri : String} {role : Role} (within : Within ops print minted p)
    (used : Allows print (.named runIri) (Ns.t Ns.prov "used"))
    (generated : role = .produced → Allows print (.named iri) (Ns.t Ns.prov "wasGeneratedBy")) :
    Within ops print minted (p.claim platform runIri iri role) := by
  have tables := claim_tables p.ops runIri iri role.asStr
  have claimed : Within ops print minted { p with ops := (p.ops.claimAdvertisement runIri iri role.asStr).2 } :=
    within.setOps rfl tables.1 tables.2
  unfold Progress.claim
  simp only []
  split
  · refine (claimed.extend ?_).setOps rfl rfl rfl
    intro quad mem
    cases role with
    | consumed => exact spoken_of_link used mem
    | produced => exact spoken_of_link (generated rfl) mem
  · exact claimed

section Run

def outcomeVocabulary : List String :=
  [Ns.t Ns.prov "endedAtTime", Ns.t Ns.tar "status", Ns.t Ns.schema "actionStatus"]

/-- What a run is said to be, what it used, and the event it came from. -/
def runVocabulary : List String :=
  Footprint.runVocabulary ++
    [Ns.t Ns.prov "used", Ns.t Ns.tar "openLineagePayload", Ns.t Ns.tar "claimedNamespace"]

/-- The run of an advertisement: written, or its outcome brought up to date, with what it used and
the event it came from. -/
def runPrint (runIri : String) (association : Node) : Print where
  reset := outcomeVocabulary.map (fun predicate => (runIri, predicate))
  blocks := recordBlocks runIri runVocabulary [association]

theorem outcome_known : ∀ predicate ∈ outcomeVocabulary, predicate ∈ Footprint.runVocabulary := by
  simp [outcomeVocabulary, Footprint.runVocabulary]

theorem Within.replaceProperty {ops : Ops} {print : Print} {minted : List String} {p : Progress} {iri predicate : String}
    (within : Within ops print minted p) (reset : (iri, predicate) ∈ print.reset) :
    Within ops print minted { p with tx := p.tx.replaceProperty iri predicate Ns.gLocal } where
  graphs := within.graphs
  subjects := within.subjects
  properties target mem := by
    rcases List.mem_append.1 mem with before | here
    · exact within.properties target before
    · rw [List.mem_singleton.1 here]
      exact reset
  inserted := within.inserted
  kept := within.kept
  known := within.known
  tokens := within.tokens

theorem Within.updateRunOutcome {ops : Ops} {print : Print} {minted : List String} {p : Progress} {platform : Platform}
    {runIri : String} {run : RunIn} (within : Within ops print minted p)
    (reset : ∀ predicate ∈ outcomeVocabulary, (runIri, predicate) ∈ print.reset)
    (allows : ∀ predicate ∈ outcomeVocabulary, Allows print (.named runIri) predicate) :
    Within ops print minted { p with tx := Run.updateRunOutcome platform p.tx runIri run } := by
  have spoken {statements : List Statement} (speaks : Speaks outcomeVocabulary statements) :
      ∀ quad ∈ describeLocal runIri statements, Spoken print.blocks quad := by
    intro quad mem
    obtain ⟨subject, graph, said⟩ := mem_finish.1 mem
    obtain ⟨block, inPrint, node, predicate⟩ := allows _ (speaks _ said)
    exact ⟨graph, block, inPrint, subject ▸ node, predicate⟩
  have endSpeaks : Speaks outcomeVocabulary (optDatetime platform Ns.prov "endedAtTime" run.endedAt) :=
    speaks_optDatetime _ _ (by simp [outcomeVocabulary])
  have resets : (runIri, Ns.prov ++ "endedAtTime") ∈ print.reset ∧ (runIri, Ns.tar ++ "status") ∈ print.reset ∧
      (runIri, Ns.schema ++ "actionStatus") ∈ print.reset :=
    ⟨reset _ (by simp [outcomeVocabulary, Ns.t]), reset _ (by simp [outcomeVocabulary, Ns.t]),
      reset _ (by simp [outcomeVocabulary, Ns.t])⟩
  let tx := if run.endedAt.isSome then p.tx.replaceProperty runIri (Ns.prov ++ "endedAtTime") Ns.gLocal else p.tx
  have ended : Within ops print minted { p with tx := tx } := by
    unfold tx
    split
    · exact within.replaceProperty resets.1
    · exact within
  unfold Run.updateRunOutcome
  split
  · exact within
  · simp only []
    split
    · refine ((ended.replaceProperty resets.2.1).replaceProperty resets.2.2).extend (spoken ?_)
      simp only [speaks_append]
      exact ⟨⟨endSpeaks, speaks_text _ (by simp [outcomeVocabulary])⟩,
        speaks_optLink _ _ (by simp [outcomeVocabulary])⟩
    · exact ended.extend (spoken endSpeaks)

theorem runPrint_allows {runIri predicate : String} {association : Node}
    (known : predicate ∈ runVocabulary) :
    Allows (runPrint runIri association) (.named runIri) predicate :=
  ⟨_, List.mem_cons_self, List.mem_singleton.2 rfl, known⟩

/-- The run of an advertisement keeps within its own print. -/
theorem resolveRun_within {server : Server} {draw : Draw} {principal : Principal} {instanceIri : String} {run : RunIn}
    {ops : Ops} {print : Print} {minted : List String}
    (large : ∀ target ∈ (runPrint (resolveRun server draw principal instanceIri run { ops := ops }).1
      (Run.associationNode (draw.site 1))).reset, target ∈ print.reset)
    (within : ∀ block ∈ (runPrint (resolveRun server draw principal instanceIri run { ops := ops }).1
      (Run.associationNode (draw.site 1))).blocks, block ∈ print.blocks) :
    Within ops print minted (resolveRun server draw principal instanceIri run { ops := ops }).2 := by
  have start := Within.start ops print minted
  unfold resolveRun at large within ⊢
  split
  · rename_i iri found
    rw [found] at large within
    refine start.updateRunOutcome ?_ ?_
    · intro predicate mem
      exact large _ (List.mem_map.2 ⟨predicate, mem, rfl⟩)
    · intro predicate mem
      obtain ⟨block, inPrint, known⟩ : Allows (runPrint iri (Run.associationNode (draw.site 1))) (.named iri) predicate :=
        runPrint_allows (List.mem_append_left _ (outcome_known predicate mem))
      exact ⟨block, within block inPrint, known⟩
  · rename_i absent
    rw [absent] at large within
    have written : Within ops print minted (({ ops := ops } : Progress).extend (Run.runQuads server.platform
        (mint server.base .run (draw.site 0)) (draw.site 1) run instanceIri principal.subject)) := by
      apply start.extend
      intro quad mem
      refine Spoken.mono (spoken_of_written (Footprint.mem_runQuads server.platform mem) ?_) within
      exact (Footprint.run_speaks server.platform (draw.site 1) run instanceIri principal.subject).mono
        (fun predicate => List.mem_append_left _)
    simp only []
    split
    · exact written.setOps rfl rfl rfl
    · exact written.setOps rfl rfl rfl

end Run

section Entries

variable (server : Server)

/-- The artifact an entry names, or the one its key is known to stand for. -/
def entryTargets (ops : Ops) (run : RunIn) (a : ArtifactIn) : List String :=
  match nonEmpty a.iri with
  | some iri => [iri]
  | none => ((artifactKey server run a).bind ops.artifactForKey).toList

/-- The blocks of an entry: the links of the artifacts it stands for, or a new artifact. -/
def entryBlocks (targets : List String) (draw : Draw) (role : Role) (a : ArtifactIn) : List Block :=
  if targets.isEmpty then
    recordBlocks (mint server.base .artifact (draw.site 0)) Footprint.artifactVocabulary
      (Footprint.artifactNodes server.base server.platform (mint server.base .artifact (draw.site 0)) (draw.site 1) a)
  else if role = .produced then [⟨targets.map Node.named, [Ns.t Ns.prov "wasGeneratedBy"]⟩]
  else []

/-- An artifact to be added: what it already stands for, its draw, and what is said about it. -/
structure Entry where
  targets : List String
  draw : Draw
  artifact : ArtifactIn

def Entry.minted (entry : Entry) : List String :=
  if entry.targets.isEmpty then [mint server.base .artifact (entry.draw.site 0)] else []

def entriesPrint (role : Role) (entries : List Entry) : Print where
  blocks := entries.flatMap (fun entry => entryBlocks server entry.targets entry.draw role entry.artifact)

def mintedBy (entries : List Entry) : List String := entries.flatMap (Entry.minted server)

/-- The entries of an advertisement, at the sites they are drawn from. -/
def entriesOf (ops : Ops) (draw : Draw) (run : RunIn) (artifacts : List ArtifactIn) : List Entry :=
  artifacts.zipIdx.map (fun entry => ⟨entryTargets server ops run entry.1, draw.site entry.2, entry.1⟩)

def print (state : State) (draw : Draw) (principal : Principal) (input : AdvertiseIn) (role : Role) : Print :=
  match admitted server state.data (draw.site 0) principal input role with
  | .error _ => {}
  | .ok instanceIri =>
    let run := runInput server input.run
    (runPrint (resolveRun server (draw.site 1) principal instanceIri run { ops := state.ops }).1
      (Run.associationNode ((draw.site 1).site 1))).append
      (entriesPrint server role (entriesOf server state.ops (draw.site 2) run input.artifacts))

variable {server} {ops : Ops} {print : Print} {minted : List String} {p : Progress}

/-- An entry that is part of a print: its blocks are, and what it mints is known to be minted. -/
structure Part (server : Server) (print : Print) (minted : List String) (role : Role) (entry : Entry) : Prop where
  blocks : ∀ block ∈ entryBlocks server entry.targets entry.draw role entry.artifact, block ∈ print.blocks
  fresh : ∀ iri ∈ entry.minted server, iri ∈ minted

theorem Part.of_mem {role : Role} {entries : List Entry} {entry : Entry} (mem : entry ∈ entries)
    (blocks : ∀ block ∈ (entriesPrint server role entries).blocks, block ∈ print.blocks)
    (fresh : ∀ iri ∈ mintedBy server entries, iri ∈ minted) : Part server print minted role entry :=
  ⟨fun block inEntry => blocks block (List.mem_flatMap.2 ⟨entry, mem, inEntry⟩),
    fun iri inEntry => fresh iri (List.mem_flatMap.2 ⟨entry, mem, inEntry⟩)⟩

theorem Part.targets_allowed {role : Role} {entry : Entry} (part : Part server print minted role entry) {iri : String}
    (target : iri ∈ entry.targets) (produced : role = .produced) :
    Allows print (.named iri) (Ns.t Ns.prov "wasGeneratedBy") := by
  have some_ : entry.targets.isEmpty = false := by
    cases held : entry.targets with
    | nil => simp [held] at target
    | cons _ _ => rfl
  refine ⟨⟨entry.targets.map Node.named, [Ns.t Ns.prov "wasGeneratedBy"]⟩, part.blocks _ ?_, ?_, List.mem_cons_self⟩
  · simp [entryBlocks, some_, produced]
  · exact List.mem_map.2 ⟨iri, target, rfl⟩

/-- Describing a new artifact keeps within the entry's part of the print. -/
theorem Part.described {role : Role} {entry : Entry} (part : Part server print minted role entry)
    (none_ : entry.targets = []) (within : Within ops print minted p) {actor : String} {runIri : Option String} :
    Within ops print minted (p.extend (Artifact.artifactQuads server.platform server.base
      (mint server.base .artifact (entry.draw.site 0)) (entry.draw.site 1) entry.artifact actor runIri)) := by
  apply within.extend
  intro quad mem
  refine (artifactQuads_spoken mem).mono ?_
  intro block inRecord
  exact part.blocks block (by simpa [entryBlocks, none_] using inRecord)

/-- Every minted artifact may be said to be generated by a run. -/
def Generates (print : Print) (minted : List String) : Prop :=
  ∀ iri ∈ minted, Allows print (.named iri) (Ns.t Ns.prov "wasGeneratedBy")

theorem generates_of_entries {role : Role} {entries : List Entry}
    (blocks : ∀ block ∈ (entriesPrint server role entries).blocks, block ∈ print.blocks) :
    Generates print (mintedBy server entries) := by
  intro iri mem
  obtain ⟨entry, inEntries, here⟩ := List.mem_flatMap.1 mem
  unfold Entry.minted at here
  split at here
  · rename_i none_
    rw [List.mem_singleton] at here
    refine ⟨⟨[.named iri], Footprint.artifactVocabulary⟩, blocks _ (List.mem_flatMap.2 ⟨entry, inEntries, ?_⟩),
      List.mem_cons_self, ?_⟩
    · rw [entryBlocks, if_pos none_, here]
      exact List.mem_cons_self
    · simp [Footprint.artifactVocabulary]
  · simp at here

theorem foldl_reference {data : Dataset} (parents : List String) (within : Within ops print minted p) :
    Within ops print minted (parents.foldl
      (fun p parent => if p.failed.isSome then p else Advertise.reference server data p parent) p) := by
  induction parents generalizing p with
  | nil => exact within
  | cons parent rest ih =>
    apply ih
    beta_reduce
    split
    · exact within
    · exact within.reference parent

/-- The artifact of an entry is one of its targets, or one that was minted. -/
theorem entryIri_within {data : Dataset} {draw : Draw} {principal : Principal} {run : RunIn} {runIri : String}
    {role : Role} {a : ArtifactIn} (part : Part server print minted role ⟨entryTargets server ops run a, draw, a⟩)
    (within : Within ops print minted p) :
    Within ops print minted (entryIri server data draw principal run runIri role p a).2 ∧
      ∀ iri, (entryIri server data draw principal run runIri role p a).1 = some iri →
        iri ∈ entryTargets server ops run a ∨ iri ∈ minted := by
  unfold entryIri
  cases named : nonEmpty a.iri with
  | some iri =>
    simp only []
    refine ⟨within.reference iri, ?_⟩
    intro other found
    split at found
    · cases found
    · cases found
      exact Or.inl (by simp [entryTargets, named])
  | none =>
    simp only [describeArtifact]
    split
    · rename_i iri held
      refine ⟨within, ?_⟩
      rintro other ⟨⟩
      obtain ⟨key, keyed, here⟩ := Option.bind_eq_some_iff.1 held
      rcases within.known key iri here with before | new
      · exact Or.inl (by simp [entryTargets, named, keyed, before])
      · exact Or.inr new
    · rename_i unknown
      have none_ : entryTargets server ops run a = [] := by
        rw [entryTargets, named]
        cases keyed : artifactKey server run a with
        | none => rfl
        | some key =>
          rw [keyed] at unknown
          cases before : ops.artifactForKey key with
          | none => simp [before]
          | some iri => exact absurd ((within.kept key iri before).symm.trans unknown) (by simp)
      have parents : Within ops print minted (a.wasDerivedFrom.foldl
          (fun p parent => if p.failed.isSome then p else Advertise.reference server data p parent)
          (p.extend (Artifact.artifactQuads server.platform server.base (mint server.base .artifact (draw.site 0))
            (draw.site 1) a principal.subject (if role = .produced then some runIri else none)))) :=
        foldl_reference a.wasDerivedFrom (part.described none_ within)
      have fresh : mint server.base .artifact (draw.site 0) ∈ minted := part.fresh _ (by simp [Entry.minted, none_])
      generalize a.wasDerivedFrom.foldl
        (fun p parent => if p.failed.isSome then p else Advertise.reference server data p parent) _ = next at parents ⊢
      split
      · exact ⟨parents, by simp⟩
      · refine ⟨?_, fun iri found => Or.inr (Option.some.inj found ▸ fresh)⟩
        split
        · exact (parents.rememberArtifact fresh).setOps rfl rfl rfl
        · exact parents.setOps rfl rfl rfl

theorem addEntry_within {data : Dataset} {draw : Draw} {principal : Principal} {run : RunIn} {runIri : String}
    {role : Role} {a : ArtifactIn} (part : Part server print minted role ⟨entryTargets server ops run a, draw, a⟩)
    (used : Allows print (.named runIri) (Ns.t Ns.prov "used")) (generates : Generates print minted)
    (within : Within ops print minted p) :
    Within ops print minted (addEntry server data draw principal run runIri role p a) := by
  unfold addEntry
  split
  · exact within
  · have inside : Within ops print minted (entryIri server data draw principal run runIri role p a).2 ∧
        ∀ iri, (entryIri server data draw principal run runIri role p a).1 = some iri →
          iri ∈ entryTargets server ops run a ∨ iri ∈ minted := entryIri_within part within
    split
    · rename_i iri after found
      obtain ⟨next, named⟩ := inside
      rw [found] at next named
      refine (next.claim used ?_).setOps rfl rfl rfl
      intro produced
      rcases named iri rfl with target | new
      · exact part.targets_allowed target produced
      · exact generates iri new
    · rename_i after found
      rw [found] at inside
      exact inside.1

theorem addEntries_within {data : Dataset} {draw : Draw} {principal : Principal} {run : RunIn} {runIri : String}
    {role : Role} {artifacts : List ArtifactIn}
    (blocks : ∀ block ∈ (entriesPrint server role (entriesOf server ops draw run artifacts)).blocks, block ∈ print.blocks)
    (fresh : ∀ iri ∈ mintedBy server (entriesOf server ops draw run artifacts), iri ∈ minted)
    (used : Allows print (.named runIri) (Ns.t Ns.prov "used")) (generates : Generates print minted)
    (within : Within ops print minted p) :
    Within ops print minted (addEntries server data draw principal run runIri role p artifacts) := by
  have each : ∀ entry ∈ artifacts.zipIdx,
      Part server print minted role ⟨entryTargets server ops run entry.1, draw.site entry.2, entry.1⟩ :=
    fun entry mem => Part.of_mem (List.mem_map.2 ⟨entry, mem, rfl⟩) blocks fresh
  unfold addEntries
  generalize artifacts.zipIdx = places at each
  induction places generalizing p with
  | nil => exact within
  | cons entry rest ih =>
    refine ih ?_ (fun other mem => each other (List.mem_cons_of_mem _ mem))
    exact addEntry_within (each entry List.mem_cons_self) used generates within

end Entries

theorem Within.edits {ops : Ops} {print : Print} {minted : List String} {p : Progress}
    (within : Within ops print minted p) (data : Dataset) : Edits data (effect data p.tx) print := by
  apply Edits.of_effect
  · simp [within.graphs]
  · simp [within.subjects]
  · exact fun target mem _ => within.properties target mem
  · exact fun quad mem _ => within.inserted quad mem

/-- What a request did: an edit of the graph, and nothing to the tokens. -/
def Wrote {α : Type} (state : State) (print : Print) (outcome : Outcome α) : Prop :=
  Edits state.data outcome.state.data print ∧ outcome.state.ops.tokens = state.ops.tokens

theorem wrote_nothing {α : Type} (state : State) (print : Print) (response : AppResult α) :
    Wrote state print ⟨state, response⟩ := ⟨Edits.refl _ _, rfl⟩

/-- A transaction given up keeps the tables it has written to. -/
theorem Within.abandoned {α : Type} {state : State} {print : Print} {minted : List String} {p : Progress}
    (within : Within state.ops print minted p) (response : AppResult α) :
    Wrote state print ⟨{ state with ops := p.ops }, response⟩ := ⟨Edits.refl _ _, within.tokens⟩

theorem Within.committed {α : Type} {server : Server} {state : State} {print : Print} {minted : List String}
    {p : Progress} (within : Within state.ops print minted p) (answer : State → AppResult α) :
    Wrote state print (Outcome.commit server { state with ops := p.ops } p.tx answer) := by
  have edits : Edits (State.mk state.data p.ops).data (effect state.data p.tx) print := within.edits state.data
  refine ⟨commit_edits edits, ?_⟩
  unfold Outcome.commit
  split <;> exact within.tokens

theorem conclude_wrote {α : Type} {server : Server} {state : State} {print : Print} {minted : List String} {p : Progress}
    {answer : α} (within : Within state.ops print minted p) : Wrote state print (conclude server state p answer) := by
  unfold conclude
  split
  · exact within.abandoned _
  · split
    · exact within.abandoned _
    · exact within.committed _

theorem advertise_wrote {server : Server} {state : State} {draw : Draw} {principal : Principal} (input : AdvertiseIn)
    (role : Role) : Wrote state (print server state draw principal input role)
      (advertise server state draw principal input role) := by
  unfold advertise print
  cases admitted server state.data (draw.site 0) principal input role with
  | error e => exact wrote_nothing _ _ _
  | ok instanceIri =>
    simp only [Outcome.planned]
    set entries := entriesOf server state.ops (draw.site 2) (runInput server input.run) input.artifacts with listed
    set started := resolveRun server (draw.site 1) principal instanceIri (runInput server input.run) { ops := state.ops }
      with resolved
    set whole := (runPrint started.1 (Run.associationNode ((draw.site 1).site 1))).append
      (entriesPrint server role entries) with summed
    have blocks : ∀ block ∈ (entriesPrint server role entries).blocks, block ∈ whole.blocks :=
      fun block => List.mem_append_right _
    have first : Within state.ops whole (mintedBy server entries) started.2 := by
      rw [resolved]
      exact resolveRun_within (fun target => List.mem_append_left _) (fun block => List.mem_append_left _)
    have used : Allows whole (.named started.1) (Ns.t Ns.prov "used") := by
      obtain ⟨block, inPrint, known⟩ : Allows (runPrint started.1 (Run.associationNode ((draw.site 1).site 1)))
          (.named started.1) (Ns.t Ns.prov "used") := runPrint_allows (by simp [runVocabulary])
      exact ⟨block, List.mem_append_left _ inPrint, known⟩
    exact conclude_wrote (addEntries_within blocks (fun _ mem => mem) used (generates_of_entries blocks) first)

end Api.Advertise

namespace Api.Openlineage

open Advertise (Within Entry Part Generates Allows Wrote runPrint entriesPrint mintedBy)

section

variable (server : Server)

/-- The artifact a dataset is matched to, or the one its key is known to stand for. -/
def datasetTargets (data : Dataset) (ops : Ops) (role : Advertise.Role) (dataset : Json) : List String :=
  match matchSymlink server data (symlinks dataset) with
  | .error _ => []
  | .ok (some iri) => [iri]
  | .ok none => (ops.artifactForKey ((artifactOf dataset role).externalKey.getD "")).toList

/-- The datasets of one side of an event, at the sites they are drawn from. -/
def entriesOf (data : Dataset) (ops : Ops) (draw : Draw) (role : Advertise.Role) (entries : List Json) : List Entry :=
  entries.zipIdx.map (fun entry =>
    ⟨datasetTargets server data ops role entry.1, draw.site entry.2, artifactOf entry.1 role⟩)

def outputsOf (state : State) (draw : Draw) (event : Json) : List Entry :=
  entriesOf server state.data state.ops (draw.site 1) .produced (datasets event "outputs")

def inputsOf (state : State) (draw : Draw) (event : Json) : List Entry :=
  entriesOf server state.data state.ops (draw.site 2) .consumed (datasets event "inputs")

def print (state : State) (draw : Draw) (principal : Principal) (event : Json) : Print :=
  match admitted server state.data principal with
  | .error _ => {}
  | .ok instanceIri =>
    (runPrint (Advertise.resolveRun server (draw.site 0) principal instanceIri (runOf server event)
      { ops := state.ops }).1 (Run.associationNode ((draw.site 0).site 1))).append
      ((entriesPrint server .produced (outputsOf server state draw event)).append
        (entriesPrint server .consumed (inputsOf server state draw event)))

variable {server} {ops : Ops} {print : Print} {minted : List String} {p : Advertise.Progress}

/-- The artifact of a dataset is one of its targets, or one that was minted. -/
theorem mapDataset_within {data : Dataset} {draw : Draw} {principal : Principal} {role : Advertise.Role} {dataset : Json}
    (part : Part server print minted role ⟨datasetTargets server data ops role dataset, draw, artifactOf dataset role⟩)
    (within : Within ops print minted p) :
    Within ops print minted (mapDataset server data draw principal role p dataset).2 ∧
      ∀ iri, (mapDataset server data draw principal role p dataset).1 = some iri →
        iri ∈ datasetTargets server data ops role dataset ∨ iri ∈ minted := by
  unfold mapDataset
  cases matched : matchSymlink server data (symlinks dataset) with
  | error e => exact ⟨within.setOps rfl rfl rfl, by simp⟩
  | ok matched' =>
    cases matched' with
    | some iri =>
      refine ⟨within, ?_⟩
      rintro other ⟨⟩
      exact Or.inl (by simp [datasetTargets, matched])
    | none =>
      simp only []
      split
      · rename_i iri held
        refine ⟨within, ?_⟩
        rintro other ⟨⟩
        rcases within.known _ iri held with before | new
        · exact Or.inl (by simp [datasetTargets, matched, before])
        · exact Or.inr new
      · rename_i unknown
        have none_ : datasetTargets server data ops role dataset = [] := by
          rw [datasetTargets, matched]
          cases before : ops.artifactForKey ((artifactOf dataset role).externalKey.getD "") with
          | none => simp
          | some iri => exact absurd ((within.kept _ iri before).symm.trans unknown) (by simp)
        have fresh : mint server.base .artifact (draw.site 0) ∈ minted := part.fresh _ (by simp [Entry.minted, none_])
        have described : Within ops print minted (p.extend (Artifact.artifactQuads server.platform server.base
            (mint server.base .artifact (draw.site 0)) (draw.site 1) (artifactOf dataset role) principal.subject none)) :=
          part.described none_ within
        split
        · exact ⟨within.setOps rfl rfl rfl, by simp⟩
        · exact ⟨described.rememberArtifact fresh, fun iri found => Or.inr (Option.some.inj found ▸ fresh)⟩

theorem addDatasets_within {data : Dataset} {draw : Draw} {principal : Principal} {runIri : String}
    {role : Advertise.Role} {datasets : List Json}
    (blocks : ∀ block ∈ (entriesPrint server role (entriesOf server data ops draw role datasets)).blocks,
      block ∈ print.blocks)
    (fresh : ∀ iri ∈ mintedBy server (entriesOf server data ops draw role datasets), iri ∈ minted)
    (used : Allows print (.named runIri) (Ns.t Ns.prov "used")) (generates : Generates print minted)
    (within : Within ops print minted p) :
    Within ops print minted (addDatasets server data draw principal runIri role p datasets) := by
  have each : ∀ entry ∈ datasets.zipIdx, Part server print minted role
      ⟨datasetTargets server data ops role entry.1, draw.site entry.2, artifactOf entry.1 role⟩ :=
    fun entry mem => Part.of_mem (List.mem_map.2 ⟨entry, mem, rfl⟩) blocks fresh
  unfold addDatasets
  generalize datasets.zipIdx = places at each
  induction places generalizing p with
  | nil => exact within
  | cons entry rest ih =>
    refine ih ?_ (fun other mem => each other (List.mem_cons_of_mem _ mem))
    have part := each entry List.mem_cons_self
    have inside : Within ops print minted (mapDataset server data (draw.site entry.2) principal role p entry.1).2 ∧
        ∀ iri, (mapDataset server data (draw.site entry.2) principal role p entry.1).1 = some iri →
          iri ∈ datasetTargets server data ops role entry.1 ∨ iri ∈ minted := mapDataset_within part within
    beta_reduce
    unfold addDataset
    split
    · exact within
    · split
      · rename_i iri after found
        obtain ⟨next, named⟩ := inside
        rw [found] at next named
        refine (next.claim used ?_).setOps rfl rfl rfl
        intro produced
        rcases named iri rfl with target | new
        · exact part.targets_allowed target produced
        · exact generates iri new
      · rename_i after found
        rw [found] at inside
        exact inside.1

end

theorem payload_speaks {server : Server} (event : Json) :
    Speaks [Ns.t Ns.tar "openLineagePayload", Ns.t Ns.tar "claimedNamespace", Ns.t Ns.prov "startedAtTime"]
      (payloadStatements server event) := by
  unfold payloadStatements
  refine speaks_append.2 ⟨speaks_append.2 ⟨speaks_text _ (by simp), speaks_optText _ (by simp)⟩, ?_⟩
  split
  · exact speaks_datetime _ _ (by simp)
  · exact speaks_nil _

theorem ingest_wrote {server : Server} {state : State} {draw : Draw} {principal : Principal} (event : Json) :
    Wrote state (print server state draw principal event) (ingest server state draw principal event) := by
  unfold ingest print
  cases admitted server state.data principal with
  | error e => exact Advertise.wrote_nothing _ _ _
  | ok instanceIri =>
    simp only [Outcome.planned]
    set started := Advertise.resolveRun server (draw.site 0) principal instanceIri (runOf server event)
      { ops := state.ops } with resolved
    set outputs := outputsOf server state draw event with listedOutputs
    set inputs := inputsOf server state draw event with listedInputs
    set whole := (runPrint started.1 (Run.associationNode ((draw.site 0).site 1))).append
      ((entriesPrint server .produced outputs).append (entriesPrint server .consumed inputs)) with summed
    have outputBlocks : ∀ block ∈ (entriesPrint server .produced outputs).blocks, block ∈ whole.blocks :=
      fun block mem => List.mem_append_right _ (List.mem_append_left _ mem)
    have inputBlocks : ∀ block ∈ (entriesPrint server .consumed inputs).blocks, block ∈ whole.blocks :=
      fun block mem => List.mem_append_right _ (List.mem_append_right _ mem)
    have first : Within state.ops whole (mintedBy server outputs ++ mintedBy server inputs) started.2 := by
      rw [resolved]
      exact Advertise.resolveRun_within (fun target => List.mem_append_left _) (fun block => List.mem_append_left _)
    have allows : ∀ predicate ∈ Advertise.runVocabulary, Allows whole (.named started.1) predicate := by
      intro predicate known
      exact ⟨_, List.mem_append_left _ List.mem_cons_self, List.mem_singleton.2 rfl, known⟩
    have used : Allows whole (.named started.1) (Ns.t Ns.prov "used") := allows _ (by simp [Advertise.runVocabulary])
    have kept : Within state.ops whole (mintedBy server outputs ++ mintedBy server inputs)
        (started.2.extend (describeLocal started.1 (payloadStatements server event))) := by
      apply first.extend
      intro quad mem
      obtain ⟨subject, graph, said⟩ := mem_finish.1 mem
      have known := payload_speaks event _ said
      obtain ⟨block, inPrint, node, predicate⟩ := allows quad.predicate (by
        simp only [List.mem_cons, List.not_mem_nil, or_false] at known
        rcases known with same | same | same <;> simp [same, Advertise.runVocabulary, Footprint.runVocabulary])
      exact ⟨graph, block, inPrint, subject ▸ node, predicate⟩
    have generates : Generates whole (mintedBy server outputs ++ mintedBy server inputs) := by
      intro iri mem
      rcases List.mem_append.1 mem with output | input
      · exact Advertise.generates_of_entries outputBlocks iri output
      · exact Advertise.generates_of_entries inputBlocks iri input
    let produced := addDatasets server state.data (draw.site 1) principal started.1 .produced
      (started.2.extend (describeLocal started.1 (payloadStatements server event))) (datasets event "outputs")
    have written : Within state.ops whole (mintedBy server outputs ++ mintedBy server inputs)
        { produced with artifacts := [] } :=
      (addDatasets_within outputBlocks (fun _ => List.mem_append_left _) used generates kept).setOps rfl rfl rfl
    let p := addDatasets server state.data (draw.site 2) principal started.1 .consumed { produced with artifacts := [] }
      (datasets event "inputs")
    have read : Within state.ops whole (mintedBy server outputs ++ mintedBy server inputs) p :=
      addDatasets_within inputBlocks (fun _ => List.mem_append_right _) used generates written
    split
    · exact read.abandoned _
    · exact read.committed _

end Api.Openlineage

end ToolArtifactRegistry
