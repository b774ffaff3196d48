import ToolArtifactRegistry.Api.Identities

/-! What a repeated advertisement finds: its run and its artifacts under their keys, its links claimed, and
the outcome of the run as it would write it again. -/
namespace ToolArtifactRegistry.Api.Repeats

open Library.Rdf Library.Text Library.Naming Ids Model Store Rdf Build Domain
open Auth hiding Role
open Advertise (Role Progress nonEmptyKey artifactKey outcomeVocabulary)
open Identities (entryIdentity)

section Outcome

variable (platform : Platform)

/-- What an update of the outcome of a run says. -/
def outcomeStatements (run : RunIn) : List Statement :=
  optDatetime platform Ns.prov "endedAtTime" run.endedAt ++
    match run.status with
    | some status => text Ns.tar "status" status ++ optLink platform Ns.schema "actionStatus" (Run.actionStatus status)
    | none => []

/-- What it replaces. -/
def replacedBy (run : RunIn) : List String :=
  (if run.endedAt.isSome then [Ns.t Ns.prov "endedAtTime"] else []) ++
    if run.status.isSome then [Ns.t Ns.tar "status", Ns.t Ns.schema "actionStatus"] else []

/-- The update as a transaction of its own. -/
def outcomeTx (runIri : String) (run : RunIn) : GraphTx := Run.updateRunOutcome platform {} runIri run

variable {platform}

theorem outcomeTx_eq (runIri : String) (run : RunIn) : outcomeTx platform runIri run =
    { insert := describeLocal runIri (outcomeStatements platform run)
      deleteProperties := (replacedBy run).map (fun predicate => (runIri, predicate, Ns.gLocal)) } := by
  unfold outcomeTx Run.updateRunOutcome outcomeStatements replacedBy
  cases run.endedAt <;> cases run.status <;>
    simp [GraphTx.replaceProperty, GraphTx.extend, describeLocal, finish, optDatetime, Ns.t]

theorem replacedBy_outcome {run : RunIn} {predicate : String} (mem : predicate ∈ replacedBy run) :
    predicate ∈ outcomeVocabulary := by
  unfold replacedBy at mem
  rcases List.mem_append.1 mem with ended | status
  · split at ended <;> simp_all [outcomeVocabulary]
  · split at status <;> simp_all [outcomeVocabulary]

/-- Deleting properties and inserting quads. -/
theorem mem_effect_properties {data : Dataset} {tx : GraphTx} {quad : Quad} (graphs : tx.clearGraphs = [])
    (subjects : tx.deleteSubjects = []) : quad ∈ effect data tx ↔
      (quad ∈ data ∧ ∀ target ∈ tx.deleteProperties, isProperty target quad = false) ∨ quad ∈ tx.insert := by
  unfold effect
  rw [graphs, subjects, Dataset.mem_extend]
  simp only [List.foldl_nil]
  have deleted (targets : List (String × String × String)) (data : Dataset) :
      quad ∈ targets.foldl deleteProperty data ↔
        quad ∈ data ∧ ∀ target ∈ targets, isProperty target quad = false := by
    induction targets generalizing data with
    | nil => simp
    | cons target rest ih =>
      rw [List.foldl_cons, ih, mem_deleteProperty, List.forall_mem_cons, and_assoc]
  rw [deleted]

/-- A quad an update of the outcome replaces. -/
def Replaced (runIri : String) (run : RunIn) (quad : Quad) : Prop :=
  quad.subject = .named runIri ∧ quad.graph = Ns.gLocal ∧ quad.predicate ∈ replacedBy run

theorem mem_effect_outcome {data : Dataset} {runIri : String} {run : RunIn} {quad : Quad} :
    quad ∈ effect data (outcomeTx platform runIri run) ↔
      (quad ∈ data ∧ ¬Replaced runIri run quad) ∨ quad ∈ describeLocal runIri (outcomeStatements platform run) := by
  rw [outcomeTx_eq, mem_effect_properties rfl rfl]
  have spared : (∀ target ∈ (replacedBy run).map (fun predicate => (runIri, predicate, Ns.gLocal)),
      isProperty target quad = false) ↔ ¬Replaced runIri run quad := by
    simp only [List.forall_mem_map, isProperty, decide_eq_false_iff_not, Replaced]
    constructor
    · intro none_ hit
      exact none_ quad.predicate hit.2.2 ⟨hit.1, rfl, hit.2.1⟩
    · rintro none_ predicate mem ⟨subject, same, graph⟩
      exact none_ ⟨subject, graph, same ▸ mem⟩
  rw [spared]

/-- The outcome stands as an update would write it. -/
def Reported (platform : Platform) (data : Dataset) (runIri : String) (run : RunIn) : Prop :=
  (∀ quad ∈ data, Replaced runIri run quad → quad ∈ describeLocal runIri (outcomeStatements platform run)) ∧
    ∀ quad ∈ describeLocal runIri (outcomeStatements platform run), quad ∈ data

/-- Then the update changes nothing. -/
theorem Reported.same {data : Dataset} {runIri : String} {run : RunIn} (reported : Reported platform data runIri run)
    (quad : Quad) : quad ∈ effect data (outcomeTx platform runIri run) ↔ quad ∈ data := by
  rw [mem_effect_outcome]
  constructor
  · rintro (⟨held, _⟩ | inserted)
    · exact held
    · exact reported.2 quad inserted
  · intro held
    by_cases hit : Replaced runIri run quad
    · exact Or.inr (reported.1 quad held hit)
    · exact Or.inl ⟨held, hit⟩

theorem Reported.congr {before after : Dataset} {runIri : String} {run : RunIn}
    (reported : Reported platform before runIri run) (same : ∀ quad, quad ∈ after ↔ quad ∈ before) :
    Reported platform after runIri run :=
  ⟨fun quad held => reported.1 quad ((same quad).1 held), fun quad mem => (same quad).2 (reported.2 quad mem)⟩

/-- Quads that say nothing of an outcome. -/
def Silent (quads : List Quad) : Prop := ∀ quad ∈ quads, quad.predicate ∉ outcomeVocabulary

theorem Silent.append {left right : List Quad} (first : Silent left) (second : Silent right) : Silent (left ++ right) :=
  fun quad mem => (List.mem_append.1 mem).elim (first quad) (second quad)

/-- An update with more quads leaves the outcome as it writes it. -/
theorem reported_of_update {data : Dataset} {runIri : String} {run : RunIn} {quads : List Quad} (silent : Silent quads) :
    Reported platform (effect data ((outcomeTx platform runIri run).extend quads)) runIri run := by
  have split (quad : Quad) : quad ∈ effect data ((outcomeTx platform runIri run).extend quads) ↔
      quad ∈ effect data (outcomeTx platform runIri run) ∨ quad ∈ quads := by
    rw [mem_effect_properties, mem_effect_properties]
    · simp only [GraphTx.extend, List.mem_append, or_assoc]
    · rw [outcomeTx_eq]
    · rw [outcomeTx_eq]
    · rw [outcomeTx_eq]
      rfl
    · rw [outcomeTx_eq]
      rfl
  constructor
  · intro quad held hit
    rcases (split quad).1 held with own | more
    · rcases mem_effect_outcome.1 own with ⟨_, spared⟩ | inserted
      · exact absurd hit spared
      · exact inserted
    · exact absurd (replacedBy_outcome hit.2.2) (silent quad more)
  · intro quad mem
    exact (split quad).2 (Or.inl (mem_effect_outcome.2 (Or.inr mem)))

/-- What a new run says of its outcome is what an update says. -/
theorem run_outcome {draw : Draw} {run : RunIn} {instanceIri actor : String} {statement : Statement}
    (mem : statement ∈ Run.runStatements platform draw run instanceIri actor) (replaced : statement.1 ∈ replacedBy run) :
    statement ∈ outcomeStatements platform run := by
  have outcome := replacedBy_outcome replaced
  have elsewhere {other : String} {statements : List Statement} (only : Only other statements)
      (absent : other ∉ outcomeVocabulary) : statement ∉ statements :=
    fun said => absent (only statement said ▸ outcome)
  have declared (status : statement.1 ∈ [Ns.t Ns.tar "status", Ns.t Ns.schema "actionStatus"]) : ∃ value, run.status = some value := by
    cases given : run.status with
    | some value => exact ⟨value, rfl⟩
    | none =>
      have ended : statement.1 = Ns.t Ns.prov "endedAtTime" := by
        unfold replacedBy at replaced
        rw [given] at replaced
        cases ends : run.endedAt <;> simp_all
      rw [ended] at status
      exact absurd status (by decide)
  unfold Run.runStatements attribution attributionAt at mem
  simp only [List.mem_append, List.mem_singleton] at mem
  unfold outcomeStatements
  rcases mem with (((((((((((activity | action) | label) | started) | ended) | status) | action) | key) | agent) |
    release) | association) | author | modified)
  · exact absurd activity (elsewhere (only_a _) (by decide))
  · exact absurd action (elsewhere (only_a _) (by decide))
  · exact absurd label (elsewhere (only_optText _ _ _) (by decide))
  · exact absurd started (elsewhere (only_datetime _ _ _ _) (by decide))
  · exact List.mem_append_left _ ended
  · obtain ⟨value, given⟩ := declared (by simp [only_text _ _ _ statement status])
    rw [given] at status ⊢
    exact List.mem_append_right _ (List.mem_append_left _ status)
  · obtain ⟨value, given⟩ := declared (by simp [only_optLink _ _ _ _ statement action])
    rw [given] at action ⊢
    exact List.mem_append_right _ (List.mem_append_right _ action)
  · exact absurd key (elsewhere (only_optText _ _ _) (by decide))
  · exact absurd agent (elsewhere (only_link _ _ _ _) (by decide))
  · exact absurd release (elsewhere (only_optLink _ _ _ _) (by decide))
  · have predicate : statement.1 = Ns.t Ns.prov "qualifiedAssociation" := by rw [association]
    rw [predicate] at outcome
    exact absurd outcome (by decide)
  · exact absurd author (elsewhere (only_link _ _ _ _) (by decide))
  · exact absurd modified (elsewhere (only_datetime _ _ _ _) (by decide))

/-- And all of it. -/
theorem outcome_run {draw : Draw} {run : RunIn} {instanceIri actor : String} {statement : Statement}
    (mem : statement ∈ outcomeStatements platform run) :
    statement ∈ Run.runStatements platform draw run instanceIri actor := by
  unfold outcomeStatements at mem
  unfold Run.runStatements
  simp only [List.mem_append]
  rcases List.mem_append.1 mem with ended | status
  · simp only [ended, true_or, or_true]
  · cases given : run.status with
    | none => simp [given] at status
    | some value =>
      rw [given] at status
      simp only [Option.getD_some]
      rcases List.mem_append.1 status with said | action
      · simp only [said, true_or, or_true]
      · simp only [action, true_or, or_true]

/-- A new run that nothing was said about, with more quads, is reported as an update would. -/
theorem reported_of_new {data : Dataset} {runIri : String} {draw : Draw} {run : RunIn} {instanceIri actor : String}
    {quads : List Quad} (new : ∀ quad ∈ data, quad.subject ≠ .named runIri) (silent : Silent quads) :
    Reported platform (effect data ((({} : GraphTx).extend (Run.runQuads platform runIri draw run instanceIri actor)).extend
      quads)) runIri run := by
  have split (quad : Quad) : quad ∈ effect data ((({} : GraphTx).extend
      (Run.runQuads platform runIri draw run instanceIri actor)).extend quads) ↔
      quad ∈ data ∨ quad ∈ Run.runQuads platform runIri draw run instanceIri actor ∨ quad ∈ quads := by
    rw [mem_effect_properties rfl rfl]
    simp [GraphTx.extend]
  constructor
  · intro quad held hit
    rcases (split quad).1 held with before | own | more
    · exact absurd hit.1 (new quad before)
    · rcases List.mem_append.1 own with said | association
      · obtain ⟨_, _, mem⟩ := mem_finish.1 said
        exact mem_finish.2 ⟨hit.1, hit.2.1, run_outcome mem hit.2.2⟩
      · have blank := (mem_finish.1 association).1
        rw [hit.1] at blank
        cases blank
    · exact absurd (replacedBy_outcome hit.2.2) (silent quad more)
  · intro quad mem
    obtain ⟨subject, graph, said⟩ := mem_finish.1 mem
    exact (split quad).2 (Or.inr (Or.inl (List.mem_append_left _ (mem_finish.2 ⟨subject, graph, outcome_run said⟩))))

end Outcome

section Silence

variable {platform : Platform} {base : String}

theorem artifact_silent : ∀ predicate ∈ Footprint.artifactVocabulary, predicate ∉ outcomeVocabulary := by decide

theorem support_silent : ∀ predicate ∈ Footprint.supportVocabulary, predicate ∉ outcomeVocabulary := by decide

theorem artifactQuads_silent {iri : String} {draw : Draw} {a : ArtifactIn} {actor : String} {runIri : Option String} :
    Silent (Artifact.artifactQuads platform base iri draw a actor runIri) := by
  intro quad mem
  rcases Footprint.mem_artifactQuads platform base mem with own | supports
  · exact artifact_silent _ (Footprint.artifact_speaks platform base iri draw a actor runIri _ (mem_finish.1 own).2.2)
  · exact support_silent _ supports.predicate

theorem linkQuads_silent {runIri iri : String} {role : Role} : Silent (Calls.linkQuads platform runIri iri role) := by
  intro quad mem
  cases role with
  | produced =>
    have predicate : quad.predicate = _ := only_link platform Ns.prov "wasGeneratedBy" runIri _ (mem_finish.1 mem).2.2
    rw [predicate]
    decide
  | consumed =>
    have predicate : quad.predicate = _ := only_link platform Ns.prov "used" iri _ (mem_finish.1 mem).2.2
    rw [predicate]
    decide

end Silence

/-- Tables that only gained rows. -/
structure Grown (before after : Ops) : Prop where
  artifacts : ∀ {key iri}, before.artifactForKey key = some iri → after.artifactForKey key = some iri
  runs : ∀ {key instanceIri iri}, before.runForKey key instanceIri = some iri → after.runForKey key instanceIri = some iri
  claims : ∀ {claim}, claim ∈ before.advertised → claim ∈ after.advertised

namespace Grown

variable {before middle after : Ops}

theorem refl (ops : Ops) : Grown ops ops := ⟨id, id, id⟩

theorem trans (first : Grown before middle) (second : Grown middle after) : Grown before after :=
  ⟨fun held => second.artifacts (first.artifacts held), fun held => second.runs (first.runs held),
    fun held => second.claims (first.claims held)⟩

theorem rememberArtifact (ops : Ops) (key iri : String) : Grown ops (ops.rememberArtifact key iri) := by
  refine ⟨?_, id, id⟩
  intro other known held
  rw [Ops.artifactForKey_rememberArtifact, held]
  rfl

theorem claim (ops : Ops) (runIri iri role : String) : Grown ops (ops.claimAdvertisement runIri iri role).2 := by
  unfold Ops.claimAdvertisement
  simp only []
  split
  · exact refl ops
  · exact ⟨id, id, fun held => List.mem_append_left _ held⟩

theorem queueResolve (ops : Ops) (iri : String) : Grown ops (ops.queueResolve iri) := by
  unfold Ops.queueResolve
  split <;> exact ⟨id, id, id⟩

end Grown

theorem runForKey_rememberRun (ops : Ops) (key instanceIri iri : String) (absent : ops.runForKey key instanceIri = none) :
    (ops.rememberRun key instanceIri iri).runForKey key instanceIri = some iri := by
  unfold Ops.runForKey Ops.rememberRun at *
  rw [Ops.lookup_remember, absent]
  simp

theorem claimed (ops : Ops) (runIri iri role : String) :
    Ops.idemKey runIri iri role ∈ (ops.claimAdvertisement runIri iri role).2.advertised := by
  unfold Ops.claimAdvertisement
  simp only []
  split
  · assumption
  · simp

/-- One part of an advertisement: more rows but none of a run, more quads that are silent on outcomes. -/
structure Moves (p q : Progress) : Prop where
  ops : Grown p.ops q.ops
  runs : q.ops.runKeys = p.ops.runKeys
  tx : ∃ quads, q.tx = p.tx.extend quads ∧ Silent quads

namespace Moves

variable {p q r : Progress}

theorem of_same (ops : Grown p.ops q.ops) (runs : q.ops.runKeys = p.ops.runKeys) (tx : q.tx = p.tx) : Moves p q := by
  refine ⟨ops, runs, [], ?_, by simp [Silent]⟩
  rw [tx, GraphTx.extend, List.append_nil]

theorem refl (p : Progress) : Moves p p := of_same (Grown.refl _) rfl rfl

theorem trans (first : Moves p q) (second : Moves q r) : Moves p r := by
  obtain ⟨quads, here, silent⟩ := first.tx
  obtain ⟨more, there, silentMore⟩ := second.tx
  refine ⟨first.ops.trans second.ops, second.runs.trans first.runs, quads ++ more, ?_, silent.append silentMore⟩
  rw [there, here]
  simp [GraphTx.extend]

theorem queueResolve (p : Progress) (iri : String) : Moves p (p.queue iri) := by
  have runs : (p.ops.queueResolve iri).runKeys = p.ops.runKeys := by
    unfold Ops.queueResolve
    split <;> rfl
  exact of_same (Grown.queueResolve p.ops iri) runs rfl

end Moves

section Steps

variable {server : Server} {data : Dataset}

theorem reference_moves (p : Progress) (iri : String) : Moves p (Advertise.reference server data p iri) := by
  unfold Advertise.reference
  split
  · exact Moves.refl p
  · split
    · exact Moves.of_same (Grown.refl _) rfl rfl
    · split
      · exact Moves.refl p
      · exact Moves.queueResolve p iri

theorem references_moves (iris : List String) (p : Progress) :
    Moves p (iris.foldl (fun p iri => if p.failed.isSome then p else Advertise.reference server data p iri) p) := by
  induction iris generalizing p with
  | nil => exact Moves.refl p
  | cons iri rest ih =>
    rw [List.foldl_cons]
    refine Moves.trans ?_ (ih _)
    split
    · exact Moves.refl p
    · exact reference_moves p iri

theorem describeArtifact_moves {draw : Draw} {principal : Principal} {run : RunIn} {runIri : String} {role : Role}
    (p : Progress) (a : ArtifactIn) : Moves p (Advertise.describeArtifact server data draw principal run runIri role p a).2 := by
  unfold Advertise.describeArtifact
  split
  · exact Moves.refl p
  · simp only
    generalize (if role = .produced then some runIri else none) = generatedBy
    have described : Moves p (p.extend (Artifact.artifactQuads server.platform server.base
        (mint server.base .artifact (draw.site 0)) (draw.site 1) a principal.subject generatedBy)) :=
      ⟨Grown.refl _, rfl, _, rfl, artifactQuads_silent⟩
    have parents := described.trans (@references_moves server data a.wasDerivedFrom _)
    generalize a.wasDerivedFrom.foldl _ _ = q at parents ⊢
    split
    · exact parents
    · refine parents.trans ?_
      split
      · exact Moves.of_same (Grown.rememberArtifact _ _ _) rfl rfl
      · exact Moves.of_same (Grown.refl _) rfl rfl

theorem entryIri_moves {draw : Draw} {principal : Principal} {run : RunIn} {runIri : String} {role : Role}
    (p : Progress) (a : ArtifactIn) : Moves p (Advertise.entryIri server data draw principal run runIri role p a).2 := by
  unfold Advertise.entryIri
  cases nonEmpty a.iri with
  | some iri =>
    have moved := @reference_moves server data p iri
    exact moved
  | none => exact describeArtifact_moves p a

theorem claim_moves (platform : Platform) (p : Progress) (runIri iri : String) (role : Role) :
    Moves p (p.claim platform runIri iri role) := by
  have grown := Grown.claim p.ops runIri iri role.asStr
  have runs : (p.ops.claimAdvertisement runIri iri role.asStr).2.runKeys = p.ops.runKeys := by
    unfold Ops.claimAdvertisement
    dsimp only
    split <;> rfl
  have silent := @linkQuads_silent platform runIri iri role
  unfold Progress.claim
  simp only []
  split
  · cases role with
    | produced => exact ⟨grown, runs, _, rfl, silent⟩
    | consumed => exact ⟨grown, runs, _, rfl, silent⟩
  · exact Moves.of_same grown runs rfl

theorem addEntry_moves {draw : Draw} {principal : Principal} {run : RunIn} {runIri : String} {role : Role}
    (p : Progress) (a : ArtifactIn) : Moves p (Advertise.addEntry server data draw principal run runIri role p a) := by
  unfold Advertise.addEntry
  have named := @entryIri_moves server data draw principal run runIri role p a
  split
  · exact Moves.refl p
  · generalize Advertise.entryIri server data draw principal run runIri role p a = entry at named
    obtain ⟨iri, next⟩ := entry
    cases iri with
    | none => exact named
    | some iri =>
      have claimed := named.trans (claim_moves server.platform next runIri iri role)
      exact ⟨claimed.ops, claimed.runs, claimed.tx⟩

theorem fold_moves {draw : Draw} {principal : Principal} {run : RunIn} {runIri : String} {role : Role}
    (numbered : List (ArtifactIn × Nat)) (p : Progress) :
    Moves p (numbered.foldl (fun p entry => Advertise.addEntry server data (draw.site entry.2) principal run runIri role p
      entry.1) p) := by
  induction numbered generalizing p with
  | nil => exact Moves.refl p
  | cons entry rest ih =>
    rw [List.foldl_cons]
    exact (addEntry_moves p entry.1).trans (ih _)

theorem addEntries_moves {draw : Draw} {principal : Principal} {run : RunIn} {runIri : String} {role : Role}
    (p : Progress) (entries : List ArtifactIn) :
    Moves p (Advertise.addEntries server data draw principal run runIri role p entries) :=
  fold_moves entries.zipIdx p

/-- The reference of an entry, if it has one, can be looked up. -/
def Readable (server : Server) (a : ArtifactIn) : Prop :=
  ∀ iri, nonEmpty a.iri = some iri → isLocal server.base iri = true ∨ server.platform.validIri iri = true

theorem reference_readable {p : Progress} {iri : String} (read : (Advertise.reference server data p iri).failed = none) :
    isLocal server.base iri = true ∨ server.platform.validIri iri = true := by
  unfold Advertise.reference at read
  by_cases here : isLocal server.base iri = true
  · exact Or.inl here
  · right
    rw [if_neg here] at read
    unfold exists_ at read
    by_cases valid : server.platform.validIri iri = true
    · exact valid
    · rw [if_neg valid] at read
      cases read

theorem reference_again {p : Progress} {iri : String}
    (readable : isLocal server.base iri = true ∨ server.platform.validIri iri = true) :
    ∃ ops queued, Grown p.ops ops ∧ Advertise.reference server data p iri = { p with ops, queued } := by
  unfold Advertise.reference
  by_cases here : isLocal server.base iri = true
  · rw [if_pos here]
    exact ⟨p.ops, p.queued, Grown.refl _, rfl⟩
  · rw [if_neg here]
    unfold exists_
    rw [if_pos (readable.resolve_left here)]
    simp only
    split
    · exact ⟨p.ops, p.queued, Grown.refl _, rfl⟩
    · exact ⟨_, _, Grown.queueResolve p.ops iri, rfl⟩

theorem describeArtifact_stands {draw : Draw} {principal : Principal} {run : RunIn} {runIri : String} {role : Role}
    {p : Progress} {a : ArtifactIn} {iri : String} (described : nonEmpty a.iri = none) (keyed : run.externalKey.isSome = true)
    (named : (Advertise.describeArtifact server data draw principal run runIri role p a).1 = some iri) :
    (entryIdentity server run a).Stands
      (Advertise.describeArtifact server data draw principal run runIri role p a).2.ops.artifactForKey iri := by
  have key : ∃ k, artifactKey server run a = some k := by
    obtain ⟨runKey, given⟩ := Option.isSome_iff_exists.1 keyed
    unfold artifactKey
    rw [given]
    cases nonEmpty a.externalKey with
    | some own => exact ⟨own, rfl⟩
    | none => exact ⟨_, rfl⟩
  obtain ⟨k, has⟩ := key
  unfold entryIdentity
  rw [described, has]
  show Ops.artifactForKey _ k = some iri
  unfold Advertise.describeArtifact at named ⊢
  rw [has] at named ⊢
  simp only [Option.bind_some] at named ⊢
  cases known : p.ops.artifactForKey k with
  | some other =>
    rw [known] at named
    simp only at named ⊢
    rw [known]
    exact named
  | none =>
    rw [known] at named
    simp only at named ⊢
    have parents := @Identities.references_keys server data a.wasDerivedFrom (p.extend
      (Artifact.artifactQuads server.platform server.base (mint server.base .artifact (draw.site 0)) (draw.site 1) a
        principal.subject (if role = .produced then some runIri else none)))
    generalize a.wasDerivedFrom.foldl _ _ = q at parents named ⊢
    split at named
    · cases named
    · rename_i working
      rw [if_neg working]
      have absent : q.ops.artifactForKey k = none := by
        rw [parents.1]
        exact known
      show (q.ops.rememberArtifact k _).artifactForKey k = some iri
      rw [Identities.artifactForKey_new absent, Function.update_self]
      exact named

theorem entryIri_stands {draw : Draw} {principal : Principal} {run : RunIn} {runIri : String} {role : Role}
    {p : Progress} {a : ArtifactIn} {iri : String} (keyed : run.externalKey.isSome = true)
    (named : (Advertise.entryIri server data draw principal run runIri role p a).1 = some iri) :
    Readable server a ∧ (entryIdentity server run a).Stands
      (Advertise.entryIri server data draw principal run runIri role p a).2.ops.artifactForKey iri := by
  unfold Advertise.entryIri at named ⊢
  cases brought : nonEmpty a.iri with
  | none =>
    rw [brought] at named
    refine ⟨?_, describeArtifact_stands brought keyed named⟩
    intro other given
    rw [brought] at given
    cases given
  | some own =>
    rw [brought] at named
    simp only at named
    split at named
    · cases named
    · rename_i working
      cases named
      refine ⟨?_, ?_⟩
      · intro other given
        rw [brought] at given
        cases given
        exact reference_readable (Option.not_isSome_iff_eq_none.1 working)
      · unfold entryIdentity
        rw [brought]
        rfl

/-- An entry that stands for an artifact is given it again, and nothing more is said. -/
theorem entryIri_again {draw : Draw} {principal : Principal} {run : RunIn} {runIri : String} {role : Role}
    {p : Progress} {a : ArtifactIn} {iri : String} (working : p.failed = none) (readable : Readable server a)
    (stands : (entryIdentity server run a).Stands p.ops.artifactForKey iri) :
    ∃ ops queued, Grown p.ops ops ∧
      Advertise.entryIri server data draw principal run runIri role p a = (some iri, { p with ops, queued }) := by
  unfold Advertise.entryIri
  unfold entryIdentity at stands
  cases brought : nonEmpty a.iri with
  | some own =>
    rw [brought] at stands
    obtain ⟨ops, queued, grown, same⟩ := @reference_again server data p own (readable own brought)
    refine ⟨ops, queued, grown, ?_⟩
    have same_ : own = iri := stands
    simp only [same, working]
    rw [same_]
    rfl
  | none =>
    rw [brought] at stands
    refine ⟨p.ops, p.queued, Grown.refl _, ?_⟩
    simp only
    cases has : artifactKey server run a with
    | none =>
      rw [has] at stands
      exact stands.elim
    | some k =>
      rw [has] at stands
      have known : p.ops.artifactForKey k = some iri := stands
      unfold Advertise.describeArtifact
      rw [has, Option.bind_some, known]

/-- A link claimed already is not made again. -/
theorem claim_again {platform : Platform} {p : Progress} {runIri iri : String} {role : Role}
    (before : Ops.idemKey runIri iri role.asStr ∈ p.ops.advertised) : p.claim platform runIri iri role = p := by
  unfold Progress.claim Ops.claimAdvertisement
  simp only [before, if_true]
  rfl

end Steps

end ToolArtifactRegistry.Api.Repeats
