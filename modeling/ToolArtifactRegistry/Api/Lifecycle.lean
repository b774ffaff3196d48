import ToolArtifactRegistry.Api.Openlineage
import ToolArtifactRegistry.Api.Repeats

/-! What the registry says of the life of a run: when it began, when it ended and what came of it, event by
event. -/
namespace ToolArtifactRegistry.Api.Lifecycle

open Library.Rdf Library.Text Library.Serde Library.Results Ids Model Store Rdf Build Domain
open Auth hiding Role
open Advertise (Role Progress nonEmptyKey resolveRun outcomeVocabulary)
open Repeats (Grown outcomeStatements outcomeTx replacedBy Replaced)
open Openlineage (runOf payloadStatements mapDataset addDataset addDatasets ingest Ingested)

/-- When a run began and ended, as far as it is said, and its status. -/
@[ext]
structure Course where
  started : Option Term
  ended : Option Term
  status : String

def lifecycleVocabulary : List String := Ns.t Ns.prov "startedAtTime" :: outcomeVocabulary

section

variable (platform : Platform)

/-- A moment as it is written. -/
def instant (value : String) : Option Term :=
  if value = "" then none
  else match platform.rfc3339 value with
    | some utc => some (.literal utc (Ns.xsd ++ "dateTime") none)
    | none => some (.simple value)

theorem datetime_eq (ns localName value : String) :
    datetime platform ns localName value = (instant platform value).toList.map (fun term => (Ns.t ns localName, term)) := by
  unfold datetime instant
  by_cases empty : value = ""
  · rw [if_pos empty, if_pos empty]
    rfl
  · rw [if_neg empty, if_neg empty]
    cases platform.rfc3339 value with
    | none =>
      dsimp only
      rw [text, if_neg empty]
      rfl
    | some utc => rfl

theorem optDatetime_eq (ns localName : String) (value : Option String) : optDatetime platform ns localName value =
    (value.bind (instant platform)).toList.map (fun term => (Ns.t ns localName, term)) := by
  cases value with
  | none => rfl
  | some value => exact datetime_eq platform ns localName value

/-- What is said of a status. -/
def statusStatements (status : String) : List Statement :=
  text Ns.tar "status" status ++ optLink platform Ns.schema "actionStatus" (Run.actionStatus status)

/-- What is said of a lifecycle. -/
def Course.statements (l : Course) : List Statement :=
  l.started.toList.map (fun term => (Ns.t Ns.prov "startedAtTime", term)) ++
    (l.ended.toList.map (fun term => (Ns.t Ns.prov "endedAtTime", term)) ++ statusStatements platform l.status)

/-- That and nothing else is said of the run. -/
def Tells (data : Dataset) (runIri : String) (l : Course) : Prop :=
  ∀ statement : Statement, statement.1 ∈ lifecycleVocabulary →
    (⟨.named runIri, statement.1, statement.2, Ns.gLocal⟩ ∈ data ↔ statement ∈ l.statements platform)

/-- A run before anything is known of it but when it began. -/
def begun (draw : Draw) (run : RunIn) : Course := ⟨instant platform (run.startedAt.getD draw.now), none, ""⟩

/-- What an event makes of a lifecycle: the status and the end are replaced, the beginning stands. -/
def Course.updated (l : Course) (run : RunIn) : Course where
  started := l.started
  ended := if run.endedAt.isSome then run.endedAt.bind (instant platform) else l.ended
  status := run.status.getD l.status

end

section Statements

variable {platform : Platform}

theorem statusStatements_outcome {status : String} {statement : Statement} (mem : statement ∈ statusStatements platform status) :
    statement.1 ∈ [Ns.t Ns.tar "status", Ns.t Ns.schema "actionStatus"] := by
  rcases List.mem_append.1 mem with said | action
  · rw [only_text _ _ _ statement said]
    decide
  · rw [only_optLink _ _ _ _ statement action]
    decide

theorem mem_moment {predicate : String} {term : Option Term} {statement : Statement} :
    statement ∈ term.toList.map (fun term => (predicate, term)) ↔ statement.1 = predicate ∧ term = some statement.2 := by
  obtain ⟨here, object⟩ := statement
  cases term with
  | none => simp
  | some value => simp [eq_comm]

theorem mem_statements {l : Course} {statement : Statement} : statement ∈ l.statements platform ↔
    (statement.1 = Ns.t Ns.prov "startedAtTime" ∧ l.started = some statement.2) ∨
      (statement.1 = Ns.t Ns.prov "endedAtTime" ∧ l.ended = some statement.2) ∨
        statement ∈ statusStatements platform l.status := by
  unfold Course.statements
  rw [List.mem_append, List.mem_append, mem_moment, mem_moment]

theorem mem_started {l : Course} {term : Term} :
    (Ns.t Ns.prov "startedAtTime", term) ∈ l.statements platform ↔ l.started = some term := by
  have unlike : Ns.t Ns.prov "startedAtTime" ≠ Ns.t Ns.prov "endedAtTime" := by decide
  have unspoken : (Ns.t Ns.prov "startedAtTime", term) ∉ statusStatements platform l.status := fun mem =>
    absurd (statusStatements_outcome mem) (by decide : Ns.t Ns.prov "startedAtTime" ∉ _)
  simp [mem_statements, unlike, unspoken]

theorem mem_ended {l : Course} {term : Term} :
    (Ns.t Ns.prov "endedAtTime", term) ∈ l.statements platform ↔ l.ended = some term := by
  have unlike : Ns.t Ns.prov "endedAtTime" ≠ Ns.t Ns.prov "startedAtTime" := by decide
  have unspoken : (Ns.t Ns.prov "endedAtTime", term) ∉ statusStatements platform l.status := fun mem =>
    absurd (statusStatements_outcome mem) (by decide : Ns.t Ns.prov "endedAtTime" ∉ _)
  simp [mem_statements, unlike, unspoken]

theorem mem_status {l : Course} (given : l.status ≠ "") {status : String} :
    (Ns.t Ns.tar "status", .simple status) ∈ l.statements platform ↔ l.status = status := by
  have started : Ns.t Ns.tar "status" ≠ Ns.t Ns.prov "startedAtTime" := by decide
  have ended : Ns.t Ns.tar "status" ≠ Ns.t Ns.prov "endedAtTime" := by decide
  have unlike : Ns.t Ns.tar "status" ≠ Ns.t Ns.schema "actionStatus" := by decide
  have action : (Ns.t Ns.tar "status", Term.simple status) ∉ optLink platform Ns.schema "actionStatus" (Run.actionStatus l.status) :=
    fun mem => unlike (only_optLink platform Ns.schema "actionStatus" _ _ mem)
  have said : text Ns.tar "status" l.status = [(Ns.t Ns.tar "status", .simple l.status)] := by rw [text, if_neg given]
  have simple : Term.simple status = Term.simple l.status ↔ l.status = status := by
    unfold Term.simple
    rw [Term.literal.injEq]
    exact ⟨fun same => same.1.symm, fun same => ⟨same.symm, rfl, rfl⟩⟩
  rw [mem_statements]
  unfold statusStatements
  rw [List.mem_append, said, List.mem_singleton, Prod.mk.injEq, simple]
  simp only [started, ended, action, false_and, false_or, or_false, true_and]

theorem mem_outcomeStatements {run : RunIn} {statement : Statement} :
    statement ∈ outcomeStatements platform run ↔
      (statement.1 = Ns.t Ns.prov "endedAtTime" ∧ run.endedAt.bind (instant platform) = some statement.2) ∨
        ∃ status, run.status = some status ∧ statement ∈ statusStatements platform status := by
  unfold outcomeStatements
  rw [List.mem_append, optDatetime_eq, mem_moment]
  cases run.status with
  | none => simp
  | some status =>
    simp only [Option.some.injEq, exists_eq_left']
    rfl

theorem mem_replacedBy {run : RunIn} {predicate : String} : predicate ∈ replacedBy run ↔
    (run.endedAt.isSome = true ∧ predicate = Ns.t Ns.prov "endedAtTime") ∨
      (run.status.isSome = true ∧ predicate ∈ [Ns.t Ns.tar "status", Ns.t Ns.schema "actionStatus"]) := by
  unfold replacedBy
  rw [List.mem_append]
  cases run.endedAt <;> cases run.status <;> simp

/-- An update of the outcome and what it leaves are what is said of the lifecycle after the event. -/
theorem mem_updated {l : Course} {run : RunIn} {statement : Statement} :
    statement ∈ (l.updated platform run).statements platform ↔
      (statement ∈ l.statements platform ∧ statement.1 ∉ replacedBy run) ∨ statement ∈ outcomeStatements platform run := by
  have startedStays : Ns.t Ns.prov "startedAtTime" ∉ replacedBy run := fun mem =>
    absurd (Repeats.replacedBy_outcome mem) (by decide)
  have statusApart : Ns.t Ns.prov "endedAtTime" ∉ [Ns.t Ns.tar "status", Ns.t Ns.schema "actionStatus"] := by decide
  have endedGoes : Ns.t Ns.prov "endedAtTime" ∈ replacedBy run ↔ run.endedAt.isSome = true := by
    rw [mem_replacedBy]
    simp only [statusApart, and_true, and_false, or_false]
  have statusGoes {predicate : String} (mem : predicate ∈ [Ns.t Ns.tar "status", Ns.t Ns.schema "actionStatus"]) :
      predicate ∈ replacedBy run ↔ run.status.isSome = true := by
    have apart : predicate ≠ Ns.t Ns.prov "endedAtTime" := fun same => statusApart (same ▸ mem)
    rw [mem_replacedBy]
    simp only [apart, mem, and_true, and_false, false_or]
  rw [mem_statements, mem_statements, mem_outcomeStatements]
  unfold Course.updated
  dsimp only
  constructor
  · intro after
    rcases after with ⟨predicate, started⟩ | ⟨predicate, ended⟩ | said
    · exact Or.inl ⟨Or.inl ⟨predicate, started⟩, predicate ▸ startedStays⟩
    · by_cases ends : run.endedAt.isSome = true
      · rw [if_pos ends] at ended
        exact Or.inr (Or.inl ⟨predicate, ended⟩)
      · rw [if_neg ends] at ended
        exact Or.inl ⟨Or.inr (Or.inl ⟨predicate, ended⟩), fun goes => ends (endedGoes.1 (predicate ▸ goes))⟩
    · cases given : run.status with
      | none =>
        rw [given, Option.getD_none] at said
        have stays := mt (statusGoes (statusStatements_outcome said)).1
        rw [given] at stays
        exact Or.inl ⟨Or.inr (Or.inr said), stays Bool.false_ne_true⟩
      | some status =>
        rw [given, Option.getD_some] at said
        exact Or.inr (Or.inr ⟨status, rfl, said⟩)
  · intro before
    rcases before with ⟨held, stays⟩ | ⟨predicate, ended⟩ | ⟨status, given, said⟩
    · rcases held with started | ⟨predicate, ended⟩ | old
      · exact Or.inl started
      · have goesOn : ¬run.endedAt.isSome = true := fun ends => stays (predicate ▸ endedGoes.2 ends)
        rw [if_neg goesOn]
        exact Or.inr (Or.inl ⟨predicate, ended⟩)
      · have silent : ¬run.status.isSome = true := mt (statusGoes (statusStatements_outcome old)).2 stays
        rw [Option.not_isSome_iff_eq_none.1 silent]
        exact Or.inr (Or.inr old)
    · have ends : run.endedAt.isSome = true := by
        cases given : run.endedAt with
        | none => rw [given] at ended; cases ended
        | some value => rfl
      rw [if_pos ends]
      exact Or.inr (Or.inl ⟨predicate, ended⟩)
    · rw [given]
      exact Or.inr (Or.inr said)

/-- What a new run says of its course: without a status it has succeeded. -/
theorem mem_runStatements {draw : Draw} {run : RunIn} {instanceIri actor : String} {statement : Statement}
    (spoken : statement.1 ∈ lifecycleVocabulary) :
    statement ∈ Run.runStatements platform draw run instanceIri actor ↔
      statement ∈ ({ begun platform draw run with status := "success" }.updated platform run).statements platform := by
  have elsewhere {other : String} {statements : List Statement} (only : Only other statements)
      (absent : other ∉ lifecycleVocabulary) : statement ∉ statements := fun said => absent (only statement said ▸ spoken)
  have ended : statement ∈ optDatetime platform Ns.prov "endedAtTime" run.endedAt ↔
      statement.1 = Ns.t Ns.prov "endedAtTime" ∧ run.endedAt.bind (instant platform) = some statement.2 := by
    rw [optDatetime_eq, mem_moment]
  have started : statement ∈ datetime platform Ns.prov "startedAtTime" (run.startedAt.getD draw.now) ↔
      statement.1 = Ns.t Ns.prov "startedAtTime" ∧ instant platform (run.startedAt.getD draw.now) = some statement.2 := by
    rw [datetime_eq, mem_moment]
  have endsWith : (if run.endedAt.isSome then run.endedAt.bind (instant platform) else none) =
      run.endedAt.bind (instant platform) := by
    cases run.endedAt <;> rfl
  have association : statement ≠ (Ns.t Ns.prov "qualifiedAssociation", (Run.associationNode draw).term) := by
    intro same
    rw [same] at spoken
    exact absurd spoken (by decide : Ns.t Ns.prov "qualifiedAssociation" ∉ lifecycleVocabulary)
  rw [mem_statements]
  unfold Course.updated begun Run.runStatements attribution attributionAt statusStatements
  dsimp only
  rw [endsWith]
  simp only [List.mem_append, List.mem_singleton, ended, started,
    elsewhere (only_a Run.typeActivity) (by decide), elsewhere (only_a Run.typeSchemaAction) (by decide),
    elsewhere (only_optText Ns.rdfs "label" run.label) (by decide),
    elsewhere (only_optText Ns.dct "identifier" run.externalKey) (by decide),
    elsewhere (only_link platform Ns.prov "wasAssociatedWith" instanceIri) (by decide),
    elsewhere (only_optLink platform Ns.tar "usedRelease" run.release) (by decide),
    elsewhere (only_link platform Ns.prov "wasAttributedTo" actor) (by decide), Option.getD_none,
    elsewhere (only_datetime platform Ns.dct "modified" draw.now) (by decide), association, or_false, false_or, or_assoc]

end Statements

/-- Quads that say nothing of the life of a run. -/
def Mute (quads : List Quad) : Prop := ∀ quad ∈ quads, quad.predicate ∉ lifecycleVocabulary

/-- One part of an ingest: more rows, more quads that say nothing of the life of a run. -/
structure Adds (p q : Progress) : Prop where
  ops : Grown p.ops q.ops
  tx : ∃ quads, q.tx = p.tx.extend quads ∧ Mute quads

namespace Adds

variable {p q r : Progress}

theorem of_same (ops : Grown p.ops q.ops) (tx : q.tx = p.tx) : Adds p q := by
  refine ⟨ops, [], ?_, by simp [Mute]⟩
  rw [tx, GraphTx.extend, List.append_nil]

theorem refl (p : Progress) : Adds p p := of_same (Grown.refl _) rfl

theorem extend {quads : List Quad} (p : Progress) (mute : Mute quads) : Adds p (p.extend quads) :=
  ⟨Grown.refl _, quads, rfl, mute⟩

theorem trans (first : Adds p q) (second : Adds q r) : Adds p r := by
  obtain ⟨quads, here, mute⟩ := first.tx
  obtain ⟨more, there, muteMore⟩ := second.tx
  refine ⟨first.ops.trans second.ops, quads ++ more, ?_, ?_⟩
  · rw [there, here]
    simp [GraphTx.extend]
  · intro quad mem
    exact (List.mem_append.1 mem).elim (mute quad) (muteMore quad)

end Adds

section Datasets

variable {server : Server} {data : Dataset}

theorem artifactQuads_mute {platform : Platform} {base iri : String} {draw : Draw} {a : ArtifactIn} {actor : String}
    {runIri : Option String} : Mute (Artifact.artifactQuads platform base iri draw a actor runIri) := by
  intro quad mem
  rcases Footprint.mem_artifactQuads platform base mem with own | supports
  · exact (by decide : ∀ predicate ∈ Footprint.artifactVocabulary, predicate ∉ lifecycleVocabulary) _
      (Footprint.artifact_speaks platform base iri draw a actor runIri _ (mem_finish.1 own).2.2)
  · exact (by decide : ∀ predicate ∈ Footprint.supportVocabulary, predicate ∉ lifecycleVocabulary) _ supports.predicate

theorem claim_adds (platform : Platform) (p : Progress) (runIri iri : String) (role : Role) :
    Adds p (p.claim platform runIri iri role) := by
  have grown := Grown.claim p.ops runIri iri role.asStr
  have used : Mute (describeLocal runIri (link platform Ns.prov "used" iri)) := by
    intro quad mem
    have predicate : quad.predicate = _ := only_link platform Ns.prov "used" iri _ (mem_finish.1 mem).2.2
    rw [predicate]
    decide
  have generated : Mute (describeLocal iri (link platform Ns.prov "wasGeneratedBy" runIri)) := by
    intro quad mem
    have predicate : quad.predicate = _ := only_link platform Ns.prov "wasGeneratedBy" runIri _ (mem_finish.1 mem).2.2
    rw [predicate]
    decide
  unfold Progress.claim
  simp only []
  split
  · cases role with
    | produced => exact ⟨grown, _, rfl, generated⟩
    | consumed => exact ⟨grown, _, rfl, used⟩
  · exact Adds.of_same grown rfl

theorem payload_mute (event : Json) (runIri : String) : Mute (describeLocal runIri (payloadStatements server event)) := by
  intro quad mem
  have said := (mem_finish.1 mem).2.2
  unfold payloadStatements at said
  rcases List.mem_append.1 said with payload | rest
  · rcases List.mem_append.1 payload with whole | namespace_
    · have predicate : quad.predicate = _ := only_text _ _ _ _ whole
      rw [predicate]
      decide
    · have predicate : quad.predicate = _ := only_optText _ _ _ _ namespace_
      rw [predicate]
      decide
  -- a beginning is written here only when there is none to write
  · split at rest
    · next absent =>
      have none_ : (runOf server event).startedAt = none := by
        rw [Bool.and_eq_true] at absent
        exact Option.isNone_iff_eq_none.1 absent.1
      unfold runOf at none_
      rw [Bool.and_eq_true, Bool.not_eq_true'] at absent
      rw [absent.2] at none_
      simp only [Bool.false_eq_true, if_false] at none_
      rw [none_] at rest
      cases rest
    · cases rest

theorem mapDataset_adds {draw : Draw} {principal : Principal} {role : Role} (p : Progress) (dataset : Json) :
    Adds p (mapDataset server data draw principal role p dataset).2 := by
  unfold mapDataset
  split
  · exact Adds.of_same (Grown.refl _) rfl
  · exact Adds.refl p
  · dsimp only
    split
    · exact Adds.refl p
    · split
      · exact Adds.of_same (Grown.refl _) rfl
      · exact ⟨Grown.rememberArtifact _ _ _, _, rfl, artifactQuads_mute⟩

theorem addDataset_adds {draw : Draw} {principal : Principal} {runIri : String} {role : Role} (p : Progress) (dataset : Json) :
    Adds p (addDataset server data draw principal runIri role p dataset) := by
  unfold addDataset
  have mapped := @mapDataset_adds server data draw principal role p dataset
  split
  · exact Adds.refl p
  · generalize mapDataset server data draw principal role p dataset = found at mapped
    obtain ⟨iri, next⟩ := found
    cases iri with
    | none => exact mapped
    | some iri =>
      refine mapped.trans ?_
      have claimed := claim_adds server.platform next runIri iri role
      exact ⟨claimed.ops, claimed.tx⟩

theorem addDatasets_adds {draw : Draw} {principal : Principal} {runIri : String} {role : Role} (p : Progress)
    (entries : List Json) : Adds p (addDatasets server data draw principal runIri role p entries) := by
  unfold addDatasets
  generalize entries.zipIdx = numbered
  induction numbered generalizing p with
  | nil => exact Adds.refl p
  | cons entry rest ih =>
    rw [List.foldl_cons]
    exact (addDataset_adds p entry.1).trans (ih _)

end Datasets

section Ingesting

variable {server : Server} {state : State} {draw : Draw} {principal : Principal} {event : Json} {inst key : String}

theorem admitted_bound {iri : String} (admitted : Openlineage.admitted server state.data principal = .ok iri) :
    principal.instanceIri = some iri := by
  unfold Openlineage.admitted at admitted
  obtain ⟨_, _, rest⟩ := bind_ok.1 admitted
  obtain ⟨known, required, rest⟩ := bind_ok.1 rest
  obtain ⟨there, _, rest⟩ := bind_ok.1 rest
  have same : known = iri := by
    cases there with
    | true => exact Except.ok.inj rest
    | false => cases rest
  exact same ▸ (Principal.requireInstance_ok.1 required).2

/-- An ingest that is answered resolved its run, added what says nothing of its life, and wrote that. -/
theorem ingest_ok {answer : Ingested} (bound : principal.instanceIri = some inst)
    (answered : (ingest server state draw principal event).response = .ok answer) :
    ∃ p, Adds (resolveRun server (draw.site 0) principal inst (runOf server event) { ops := state.ops }).2 p ∧
      (ingest server state draw principal event).state = { state with data := effect state.data p.tx, ops := p.ops } := by
  unfold ingest Outcome.planned at answered ⊢
  cases admitted : Openlineage.admitted server state.data principal with
  | error e =>
    rw [admitted] at answered
    cases answered
  | ok instanceIri =>
    have same : instanceIri = inst := Option.some.inj ((admitted_bound admitted).symm.trans bound)
    subst same
    rw [admitted] at answered
    dsimp only at answered ⊢
    generalize resolveRun server (draw.site 0) principal instanceIri (runOf server event) { ops := state.ops } = resolved at answered ⊢
    obtain ⟨runIri, started⟩ := resolved
    dsimp only at answered ⊢
    have kept : Adds started (started.extend (describeLocal runIri (payloadStatements server event))) :=
      Adds.extend started (payload_mute event runIri)
    have outputs := kept.trans (@addDatasets_adds server state.data (draw.site 1) principal runIri .produced _
      (Openlineage.datasets event "outputs"))
    generalize addDatasets server state.data (draw.site 1) principal runIri .produced _ _ = q at outputs answered ⊢
    have inputs := outputs.trans ((Adds.of_same (Grown.refl _) rfl : Adds q { q with artifacts := [] }).trans
      (@addDatasets_adds server state.data (draw.site 2) principal runIri .consumed _ (Openlineage.datasets event "inputs")))
    generalize addDatasets server state.data (draw.site 2) principal runIri .consumed _ _ = p at inputs answered ⊢
    refine ⟨p, inputs, ?_⟩
    cases failed : p.failed with
    | some e =>
      rw [failed] at answered
      cases answered
    | none =>
      rw [failed] at answered
      dsimp only at answered ⊢
      unfold Outcome.commit at answered ⊢
      cases written : Store.apply server.platform state.data p.tx with
      | error e =>
        rw [written] at answered
        cases answered
      | ok data => rw [apply_ok written]

/-- What a transaction and quads that say nothing of the life of a run leave of it. -/
theorem effect_mute {data : Dataset} {tx : GraphTx} {quads : List Quad} (mute : Mute quads) {quad : Quad}
    (spoken : quad.predicate ∈ lifecycleVocabulary) : quad ∈ effect data (tx.extend quads) ↔ quad ∈ effect data tx := by
  have silent : quad ∉ quads := fun mem => mute quad mem spoken
  unfold effect GraphTx.extend
  rw [Dataset.mem_extend, Dataset.mem_extend, List.mem_append]
  simp only [silent, or_false]

/-- An event of a run that is known updates what is said of it. -/
theorem ingest_known {answer : Ingested} {runIri : String} {l : Course} (bound : principal.instanceIri = some inst)
    (keyed : nonEmptyKey (runOf server event) = some key) (known : state.ops.runForKey key inst = some runIri)
    (tells : Tells server.platform state.data runIri l)
    (answered : (ingest server state draw principal event).response = .ok answer) :
    Tells server.platform (ingest server state draw principal event).state.data runIri
        (l.updated server.platform (runOf server event)) ∧
      (ingest server state draw principal event).state.ops.runForKey key inst = some runIri := by
  obtain ⟨p, adds, left⟩ := ingest_ok bound answered
  unfold resolveRun at adds
  rw [keyed, Option.bind_some, known] at adds
  obtain ⟨quads, tx, mute⟩ := adds.tx
  rw [left]
  refine ⟨?_, adds.ops.runs known⟩
  intro statement spoken
  dsimp only at tx ⊢
  rw [tx, effect_mute mute spoken]
  have own : (⟨.named runIri, statement.1, statement.2, Ns.gLocal⟩ : Quad) ∈ effect state.data
      (Run.updateRunOutcome server.platform {} runIri (runOf server event)) ↔ _ := Repeats.mem_effect_outcome
  rw [own, mem_updated, tells statement spoken]
  unfold Replaced describeLocal
  rw [mem_finish]
  simp

/-- The first event of a run says of it what it brings. -/
theorem ingest_new {answer : Ingested} (bound : principal.instanceIri = some inst)
    (keyed : nonEmptyKey (runOf server event) = some key) (absent : state.ops.runForKey key inst = none)
    (new : ∀ quad ∈ state.data, quad.subject ≠ .named (mint server.base .run ((draw.site 0).site 0)))
    (answered : (ingest server state draw principal event).response = .ok answer) :
    Tells server.platform (ingest server state draw principal event).state.data (mint server.base .run ((draw.site 0).site 0))
        ((begun server.platform draw (runOf server event)).updated server.platform (runOf server event)) ∧
      (ingest server state draw principal event).state.ops.runForKey key inst =
        some (mint server.base .run ((draw.site 0).site 0)) := by
  obtain ⟨p, adds, left⟩ := ingest_ok bound answered
  unfold resolveRun at adds
  rw [keyed, Option.bind_some, absent] at adds
  obtain ⟨quads, tx, mute⟩ := adds.tx
  rw [left]
  refine ⟨?_, adds.ops.runs (Repeats.runForKey_rememberRun _ _ _ _ absent)⟩
  intro statement spoken
  dsimp only [Progress.extend] at tx ⊢
  rw [tx, effect_mute mute spoken, Repeats.mem_effect_properties rfl rfl]
  have unsaid : (⟨.named (mint server.base .run ((draw.site 0).site 0)), statement.1, statement.2, Ns.gLocal⟩ : Quad) ∉
      state.data := fun held => new _ held rfl
  have same := @mem_runStatements server.platform ((draw.site 0).site 1) (runOf server event) inst principal.subject
    statement spoken
  have association : (⟨.named (mint server.base .run ((draw.site 0).site 0)), statement.1, statement.2, Ns.gLocal⟩ : Quad) ∉
      finish (Run.associationNode ((draw.site 0).site 1)) Ns.gLocal
        (Run.associationStatements server.platform (runOf server event) inst) := fun mem => nomatch (mem_finish.1 mem).1
  unfold GraphTx.extend Run.runQuads describeLocal
  simp only [unsaid, false_and, false_or, List.nil_append, List.mem_append, association, or_false, mem_finish, true_and]
  exact same

end Ingesting

end ToolArtifactRegistry.Api.Lifecycle
