import ToolArtifactRegistry.Api.Software
import ToolArtifactRegistry.Library.Results
import ToolArtifactRegistry.Library.Serial

/-! The updates of a record, one step at a time: an update loads the record, weighs what it would become
(for a synchronisation, with what the repository says), and rewrites it whole. Others may come between any
two of these. -/
namespace ToolArtifactRegistry.Api.Updating

open Library.Rdf Library.Programs Library.Serde Ids Model Store Rdf Build Auth Domain Api.Software
open Instances (Write resolveSoftwareFor checkDeployable checkOwner notAuthoritative)
open Domain.Software (loadSoftware listReleases releaseQuads replaceSoftware)

inductive Call where
  | loadInstance (draw : Draw) (iri : String)
  | loadSoftware (draw : Draw) (iri : String)
  | loadSyncable (draw : Draw) (iri : String)
  | syncInto (forge : Forge.GitHub) (cfg : SyncStatus) (input : SoftwareIn)
  | resolveSoftwareFor (input : InstanceIn)
  | checkDeployable (software : Option String) (input : InstanceIn)
  | enforceWrite (quads : List Quad)
  | listReleases (draw : Draw) (iri : String)
  | apply (tx : GraphTx)
  | answerInstance (draw : Draw) (iri : String)
  | answerSoftware (draw : Draw) (iri : String)

def Call.Reply : Call → Type
  | .loadInstance .. | .answerInstance .. => AppResult Instance
  | .loadSoftware .. => AppResult (Model.Software × Option String)
  | .loadSyncable .. => AppResult (Model.Software × SyncStatus × Option String)
  | .syncInto .. => Except String Forge.Syncing
  | .resolveSoftwareFor .. => AppResult (Option String)
  | .checkDeployable .. | .enforceWrite .. | .apply .. => AppResult Unit
  | .listReleases .. => List String
  | .answerSoftware .. => AppResult Model.Software

def Call.phase : Call → Phase
  | .loadInstance .. | .loadSoftware .. | .loadSyncable .. => .load
  | .syncInto .. | .resolveSoftwareFor .. | .checkDeployable .. | .enforceWrite .. | .listReleases .. => .weigh
  | .apply .. => .write
  | .answerInstance .. | .answerSoftware .. => .report

/-- What an update answers with. -/
inductive Answer where
  | instance_ (current : Instance)
  | software (current : Model.Software)
  | synced (answer : SyncAnswer)

section

variable (server : Server)

/-- The instance a PATCH is about, if there is one. -/
def loadInstance (state : State) (draw : Draw) (iri : String) : AppResult Instance := do
  if !(← exists_ server.platform state.data iri) then .error (AppError.notFound s!"no instance at {iri}")
  Instance.loadInstance (server.ctx state draw) iri

/-- The software a PATCH is about, if there is any, and when it was created. -/
def loadForPatch (state : State) (draw : Draw) (iri : String) : AppResult (Model.Software × Option String) := do
  let existing ← describe server.platform state.data iri
  if existing.isEmpty then .error (AppError.notFound s!"no software at {iri}")
  let current ← loadSoftware (server.ctx state draw) iri
  return (current, (Props.fromQuads iri existing).str Ns.dct "created")

def applied (state : State) (tx : GraphTx) : AppResult Unit × State :=
  match Store.apply server.platform state.data tx with
  | .error e => (.error e, state)
  | .ok data => (.ok (), { state with data })

def perform : (call : Call) → State → call.Reply × State
  | .loadInstance draw iri, state => (loadInstance server state draw iri, state)
  | .loadSoftware draw iri, state => (loadForPatch server state draw iri, state)
  | .loadSyncable draw iri, state => (syncable server state draw iri, state)
  | .syncInto forge cfg input, state => (Forge.syncInto server.platform forge cfg.repo cfg.fields input, state)
  | .resolveSoftwareFor input, state => (resolveSoftwareFor server state.data input, state)
  | .checkDeployable software input, state => (checkDeployable server state.data software input, state)
  | .enforceWrite quads, state => (server.platform.enforceWrite state.data quads, state)
  | .listReleases draw iri, state => ((listReleases (server.ctx state draw) iri).map Release.version, state)
  | .apply tx, state => applied server state tx
  | .answerInstance draw iri, state => (Instance.loadInstance (server.ctx state draw) iri, state)
  | .answerSoftware draw iri, state => (loadSoftware (server.ctx state draw) iri, state)

abbrev desk : System where
  State := State
  Call := Call
  Reply := Call.Reply
  perform := perform server

abbrev Handler := Program (desk server) (AppResult Answer)

/-- Go on with what a call answered, unless it failed. -/
def proceed {α : Type} (result : AppResult α) (next : α → Handler server) : Handler server :=
  match result with
  | .error e => .done (.error e)
  | .ok value => next value

/-- Check what is to be written, and write it. -/
def rewrite (tx : GraphTx) (next : Handler server) : Handler server :=
  .call (.enforceWrite tx.insert) fun conforms => proceed server conforms fun _ =>
  .call (.apply tx) fun written => proceed server written fun _ => next

/-- PATCH of an instance. -/
def patchInstance (draw : Draw) (principal : Principal) (id : String) (body : Json) : Handler server :=
  let iri := iriFor server.base .instance_ id
  proceed server (do
    if !principal.actsForInstance iri then principal.requireCurator
    if !isLocal server.base iri then .error notAuthoritative) fun _ =>
  .call (.loadInstance draw iri) fun loaded => proceed server loaded fun current =>
  proceed server (do
    checkOwner principal current
    Instances.patched server current body) fun input =>
  .call (.resolveSoftwareFor input) fun resolved => proceed server resolved fun software =>
  .call (.checkDeployable software input) fun deployable => proceed server deployable fun _ =>
  rewrite server (Instance.replaceInstance server.platform server.base iri draw input principal.subject software)
    (.call (.answerInstance draw iri) fun answer => .done (answer.map Answer.instance_))

/-- PATCH of a software. -/
def patchSoftware (draw : Draw) (principal : Principal) (id : String) (body : Json) : Handler server :=
  let iri := iriFor server.base .software id
  proceed server (do
    principal.requireCurator
    if !isLocal server.base iri then .error notAuthoritative) fun _ =>
  .call (.loadSoftware draw iri) fun loaded => proceed server loaded fun (current, created) =>
  proceed server (do
    let input ← Software.patched server current body
    checkRegistrationBinding server input
    checkSync input.sync
    return input) fun input =>
  rewrite server (replaceSoftware server.platform server.base iri draw input principal.subject created)
    (.call (.answerSoftware draw iri) fun answer => .done (answer.map Answer.software))

/-- The bookkeeping of a synchronisation. -/
def writeSyncStatus (iri : String) (status : SyncStatus) (next : Handler server) : Handler server :=
  .call (.apply (syncStatusTx server iri status)) fun written => proceed server written fun _ => next

/-- The releases that are new, each checked and added by itself. -/
def addReleases (principal : Principal) (draw : Draw) (iri : String) (known : List String)
    (next : List String → Handler server) : Nat → List ReleaseIn → List String → Handler server
  | _, [], added => next added
  | place, release :: rest, added =>
    if release.version ∈ known then addReleases principal draw iri known next (place + 1) rest added
    else
      let quads := releaseQuads server.platform server.base (mint server.base .release ((draw.site place).site 0)) iri
        ((draw.site place).site 1) release principal.subject
      .call (.enforceWrite quads) fun conforms =>
        match conforms with
        | .error _ => addReleases principal draw iri known next (place + 1) rest added
        | .ok _ =>
          .call (.apply (({} : GraphTx).extend quads)) fun written => proceed server written fun _ =>
            addReleases principal draw iri known next (place + 1) rest (added ++ [release.version])

def newReleases (principal : Principal) (draw : Draw) (iri : String) (releases : List ReleaseIn)
    (next : List String → Handler server) : Handler server :=
  if releases.isEmpty then next []
  else .call (.listReleases draw iri) fun known => addReleases server principal draw iri known next 0 releases []

/-- What a synchronisation answers with. -/
def syncAnswer (synced : Forge.Syncing) (added : List String) (software : Model.Software) : SyncAnswer :=
  { software, skipped := synced.out.skipped, releasesAdded := added,
    changed := if added.isEmpty then synced.out.changed else synced.out.changed ++ ["releases"] }

def answerSync (draw : Draw) (iri : String) (synced : Forge.Syncing) (added : List String) : Handler server :=
  .call (.answerSoftware draw iri) fun answer => .done (answer.map fun software => .synced (syncAnswer synced added software))

/-- The releases a synchronisation added are on its books, and it answers. -/
def reportSync (draw : Draw) (iri : String) (status : SyncStatus) (synced : Forge.Syncing) (added : List String) :
    Handler server :=
  if added.isEmpty then answerSync server draw iri synced added
  else writeSyncStatus server iri { status with lastChanged := status.lastChanged ++ ["releases"] }
    (answerSync server draw iri synced added)

/-- Write what the repository said. -/
def recordSync (draw : Draw) (principal : Principal) (iri : String) (cfg : SyncStatus) (created : Option String)
    (synced : Forge.Syncing) : Handler server :=
  let status := syncedStatus cfg draw.now synced.out.changed
  let input := { synced.input with sync := some (syncInOf cfg) }
  rewrite server (replaceSoftware server.platform server.base iri (draw.site 0) input principal.subject created)
    (writeSyncStatus server iri status
      (newReleases server principal (draw.site 1) iri synced.out.releases (reportSync server draw iri status synced)))

/-- Record what the repository said, or that it could not be asked. -/
def fetched (draw : Draw) (principal : Principal) (iri : String) (cfg : SyncStatus) (created : Option String)
    (outcome : Except String Forge.Syncing) : Handler server :=
  match outcome with
  | .error message =>
    writeSyncStatus server iri (failedStatus cfg draw.now message) (.done (.error (forgeUnreachable message)))
  | .ok synced => recordSync server draw principal iri cfg created synced

/-- The synchronisation of a software with its repository. -/
def sync (draw : Draw) (principal : Principal) (id : String) (forge : Forge.GitHub) : Handler server :=
  let iri := iriFor server.base .software id
  proceed server principal.requireCurator fun _ =>
  .call (.loadSyncable draw iri) fun loaded => proceed server loaded fun (existing, cfg, created) =>
  .call (.syncInto forge cfg (Codec.softwareInFrom existing)) (fetched server draw principal iri cfg created)

end

section Alone

open Library.Results (guard_bind)

variable {server : Server} {state : State}

/-- What serving a request came to, beside the state it leaves. -/
def served {α : Type} (outcome : Outcome α) (answer : α → Answer) : AppResult Answer × State :=
  (outcome.response.map answer, outcome.state)

/-- A step of the request is a step of the plan. -/
theorem finish_proceed {α β γ : Type} {check : AppResult β} {next : β → Handler server} {plan : β → AppResult γ}
    {commit : γ → Outcome α} {answer : α → Answer}
    (same : ∀ value, (next value).finish state = served (Outcome.planned state (plan value) commit) answer) :
    (proceed server check next).finish state = served (Outcome.planned state (check >>= plan) commit) answer := by
  cases check with
  | error e => rfl
  | ok value => exact same value

/-- The write of a request, and what comes after it. -/
theorem finish_apply {α : Type} {tx : GraphTx} {next : Handler server} {after : State → AppResult α} {answer : α → Answer}
    (same : ∀ later, next.finish later = ((after later).map answer, later)) :
    (proceed server (applied server state tx).1 (fun _ => next)).finish (applied server state tx).2 =
      served (Outcome.commit server state tx after) answer := by
  unfold applied Outcome.commit
  cases Store.apply server.platform state.data tx with
  | error e => rfl
  | ok data => exact same _

/-- A rewriting that passes its checks, and one that does not. -/
def checked (server : Server) (state : State) (iri : String) (tx : GraphTx) : AppResult Write := do
  server.platform.enforceWrite state.data tx.insert
  return ⟨iri, tx⟩

theorem finish_rewrite {α : Type} {iri : String} {tx : GraphTx} {next : Handler server}
    {after : Write → State → AppResult α} {answer : α → Answer}
    (same : ∀ later, next.finish later = ((after ⟨iri, tx⟩ later).map answer, later)) :
    (rewrite server tx next).finish state =
      served (Outcome.planned state (checked server state iri tx) (fun write =>
        Outcome.commit server state write.tx (after write))) answer :=
  finish_proceed (fun _ => finish_apply same)

theorem patchPlan_instance (draw : Draw) (principal : Principal) (id : String) (body : Json) :
    Instances.patchPlan server state draw principal id body = (do
      if !principal.actsForInstance (iriFor server.base .instance_ id) then principal.requireCurator
      if !isLocal server.base (iriFor server.base .instance_ id) then .error notAuthoritative) >>= (fun _ =>
      loadInstance server state draw (iriFor server.base .instance_ id) >>= fun current =>
      (do
        checkOwner principal current
        Instances.patched server current body) >>= fun input =>
      resolveSoftwareFor server state.data input >>= fun software =>
      checkDeployable server state.data software input >>= fun _ =>
      checked server state (iriFor server.base .instance_ id)
        (Instance.replaceInstance server.platform server.base (iriFor server.base .instance_ id) draw input
          principal.subject software)) := by
  unfold Instances.patchPlan loadInstance checked
  simp only [guard_bind, bind_assoc]

theorem finish_patchInstance (draw : Draw) (principal : Principal) (id : String) (body : Json) :
    (patchInstance server draw principal id body).finish state =
      served (Instances.patch server state draw principal id body) Answer.instance_ := by
  unfold Instances.patch Instances.settle
  rw [patchPlan_instance]
  refine finish_proceed (fun _ => ?_)
  refine finish_proceed (fun current => ?_)
  refine finish_proceed (fun input => ?_)
  refine finish_proceed (fun software => ?_)
  refine finish_proceed (fun _ => ?_)
  exact finish_rewrite (fun _ => rfl)

theorem patchPlan_software (draw : Draw) (principal : Principal) (id : String) (body : Json) :
    Software.patchPlan server state draw principal id body = (do
      principal.requireCurator
      if !isLocal server.base (iriFor server.base .software id) then .error notAuthoritative) >>= (fun _ =>
      loadForPatch server state draw (iriFor server.base .software id) >>= fun (current, created) =>
      (do
        let input ← Software.patched server current body
        checkRegistrationBinding server input
        checkSync input.sync
        return input) >>= fun input =>
      checked server state (iriFor server.base .software id)
        (replaceSoftware server.platform server.base (iriFor server.base .software id) draw input principal.subject
          created)) := by
  unfold Software.patchPlan loadForPatch checked
  simp only [guard_bind, bind_assoc, pure_bind]

theorem finish_patchSoftware (draw : Draw) (principal : Principal) (id : String) (body : Json) :
    (patchSoftware server draw principal id body).finish state =
      served (Software.patch server state draw principal id body) Answer.software := by
  unfold Software.patch Software.settle
  rw [patchPlan_software]
  refine finish_proceed (fun _ => ?_)
  refine finish_proceed (fun (current, created) => ?_)
  refine finish_proceed (fun input => ?_)
  exact finish_rewrite (fun _ => rfl)

theorem finish_planned {α β : Type} {check : AppResult β} {next : β → Handler server} {go : β → Outcome α}
    {answer : α → Answer} (same : ∀ value, (next value).finish state = served (go value) answer) :
    (proceed server check next).finish state = served (Outcome.planned state check go) answer := by
  cases check with
  | error e => rfl
  | ok value => exact same value

/-- A write, and what is done after it. -/
theorem finish_then {α : Type} {tx : GraphTx} {next : Handler server} {after : State → Outcome α} {answer : α → Answer}
    (same : ∀ later, next.finish later = served (after later) answer) :
    (proceed server (applied server state tx).1 (fun _ => next)).finish (applied server state tx).2 =
      served ((Outcome.commit server state tx (fun _ => .ok ())).andThen (fun later _ => after later)) answer := by
  unfold applied Outcome.commit
  cases Store.apply server.platform state.data tx with
  | error e => rfl
  | ok data => exact same _

theorem finish_rewriteThen {α : Type} {tx : GraphTx} {next : Handler server} {after : State → Outcome α}
    {answer : α → Answer} (same : ∀ later, next.finish later = served (after later) answer) :
    (rewrite server tx next).finish state =
      served (Outcome.planned state (do
        server.platform.enforceWrite state.data tx.insert
        return tx) (fun tx => (Outcome.commit server state tx (fun _ => .ok ())).andThen (fun later _ => after later)))
        answer :=
  finish_proceed (fun _ => finish_then same)

theorem finish_addReleases {α : Type} {principal : Principal} {draw : Draw} {iri : String} {known : List String}
    {next : List String → Handler server} {after : State → List String → Outcome α} {answer : α → Answer}
    (same : ∀ added later, (next added).finish later = served (after later added) answer) (place : Nat)
    (releases : List ReleaseIn) (added : List String) :
    (addReleases server principal draw iri known next place releases added).finish state =
      served ((Software.addReleases server principal draw iri known place releases state added).andThen after) answer := by
  induction releases generalizing place state added with
  | nil => exact same added state
  | cons release rest ih =>
    unfold addReleases Software.addReleases
    split
    · exact ih _ _
    · dsimp only
      generalize releaseQuads server.platform server.base _ iri _ release principal.subject = quads
      have performed : (desk server).perform (.enforceWrite quads) state =
          (server.platform.enforceWrite state.data quads, state) := rfl
      rw [Program.finish_call, performed]
      cases server.platform.enforceWrite state.data quads with
      | error e => exact ih _ _
      | ok _ =>
        have written : (desk server).perform (.apply (({} : GraphTx).extend quads)) state =
            applied server state (({} : GraphTx).extend quads) := rfl
        dsimp only
        rw [Program.finish_call, written]
        unfold applied
        cases Store.apply server.platform state.data (({} : GraphTx).extend quads) with
        | error e => rfl
        | ok data => exact ih _ _

theorem finish_newReleases {α : Type} {principal : Principal} {draw : Draw} {iri : String}
    {next : List String → Handler server} {after : State → List String → Outcome α} {answer : α → Answer}
    (same : ∀ added later, (next added).finish later = served (after later added) answer) (releases : List ReleaseIn) :
    (newReleases server principal draw iri releases next).finish state =
      served ((Software.newReleases server principal draw iri releases state).andThen after) answer := by
  unfold newReleases Software.newReleases
  split
  · exact same [] state
  · exact finish_addReleases same 0 releases []

theorem finish_answerSync (draw : Draw) (iri : String) (synced : Forge.Syncing) (added : List String) :
    (answerSync server draw iri synced added).finish state = served ⟨state, do
      let software ← loadSoftware (server.ctx state draw) iri
      return syncAnswer synced added software⟩ Answer.synced := by
  have performed : (desk server).perform (.answerSoftware draw iri) state =
      (loadSoftware (server.ctx state draw) iri, state) := rfl
  unfold answerSync
  rw [Program.finish_call, performed]
  cases loadSoftware (server.ctx state draw) iri <;> rfl

theorem finish_reportSync (draw : Draw) (iri : String) (status : SyncStatus) (synced : Forge.Syncing)
    (added : List String) :
    (reportSync server draw iri status synced added).finish state =
      served ((if added.isEmpty then (⟨state, .ok ()⟩ : Outcome Unit)
        else Software.writeSyncStatus server state iri { status with lastChanged := status.lastChanged ++ ["releases"] }).andThen
        (fun later _ => ⟨later, do
          let software ← loadSoftware (server.ctx later draw) iri
          return syncAnswer synced added software⟩)) Answer.synced := by
  unfold reportSync
  split
  · exact finish_answerSync draw iri synced added
  · exact finish_then (fun later => finish_answerSync draw iri synced added)

theorem finish_recordSync (draw : Draw) (principal : Principal) (iri : String) (cfg : SyncStatus)
    (created : Option String) (synced : Forge.Syncing) :
    (recordSync server draw principal iri cfg created synced).finish state =
      served (Software.recordSync server state draw principal iri cfg created synced) Answer.synced := by
  unfold Software.recordSync Software.syncPlan
  dsimp only
  rw [Outcome.andThen_assoc, Outcome.planned_andThen]
  refine finish_rewriteThen (fun later => ?_)
  refine finish_then (fun later => ?_)
  exact finish_newReleases (fun added later => finish_reportSync draw iri _ synced added) synced.out.releases

theorem finish_syncInto (forge : Forge.GitHub) (cfg : SyncStatus) (input : SoftwareIn)
    (rest : (desk server).Reply (.syncInto forge cfg input) → Handler server) :
    (.call (.syncInto forge cfg input) rest : Handler server).finish state =
      (rest (Forge.syncInto server.platform forge cfg.repo cfg.fields input)).finish state := by
  have performed : (desk server).perform (.syncInto forge cfg input) state =
      (Forge.syncInto server.platform forge cfg.repo cfg.fields input, state) := rfl
  rw [Program.finish_call, performed]

theorem finish_sync (draw : Draw) (principal : Principal) (id : String) (forge : Forge.GitHub) :
    (sync server draw principal id forge).finish state =
      served (Software.sync server state draw principal id forge) Answer.synced := by
  refine finish_planned (fun _ => ?_)
  refine finish_planned (fun (existing, cfg, created) => ?_)
  refine (finish_syncInto forge cfg _ _).trans ?_
  dsimp only
  generalize Forge.syncInto server.platform forge cfg.repo cfg.fields (Codec.softwareInFrom existing) = outcome
  cases outcome with
  | error message => exact finish_then (fun _ => rfl)
  | ok synced => exact finish_recordSync draw principal _ cfg created synced

end Alone

section Phases

variable (server : Server)

/-- Only the writes change anything. -/
def phases : Phases (desk server) where
  phase := Call.phase
  quiet c s reads := by
    cases c with
    | apply tx => exact absurd rfl reads
    | _ => rfl

/-- An update that ends before it writes has been refused. -/
def Refused (answer : AppResult Answer) : Prop := ∃ e, answer = .error e

variable {server}

theorem updates_proceed {α : Type} {result : AppResult α} {next : α → Handler server}
    (updates : ∀ value, (next value).Updates (phases server) Refused) :
    (proceed server result next).Updates (phases server) Refused := by
  cases result with
  | error e => exact ⟨e, rfl⟩
  | ok value => exact updates value

theorem weighs_proceed {α : Type} {result : AppResult α} {next : α → Handler server}
    (weighs : ∀ value, (next value).Weighs (phases server) Refused) :
    (proceed server result next).Weighs (phases server) Refused := by
  cases result with
  | error e => exact ⟨e, rfl⟩
  | ok value => exact weighs value

theorem commits_proceed {α : Type} {result : AppResult α} {next : α → Handler server}
    (commits : ∀ value, (next value).Commits (phases server)) :
    (proceed server result next).Commits (phases server) := by
  cases result with
  | error e => trivial
  | ok value => exact commits value

theorem weighs_rewrite {tx : GraphTx} {next : Handler server} (commits : next.Commits (phases server)) :
    (rewrite server tx next).Weighs (phases server) Refused := by
  refine .inl ⟨rfl, fun conforms => ?_⟩
  refine weighs_proceed (fun _ => ?_)
  refine .inr ⟨rfl, fun written => ?_⟩
  exact commits_proceed (fun _ => commits)

theorem updates_patchInstance (draw : Draw) (principal : Principal) (id : String) (body : Json) :
    (patchInstance server draw principal id body).Updates (phases server) Refused := by
  refine updates_proceed (fun _ => ⟨rfl, fun loaded => ?_⟩)
  refine weighs_proceed (fun current => ?_)
  refine weighs_proceed (fun input => .inl ⟨rfl, fun resolved => ?_⟩)
  refine weighs_proceed (fun software => .inl ⟨rfl, fun deployable => ?_⟩)
  refine weighs_proceed (fun _ => ?_)
  exact weighs_rewrite (.inr ⟨rfl, fun _ => trivial⟩)

theorem updates_patchSoftware (draw : Draw) (principal : Principal) (id : String) (body : Json) :
    (patchSoftware server draw principal id body).Updates (phases server) Refused := by
  refine updates_proceed (fun _ => ⟨rfl, fun loaded => ?_⟩)
  refine weighs_proceed (fun (current, created) => ?_)
  refine weighs_proceed (fun input => ?_)
  exact weighs_rewrite (.inr ⟨rfl, fun _ => trivial⟩)

theorem commits_writeSyncStatus {iri : String} {status : SyncStatus} {next : Handler server}
    (commits : next.Commits (phases server)) :
    (writeSyncStatus server iri status next).Commits (phases server) :=
  .inl ⟨.inl rfl, fun _ => commits_proceed (fun _ => commits)⟩

theorem commits_addReleases {principal : Principal} {draw : Draw} {iri : String} {known : List String}
    {next : List String → Handler server} (commits : ∀ added, (next added).Commits (phases server)) (place : Nat)
    (releases : List ReleaseIn) (added : List String) :
    (addReleases server principal draw iri known next place releases added).Commits (phases server) := by
  induction releases generalizing place added with
  | nil => exact commits added
  | cons release rest ih =>
    unfold addReleases
    split
    · exact ih _ _
    · refine .inl ⟨.inr rfl, fun conforms => ?_⟩
      cases conforms with
      | error e => exact ih _ _
      | ok _ => exact .inl ⟨.inl rfl, fun written => commits_proceed (fun _ => ih _ _)⟩

theorem commits_newReleases {principal : Principal} {draw : Draw} {iri : String} {next : List String → Handler server}
    (commits : ∀ added, (next added).Commits (phases server)) (releases : List ReleaseIn) :
    (newReleases server principal draw iri releases next).Commits (phases server) := by
  unfold newReleases
  split
  · exact commits []
  · exact .inl ⟨.inr rfl, fun known => commits_addReleases commits 0 releases []⟩

theorem commits_reportSync (draw : Draw) (iri : String) (status : SyncStatus) (synced : Forge.Syncing)
    (added : List String) : (reportSync server draw iri status synced added).Commits (phases server) := by
  have answers : (answerSync server draw iri synced added).Commits (phases server) := .inr ⟨rfl, fun _ => trivial⟩
  unfold reportSync
  split
  · exact answers
  · exact commits_writeSyncStatus answers

theorem weighs_fetched (draw : Draw) (principal : Principal) (iri : String) (cfg : SyncStatus) (created : Option String)
    (outcome : Except String Forge.Syncing) :
    (fetched server draw principal iri cfg created outcome).Weighs (phases server) Refused := by
  cases outcome with
  | error message => exact .inr ⟨rfl, fun _ => commits_proceed (fun _ => trivial)⟩
  | ok synced =>
    refine weighs_rewrite (commits_writeSyncStatus ?_)
    exact commits_newReleases (fun added => commits_reportSync draw iri _ synced added) synced.out.releases

theorem updates_sync (draw : Draw) (principal : Principal) (id : String) (forge : Forge.GitHub) :
    (sync server draw principal id forge).Updates (phases server) Refused := by
  refine updates_proceed (fun _ => ⟨rfl, fun loaded => ?_⟩)
  refine weighs_proceed (fun (existing, cfg, created) => .inl ⟨rfl, fun outcome => ?_⟩)
  exact weighs_fetched draw principal _ cfg created outcome

end Phases

/-- An update of a record. -/
inductive Update where
  | instance_ (draw : Draw) (principal : Principal) (id : String) (body : Json)
  | software (draw : Draw) (principal : Principal) (id : String) (body : Json)
  | sync (draw : Draw) (principal : Principal) (id : String) (forge : Forge.GitHub)

namespace Update

variable (server : Server)

def program : Update → Handler server
  | .instance_ draw principal id body => patchInstance server draw principal id body
  | .software draw principal id body => patchSoftware server draw principal id body
  | .sync draw principal id forge => Updating.sync server draw principal id forge

/-- The update as the endpoint makes it in one step. -/
def serve (state : State) : Update → AppResult Answer × State
  | .instance_ draw principal id body => served (Instances.patch server state draw principal id body) Answer.instance_
  | .software draw principal id body => served (Software.patch server state draw principal id body) Answer.software
  | .sync draw principal id forge => served (Software.sync server state draw principal id forge) Answer.synced

variable {server}

theorem finish_program (state : State) (update : Update) :
    (update.program server).finish state = update.serve server state := by
  cases update with
  | instance_ draw principal id body => exact finish_patchInstance draw principal id body
  | software draw principal id body => exact finish_patchSoftware draw principal id body
  | sync draw principal id forge => exact finish_sync draw principal id forge

theorem updates_program (update : Update) : (update.program server).Updates (phases server) Refused := by
  cases update with
  | instance_ draw principal id body => exact updates_patchInstance draw principal id body
  | software draw principal id body => exact updates_patchSoftware draw principal id body
  | sync draw principal id forge => exact updates_sync draw principal id forge

end Update

end ToolArtifactRegistry.Api.Updating
