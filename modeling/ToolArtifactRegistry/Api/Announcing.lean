import ToolArtifactRegistry.Api.Instances
import ToolArtifactRegistry.Library.Looking

/-! The announcement of a deployment, one access to the store at a time: it looks for its record, reads what
the write depends on, and writes. Others may come between any two of these. -/
namespace ToolArtifactRegistry.Api.Announcing

open Library.Rdf Library.Programs Ids Model Store Rdf Build Auth Domain Instances

/-- The record an announcement is about to write. -/
structure Draft where
  iri : String
  input : InstanceIn
  actor : String

inductive Call where
  | findSelfRegistered (subject key : String)
  | loadInstance (draw : Draw) (iri : String)
  | enforceWrite (draft : Draft) (quads : List Quad)
  | resolveSoftwareFor (draft : Draft)
  | checkDeployable (draft : Draft) (software : Option String)
  | register (draft : Draft) (draw : Draw) (now : String) (software : Option String)
  | replace (draft : Draft) (draw : Draw) (now : String) (software : Option String)
  | answer (draw : Draw) (iri : String)

def Call.Reply : Call → Type
  | .findSelfRegistered .. => Option String
  | .loadInstance .. | .answer .. => AppResult Instance
  | .resolveSoftwareFor .. => AppResult (Option String)
  | .enforceWrite .. | .checkDeployable .. | .register .. | .replace .. => AppResult Unit

section

variable (server : Server)

def Draft.quads (draft : Draft) (draw : Draw) (software : Option String) : List Quad :=
  Instance.instanceQuads server.platform server.base draft.iri draw draft.input draft.actor software

/-- The transaction of a first announcement deletes nothing of a record. -/
def Draft.registerTx (draft : Draft) (draw : Draw) (now : String) (software : Option String) : GraphTx :=
  stampSeen server (({} : GraphTx).extend (draft.quads server draw software)) draft.iri now

def Draft.replaceTx (draft : Draft) (draw : Draw) (now : String) (software : Option String) : GraphTx :=
  stampSeen server (Instance.replaceInstance server.platform server.base draft.iri draw draft.input draft.actor software)
    draft.iri now

def applied (state : State) (tx : GraphTx) : AppResult Unit × State :=
  match Store.apply server.platform state.data tx with
  | .error e => (.error e, state)
  | .ok data => (.ok (), { state with data })

def perform : (call : Call) → State → call.Reply × State
  | .findSelfRegistered subject key, state => (findSelfRegistered state.data subject key, state)
  | .loadInstance draw iri, state => (Instance.loadInstance (server.ctx state draw) iri, state)
  | .enforceWrite _ quads, state => (server.platform.enforceWrite state.data quads, state)
  | .resolveSoftwareFor draft, state => (resolveSoftwareFor server state.data draft.input, state)
  | .checkDeployable draft software, state => (checkDeployable server state.data software draft.input, state)
  | .register draft draw now software, state => applied server state (draft.registerTx server draw now software)
  | .replace draft draw now software, state => applied server state (draft.replaceTx server draw now software)
  | .answer draw iri, state => (Instance.loadInstance (server.ctx state draw) iri, state)

abbrev desk : System where
  State := State
  Call := Call
  Reply := Call.Reply
  perform := perform server

abbrev Handler := Program (desk server) (AppResult Instance)

/-- Go on with what a call answered, unless it failed. -/
def proceed {α : Type} (result : AppResult α) (next : α → Handler server) : Handler server :=
  match result with
  | .error e => .done (.error e)
  | .ok value => next value

/-- Which record an announcement is about. A shared credential is asked for its key first. -/
def existingRecord (principal : Principal) (input : SelfAnnounceIn) (next : Option String → Handler server) :
    Handler server :=
  let look (then_ : Option String → Handler server) : Handler server :=
    .call (.findSelfRegistered principal.subject (selfKey principal input)) then_
  if principal.softwareIri.isSome then
    look (fun registered => next (registered.or (principal.instanceIri.filter (fun _ => input.instanceKey.isNone))))
  else
    match principal.instanceIri with
    | some iri => next (some iri)
    | none => look next

/-- What remains of a known deployment's announcement once it is merged onto what was held. -/
def replaceDraft (draw : Draw) (draft : Draft) : Handler server :=
  .call (.enforceWrite draft (draft.quads server (draw.site 0) draft.input.software)) fun conforms =>
    proceed server conforms fun _ =>
  .call (.resolveSoftwareFor draft) fun resolved => proceed server resolved fun software =>
  .call (.checkDeployable draft software) fun deployable => proceed server deployable fun _ =>
  .call (.replace draft (draw.site 1) draw.now software) fun written => proceed server written fun _ =>
  .call (.answer draw draft.iri) .done

/-- A known deployment: merge what it said onto what is held. -/
def reannounce (draw : Draw) (principal : Principal) (input : SelfAnnounceIn) (iri : String) : Handler server :=
  .call (.loadInstance draw iri) fun loaded => proceed server loaded fun current =>
    replaceDraft server draw
      ⟨iri, applyAnnouncement server (Codec.instanceInFrom current) input, principal.subject⟩

/-- What remains of a first announcement once its record is drawn up. -/
def registerDraft (draw : Draw) (draft : Draft) : Handler server :=
  .call (.resolveSoftwareFor draft) fun resolved => proceed server resolved fun software =>
  .call (.checkDeployable draft software) fun deployable => proceed server deployable fun _ =>
  .call (.enforceWrite draft (draft.quads server (draw.site 1) software)) fun conforms =>
    proceed server conforms fun _ =>
  .call (.register draft (draw.site 1) draw.now software) fun written => proceed server written fun _ =>
  .call (.answer draw draft.iri) .done

/-- The record of a first announcement, under an IRI of its own. -/
def freshDraft (draw : Draw) (principal : Principal) (clientId authorised : String) (input : SelfAnnounceIn) : Draft :=
  ⟨mint server.base .instance_ (draw.site 0), freshRecord server principal clientId authorised input, principal.subject⟩

/-- A first announcement: the record is minted, checked and inserted. -/
def register (draw : Draw) (principal : Principal) (clientId : String) (input : SelfAnnounceIn) : Handler server :=
  proceed server (authorisedSoftware server principal clientId input.software) fun authorised =>
    registerDraft server draw (freshDraft server draw principal clientId authorised input)

/-- A running service records what it is. -/
def announceSelf (draw : Draw) (principal : Principal) (input : SelfAnnounceIn) : Handler server :=
  proceed server (announcer principal) fun clientId =>
    existingRecord server principal input fun existing =>
      match existing with
      | some iri => reannounce server draw principal input iri
      | none => register server draw principal clientId input

end

section Alone

variable {server : Server} {state : State} {draw : Draw}

/-- What serving a request came to, beside the state it leaves. -/
def served (outcome : Outcome Instance) : AppResult Instance × State := (outcome.response, outcome.state)

/-- A step of the request is a step of the plan. -/
theorem finish_proceed {α : Type} {check : AppResult α} {next : α → Handler server} {plan : α → AppResult Write}
    (same : ∀ value, (next value).finish state = served (settle server state draw (plan value))) :
    (proceed server check next).finish state = served (settle server state draw (check >>= plan)) := by
  cases check with
  | error e => rfl
  | ok value => exact same value

theorem finish_written (draft : Draft) (tx : GraphTx) :
    (proceed server (applied server state tx).1
        (fun _ => (.call (.answer draw draft.iri) .done : Handler server))).finish (applied server state tx).2 =
      served (settle server state draw (.ok ⟨draft.iri, tx⟩)) := by
  unfold applied settle Outcome.planned Outcome.commit
  simp only []
  cases Store.apply server.platform state.data tx <;> rfl

theorem finish_existingRecord (principal : Principal) (input : SelfAnnounceIn) (next : Option String → Handler server) :
    (existingRecord server principal input next).finish state =
      (next (Instances.existingRecord state.data principal input)).finish state := by
  unfold existingRecord Instances.existingRecord
  cases principal.softwareIri with
  | some software => rfl
  | none => cases principal.instanceIri <;> rfl

theorem finish_reannounce (principal : Principal) (input : SelfAnnounceIn) (iri : String) :
    (reannounce server draw principal input iri).finish state =
      served (settle server state draw (reannouncePlan server state draw principal input iri)) := by
  refine finish_proceed (fun current => ?_)
  refine finish_proceed (fun _ => ?_)
  refine finish_proceed (fun software => ?_)
  refine finish_proceed (fun _ => ?_)
  exact finish_written ⟨iri, applyAnnouncement server (Codec.instanceInFrom current) input, principal.subject⟩ _

theorem finish_register (principal : Principal) (clientId : String) (input : SelfAnnounceIn) :
    (register server draw principal clientId input).finish state =
      served (settle server state draw (registerPlan server state draw principal clientId input)) := by
  refine finish_proceed (fun authorised => ?_)
  unfold registration
  simp only [bind_assoc]
  refine finish_proceed (fun software => ?_)
  refine finish_proceed (fun _ => ?_)
  refine finish_proceed (fun _ => ?_)
  exact finish_written (freshDraft server draw principal clientId authorised input) _

/-- Served alone, the calls of an announcement do what the endpoint does in one step. -/
theorem finish_announceSelf (principal : Principal) (input : SelfAnnounceIn) :
    (announceSelf server draw principal input).finish state =
      served (Instances.announceSelf server state draw principal input) := by
  refine finish_proceed (fun clientId => ?_)
  rw [finish_existingRecord]
  cases Instances.existingRecord state.data principal input with
  | some iri => exact finish_reannounce principal input iri
  | none => exact finish_register principal clientId input

end Alone

end ToolArtifactRegistry.Api.Announcing
