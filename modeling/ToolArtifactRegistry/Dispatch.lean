import ToolArtifactRegistry.Api.Subscriptions
import ToolArtifactRegistry.Delivering
import ToolArtifactRegistry.Registry

/-! The registry together with its delivery queue: requests that leave a notice, the owner's requests on a
subscription, and the worker. -/
namespace ToolArtifactRegistry.Dispatch

open Ids Model Auth Domain Api Registry ToolArtifactRegistry.Subscriptions Library.Runs
open Api.Subscriptions (Courier Notice CreateSubscription PatchSubscription DeliveryQuery notifyAdvertised notifyOne
  interested matchOf)

structure Site where
  state : State
  desk : Desk := {}

def Site.empty : Site := ⟨State.empty, {}⟩

inductive Event where
  | registry (event : Registry.Event) (gaps : Nat → Nat → Nat)
  | subscribe (credential : Option String) (draw : Draw) (id : String) (input : CreateSubscription)
  | patch (credential : Option String) (draw : Draw) (sid : String) (input : PatchSubscription)
  | delete (credential : Option String) (now sid : String)
  | pull (credential : Option String) (now sid : String) (query : DeliveryQuery)
  | ack (credential : Option String) (now sid : String) (cursor : Int)
  | collect (now : String)
  | attempt (now : String) (outcome : Attempt)
  | restart

section

variable (server : Server) (courier : Courier)

/-- What an action tells the subscribers about, once it is committed. The OpenLineage adapter tells nothing. -/
def noticeOf (state : State) (draw : Draw) (principal : Principal) : Action → Option Notice
  | .advertise input role =>
    match (Advertise.advertise server state draw principal input role).response with
    | .ok out => some ⟨principal.instanceIri, some out.run, out.artifacts, role.asStr⟩
    | .error _ => none
  | .createArtifact input =>
    match Artifacts.createPlan server state draw principal input with
    | .ok write => some ⟨principal.instanceIri, none, [write.iri], roleProduced⟩
    | .error _ => none
  | _ => none

/-- A request, and the matching it ends with. -/
def served (site : Site) (credential : Option String) (draw : Draw) (action : Action) (gaps : Nat → Nat → Nat) : Site :=
  match principalOf server site.state draw.now credential with
  | .error _ => site
  | .ok principal =>
    let after := perform server site.state draw principal action
    match noticeOf server site.state draw principal action with
    | none => { site with state := after }
    | some notice => ⟨after, { site.desk with
        queue := notifyAdvertised server courier after site.desk.queue (draw.site 9) gaps notice }⟩

/-- An owner's request on the queue, by whoever the credential makes. -/
def owned (site : Site) (credential : Option String) (now : String) (request : Principal → Queue) : Site :=
  match principalOf server site.state now credential with
  | .error _ => site
  | .ok principal => { site with desk := { site.desk with queue := request principal } }

def step (site : Site) : Event → Site
  | .registry (.request credential draw action) gaps => served server courier site credential draw action gaps
  | .registry event _ => { site with state := Registry.step server site.state event }
  | .subscribe credential draw id input => owned server site credential draw.now (fun principal =>
      (Api.Subscriptions.create server courier site.state site.desk.queue draw principal id input).queue)
  | .patch credential draw sid input => owned server site credential draw.now (fun principal =>
      (Api.Subscriptions.patch server courier site.desk.queue draw principal sid input).queue)
  | .delete credential now sid => owned server site credential now (fun principal =>
      (Api.Subscriptions.delete site.desk.queue principal sid).queue)
  | .pull credential now sid query => owned server site credential now (fun principal =>
      (Api.Subscriptions.deliveries site.desk.queue now principal sid query).queue)
  | .ack credential now sid cursor => owned server site credential now (fun principal =>
      (Api.Subscriptions.ack site.desk.queue now principal sid cursor).queue)
  | .collect now => { site with
      desk := Subscriptions.step courier.policy courier.later site.desk (.collect now courier.batch) }
  | .attempt now outcome => { site with
      desk := Subscriptions.step courier.policy courier.later site.desk (.attempt now outcome) }
  | .restart => { site with desk := Subscriptions.step courier.policy courier.later site.desk .restart }

end

section Moves

variable (server : Server) (courier : Courier)

/-- The matches of a notice, one move each. -/
def noticeMoves (state : State) (queue : Queue) (draw : Draw) (gaps : Nat → Nat → Nat) (notice : Notice) : List Move :=
  notice.artifacts.zipIdx.flatMap (fun artifact => queue.activeSubscriptions.zipIdx.flatMap (fun sub =>
    if interested server courier state ((draw.site artifact.2).site sub.2) notice artifact.1 sub.1 then
      [Move.enqueue (gaps artifact.2 sub.2) (((draw.site artifact.2).site sub.2).id [])
        ((draw.site artifact.2).site sub.2).now
        (matchOf server courier state ((draw.site artifact.2).site sub.2) notice artifact.1 sub.1)]
    else []))

theorem notify_run (desk : Desk) (state : State) (active : Queue) (draw : Draw) (gaps : Nat → Nat → Nat) (notice : Notice) :
    run (Subscriptions.step courier.policy courier.later) desk (noticeMoves server courier state active draw gaps notice) =
      { desk with queue := notice.artifacts.zipIdx.foldl (fun queue_ artifact =>
          active.activeSubscriptions.zipIdx.foldl (fun queue_ sub =>
            notifyOne server courier state ((draw.site artifact.2).site sub.2) (gaps artifact.2 sub.2) notice artifact.1
              queue_ sub.1) queue_) desk.queue } := by
  have inner (artifact : String × Nat) (subs : List (Subscription × Nat)) (desk : Desk) :
      run (Subscriptions.step courier.policy courier.later) desk (subs.flatMap (fun sub =>
        if interested server courier state ((draw.site artifact.2).site sub.2) notice artifact.1 sub.1 then
          [Move.enqueue (gaps artifact.2 sub.2) (((draw.site artifact.2).site sub.2).id [])
            ((draw.site artifact.2).site sub.2).now
            (matchOf server courier state ((draw.site artifact.2).site sub.2) notice artifact.1 sub.1)]
        else [])) =
        { desk with queue := subs.foldl (fun queue_ sub =>
            notifyOne server courier state ((draw.site artifact.2).site sub.2) (gaps artifact.2 sub.2) notice artifact.1
              queue_ sub.1) desk.queue } := by
    induction subs generalizing desk with
    | nil => rfl
    | cons sub rest ih =>
      rw [List.flatMap_cons, run_append, ih, List.foldl_cons]
      by_cases hit : interested server courier state ((draw.site artifact.2).site sub.2) notice artifact.1 sub.1 = true
      · simp [hit, notifyOne, Subscriptions.step]
      · simp [hit, notifyOne]
  unfold noticeMoves
  generalize notice.artifacts.zipIdx = artifacts
  induction artifacts generalizing desk with
  | nil => rfl
  | cons artifact rest ih =>
    rw [List.flatMap_cons, run_append, inner, ih, List.foldl_cons]

/-- The moves of an owner's request. -/
def ownerMoves (site : Site) (credential : Option String) (now : String) (request : Principal → List Move) : List Move :=
  match principalOf server site.state now credential with
  | .error _ => []
  | .ok principal => request principal

/-- What a page acknowledges, and of which subscription. -/
def pullMoves (queue : Queue) (now : String) (principal : Principal) (sid : String) (query : DeliveryQuery) : List Move :=
  match Api.Subscriptions.pullPlan queue principal sid query with
  | .error _ => []
  | .ok (sub, cursor) =>
    .poll sub.id now :: if Api.Subscriptions.acks query then
      [.acknowledge sub.id now (Api.Subscriptions.pageEnd
        (queue.deliveriesSince sub.id cursor (Api.Subscriptions.pageLimit query.limit)) cursor)]
    else []

def ackMoves (queue : Queue) (now : String) (principal : Principal) (sid : String) (cursor : Int) : List Move :=
  match Api.Subscriptions.loadOwned queue principal sid with
  | .error _ => []
  | .ok sub => [.acknowledge sub.id now cursor]

def patchMoves (queue : Queue) (draw : Draw) (principal : Principal) (sid : String) (input : PatchSubscription) :
    List Move :=
  match Api.Subscriptions.patchPlan server courier queue draw principal sid input with
  | .error _ => []
  | .ok (sub, patch, _) => [.update sub.id draw.now patch]

def deleteMoves (queue : Queue) (principal : Principal) (sid : String) : List Move :=
  match Api.Subscriptions.loadOwned queue principal sid with
  | .error _ => []
  | .ok sub => [.delete sub.id]

def subscribeMoves (site : Site) (draw : Draw) (principal : Principal) (id : String) (input : CreateSubscription) :
    List Move :=
  match Api.Subscriptions.createPlan server courier site.state site.desk.queue draw principal id input with
  | .error _ => []
  | .ok new => [.subscribe (draw.id []) draw.now new]

def servedMoves (site : Site) (credential : Option String) (draw : Draw) (action : Action) (gaps : Nat → Nat → Nat) :
    List Move :=
  match principalOf server site.state draw.now credential with
  | .error _ => []
  | .ok principal =>
    match noticeOf server site.state draw principal action with
    | none => []
    | some notice => noticeMoves server courier (perform server site.state draw principal action) site.desk.queue
        (draw.site 9) gaps notice

/-- What an event does to the queue, move by move. -/
def moves (site : Site) : Event → List Move
  | .registry (.request credential draw action) gaps => servedMoves server courier site credential draw action gaps
  | .registry _ _ => []
  | .subscribe credential draw id input => ownerMoves server site credential draw.now (fun principal =>
      subscribeMoves server courier site draw principal id input)
  | .patch credential draw sid input => ownerMoves server site credential draw.now (fun principal =>
      patchMoves server courier site.desk.queue draw principal sid input)
  | .delete credential now sid => ownerMoves server site credential now (fun principal =>
      deleteMoves site.desk.queue principal sid)
  | .pull credential now sid query => ownerMoves server site credential now (fun principal =>
      pullMoves site.desk.queue now principal sid query)
  | .ack credential now sid cursor => ownerMoves server site credential now (fun principal =>
      ackMoves site.desk.queue now principal sid cursor)
  | .collect now => [.collect now courier.batch]
  | .attempt now outcome => [.attempt now outcome]
  | .restart => [.restart]

theorem served_desk (site : Site) (credential : Option String) (draw : Draw) (action : Action) (gaps : Nat → Nat → Nat) :
    (served server courier site credential draw action gaps).desk =
      run (Subscriptions.step courier.policy courier.later) site.desk
        (servedMoves server courier site credential draw action gaps) := by
  unfold served servedMoves
  split
  · rfl
  · split
    · rfl
    · rw [notify_run]
      rfl

theorem owned_desk (site : Site) (credential : Option String) (now : String) {request : Principal → Queue}
    {requestMoves : Principal → List Move}
    (each : ∀ principal, { site.desk with queue := request principal } =
      run (Subscriptions.step courier.policy courier.later) site.desk (requestMoves principal)) :
    (owned server site credential now request).desk =
      run (Subscriptions.step courier.policy courier.later) site.desk (ownerMoves server site credential now requestMoves) := by
  unfold owned ownerMoves
  split
  · rfl
  · exact each _

/-- The queue of the whole system moves as the queue alone does. -/
theorem step_desk (site : Site) (event : Event) :
    (step server courier site event).desk =
      run (Subscriptions.step courier.policy courier.later) site.desk (moves server courier site event) := by
  cases event with
  | registry event gaps =>
    cases event with
    | request credential draw action => exact served_desk server courier site credential draw action gaps
    | health | fetchStub | knowPeer | reindex => rfl
  | subscribe credential draw id input =>
    refine owned_desk server courier site credential draw.now (fun principal => ?_)
    unfold Api.Subscriptions.create subscribeMoves
    cases Api.Subscriptions.createPlan server courier site.state site.desk.queue draw principal id input with
    | error e => rfl
    | ok new =>
      simp only [run_cons, run_nil, Subscriptions.step]
      cases site.desk.queue.create (draw.id []) draw.now new with
      | error e => rfl
      | ok after => rfl
  | patch credential draw sid input =>
    refine owned_desk server courier site credential draw.now (fun principal => ?_)
    unfold Api.Subscriptions.patch patchMoves
    cases Api.Subscriptions.patchPlan server courier site.desk.queue draw principal sid input with
    | error e => rfl
    | ok planned =>
      obtain ⟨sub, patch, secret⟩ := planned
      simp only [run_cons, run_nil, Subscriptions.step]
      split <;> rfl
  | delete credential now sid =>
    refine owned_desk server courier site credential now (fun principal => ?_)
    unfold Api.Subscriptions.delete deleteMoves
    cases Api.Subscriptions.loadOwned site.desk.queue principal sid with
    | error e => rfl
    | ok sub => rfl
  | pull credential now sid query =>
    refine owned_desk server courier site credential now (fun principal => ?_)
    unfold Api.Subscriptions.deliveries pullMoves
    cases Api.Subscriptions.pullPlan site.desk.queue principal sid query with
    | error e => rfl
    | ok planned =>
      obtain ⟨sub, cursor⟩ := planned
      by_cases acks : Api.Subscriptions.acks query = true
      · simp [acks, Subscriptions.step]
      · simp [acks, Subscriptions.step]
  | ack credential now sid cursor =>
    refine owned_desk server courier site credential now (fun principal => ?_)
    unfold Api.Subscriptions.ack ackMoves
    cases Api.Subscriptions.loadOwned site.desk.queue principal sid with
    | error e => rfl
    | ok sub => rfl
  | collect now => rfl
  | attempt now outcome => rfl
  | restart => rfl

theorem step_sound {site : Site} (event : Event) (sound : Sound courier.policy site.desk) :
    Sound courier.policy (step server courier site event).desk := by
  rw [step_desk]
  exact run_invariant (Subscriptions.step courier.policy courier.later) (Sound courier.policy) sound
    (fun _ _ sound _ => Subscriptions.step_sound sound)
    (meets_of_forall (Subscriptions.step courier.policy courier.later) site.desk _ (fun _ _ _ => trivial))

end Moves

end ToolArtifactRegistry.Dispatch
