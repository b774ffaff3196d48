import ToolArtifactRegistry.Api.Lifecycle
import ToolArtifactRegistry.Laws.Specimen

/-! The events of one run, in the order they come in. The first one mints the run and each later one replaces its
status, so a run ends as its terminal event says only when that event comes last. -/
namespace ToolArtifactRegistry.Laws

open Library.Rdf Library.Runs Library.Serde Library.Results Ids Model Auth Domain Api.Openlineage Api.Lifecycle
open Api.Advertise (nonEmptyKey)

/-- An event as it is posted. -/
structure Posting where
  draw : Draw
  principal : Principal
  event : Json

section Posting

variable (server : Server)

def ingested (state : State) (posting : Posting) : State := (ingest server state posting.draw posting.principal posting.event).state

def Answered (state : State) (posting : Posting) : Prop :=
  (ingest server state posting.draw posting.principal posting.event).response.toOption.isSome = true

instance (state : State) (posting : Posting) : Decidable (Answered server state posting) := inferInstanceAs (Decidable (_ = true))

def Posting.run (posting : Posting) : RunIn := runOf server posting.event

def Posting.endsAt (posting : Posting) : Option String := (posting.run server).endedAt

def Posting.starts (posting : Posting) : Bool := eventType server posting.event == "START"

def Posting.ends (posting : Posting) : Bool := terminal (eventType server posting.event)

/-- Where the run that a posting mints is put. -/
def Posting.mints (posting : Posting) : String := mint server.base .run ((posting.draw.site 0).site 0)

/-- Events of one run of one deployment, one of which starts it and one of which ends it. -/
structure OfOneRun (key inst : String) (postings : List Posting) (start finish : Posting) : Prop where
  named : key ≠ ""
  keyed : ∀ posting ∈ postings, textAt posting.event ["run", "runId"] = some key
  bound : ∀ posting ∈ postings, posting.principal.instanceIri = some inst
  start : postings.filter (Posting.starts server) = [start]
  finish : postings.filter (Posting.ends server) = [finish]

/-- The start an event brings: its time or, without one, the moment it came in. -/
def Posting.begins (posting : Posting) : Option Term :=
  instant server.platform ((posting.run server).startedAt.getD posting.draw.now)

/-- The run starts when its START event says, and ends when and as its terminal event does. -/
def asReported (start finish : Posting) : Course where
  started := start.begins server
  ended := (finish.run server).endedAt.bind (instant server.platform)
  status := statusOf (eventType server finish.event)

/-- The life of a run, event by event. -/
def lifeOf (l : Course) (postings : List Posting) : Course :=
  postings.foldl (fun l posting => l.updated server.platform (posting.run server)) l

end Posting

section Lives

variable {server : Server} {key inst : String} {start finish : Posting}

theorem nonEmptyKey_of_keyed (named : key ≠ "") {posting : Posting}
    (keyed : textAt posting.event ["run", "runId"] = some key) : nonEmptyKey (posting.run server) = some key := by
  show Domain.nonEmpty (textAt posting.event ["run", "runId"]) = some key
  rw [keyed]
  simp [Domain.nonEmpty, Option.filter, named]

/-- The later events of a run update what is said of it, one after the other. -/
theorem run_known {state : State} {runIri : String} {l : Course} {postings : List Posting} (named : key ≠ "")
    (keyed : ∀ posting ∈ postings, textAt posting.event ["run", "runId"] = some key)
    (bound : ∀ posting ∈ postings, posting.principal.instanceIri = some inst)
    (known : state.ops.runForKey key inst = some runIri) (tells : Tells server.platform state.data runIri l)
    (answered : Meets (ingested server) (Answered server) state postings) :
    Tells server.platform (run (ingested server) state postings).data runIri (lifeOf server l postings) ∧
      (run (ingested server) state postings).ops.runForKey key inst = some runIri := by
  induction postings generalizing state l with
  | nil => exact ⟨tells, known⟩
  | cons posting rest ih =>
    obtain ⟨answer, here⟩ := exists_ok answered.1
    obtain ⟨updated, found⟩ := ingest_known (bound posting List.mem_cons_self)
      (nonEmptyKey_of_keyed named (keyed posting List.mem_cons_self)) known tells here
    exact ih (fun other mem => keyed other (List.mem_cons_of_mem _ mem)) (fun other mem => bound other (List.mem_cons_of_mem _ mem))
      found updated answered.2

theorem lifeOf_cons (l : Course) (posting : Posting) (rest : List Posting) :
    lifeOf server l (posting :: rest) = lifeOf server (l.updated server.platform (posting.run server)) rest := rfl

theorem updated_status (l : Course) (posting : Posting) :
    (l.updated server.platform (posting.run server)).status = statusOf (eventType server posting.event) := rfl

theorem updated_ended (l : Course) (posting : Posting) : (l.updated server.platform (posting.run server)).ended =
    match posting.endsAt server with
    | some value => instant server.platform value
    | none => l.ended := by
  unfold Course.updated Posting.endsAt
  cases (posting.run server).endedAt <;> rfl

theorem lifeOf_started (l : Course) (postings : List Posting) : (lifeOf server l postings).started = l.started := by
  induction postings generalizing l with
  | nil => rfl
  | cons posting rest ih => exact ih _

theorem lifeOf_status (l : Course) (postings : List Posting) : (lifeOf server l postings).status =
    (postings.getLast?.map (fun posting => statusOf (eventType server posting.event))).getD l.status := by
  induction postings generalizing l with
  | nil => rfl
  | cons posting rest ih =>
    rw [lifeOf_cons, ih, updated_status]
    cases rest with
    | nil => simp
    | cons other more => simp [List.getLast?_cons]

/-- The end is that of the last event that brings one. -/
theorem lifeOf_ended (l : Course) (postings : List Posting) : (lifeOf server l postings).ended =
    match (postings.filterMap (Posting.endsAt server)).getLast? with
    | some value => instant server.platform value
    | none => l.ended := by
  induction postings generalizing l with
  | nil => rfl
  | cons posting rest ih =>
    rw [lifeOf_cons, ih, updated_ended]
    cases brings : posting.endsAt server with
    | none => rw [List.filterMap_cons_none brings]
    | some value =>
      rw [List.filterMap_cons_some brings]
      cases rest.filterMap (Posting.endsAt server) with
      | nil => rfl
      | cons other more => simp [List.getLast?_cons]

theorem endsAt_of_not_ends {posting : Posting} (goesOn : posting.ends server = false) : posting.endsAt server = none := by
  unfold Posting.endsAt Posting.run runOf
  dsimp only
  rw [show terminal (eventType server posting.event) = false from goesOn]
  rfl

/-- Only terminal events bring an end. -/
theorem ends_filtered (postings : List Posting) : postings.filterMap (Posting.endsAt server) =
    (postings.filter (Posting.ends server)).filterMap (Posting.endsAt server) := by
  rw [List.filterMap_filter]
  apply List.filterMap_congr
  intro posting _
  by_cases ends : posting.ends server = true
  · rw [if_pos ends]
  · rw [if_neg ends, endsAt_of_not_ends (Bool.eq_false_iff.2 ends)]

theorem statusOf_ne_empty (type : String) : statusOf type ≠ "" := by
  unfold statusOf
  split <;> decide

theorem statusOf_running {type : String} : statusOf type = "running" ↔ terminal type = false := by
  unfold statusOf terminal
  split
  · decide
  · decide
  · decide
  · next complete fail abort =>
    have goesOn : type ∉ ["COMPLETE", "FAIL", "ABORT"] := by
      intro listed
      simp only [List.mem_cons, List.not_mem_nil, or_false] at listed
      exact listed.elim complete (fun rest => rest.elim fail abort)
    simp only [decide_eq_false goesOn]

/-- What is said of a run tells its whole course. -/
theorem tells_unique {platform : Platform} {data : Dataset} {runIri : String} {one other : Course}
    (first : Tells platform data runIri one) (second : Tells platform data runIri other)
    (oneStatus : one.status ≠ "") (otherStatus : other.status ≠ "") : one = other := by
  have same (statement : Rdf.Build.Statement) (spoken : statement.1 ∈ lifecycleVocabulary) :
      statement ∈ one.statements platform ↔ statement ∈ other.statements platform :=
    (first statement spoken).symm.trans (second statement spoken)
  have started : one.started = other.started := by
    apply Option.ext
    intro term
    rw [← mem_started, ← mem_started]
    exact same _ (by decide : Ns.t Ns.prov "startedAtTime" ∈ _)
  have ended : one.ended = other.ended := by
    apply Option.ext
    intro term
    rw [← mem_ended, ← mem_ended]
    exact same _ (by decide : Ns.t Ns.prov "endedAtTime" ∈ _)
  have status : one.status = other.status := by
    rw [eq_comm, ← mem_status otherStatus, ← same _ (by decide : Ns.t Ns.tar "status" ∈ _), mem_status oneStatus]
  exact Course.ext started ended status

variable {state : State} {first : Posting} {rest : List Posting}

theorem finish_ends (events : OfOneRun server key inst (first :: rest) start finish) :
    finish ∈ first :: rest ∧ finish.ends server = true := by
  have mem : finish ∈ (first :: rest).filter (Posting.ends server) := by
    rw [events.finish]
    exact List.mem_singleton_self _
  exact List.mem_filter.1 mem

/-- Wherever the terminal event comes, the end is the one it brings. -/
theorem ended_asReported (events : OfOneRun server key inst (first :: rest) start finish) (l : Course) (unended : l.ended = none) :
    (lifeOf server l (first :: rest)).ended = (asReported server start finish).ended := by
  rw [lifeOf_ended, ends_filtered, events.finish, unended]
  show _ = (finish.endsAt server).bind (instant server.platform)
  cases brings : finish.endsAt server with
  | none => rw [List.filterMap_cons_none brings]; rfl
  | some value => rw [List.filterMap_cons_some brings]; rfl

/-- The status is that of the terminal event exactly when that comes last. -/
theorem status_asReported (events : OfOneRun server key inst (first :: rest) start finish) (l : Course) :
    (lifeOf server l (first :: rest)).status = (asReported server start finish).status ↔
      ((first :: rest).getLast (List.cons_ne_nil _ _)).ends server = true := by
  obtain ⟨_, ended⟩ := finish_ends events
  rw [lifeOf_status, List.getLast?_eq_some_getLast (List.cons_ne_nil _ _), Option.map_some, Option.getD_some]
  show _ = statusOf (eventType server finish.event) ↔ _
  constructor
  · intro same
    by_contra goesOn
    have running := statusOf_running.2 (Bool.eq_false_iff.2 goesOn)
    rw [running] at same
    have still : Posting.ends server finish = false := statusOf_running.1 same.symm
    rw [still] at ended
    cases ended
  · intro ends
    have mem : (first :: rest).getLast (List.cons_ne_nil _ _) ∈ (first :: rest).filter (Posting.ends server) :=
      List.mem_filter.2 ⟨List.getLast_mem _, ends⟩
    rw [events.finish] at mem
    rw [List.mem_singleton.1 mem]

/-- The course its events make of a run is the one they report exactly when the terminal event comes last and the first
brings the start. -/
theorem course_eq_iff (events : OfOneRun server key inst (first :: rest) start finish) :
    lifeOf server (begun server.platform first.draw (first.run server)) (first :: rest) = asReported server start finish ↔
      ((first :: rest).getLast (List.cons_ne_nil _ _)).ends server = true ∧
        first.begins server = start.begins server := by
  have started := @lifeOf_started server (begun server.platform first.draw (first.run server)) (first :: rest)
  have ended := ended_asReported events (begun server.platform first.draw (first.run server)) rfl
  have begins : (begun server.platform first.draw (first.run server)).started = first.begins server := by
    unfold begun Posting.begins
    rfl
  have reported : (asReported server start finish).started = start.begins server := by
    unfold asReported
    rfl
  rw [Course.ext_iff, started, status_asReported events, begins, reported, and_comm (a := _ = _), and_assoc]
  simp only [ended, true_and]

/-- What the registry says of a run after its events is the course they make of it. -/
theorem run_tells (events : OfOneRun server key inst (first :: rest) start finish)
    (unknown : state.ops.runForKey key inst = none)
    (new : ∀ quad ∈ state.data, quad.subject ≠ .named (first.mints server))
    (answered : Meets (ingested server) (Answered server) state (first :: rest)) :
    Tells server.platform (run (ingested server) state (first :: rest)).data (first.mints server)
        (lifeOf server (begun server.platform first.draw (first.run server)) (first :: rest)) ∧
      (run (ingested server) state (first :: rest)).ops.runForKey key inst = some (first.mints server) := by
  obtain ⟨answer, here⟩ := exists_ok answered.1
  obtain ⟨tells, known⟩ := ingest_new (events.bound first List.mem_cons_self)
    (nonEmptyKey_of_keyed events.named (events.keyed first List.mem_cons_self)) unknown new here
  have later (other : Posting) (mem : other ∈ rest) : other ∈ first :: rest := List.mem_cons_of_mem first mem
  exact @run_known server key inst (ingested server state first) _ _ rest events.named
    (fun other mem => events.keyed other (later other mem)) (fun other mem => events.bound other (later other mem))
    known tells answered.2

end Lives

/-- A run whose events come in some order is given the status of its terminal event, the action status of that, the
start of its START event and the end of its terminal event, exactly when the terminal event comes last and the one that
comes first brings the start. -/
theorem events_ordered_iff (server : Server) (state : State) (key inst : String) (first : Posting) (rest : List Posting)
    (start finish : Posting) (events : OfOneRun server key inst (first :: rest) start finish)
    (unknown : state.ops.runForKey key inst = none) (new : ∀ quad ∈ state.data, quad.subject ≠ .named (first.mints server))
    (answered : Meets (ingested server) (Answered server) state (first :: rest)) :
    (∃ runIri, (run (ingested server) state (first :: rest)).ops.runForKey key inst = some runIri ∧
      Tells server.platform (run (ingested server) state (first :: rest)).data runIri (asReported server start finish)) ↔
      ((first :: rest).getLast (List.cons_ne_nil _ _)).ends server = true ∧
        first.begins server = start.begins server := by
  obtain ⟨tells, known⟩ := run_tells events unknown new answered
  rw [← course_eq_iff events]
  constructor
  · intro right
    obtain ⟨runIri, found, reports⟩ := right
    obtain rfl := Option.some.inj (known.symm.trans found)
    refine tells_unique tells reports ?_ (statusOf_ne_empty _)
    rw [lifeOf_status, List.getLast?_eq_some_getLast (List.cons_ne_nil _ _)]
    exact statusOf_ne_empty _
  · intro same
    exact ⟨_, known, same ▸ tells⟩

section Specimen

open Specimen

/-- One deployment is registered. -/
def pipeline : State := run (Registry.step (registry [])) State.empty [byRoot "i" (.createInstance { label := "one" })]

def reporter : Principal :=
  { Principal.anonymous with
    credential := .localToken, instanceIri := some "https://reg.example/instance/ia", scopes := {scopeAdvertiseProduce} }

/-- An event of the run "r". -/
def runEvent (label type time : String) : Posting :=
  ⟨draw label, reporter, .object [("eventType", .string type), ("eventTime", .string time),
    ("run", .object [("runId", .string "r")])]⟩

def startEvent : Posting := runEvent "a" "START" "10:00"

def runningEvent : Posting := runEvent "b" "RUNNING" "10:30"

def completeEvent : Posting := runEvent "c" "COMPLETE" "11:00"

theorem events_of_one_run (second third : Posting) (order : [second, third] = [runningEvent, completeEvent] ∨
    [second, third] = [completeEvent, runningEvent]) :
    OfOneRun (registry []) "r" "https://reg.example/instance/ia" [startEvent, second, third] startEvent completeEvent := by
  obtain ⟨one, two, three, four, five, six⟩ :
      startEvent.starts (registry []) = true ∧ runningEvent.starts (registry []) = false ∧
        completeEvent.starts (registry []) = false ∧ startEvent.ends (registry []) = false ∧
          runningEvent.ends (registry []) = false ∧ completeEvent.ends (registry []) = true := by decide
  rcases order with same | same <;> cases same
  · exact ⟨by decide, by decide, by decide, by simp [List.filter, one, two, three], by simp [List.filter, four, five, six]⟩
  · exact ⟨by decide, by decide, by decide, by simp [List.filter, one, two, three], by simp [List.filter, four, five, six]⟩

/-- A run whose events come in the order they were sent in is as they report it. -/
theorem events_in_order : ∃ runIri,
    (run (ingested (registry [])) pipeline [startEvent, runningEvent, completeEvent]).ops.runForKey "r"
      "https://reg.example/instance/ia" = some runIri ∧
      Tells (platform []) (run (ingested (registry [])) pipeline [startEvent, runningEvent, completeEvent]).data runIri
        (asReported (registry []) startEvent completeEvent) := by
  have evaluated : pipeline.ops.runForKey "r" "https://reg.example/instance/ia" = none ∧
      (∀ quad ∈ pipeline.data, quad.subject ≠ .named (startEvent.mints (registry []))) ∧
        Meets (ingested (registry [])) (Answered (registry [])) pipeline [startEvent, runningEvent, completeEvent] ∧
          completeEvent.ends (registry []) = true := by decide
  exact (events_ordered_iff (registry []) pipeline "r" "https://reg.example/instance/ia" startEvent
    [runningEvent, completeEvent] startEvent completeEvent (events_of_one_run _ _ (Or.inl rfl)) evaluated.1 evaluated.2.1
    evaluated.2.2.1).2 ⟨evaluated.2.2.2, rfl⟩

/-- An event that comes after the terminal one takes the run back to running. -/
theorem late_event_reopens :
    OfOneRun (registry []) "r" "https://reg.example/instance/ia" [startEvent, completeEvent, runningEvent] startEvent completeEvent ∧
      Meets (ingested (registry [])) (Answered (registry [])) pipeline [startEvent, completeEvent, runningEvent] ∧
        ¬∃ runIri, (run (ingested (registry [])) pipeline [startEvent, completeEvent, runningEvent]).ops.runForKey "r"
            "https://reg.example/instance/ia" = some runIri ∧
          Tells (platform []) (run (ingested (registry [])) pipeline [startEvent, completeEvent, runningEvent]).data runIri
            (asReported (registry []) startEvent completeEvent) := by
  have evaluated : Meets (ingested (registry [])) (Answered (registry [])) pipeline [startEvent, completeEvent, runningEvent] ∧
      (∀ quad ∈ (run (ingested (registry [])) pipeline [startEvent, completeEvent, runningEvent]).data,
        quad.object ≠ .simple "success") ∧ statusOf (eventType (registry []) completeEvent.event) = "success" := by
    decide
  refine ⟨events_of_one_run _ _ (Or.inr rfl), evaluated.1, ?_⟩
  intro reports
  obtain ⟨runIri, _, tells⟩ := reports
  have given : (asReported (registry []) startEvent completeEvent).status = "success" := evaluated.2.2
  have nonempty : (asReported (registry []) startEvent completeEvent).status ≠ "" := given ▸ (by decide)
  have said := (tells (Ns.t Ns.tar "status", .simple "success") (by decide)).2 ((mem_status nonempty).2 given)
  exact evaluated.2.1 _ said rfl

end Specimen

end ToolArtifactRegistry.Laws
