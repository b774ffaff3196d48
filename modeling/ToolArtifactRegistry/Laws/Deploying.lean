import ToolArtifactRegistry.Api.Announcing
import ToolArtifactRegistry.Domain.Deployment
import ToolArtifactRegistry.Laws.Specimen

/-! One deployment, one record. An announcement looks for the record it made last time and writes in an access
of its own; a record of the same names may have been written in between. -/
namespace ToolArtifactRegistry.Laws

open Library.Rdf Library.Runs Library.Programs Ids Model Store Rdf Build Auth Domain Domain.Deployment Api Api.Announcing
open Instances (findSelfRegistered applyAnnouncement freshRecord selfKey announcer stampSeen authorisedSoftware)

/-- No two live records carry the same names. -/
def OneRecord (data : Dataset) : Prop :=
  ∀ names left right, Registered data names left → Registered data names right → left = right

/-- Only IRIs are said to be registered by anyone. -/
def IrisRegistered (data : Dataset) : Prop :=
  ∀ node object, ⟨node, Ns.t Ns.tar "selfRegisteredBy", object, Ns.gLocal⟩ ∈ data → ∃ iri, node = .named iri

/-- No other live record carries the names a record is to be written with. -/
def Vacant (data : Dataset) (draft : Draft) : Prop :=
  ∀ names, Names.of draft.input = some names → ∀ node, Registered data names node → node = .named draft.iri

/-- The record a call works towards. -/
def draftOf : Announcing.Call → Option Draft
  | .enforceWrite draft _ | .resolveSoftwareFor draft | .checkDeployable draft _ | .register draft .. | .replace draft .. =>
    some draft
  | .findSelfRegistered .. | .loadInstance .. | .answer .. => none

/-- The record a call writes. -/
def writtenBy : Announcing.Call → Option Draft
  | .register draft .. | .replace draft .. => some draft
  | _ => none

section

variable (server : Server)

/-- A record is looked for under a key, one that is announced again is live under the names it is read with, or
none is, and a minted IRI is new. -/
def InOrder : Announcing.Call → State → Prop
  | .findSelfRegistered _ key, _ => key ≠ ""
  | .loadInstance draw iri, state => ∀ current, Instance.loadInstance (server.ctx state draw) iri = .ok current →
      ∀ names, Names.of (Codec.instanceInFrom current) = some names →
        Registered state.data names (.named iri) ∨ ∀ node, ¬ Registered state.data names node
  | .register draft .., state => ∀ quad ∈ state.data, quad.subject ≠ .named draft.iri
  | _, _ => True

/-- What begins is an announcement. -/
def BeginsAnnouncing (_ : Pool (desk server) (AppResult Instance)) : Turn (desk server) (AppResult Instance) → Prop
  | .start p => ∃ draw principal input, p = announceSelf server draw principal input
  | .next _ => True

/-- No record is written while another announcement is about to write a different one under the same names. -/
def Unrivalled (pool : Pool (desk server) (AppResult Instance)) : Turn (desk server) (AppResult Instance) → Prop
  | .start _ => True
  | .next place => ∀ c, pool.Calls place c → InOrder server c pool.state ∧
      ∀ draft, writtenBy c = some draft → ∀ (other : Nat) d, other ≠ place → pool.Calls other d →
        ∀ pending, draftOf d = some pending → ∀ names, Names.of draft.input = some names →
          Names.of pending.input = some names → draft.iri = pending.iri

/-- Every call towards a record rests on its names being vacant. -/
def vacancy : Footing (desk server) where
  inv state := OneRecord state.data ∧ IrisRegistered state.data
  rests c state := ∀ draft, draftOf c = some draft → Vacant state.data draft
  permitted := InOrder server

end

section Writing

variable {server : Server} {state : State} {draft : Draft} {draw : Draw} {now : String} {software : Option String}

theorem ofRecord_stamped {tx : GraphTx} (graphs : tx.clearGraphs = []) (properties : tx.deleteProperties = [])
    (subjects : tx.deleteSubjects = [] ∨ tx.deleteSubjects = [(draft.iri, Ns.gLocal)])
    (inserts : tx.insert = draft.quads server draw software) :
    OfRecord draft.iri draft.input (stampSeen server tx draft.iri now) where
  graphs := graphs
  subjects := subjects
  properties := by
    intro target mem
    simp only [stampSeen, GraphTx.replaceProperty, GraphTx.extend, properties, List.nil_append, List.mem_singleton] at mem
    rw [mem]
  inserts := by
    intro quad known
    have silent : ∀ predicate ∈ nameVocabulary, predicate ≠ Ns.t Ns.tar "lastSeenAt" := by decide
    have stamp : quad ∉ describeLocal draft.iri (datetime server.platform Ns.tar "lastSeenAt" now) := by
      intro mem
      exact silent _ known (only_datetime _ _ _ _ _ (mem_finish.1 mem).2.2)
    simp only [stampSeen, GraphTx.replaceProperty, GraphTx.extend, inserts, List.mem_append, stamp, or_false]
    exact mem_names known

theorem ofRecord_register : OfRecord draft.iri draft.input (draft.registerTx server draw now software) :=
  ofRecord_stamped rfl rfl (Or.inl rfl) rfl

theorem ofRecord_replace : OfRecord draft.iri draft.input (draft.replaceTx server draw now software) :=
  ofRecord_stamped rfl rfl (Or.inr rfl) rfl

/-- What a call does to the records: nothing, or it writes one. -/
theorem performed_cases {c : Announcing.Call} (orderly : InOrder server c state) :
    (perform server c state).2 = state ∨ ∃ draft tx, writtenBy c = some draft ∧ OfRecord draft.iri draft.input tx ∧
      Anew state.data draft.iri tx ∧ (perform server c state).2 = { state with data := effect state.data tx } := by
  have settled : ∀ tx, (applied server state tx).2 = state ∨
      (applied server state tx).2 = { state with data := effect state.data tx } := by
    intro tx
    unfold applied
    cases accepted : Store.apply server.platform state.data tx with
    | error e => exact Or.inl rfl
    | ok after => exact Or.inr (by rw [apply_ok accepted])
  cases c with
  | register draft draw now software =>
    exact (settled _).imp_right (fun same => ⟨draft, _, rfl, ofRecord_register, Or.inl orderly, same⟩)
  | replace draft draw now software =>
    exact (settled _).imp_right (fun same => ⟨draft, _, rfl, ofRecord_replace, Or.inr rfl, same⟩)
  | _ => exact Or.inl rfl

variable {data : Dataset} {tx : GraphTx}

theorem oneRecord_written (record : OfRecord draft.iri draft.input tx) (anew : Anew data draft.iri tx)
    (once : OneRecord data) (vacant : Vacant data draft) : OneRecord (effect data tx) := by
  have sole : ∀ names node, Registered (effect data tx) names (.named draft.iri) →
      Registered (effect data tx) names node → node = .named draft.iri := by
    intro names node own registered
    by_contra other
    exact other (vacant names (registered_written record anew own) node (registered_other record other registered))
  intro names left right inLeft inRight
  by_cases here : left = .named draft.iri
  · exact here ▸ (sole names right (here ▸ inLeft) inRight).symm
  · by_cases there : right = .named draft.iri
    · exact there ▸ sole names left (there ▸ inRight) inLeft
    · exact once names left right (registered_other record here inLeft) (registered_other record there inRight)

theorem irisRegistered_written (record : OfRecord draft.iri draft.input tx) (iris : IrisRegistered data) :
    IrisRegistered (effect data tx) := by
  intro node object mem
  rcases mem_effect_cases mem with held | inserted
  · exact iris node object held
  · exact ⟨draft.iri, (mem_finish.1 ((record.inserts _ (known_term (by simp [nameTerms]))).1 inserted)).1⟩

/-- A write under other names, or of the same record, leaves the names of a pending record vacant. -/
theorem vacant_written (record : OfRecord draft.iri draft.input tx) (anew : Anew data draft.iri tx) {pending : Draft}
    (vacant : Vacant data pending) (same : ∀ names, Names.of draft.input = some names →
      Names.of pending.input = some names → draft.iri = pending.iri) : Vacant (effect data tx) pending := by
  intro names written node registered
  by_cases own : node = .named draft.iri
  · rw [own, same names (registered_written record anew (own ▸ registered)) written]
  · exact vacant names written node (registered_other record own registered)

end Writing

section Looking

variable {server : Server} {state : State}

/-- A lookup in vain: no live record carries this subject and key. -/
theorem vacant_of_missed (iris : IrisRegistered state.data) {subject key iri actor : String} {input : InstanceIn}
    (missed : findSelfRegistered state.data subject key = none) (keyed : key ≠ "")
    (by_ : input.selfRegisteredBy = some subject) (named : input.instanceKey = some key) :
    Vacant state.data ⟨iri, input, actor⟩ := by
  intro names written node registered
  exfalso
  -- the record would be among those the lookup goes through, the first of which has an IRI
  have carried : names.registeredBy = subject ∧ names.key = some key := by
    simp only [Names.of, Option.map_eq_some_iff] at written
    obtain ⟨shown, given, rfl⟩ := written
    rw [by_, nonEmpty, Option.filter_eq_some_iff] at given
    refine ⟨(Option.some.inj given.1).symm, ?_⟩
    simp [named, nonEmpty, Option.filter, keyed]
  have keyHeld := registered.key
  rw [carried.2] at keyHeld
  have byHeld := registered.by_
  rw [carried.1] at byHeld
  have listed : (⟨node, Ns.t Ns.tar "selfRegisteredBy", .simple subject, Ns.gLocal⟩ : Quad) ∈
      (state.data.matching (fun quad => decide (quad.predicate = Ns.t Ns.tar "selfRegisteredBy" ∧
        quad.object = .simple subject ∧ quad.graph = Ns.gLocal))).filter (fun quad =>
          state.data.any (fun named => decide (named.subject = quad.subject ∧ named.predicate = Ns.t Ns.tar "instanceKey" ∧
            named.object = .simple key ∧ named.graph = Ns.gLocal)) && !isTombstoned state.data quad.subject) := by
    refine List.mem_filter.2 ⟨Dataset.mem_matching.2 ⟨byHeld, by simp⟩, ?_⟩
    rw [Bool.and_eq_true, registered.live]
    exact ⟨Dataset.any_eq_true.2 ⟨_, keyHeld, by simp⟩, rfl⟩
  obtain ⟨first, found⟩ := Option.isSome_iff_exists.1 (List.isSome_head?.2 (List.ne_nil_of_mem listed))
  rw [findSelfRegistered, found] at missed
  obtain ⟨inData, said⟩ := Dataset.mem_matching.1 (List.mem_filter.1 (List.mem_of_head? found)).1
  obtain ⟨predicate, _, graph⟩ := of_decide_eq_true said
  have held : (⟨first.subject, Ns.t Ns.tar "selfRegisteredBy", first.object, Ns.gLocal⟩ : Quad) ∈ state.data := by
    rw [← predicate, ← graph]
    exact inData
  obtain ⟨iri, same⟩ := iris _ _ held
  rw [Option.bind_some, same] at missed
  cases missed

/-- A record that was loaded where it was live, or where its names were free. -/
theorem vacant_of_loaded (once : OneRecord state.data) {draw : Draw} {iri actor : String} {current : Instance}
    (loaded : Instance.loadInstance (server.ctx state draw) iri = .ok current)
    (orderly : InOrder server (.loadInstance draw iri) state) (input : SelfAnnounceIn) :
    Vacant state.data ⟨iri, applyAnnouncement server (Codec.instanceInFrom current) input, actor⟩ := by
  intro names written node registered
  rcases orderly current loaded names written with live | free
  · exact once names node _ registered live
  · exact absurd registered (free node)

/-- What works towards one record, all the way from where its names were found vacant. -/
def Towards (draft : Draft) (p : Handler server) : Prop :=
  p.Looks (vacancy server) ∧ ∀ state : State, Vacant state.data draft → p.Ready (vacancy server) state

theorem towards_done (draft : Draft) (answer : AppResult Instance) : Towards draft (.done answer : Handler server) :=
  ⟨trivial, fun state _ => Program.ready_done (S := desk server) answer state⟩

theorem towards_proceed {α : Type} {draft : Draft} {result : AppResult α} {next : α → Handler server}
    (each : ∀ value, Towards draft (next value)) : Towards draft (proceed server result next) := by
  cases result with
  | error e => exact towards_done draft _
  | ok value => exact each value

/-- A call that changes nothing hands on what it rested on. -/
theorem towards_read {draft : Draft} {c : Announcing.Call} (forDraft : draftOf c = some draft) (reads : ∀ state : State,
    (perform server c state).2 = state) {rest : c.Reply → Handler server} (each : ∀ reply, Towards draft (rest reply)) :
    Towards draft (.call c rest : Handler server) := by
  refine ⟨?_, ?_⟩
  · intro state _ rests _
    refine ⟨?_, (each _).1⟩
    change Program.Ready (vacancy server) _ (perform server c state).2
    rw [reads]
    exact (each _).2 state (rests draft forDraft)
  · intro state vacant
    refine Program.ready_call.2 ?_
    intro other same
    rw [forDraft] at same
    exact Option.some.inj same ▸ vacant

/-- Once the record is written the rest rests on nothing. -/
theorem towards_write {draft : Draft} {c : Announcing.Call} (forDraft : draftOf c = some draft) {rest : c.Reply → Handler server}
    (each : ∀ reply, (rest reply).Careful (vacancy server)) : Towards draft (.call c rest : Handler server) := by
  refine ⟨Program.Looks.of_careful each, ?_⟩
  intro state vacant
  refine Program.ready_call.2 ?_
  intro other same
  rw [forDraft] at same
  exact Option.some.inj same ▸ vacant

theorem careful_proceed {α : Type} {result : AppResult α} {next : α → Handler server}
    (each : ∀ value, (next value).Careful (vacancy server)) : (proceed server result next).Careful (vacancy server) := by
  cases result with
  | error e => exact Program.careful_done _
  | ok value => exact each value

theorem careful_answered (draw : Draw) (iri : String) (written : AppResult Unit) :
    (proceed server written (fun _ => (.call (.answer draw iri) .done : Handler server))).Careful (vacancy server) :=
  careful_proceed (fun _ => Program.careful_call (fun _ _ same => nomatch same)
    (fun _ _ _ => (Program.careful_done _).anywhere _))

theorem towards_registerDraft (draw : Draw) (draft : Draft) : Towards draft (registerDraft server draw draft) := by
  refine towards_read rfl (fun _ => rfl) (fun resolved => ?_)
  refine towards_proceed (fun software => ?_)
  refine towards_read rfl (fun _ => rfl) (fun deployable => ?_)
  refine towards_proceed (fun _ => ?_)
  refine towards_read rfl (fun _ => rfl) (fun conforms => ?_)
  refine towards_proceed (fun _ => ?_)
  exact towards_write rfl (careful_answered draw draft.iri)

theorem towards_replaceDraft (draw : Draw) (draft : Draft) : Towards draft (replaceDraft server draw draft) := by
  refine towards_read rfl (fun _ => rfl) (fun conforms => ?_)
  refine towards_proceed (fun _ => ?_)
  refine towards_read rfl (fun _ => rfl) (fun resolved => ?_)
  refine towards_proceed (fun software => ?_)
  refine towards_read rfl (fun _ => rfl) (fun deployable => ?_)
  refine towards_proceed (fun _ => ?_)
  exact towards_write rfl (careful_answered draw draft.iri)

theorem Towards.found {draft : Draft} {p : Handler server} (towards : Towards draft p) (vacant : Vacant state.data draft) :
    p.Ready (vacancy server) state ∧ p.Looks (vacancy server) := ⟨towards.2 state vacant, towards.1⟩

theorem done_anywhere (answer : AppResult Instance) : (Program.done (S := desk server) answer).Ready (vacancy server) state ∧
    (Program.done (S := desk server) answer).Looks (vacancy server) := (Program.careful_done answer).anywhere _

theorem found_register (draw : Draw) (principal : Principal) (clientId : String) (input : SelfAnnounceIn)
    (free : ∀ authorised, Vacant state.data (freshDraft server draw principal clientId authorised input)) :
    (register server draw principal clientId input).Ready (vacancy server) state ∧
      (register server draw principal clientId input).Looks (vacancy server) := by
  unfold register
  cases authorisedSoftware server principal clientId input.software with
  | error e => exact done_anywhere _
  | ok authorised => exact (towards_registerDraft draw _).found (free authorised)

theorem careful_reannounce (draw : Draw) (principal : Principal) (input : SelfAnnounceIn) (iri : String) :
    (reannounce server draw principal input iri).Careful (vacancy server) := by
  refine Program.careful_call (fun _ _ same => nomatch same) (fun state inv orderly => ?_)
  have performed : (desk server).perform (.loadInstance draw iri) state =
      (Instance.loadInstance (server.ctx state draw) iri, state) := rfl
  rw [performed]
  cases loaded : Instance.loadInstance (server.ctx state draw) iri with
  | error e => exact done_anywhere _
  | ok current => exact (towards_replaceDraft draw _).found (vacant_of_loaded inv.1 loaded orderly input)

/-- A lookup under a key, after which a record is announced again or registered under names found free. -/
theorem careful_looked (draw : Draw) (principal : Principal) (clientId : String) (input : SelfAnnounceIn)
    (choose : Option String → Option String) (misses : ∀ registered, choose registered = none → registered = none) :
    (.call (.findSelfRegistered principal.subject (selfKey principal input)) (fun registered =>
      match choose registered with
      | some iri => reannounce server draw principal input iri
      | none => register server draw principal clientId input) : Handler server).Careful (vacancy server) := by
  refine Program.careful_call (fun _ _ same => nomatch same) (fun state inv keyed => ?_)
  have performed : (desk server).perform (.findSelfRegistered principal.subject (selfKey principal input)) state =
      (findSelfRegistered state.data principal.subject (selfKey principal input), state) := rfl
  rw [performed]
  cases chosen : choose (findSelfRegistered state.data principal.subject (selfKey principal input)) with
  | some iri =>
    simp only []
    exact (careful_reannounce draw principal input iri).anywhere state
  | none =>
    simp only []
    refine found_register draw principal clientId input (fun authorised => ?_)
    exact vacant_of_missed inv.2 (misses _ chosen) keyed rfl rfl

theorem careful_announceSelf (draw : Draw) (principal : Principal) (input : SelfAnnounceIn) :
    (announceSelf server draw principal input).Careful (vacancy server) := by
  unfold announceSelf
  refine careful_proceed (fun clientId => ?_)
  unfold existingRecord
  cases principal.softwareIri with
  | some software =>
    exact careful_looked draw principal clientId input _ (fun registered missed => (Option.or_eq_none_iff.1 missed).1)
  | none =>
    cases principal.instanceIri with
    | some iri => exact careful_reannounce draw principal input iri
    | none => exact careful_looked draw principal clientId input id (fun _ missed => missed)

end Looking

section Runs

variable {server : Server} {pool : Pool (desk server) (AppResult Instance)}

theorem heedful_of_unrivalled {turn : Turn (desk server) (AppResult Instance)} (begins : BeginsAnnouncing server pool turn)
    (unrivalled : Unrivalled server pool turn) : pool.Heedful (vacancy server) turn := by
  cases turn with
  | start p =>
    obtain ⟨draw, principal, input, rfl⟩ := begins
    exact careful_announceSelf draw principal input
  | next place =>
    intro c calls inv rests
    obtain ⟨orderly, apart⟩ := unrivalled c calls
    refine ⟨orderly, ?_⟩
    rcases performed_cases orderly with same | ⟨draft, tx, writes, record, anew, same⟩
    · refine ⟨?_, ?_⟩
      · change (vacancy server).inv (perform server c pool.state).2
        rw [same]
        exact inv
      · intro other d _ _ found
        change (vacancy server).rests d (perform server c pool.state).2
        rw [same]
        exact found
    · have forDraft : draftOf c = some draft := by
        cases c <;> first | exact writes | cases writes
      refine ⟨?_, ?_⟩
      · change (vacancy server).inv (perform server c pool.state).2
        rw [same]
        exact ⟨oneRecord_written record anew inv.1 (rests draft forDraft), irisRegistered_written record inv.2⟩
      · intro other d elsewhere about found
        change (vacancy server).rests d (perform server c pool.state).2
        rw [same]
        intro pending towards
        exact vacant_written record anew (found pending towards)
          (fun names written pendingNames => apart draft writes other d elsewhere about pending towards names written pendingNames)

end Runs

/-- As long as no announcement writes a record while another one is about to write a different one under the
same names, no two live records ever carry the same names. -/
theorem one_record_per_deployment (server : Server) (state : State) (turns : List (Turn (desk server) (AppResult Instance)))
    (once : OneRecord state.data) (iris : IrisRegistered state.data)
    (heeded : Meets Pool.step (fun pool turn => BeginsAnnouncing server pool turn ∧ Unrivalled server pool turn)
      ⟨state, []⟩ turns) : OneRecord (run Pool.step ⟨state, []⟩ turns).state.data := by
  have heedful : Meets Pool.step (Pool.Heedful (vacancy server)) ⟨state, []⟩ turns :=
    meets_mono Pool.step (fun _ _ both => heedful_of_unrivalled both.1 both.2) heeded
  have empty : (⟨state, []⟩ : Pool (desk server) (AppResult Instance)).Sound (vacancy server) :=
    Pool.sound_empty ⟨once, iris⟩
  exact (Pool.run_sound empty heedful).inv.1

section Specimen

open Specimen

/-- A client of one cluster that may register the deployments of one application. -/
def deployer : Principal where
  credential := .oidcWorkload
  instanceIri := none
  softwareIri := some "https://reg.example/software/1"
  subject := "app"
  displayName := none
  scopes := ∅
  roles := ∅
  issuer := some "https://one.example"

def calling (label key : String) : Handler (registry []) :=
  announceSelf (registry []) (draw label) deployer { instanceKey := some key }

/-- Both look before either writes. -/
def racing : List (Turn (desk (registry [])) (AppResult Instance)) :=
  [.start (calling "a" "blue"), .start (calling "b" "blue"), .next 0, .next 1] ++
    [.next 0, .next 0, .next 0, .next 0] ++ [.next 1, .next 1, .next 1, .next 1]

def blue : Names := ⟨"app", some "https://one.example", some "blue"⟩

def told : List (String × String) :=
  [("selfRegisteredBy", "app"), ("selfRegisteredIssuer", "https://one.example"), ("instanceKey", "blue")]

theorem registered_blue {data : Dataset} {iri : String}
    (held : ∀ said ∈ told, (⟨.named iri, Ns.t Ns.tar said.1, .simple said.2, Ns.gLocal⟩ : Quad) ∈ data)
    (live : isTombstoned data (.named iri) = false) : Registered data blue (.named iri) where
  by_ := held _ List.mem_cons_self
  issuer := held _ (List.mem_cons_of_mem _ List.mem_cons_self)
  key := held _ (List.mem_cons_of_mem _ (List.mem_cons_of_mem _ List.mem_cons_self))
  live := live

theorem racing_registered : ∀ iri ∈ ["https://reg.example/instance/aa", "https://reg.example/instance/ba"],
    Registered (run Pool.step ⟨State.empty, []⟩ racing).state.data blue (.named iri) := by
  have held : ∀ iri ∈ ["https://reg.example/instance/aa", "https://reg.example/instance/ba"],
      (∀ said ∈ told, (⟨.named iri, Ns.t Ns.tar said.1, .simple said.2, Ns.gLocal⟩ : Quad) ∈
        (run Pool.step ⟨State.empty, []⟩ racing).state.data) ∧
      isTombstoned (run Pool.step ⟨State.empty, []⟩ racing).state.data (.named iri) = false := by
    decide +kernel
  exact fun iri mem => registered_blue (held iri mem).1 (held iri mem).2

theorem oneRecord_empty : OneRecord Dataset.empty :=
  fun _ _ _ registered => absurd registered.by_ (Dataset.not_mem_empty _)

theorem irisRegistered_empty : IrisRegistered Dataset.empty := fun _ _ held => absurd held (Dataset.not_mem_empty _)

/-- Two first announcements of one deployment leave two live records under its names. -/
theorem racing_doubles : ¬ ∀ (server : Server) (state : State) (turns : List (Turn (desk server) (AppResult Instance))),
    OneRecord state.data → IrisRegistered state.data → Meets Pool.step (BeginsAnnouncing server) ⟨state, []⟩ turns →
      OneRecord (run Pool.step ⟨state, []⟩ turns).state.data := by
  intro all
  have begins : Meets Pool.step (BeginsAnnouncing (registry [])) ⟨State.empty, []⟩ racing :=
    ⟨⟨_, _, _, rfl⟩, ⟨_, _, _, rfl⟩, trivial, trivial, trivial, trivial, trivial, trivial, trivial, trivial, trivial, trivial, trivial⟩
  have once := all (registry []) State.empty racing oneRecord_empty irisRegistered_empty begins
  have same := once blue _ _ (racing_registered "https://reg.example/instance/aa" (by decide))
    (racing_registered "https://reg.example/instance/ba" (by decide))
  exact absurd same (by decide)

/-- A call that is in order whatever the records say. -/
def ordinary (state : State) : Announcing.Call → Bool
  | .findSelfRegistered _ key => key != ""
  | .loadInstance .. => false
  | .register draft .. => state.data.quads.all (fun quad => decide (quad.subject ≠ .named draft.iri))
  | _ => true

theorem unrivalled_of_ordinary {server : Server} {pool : Pool (desk server) (AppResult Instance)} {place : Nat}
    (others : pool.alone place = true)
    (next : (pool.running[place]?.bind Program.next?).all (ordinary pool.state) = true) :
    Unrivalled server pool (.next place) := by
  intro c calls
  refine ⟨?_, fun _ _ other d elsewhere about => absurd about (Pool.not_calls_of_alone others elsewhere d)⟩
  obtain ⟨p, found, here⟩ := calls
  rw [found, Option.bind_some, here] at next
  cases c with
  | findSelfRegistered subject key => exact bne_iff_ne.1 next
  | loadInstance draw iri => cases next
  | register draft draw now software =>
    intro quad held
    exact of_decide_eq_true (List.all_eq_true.1 next quad held)
  | _ => trivial

/-- A deployment has announced itself, and looks for its record to announce itself again. -/
def announced : List (Turn (desk (registry [])) (AppResult Instance)) :=
  [.start (calling "a" "blue"), .next 0, .next 0, .next 0, .next 0, .next 0, .next 0, .start (calling "b" "blue"), .next 1]

theorem announced_next : (run Pool.step (⟨State.empty, []⟩ : Pool (desk (registry [])) (AppResult Instance)) announced).running[1]?.bind
    Program.next? = some (Announcing.Call.loadInstance (draw "b") "https://reg.example/instance/aa") := rfl

/-- The record it loads is live under the names it is read with. -/
theorem unrivalled_announced :
    Unrivalled (registry []) (run Pool.step ⟨State.empty, []⟩ announced) (.next 1) := by
  intro c calls
  obtain ⟨p, found, here⟩ := calls
  have same := announced_next
  rw [found, Option.bind_some, here] at same
  cases same
  refine ⟨?_, fun _ writes => nomatch writes⟩
  intro current loaded names written
  left
  have read : (Instance.loadInstance ((registry []).ctx (run Pool.step ⟨State.empty, []⟩ announced).state (draw "b"))
      "https://reg.example/instance/aa").toOption.bind (fun current => Names.of (Codec.instanceInFrom current)) = some blue := by
    decide
  rw [loaded] at read
  obtain rfl := Option.some.inj (written.symm.trans read)
  have held : (∀ said ∈ told, (⟨.named "https://reg.example/instance/aa", Ns.t Ns.tar said.1, .simple said.2, Ns.gLocal⟩ : Quad) ∈
        (run Pool.step ⟨State.empty, []⟩ announced).state.data) ∧
      isTombstoned (run Pool.step ⟨State.empty, []⟩ announced).state.data (.named "https://reg.example/instance/aa") = false := by
    decide
  exact registered_blue held.1 held.2

def again : List (Turn (desk (registry [])) (AppResult Instance)) := [.next 1, .next 1, .next 1, .next 1, .next 1, .next 1]

theorem one_record_per_deployment_again :
    OneRecord (run Pool.step ⟨State.empty, []⟩ (announced ++ again)).state.data :=
  one_record_per_deployment (registry []) State.empty (announced ++ again) oneRecord_empty irisRegistered_empty
    ((meets_append Pool.step).2
      ⟨⟨⟨⟨_, _, _, rfl⟩, trivial⟩, ⟨trivial, unrivalled_of_ordinary rfl rfl⟩, ⟨trivial, unrivalled_of_ordinary rfl rfl⟩,
          ⟨trivial, unrivalled_of_ordinary rfl rfl⟩, ⟨trivial, unrivalled_of_ordinary rfl rfl⟩,
          ⟨trivial, unrivalled_of_ordinary rfl rfl⟩, ⟨trivial, unrivalled_of_ordinary rfl rfl⟩,
          ⟨⟨_, _, _, rfl⟩, trivial⟩, ⟨trivial, unrivalled_of_ordinary rfl rfl⟩, trivial⟩,
        ⟨trivial, unrivalled_announced⟩, ⟨trivial, unrivalled_of_ordinary rfl rfl⟩,
        ⟨trivial, unrivalled_of_ordinary rfl rfl⟩, ⟨trivial, unrivalled_of_ordinary rfl rfl⟩,
        ⟨trivial, unrivalled_of_ordinary rfl rfl⟩, ⟨trivial, unrivalled_of_ordinary rfl rfl⟩, trivial⟩)

end Specimen

end ToolArtifactRegistry.Laws
