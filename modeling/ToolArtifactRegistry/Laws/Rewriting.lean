import ToolArtifactRegistry.Domain.Distribution
import ToolArtifactRegistry.Domain.Fields
import ToolArtifactRegistry.Laws.Specimen
import ToolArtifactRegistry.RegistryPrints

/-! The record of a deployment read back: it says what it was written as, whatever the registry does meanwhile, and a change
of it keeps what it does not name. -/
namespace ToolArtifactRegistry.Laws.Rewriting

open Library.Rdf Library.Text Library.Runs Library.Serde Ids Model Store Rdf Build Auth Domain Domain.Fields Api Registry

/-- A field of one text: its key in a request, the term it is written under, and how it is given and shown. -/
structure Column where
  key : String
  ns : String
  localName : String
  isLink : Bool
  given : InstanceIn → Option String → Option String
  shown : Instance → Option String

/-- What a request may say of the record itself. -/
def plain : List Column :=
  [⟨"description", Ns.dct, "description", false, fun input _ => input.description, Instance.description⟩,
    ⟨"endpoint_url", Ns.dcat, "endpointURL", true, fun input _ => input.endpointUrl, Instance.endpointUrl⟩,
    ⟨"endpoint_description", Ns.dcat, "endpointDescription", true, fun input _ => input.endpointDescription,
      Instance.endpointDescription⟩,
    ⟨"health_endpoint", Ns.tar, "healthEndpoint", true, fun input _ => input.healthEndpoint, Instance.healthEndpoint⟩,
    ⟨"availability", Ns.tar, "availability", false, fun input _ => input.availability, Instance.availability⟩,
    ⟨"jurisdiction", Ns.tar, "jurisdiction", false, fun input _ => input.jurisdiction, Instance.jurisdiction⟩,
    ⟨"oidc_client_id", Ns.tar, "oidcClientId", false, fun input _ => input.oidcClientId, Instance.oidcClientId⟩,
    ⟨"oidc_issuer", Ns.tar, "oidcIssuer", false, fun input _ => input.oidcIssuer, Instance.oidcIssuer⟩]

def registrant : Column :=
  ⟨"self_registered_by", Ns.tar, "selfRegisteredBy", false, fun input _ => input.selfRegisteredBy, Instance.selfRegisteredBy⟩

def registeredKey : Column :=
  ⟨"instance_key", Ns.tar, "instanceKey", false, fun input _ => input.instanceKey, Instance.instanceKey⟩

/-- What the record is registered under, and what it is a deployment of. -/
def bound : List Column :=
  [registrant, registeredKey,
    ⟨"self_registered_issuer", Ns.tar, "selfRegisteredIssuer", false,
      fun input _ => if input.selfRegisteredBy.isSome then input.selfRegisteredIssuer else none,
      Instance.selfRegisteredIssuer⟩,
    ⟨"release", Ns.tar, "runsRelease", true, fun input _ => input.release, Instance.release⟩,
    ⟨"software", Ns.tar, "instanceOf", true, fun input software => software.or input.software, Instance.software⟩]

def columns : List Column := plain ++ bound

namespace Column

variable (platform : Platform) (c : Column)

def statements (value : Option String) : List Statement :=
  if c.isLink then optLink platform c.ns c.localName value else optText c.ns c.localName value

/-- What is read of a value once it is written: an empty text, and a link that is no IRI, as nothing. -/
def reads (value : Option String) : Option String :=
  if c.isLink then (filled value).filter platform.validIri else filled value

def look (p : Props) : Option String := if c.isLink then p.iri c.ns c.localName else p.str c.ns c.localName

end Column

/-- The fields that are read back. -/
def recordFields (platform : Platform) (input : InstanceIn) (software : Option String) : List (String × List Statement) :=
  (Ns.t Ns.rdfs "label", text Ns.rdfs "label" input.label) ::
    (Ns.t Ns.tar "allowedScope", texts Ns.tar "allowedScope" input.allowedScopes) ::
    columns.map (fun c => (Ns.t c.ns c.localName, c.statements platform (c.given input software)))

def recordTerms : List String :=
  Ns.t Ns.rdfs "label" :: Ns.t Ns.tar "allowedScope" :: columns.map (fun c => Ns.t c.ns c.localName)

/-- The local graph says of the node what it was written as, in the terms that are read back. -/
structure Stands (platform : Platform) (data : Dataset) (iri : String) (input : InstanceIn) (software : Option String) :
    Prop where
  typed : ⟨.named iri, Ns.rdfType, .named Instance.typeSoftwareAgent, Ns.gLocal⟩ ∈ data
  told : ∀ field ∈ recordFields platform input software, ∀ object,
    ⟨.named iri, field.1, object, Ns.gLocal⟩ ∈ data ↔ object ∈ field.2.map Prod.snd

/-- The record as it is shown says what it was written as. -/
structure ReadsBack (platform : Platform) (iri : String) (input : InstanceIn) (software : Option String)
    (inst : Instance) : Prop where
  columns : ∀ c ∈ columns, c.shown inst = c.reads platform (c.given input software)
  label : inst.label = (filled (some input.label)).getD (iriTail iri)
  scopes : ∀ scope, scope ∈ inst.allowedScopes ↔ scope ∈ input.allowedScopes ∧ scope ≠ ""

section Fields

variable (platform : Platform) (base : String) (draw : Draw) (input : InstanceIn) (actor : String)
  (software : Option String)

theorem recordTerms_eq : (recordFields platform input software).map Prod.fst = recordTerms := rfl

theorem recordTerms_known : ∀ predicate ∈ recordTerms, predicate ∉ Footprint.agentVocabulary ∧
    predicate ∉ Footprint.capabilityVocabulary ∧ predicate ∉ Footprint.catalogVocabulary ∧
    predicate ≠ Ns.t Ns.tar "lastSeenAt" := by decide

/-- Every one of them is among the fields the record is written with. -/
theorem field_written {field : String × List Statement} (mem : field ∈ recordFields platform input software) :
    field ∈ instanceFields platform base draw input actor software := by
  simp only [recordFields, columns, plain, bound, List.cons_append, List.nil_append, List.map_cons, List.map_nil,
    List.mem_cons, List.not_mem_nil, or_false] at mem
  have at_ (place : Nat) (here : (instanceFields platform base draw input actor software)[place]? = some field) :
      field ∈ instanceFields platform base draw input actor software := List.mem_of_getElem? here
  have issuer (by_ value : Option String) :
      (if by_.isSome then optText Ns.tar "selfRegisteredIssuer" value else []) =
        optText Ns.tar "selfRegisteredIssuer" (if by_.isSome then value else none) := by
    cases by_ <;> rfl
  rcases mem with rfl | rfl | rfl | rfl | rfl | rfl | rfl | rfl | rfl | rfl | rfl | rfl | rfl | rfl | rfl
  · exact at_ 1 rfl
  · exact at_ 16 rfl
  · exact at_ 2 rfl
  · exact at_ 5 rfl
  · exact at_ 6 rfl
  · exact at_ 7 rfl
  · exact at_ 11 rfl
  · exact at_ 13 rfl
  · exact at_ 14 rfl
  · exact at_ 15 rfl
  · exact at_ 8 rfl
  · exact at_ 10 rfl
  · exact at_ 9 (congrArg (fun statements => some (Ns.t Ns.tar "selfRegisteredIssuer", statements))
      (issuer input.selfRegisteredBy input.selfRegisteredIssuer))
  · exact at_ 3 rfl
  · exact at_ 4 rfl

theorem mem_local {iri predicate : String} {object : Term} {statements : List Statement}
    (said : (predicate, object) ∈ statements) :
    (⟨.named iri, predicate, object, Ns.gLocal⟩ : Quad) ∈ describeLocal iri statements := mem_finish.2 ⟨rfl, rfl, said⟩

theorem mem_instance {iri : String} {quad : Quad}
    (mem : quad ∈ describeLocal iri (Instance.instanceStatements platform base draw input actor software)) :
    quad ∈ Instance.instanceQuads platform base iri draw input actor software := List.mem_append_right _ mem

/-- What stands beside a record says nothing in these terms. -/
theorem own_written {iri : String} {quad : Quad} (known : quad.predicate ∈ recordTerms) :
    quad ∈ Instance.instanceQuads platform base iri draw input actor software ↔
      quad ∈ describeLocal iri (Instance.instanceStatements platform base draw input actor software) := by
  obtain ⟨agent, capability, catalog, _⟩ := recordTerms_known _ known
  refine ⟨fun mem => ?_, mem_instance platform base draw input actor software⟩
  unfold Instance.instanceQuads at mem
  simp only [List.mem_append] at mem
  rcases mem with ((beside | beside) | beside) | own
  · exact absurd (Footprint.catalog_speaks platform iri _ (mem_finish.1 beside).2.2) catalog
  · cases given : input.operator with
    | none =>
      rw [given] at beside
      exact absurd beside List.not_mem_nil
    | some operator =>
      rw [given, optAgent, agentQuads] at beside
      split at beside
      · exact absurd beside List.not_mem_nil
      · exact absurd (Footprint.agent_speaks platform operator _ (mem_finish.1 beside).2.2) agent
      · exact absurd beside List.not_mem_nil
  · cases given : input.capability with
    | none =>
      rw [given] at beside
      exact absurd beside List.not_mem_nil
    | some cap =>
      rw [given] at beside
      exact absurd (Footprint.capability_speaks platform cap _ (mem_finish.1 beside).2.2) capability
  · exact own

end Fields

section Written

variable {server : Server} {state : State} {draw : Draw} {p : Principal} {iri : String} {input : InstanceIn}
  {software : Option String}

/-- A transaction that writes the record anew and resets nothing of it that is read back. -/
structure RecordTx (platform : Platform) (data : Dataset) (iri : String) (input : InstanceIn) (software : Option String)
    (tx : GraphTx) : Prop where
  anew : (∀ quad ∈ data, quad.subject ≠ .named iri) ∨ tx.clearGraphs = [] ∧ tx.deleteSubjects = [(iri, Ns.gLocal)]
  typed : ⟨.named iri, Ns.rdfType, .named Instance.typeSoftwareAgent, Ns.gLocal⟩ ∈ tx.insert
  inserts : ∀ field ∈ recordFields platform input software, ∀ object,
    ⟨.named iri, field.1, object, Ns.gLocal⟩ ∈ tx.insert ↔ object ∈ field.2.map Prod.snd

theorem stands_written {platform : Platform} {data : Dataset} {tx : GraphTx}
    (record : RecordTx platform data iri input software tx) : Stands platform (effect data tx) iri input software where
  typed := mem_effect_of_insert record.typed
  told := by
    intro field mem object
    rw [← record.inserts field mem object]
    refine ⟨fun held => ?_, mem_effect_of_insert⟩
    rcases record.anew with fresh | ⟨graphs, replaced⟩
    · exact (mem_effect_cases held).resolve_left (fun old => fresh _ old rfl)
    · exact gone_of_deleted graphs replaced rfl Relation.ReflTransGen.refl held

theorem extend_insert (quads : List Quad) : (({} : GraphTx).extend quads).insert = quads := List.nil_append quads

theorem quads_record (actor : String) {data : Dataset} {tx : GraphTx}
    (inserts : tx.insert = Instance.instanceQuads server.platform server.base iri draw input actor software)
    (anew : (∀ quad ∈ data, quad.subject ≠ .named iri) ∨ tx.clearGraphs = [] ∧ tx.deleteSubjects = [(iri, Ns.gLocal)]) :
    RecordTx server.platform data iri input software tx where
  anew := anew
  typed := by
    have said : (Ns.rdfType, Term.named Instance.typeSoftwareAgent) ∈
        Instance.instanceStatements server.platform server.base draw input actor software := by
      rw [← mem_said, instance_said server.platform server.base draw input actor software List.mem_cons_self]
      exact List.mem_cons_self
    rw [inserts]
    exact mem_instance server.platform server.base draw input actor software (mem_local said)
  inserts := by
    intro field mem object
    have known : field.1 ∈ recordTerms := recordTerms_eq server.platform input software ▸ List.mem_map_of_mem mem
    have within := field_written server.platform server.base draw input actor software mem
    rw [inserts, own_written server.platform server.base draw input actor software known, describeLocal, mem_finish,
      ← mem_said, instance_said server.platform server.base draw input actor software within]
    simp

theorem stamped_record {data : Dataset} {tx : GraphTx} {now : String}
    (record : RecordTx server.platform data iri input software tx) :
    RecordTx server.platform data iri input software (Instances.stampSeen server tx iri now) where
  anew := record.anew
  typed := List.mem_append_left _ record.typed
  inserts := by
    intro field mem object
    have known : field.1 ∈ recordTerms := recordTerms_eq server.platform input software ▸ List.mem_map_of_mem mem
    rw [← record.inserts field mem object]
    refine ⟨fun inserted => ?_, fun inserted => List.mem_append_left _ inserted⟩
    rcases List.mem_append.1 inserted with own | seen
    · exact own
    · have only := only_datetime server.platform Ns.tar "lastSeenAt" now _ (mem_finish.1 seen).2.2
      exact absurd only (recordTerms_known _ known).2.2.2

/-- The record a request writes, and what it is written as: as it is sent, as it is changed, as a known deployment announces
it and as a new one does. A record that is minted has been spoken of nowhere. -/
inductive Writes (server : Server) (state : State) (draw : Draw) (p : Principal) :
    Registry.Action → String → InstanceIn → Option String → Prop
  | created {given bound : InstanceIn} {software : Option String}
      (binds : Instances.bindSoftware p (Instances.received server given) = .ok bound)
      (resolved : Instances.resolveSoftwareFor server state.data (Instances.nameRelease server bound) = .ok software)
      (fresh : ∀ quad ∈ state.data, quad.subject ≠ .named (mint server.base .instance_ (draw.site 0))) :
      Writes server state draw p (.createInstance given) (mint server.base .instance_ (draw.site 0))
        (Instances.nameRelease server bound) software
  | patched {id : String} {body : Json} {current : Instance} {input : InstanceIn} {software : Option String}
      (loaded : Instance.loadInstance (server.ctx state draw) (iriFor server.base .instance_ id) = .ok current)
      (merged : Instances.patched server current body = .ok input)
      (resolved : Instances.resolveSoftwareFor server state.data input = .ok software) :
      Writes server state draw p (.patchInstance id body) (iriFor server.base .instance_ id) input software
  | reannounced {given : SelfAnnounceIn} {iri : String} {current : Instance} {software : Option String}
      (known : Instances.existingRecord state.data p given = some iri)
      (loaded : Instance.loadInstance (server.ctx state draw) iri = .ok current)
      (resolved : Instances.resolveSoftwareFor server state.data
        (Instances.applyAnnouncement server (Codec.instanceInFrom current) given) = .ok software) :
      Writes server state draw p (.announceSelf given) iri
        (Instances.applyAnnouncement server (Codec.instanceInFrom current) given) software
  | registered {given : SelfAnnounceIn} {named : String} {software : Option String}
      (unknown : Instances.existingRecord state.data p given = none)
      (authorised : Instances.authorisedSoftware server p p.subject given.software = .ok named)
      (resolved : Instances.resolveSoftwareFor server state.data
        (Instances.freshRecord server p p.subject named given) = .ok software)
      (fresh : ∀ quad ∈ state.data, quad.subject ≠ .named (mint server.base .instance_ (draw.site 0))) :
      Writes server state draw p (.announceSelf given) (mint server.base .instance_ (draw.site 0))
        (Instances.freshRecord server p p.subject named given) software

theorem loaded_valid {ctx : Ctx} {shown : Instance} (loaded : Instance.loadInstance ctx iri = .ok shown) :
    ctx.platform.validIri iri = true := by
  unfold Instance.loadInstance at loaded
  obtain ⟨quads, described, _⟩ := Library.Results.bind_ok.1 loaded
  unfold describe at described
  split at described
  · assumption
  · cases described

/-- An answered write has been planned and has had its effect, on a record that can be asked for. -/
theorem settled {plan : AppResult Instances.Write}
    (answered : (Instances.settle server state draw plan).forget.response = .ok ()) :
    ∃ iri tx, plan = .ok ⟨iri, tx⟩ ∧ server.platform.validIri iri = true ∧
      (Instances.settle server state draw plan).state.data = effect state.data tx ∧
      (Instances.settle server state draw plan).response =
        Instance.loadInstance (server.ctx (Instances.settle server state draw plan).state draw) iri := by
  cases plan with
  | error e => cases answered
  | ok write =>
    simp only [Instances.settle, Outcome.planned, Outcome.commit, Outcome.forget] at answered ⊢
    cases applied : apply server.platform state.data write.tx with
    | error e =>
      rw [applied] at answered
      cases answered
    | ok data =>
      rw [applied] at answered
      obtain rfl := apply_ok applied
      cases loaded : Instance.loadInstance (server.ctx { state with data := effect state.data write.tx } draw) write.iri with
      | error e =>
        simp only [loaded] at answered
        cases answered
      | ok shown => exact ⟨write.iri, write.tx, rfl, loaded_valid loaded, rfl, rfl⟩

/-- After an answered write the record stands as it was written. -/
theorem writes_stands {action : Registry.Action} (writes : Writes server state draw p action iri input software)
    (answered : (handle server state draw p action).response = .ok ()) :
    Stands server.platform (perform server state draw p action).data iri input software ∧
      server.platform.validIri iri = true := by
  cases writes with
  | @created given bound _ binds resolved fresh =>
    obtain ⟨_, tx, planned, valid, left, _⟩ := settled answered
    obtain ⟨bound', software', binds', resolved', same⟩ := Instances.createPlan_ok planned
    obtain rfl := Except.ok.inj (binds.symm.trans binds')
    obtain rfl := Except.ok.inj (resolved.symm.trans resolved')
    obtain ⟨rfl, rfl⟩ := Instances.Write.mk.inj same
    refine ⟨?_, valid⟩
    rw [perform, Instances.create, left]
    exact stands_written (quads_record p.subject (extend_insert _) (Or.inl fresh))
  | @patched id body current _ _ loaded merged resolved =>
    obtain ⟨_, tx, planned, valid, left, _⟩ := settled answered
    obtain ⟨current', input', software', _, loaded', _, merged', resolved', same⟩ := Instances.patchPlan_ok planned
    obtain rfl := Except.ok.inj (loaded.symm.trans loaded')
    obtain rfl := Except.ok.inj (merged.symm.trans merged')
    obtain rfl := Except.ok.inj (resolved.symm.trans resolved')
    obtain ⟨rfl, rfl⟩ := Instances.Write.mk.inj same
    refine ⟨?_, valid⟩
    rw [perform, Instances.patch, left]
    exact stands_written (quads_record p.subject (extend_insert _) (Or.inr ⟨rfl, rfl⟩))
  | @reannounced given _ current _ known loaded resolved =>
    obtain ⟨_, tx, planned, valid, left, _⟩ := settled answered
    rcases (Instances.announcePlan_ok planned).2 with ⟨_, known', planned'⟩ | ⟨unknown, _⟩
    · obtain rfl := Option.some.inj (known.symm.trans known')
      obtain ⟨current', software', loaded', resolved', same⟩ := Instances.reannouncePlan_ok planned'
      obtain rfl := Except.ok.inj (loaded.symm.trans loaded')
      obtain rfl := Except.ok.inj (resolved.symm.trans resolved')
      obtain ⟨rfl, rfl⟩ := Instances.Write.mk.inj same
      refine ⟨?_, valid⟩
      rw [perform, Instances.announceSelf, left]
      exact stands_written (stamped_record (quads_record p.subject (extend_insert _) (Or.inr ⟨rfl, rfl⟩)))
    · rw [known] at unknown
      cases unknown
  | @registered given named _ unknown authorised resolved fresh =>
    obtain ⟨_, tx, planned, valid, left, _⟩ := settled answered
    rcases (Instances.announcePlan_ok planned).2 with ⟨_, known, _⟩ | ⟨_, planned'⟩
    · rw [unknown] at known
      cases known
    · obtain ⟨named', software', authorised', resolved', same⟩ := Instances.registerPlan_ok planned'
      obtain rfl := Except.ok.inj (authorised.symm.trans authorised')
      obtain rfl := Except.ok.inj (resolved.symm.trans resolved')
      obtain ⟨rfl, rfl⟩ := Instances.Write.mk.inj same
      refine ⟨?_, valid⟩
      rw [perform, Instances.announceSelf, left]
      exact stands_written (stamped_record (quads_record p.subject (extend_insert _) (Or.inl fresh)))

end Written

section Reading

variable {ctx : Ctx} {iri : String} {input : InstanceIn} {software : Option String} {inst : Instance}

/-- The store says this of the node in the local graph only. -/
def Alone (data : Dataset) (iri : String) : Prop := ∀ quad ∈ data, quad.subject = .named iri → quad.graph = Ns.gLocal

/-- The property map the record is read from. -/
def recordProps (data : Dataset) (iri : String) : Props := Props.fromQuads iri (describeQuads data iri)

theorem mem_own {data : Dataset} (named : startsWith iri "_:" = false) {quad : Quad} :
    quad ∈ (recordProps data iri).own ↔ quad ∈ data ∧ quad.subject = .named iri := by
  have about_ (node : Node) : subjectKey node = iri ↔ node = .named iri := by
    cases node with
    | named other => exact ⟨fun same => congrArg Node.named same, Node.named.inj⟩
    | blank label =>
      refine ⟨fun same => ?_, fun same => by cases same⟩
      have starts : startsWith iri "_:" = true := by
        rw [← same, subjectKey, startsWith, String.toList_append]
        exact List.isPrefixOf_iff_prefix.2 (List.prefix_append _ _)
      rw [starts] at named
      cases named
  have same : (recordProps data iri).own = data.matching (Store.about (.named iri)) := by
    rw [← describe_about_self]
    refine List.filter_congr (fun quad _ => ?_)
    rw [Store.about, decide_eq_decide]
    exact about_ quad.subject
  rw [same, Dataset.mem_matching, Store.about, decide_eq_true_eq]

theorem mem_terms {data : Dataset} (named : startsWith iri "_:" = false) (alone : Alone data iri) {ns localName : String}
    {object : Term} :
    object ∈ (recordProps data iri).terms ns localName ↔ ⟨.named iri, Ns.t ns localName, object, Ns.gLocal⟩ ∈ data := by
  simp only [Props.terms, Props.ofPredicate, List.mem_map, List.mem_filter, mem_own named, decide_eq_true_eq]
  constructor
  · rintro ⟨⟨subject, predicate, object, graph⟩, ⟨⟨held, rfl⟩, rfl⟩, rfl⟩
    obtain rfl := alone _ held rfl
    exact held
  · intro held
    exact ⟨_, ⟨⟨held, rfl⟩, rfl⟩, rfl⟩

theorem head_same {α : Type} {left right : List α} (same : ∀ item, item ∈ left ↔ item ∈ right) (single : right.length ≤ 1) :
    left.head? = right.head? := by
  cases right with
  | nil => rw [List.eq_nil_iff_forall_not_mem.2 (fun item mem => List.not_mem_nil ((same item).1 mem))]
  | cons item rest =>
    obtain rfl : rest = [] := List.eq_nil_of_length_eq_zero (by simpa using single)
    cases left with
    | nil => exact absurd ((same item).2 List.mem_cons_self) List.not_mem_nil
    | cons other _ => exact congrArg some (List.mem_singleton.1 ((same other).1 List.mem_cons_self))

theorem link_single (platform : Platform) (ns localName target : String) :
    (link platform ns localName target).length ≤ 1 := by
  unfold link
  split
  · simp
  · split <;> simp

theorem text_single (ns localName value : String) : (text ns localName value).length ≤ 1 := by
  unfold text
  split <;> simp

theorem statements_single (platform : Platform) (c : Column) (value : Option String) :
    ((c.statements platform value).map Prod.snd).length ≤ 1 := by
  rw [List.length_map, Column.statements]
  cases value with
  | none => split <;> simp [optLink, optText]
  | some value =>
    split
    · exact link_single platform _ _ value
    · exact text_single _ _ value

/-- One column is read as it was written. -/
theorem look_reads {platform : Platform} {p : Props} {c : Column} {value : Option String}
    (same : ∀ object, object ∈ p.terms c.ns c.localName ↔ object ∈ (c.statements platform value).map Prod.snd) :
    c.look p = c.reads platform value := by
  have first := head_same same (statements_single platform c value)
  unfold Column.look Column.reads Props.iri Props.str Props.one
  rw [first]
  unfold Column.statements
  cases c.isLink with
  | false => exact value_optText value
  | true =>
    cases value with
    | none => rfl
    | some target =>
      by_cases empty : target = ""
      · rw [empty]
        rfl
      · simp only [if_true, optLink]
        rw [named_link platform empty, filled_some empty, Option.filter_some]

theorem decorate_beside (ctx : Ctx) (inst : Instance) : ∃ name version latest old, Instance.decorate ctx inst =
    { inst with softwareName := name, releaseVersion := version, latestVersion := latest, outdated := old } := by
  unfold Instance.decorate
  simp only []
  split
  · exact ⟨_, _, _, _, rfl⟩
  · exact ⟨_, _, _, _, rfl⟩

/-- What the loaded record shows, it shows of the property map. -/
theorem loaded_shows (loaded : Instance.loadInstance ctx iri = .ok inst) :
    (∀ c ∈ columns, c.shown inst = c.look (recordProps ctx.data iri)) ∧
      inst.label = ((recordProps ctx.data iri).str Ns.rdfs "label").getD (iriTail iri) ∧
      inst.allowedScopes = (recordProps ctx.data iri).strs Ns.tar "allowedScope" := by
  unfold Instance.loadInstance at loaded
  obtain ⟨quads, described, loaded⟩ := Library.Results.bind_ok.1 loaded
  obtain rfl : quads = describeQuads ctx.data iri := by
    unfold describe at described
    split at described
    · exact (Except.ok.inj described).symm
    · cases described
  simp only [Library.Results.guard_ok, Library.Results.pure_ok] at loaded
  obtain ⟨_, _, rfl⟩ := loaded
  generalize shape : recordProps ctx.data iri = props
  have same : Props.fromQuads iri (describeQuads ctx.data iri) = props := shape
  rw [same]
  obtain ⟨name, version, latest, old, decorated⟩ := decorate_beside ctx { Instance.instanceFromProps ctx iri props with
    lastRunAt := Instance.lastRunAt ctx iri
    runs30d := ((Instance.recentRows ctx iri).map Quad.subject).eraseDups.length
    failures30d := Instance.failures30d ctx iri
    artifactCount := Instance.artifactCount ctx.data iri }
  rw [decorated]
  refine ⟨fun c mem => ?_, rfl, rfl⟩
  simp only [columns, plain, bound, List.cons_append, List.nil_append, List.mem_cons, List.not_mem_nil, or_false] at mem
  rcases mem with rfl | rfl | rfl | rfl | rfl | rfl | rfl | rfl | rfl | rfl | rfl | rfl | rfl <;> rfl

end Reading

section ReadBack

variable {ctx : Ctx} {iri : String} {input : InstanceIn} {software : Option String}

theorem mem_scopes {scopes : List String} {scope : String} :
    (∃ object ∈ (texts Ns.tar "allowedScope" scopes).map Prod.snd, Props.termValue object = scope) ↔
      scope ∈ scopes ∧ scope ≠ "" := by
  simp only [texts, List.map_flatMap, List.mem_flatMap]
  constructor
  · rintro ⟨object, ⟨value, mem, said⟩, rfl⟩
    unfold text at said
    split at said
    · exact absurd said List.not_mem_nil
    · obtain rfl := List.mem_singleton.1 said
      exact ⟨mem, by assumption⟩
  · rintro ⟨mem, some_⟩
    refine ⟨.simple scope, ⟨scope, mem, ?_⟩, rfl⟩
    rw [text, if_neg some_]
    exact List.mem_singleton_self _

/-- A record that stands is found, and says what it was written as. -/
theorem load_stands (stands : Stands ctx.platform ctx.data iri input software) (alone : Alone ctx.data iri)
    (named : startsWith iri "_:" = false) (valid : ctx.platform.validIri iri = true) :
    ∃ inst, Instance.loadInstance ctx iri = .ok inst ∧ ReadsBack ctx.platform iri input software inst := by
  have own := (mem_own named).2 ⟨stands.typed, rfl⟩
  have typed : (Props.fromQuads iri (describeQuads ctx.data iri)).hasType Instance.typeSoftwareAgent = true :=
    Props.hasType_iff.2 ⟨_, own, rfl, rfl⟩
  have some_ : (describeQuads ctx.data iri).isEmpty = false := by
    rw [List.isEmpty_eq_false_iff_exists_mem]
    exact ⟨_, (List.mem_filter.1 own).1⟩
  have described : describe ctx.platform ctx.data iri = .ok (describeQuads ctx.data iri) := if_pos valid
  obtain ⟨inst, loaded⟩ : ∃ inst, Instance.loadInstance ctx iri = .ok inst := by
    unfold Instance.loadInstance
    simp only [described, Library.Results.bind_ok, Library.Results.guard_ok, Library.Results.pure_ok]
    refine ⟨_, _, rfl, fun empty => ?_, fun untyped => ?_, rfl⟩
    · rw [some_] at empty
      cases empty
    · rw [typed] at untyped
      cases untyped
  obtain ⟨shows, label, scopes⟩ := loaded_shows loaded
  have told {field : String × List Statement} (mem : field ∈ recordFields ctx.platform input software)
      {ns localName : String}
      (term : field.1 = Ns.t ns localName) (object : Term) :
      object ∈ (recordProps ctx.data iri).terms ns localName ↔ object ∈ field.2.map Prod.snd := by
    rw [mem_terms named alone, ← term]
    exact stands.told field mem object
  refine ⟨inst, loaded, ⟨fun c mem => ?_, ?_, fun scope => ?_⟩⟩
  · rw [shows c mem]
    exact look_reads (told (List.mem_cons_of_mem _ (List.mem_cons_of_mem _ (List.mem_map_of_mem mem))) rfl)
  · have first := head_same (told List.mem_cons_self rfl) (by
      rw [List.length_map]
      exact text_single _ _ _)
    rw [label, Props.str, Props.one, first, value_text]
  · rw [scopes, Props.strs, List.mem_map, ← mem_scopes]
    refine exists_congr (fun object => and_congr_left (fun _ => ?_))
    exact told (List.mem_cons_of_mem _ List.mem_cons_self) rfl object

/-- The event takes nothing away that is read back of the record, and says nothing of it in those terms. -/
def Aside (server : Server) (iri : String) (state : State) (event : Event) : Prop :=
  ∀ quad : Quad, quad.subject = .named iri → quad.predicate ∈ Ns.rdfType :: recordTerms →
    ¬(Registry.print server state event).Drops state.data quad ∧
      (quad.predicate ∈ recordTerms → ¬Spoken (Registry.print server state event).blocks quad)

variable {server : Server} {state : State}

theorem step_stands {event : Event} (stands : Stands server.platform state.data iri input software)
    (aside : Aside server iri state event) : Stands server.platform (step server state event).data iri input software where
  typed := (step_edits server state event).kept _ stands.typed rfl (aside _ rfl List.mem_cons_self).1
  told := by
    intro field mem object
    have known : field.1 ∈ recordTerms := recordTerms_eq server.platform input software ▸ List.mem_map_of_mem mem
    have apart := aside ⟨.named iri, field.1, object, Ns.gLocal⟩ rfl (List.mem_cons_of_mem _ known)
    rw [← stands.told field mem object]
    constructor
    · intro held
      exact ((step_edits server state event).new _ held rfl).resolve_right (apart.2 known)
    · intro held
      exact (step_edits server state event).kept _ held rfl apart.1

end ReadBack

section Patched

variable {server : Server} {state : State} {draw : Draw} {p : Principal} {id : String} {entries : List (String × Json)}

theorem find_unnamed {key : String} (absent : findEntry entries key = none) (stored : List (String × Json)) :
    findEntry (Codec.mergeJson.mergeEntries stored entries) key = findEntry stored key := by
  induction entries generalizing stored with
  | nil => rfl
  | cons entry rest ih =>
    obtain ⟨name, value⟩ := entry
    rw [findEntry] at absent
    split at absent
    · cases absent
    · rename_i other
      rw [Codec.mergeJson.mergeEntries, ih absent, findEntry_setEntry, if_neg other]

theorem find_here (key : String) (value : Json) (rest : List (String × Json)) :
    findEntry ((key, value) :: rest) key = some value :=
  if_pos rfl

theorem find_past {name key : String} (other : name ≠ key) (value : Json) (rest : List (String × Json)) :
    findEntry ((name, value) :: rest) key = findEntry rest key := if_neg other

theorem find_shown {name key : String} (other : name ≠ key) (value : Option String) (rest : List (String × Json)) :
    findEntry (Codec.shown name value ++ rest) key = findEntry rest key := by
  cases value with
  | none => rfl
  | some value => exact find_past other _ rest

theorem encoded_find (input : InstanceIn) :
    ∃ stored, Codec.encodeInstance input = .object stored ∧
      findEntry stored "label" = some (.string input.label) ∧
      findEntry stored "allowed_scopes" = some (Codec.strs input.allowedScopes) ∧
      ∀ c ∈ plain, findEntry stored c.key = some (Codec.optStr (c.given input none)) := by
  refine ⟨_, rfl, find_here _ _ _, ?_, fun c mem => ?_⟩
  · simp (disch := decide) only [List.append_assoc, List.cons_append, List.nil_append, find_shown, find_past, find_here]
  · simp only [plain, List.mem_cons, List.not_mem_nil, or_false] at mem
    rcases mem with rfl | rfl | rfl | rfl | rfl | rfl | rfl | rfl
    all_goals
      simp (disch := decide) only [List.append_assoc, List.cons_append, List.nil_append, find_shown, find_past, find_here]

theorem optString_held {m : List (String × Json)} {place : Nat} {key : String} {held value : Option String}
    (found : findEntry m key = some (Codec.optStr held)) (read : Codec.optString (.keyed m) place key = .ok value) :
    value = held := by
  unfold Codec.optString defaulted at read
  rw [Fields.at, found] at read
  cases held with
  | none => exact (Except.ok.inj read).symm
  | some text => exact (Except.ok.inj read).symm

/-- What the body does not name is decoded as the record shows it. -/
theorem patched_kept {current : Instance} {input : InstanceIn}
    (merged : Instances.patched server current (.object entries) = .ok input) :
    (∀ c ∈ plain, findEntry entries c.key = none → ∀ software, c.given input software = c.shown current) ∧
      input.selfRegisteredBy = current.selfRegisteredBy ∧ input.instanceKey = current.instanceKey ∧
      (findEntry entries "label" = none → input.label = current.label) ∧
      (findEntry entries "allowed_scopes" = none → input.allowedScopes = current.allowedScopes) := by
  unfold Instances.patched at merged
  obtain ⟨stored, encoded, label, scopes, texts⟩ := encoded_find (Codec.instanceInFrom current)
  rw [encoded, Codec.mergeJson] at merged
  have held {key : String} (absent : findEntry entries key = none) :
      findEntry (Codec.mergeJson.mergeEntries stored entries) key = findEntry stored key := find_unnamed absent stored
  generalize Codec.mergeJson.mergeEntries stored entries = m at merged held
  split at merged
  · cases merged
  · rename_i decoded read
    obtain rfl := Except.ok.inj merged
    unfold Codec.decodeInstance at read
    simp only [fields, Library.Results.bind_ok, Library.Results.pure_ok, Except.ok.injEq, exists_eq_left'] at read
    obtain ⟨_, labels, _, _, _, _, _, _, _, _, _, _, _, url, _, about_, _, _, _, availability, _, jurisdiction, _,
      description, _, client, _, issuer, _, listed, _, health, _, _, rfl⟩ := read
    refine ⟨fun c mem absent software => ?_, rfl, rfl, fun absent => ?_, fun absent => ?_⟩
    · have found := (held absent).trans (texts c mem)
      simp only [plain, List.mem_cons, List.not_mem_nil, or_false] at mem
      rcases mem with rfl | rfl | rfl | rfl | rfl | rfl | rfl | rfl
      · exact optString_held found description
      · exact optString_held found url
      · exact optString_held found about_
      · exact optString_held found health
      · exact optString_held found availability
      · exact optString_held found jurisdiction
      · exact optString_held found client
      · exact optString_held found issuer
    · have found := (held absent).trans label
      rw [required, Fields.at, found] at labels
      exact (Except.ok.inj labels).symm
    · have found := (held absent).trans scopes
      rw [Codec.stringsOr, defaulted, Fields.at, found] at listed
      have back : decodeList decodeString (Codec.strs current.allowedScopes) = .ok current.allowedScopes :=
        decodeList_encodeList decodeString_string _
      exact Except.ok.inj (listed.symm.trans back)

end Patched

section Specimen

open Specimen

def node : String := "https://reg.example/instance/ia"

def given : InstanceIn := { label := "node", jurisdiction := some "NL", endpointUrl := some "https://node.example/" }

/-- A deployment is registered, and probed. -/
def probed : List Event := [.health "2026-01-02T00:00:00Z" node ⟨"up", "responded 200"⟩]

theorem node_aside (state : State) :
    Aside (registry []) node state (.health "2026-01-02T00:00:00Z" node ⟨"up", "responded 200"⟩) := by
  intro quad subject known
  have apart : ∀ predicate ∈ Ns.rdfType :: recordTerms, predicate ∉ (Health.print node).reset.map Prod.snd ∧
      ∀ block ∈ (Health.print node).blocks, predicate ∉ block.vocabulary := by decide
  obtain ⟨unreset, unspoken⟩ := apart _ known
  refine ⟨?_, fun _ spoken => ?_⟩
  · rintro (⟨_, mem, _⟩ | ⟨target, mem, _, same⟩)
    · cases mem
    · exact unreset (same ▸ List.mem_map_of_mem mem)
  · obtain ⟨_, block, mem, _, predicate⟩ := spoken
    exact unspoken block mem predicate

theorem node_minted : mint (registry []).base .instance_ ((draw "i").site 0) = node := by decide

theorem node_writes :
    Writes (registry []) State.empty (draw "i") Auth.rootPrincipal (.createInstance given) node given none := by
  rw [← node_minted]
  exact @Writes.created (registry []) State.empty (draw "i") Auth.rootPrincipal given given none rfl rfl
    (fun _ mem => absurd mem (Dataset.not_mem_empty _))

theorem node_answered : (handle (registry []) State.empty (draw "i") Auth.rootPrincipal (.createInstance given)).response =
    .ok () := by rfl

def registered : State := step (registry []) State.empty (byRoot "i" (.createInstance given))

theorem alone_of_local {data : Dataset} {iri : String}
    (locals : data.quads.all (fun quad => decide (quad.graph = Ns.gLocal)) = true) : Alone data iri :=
  fun quad held _ => of_decide_eq_true (List.all_eq_true.1 locals quad held)

end Specimen

end ToolArtifactRegistry.Laws.Rewriting
