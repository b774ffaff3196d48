import ToolArtifactRegistry.Api.Lifecycle
import ToolArtifactRegistry.Laws.Specimen

/-! What comes of a run, advertisement by advertisement. The run never has two outcomes, and an advertisement
loses one only when it gives an empty text for it. -/
namespace ToolArtifactRegistry.Laws

open Library.Rdf Library.Runs Library.Results Ids Model Store Rdf Build Domain Api.Lifecycle
open Auth hiding Role
open Api.Advertise (Role advertise resolveRun addEntries runInput nonEmptyKey conclude outcomeVocabulary)
open Api.Repeats (outcomeTx outcomeStatements replacedBy Replaced)

/-- An advertisement as it is posted. -/
structure Advertisement where
  draw : Draw
  principal : Principal
  input : AdvertiseIn
  role : Role

/-- What the registry itself says of a run. -/
def SaidOf (data : Dataset) (runIri predicate : String) (term : Term) : Prop :=
  ⟨.named runIri, predicate, term, Ns.gLocal⟩ ∈ data

/-- Nothing of the kind is said of the run. -/
def Unsaid (data : Dataset) (runIri predicate : String) : Prop :=
  ∀ quad ∈ data, ¬(quad.subject = .named runIri ∧ quad.predicate = predicate ∧ quad.graph = Ns.gLocal)

instance (data : Dataset) (runIri predicate : String) : Decidable (Unsaid data runIri predicate) :=
  inferInstanceAs (Decidable (∀ quad ∈ data, _))

theorem Unsaid.stated {data : Dataset} {runIri predicate : String} {term : Term} (unsaid : Unsaid data runIri predicate) :
    ¬SaidOf data runIri predicate term := fun held => unsaid _ held ⟨rfl, rfl, rfl⟩

/-- How a link to a target is written. -/
def linkTerm (platform : Platform) (target : String) : Term :=
  if platform.validIri target then .named target else .simple target

/-- A run has one status and one end at most, and the action status of its status. -/
structure OneOutcome (platform : Platform) (data : Dataset) (runIri : String) : Prop where
  status : ∀ one other, SaidOf data runIri (Ns.t Ns.tar "status") one → SaidOf data runIri (Ns.t Ns.tar "status") other →
    one = other
  ended : ∀ one other, SaidOf data runIri (Ns.t Ns.prov "endedAtTime") one →
    SaidOf data runIri (Ns.t Ns.prov "endedAtTime") other → one = other
  action : ∀ term, SaidOf data runIri (Ns.t Ns.schema "actionStatus") term ↔ ∃ status action,
    SaidOf data runIri (Ns.t Ns.tar "status") (.simple status) ∧ Run.actionStatus status = some action ∧
      term = linkTerm platform action

/-- What a run says of the fields it gives no new value for. -/
def unnamed (run : RunIn) : List String :=
  (if nonEmpty run.status = none then [Ns.t Ns.tar "status", Ns.t Ns.schema "actionStatus"] else []) ++
    if nonEmpty run.endedAt = none then [Ns.t Ns.prov "endedAtTime"] else []

/-- What stood of those fields still stands. -/
def Kept (run : RunIn) (before after : Dataset) (runIri : String) : Prop :=
  ∀ predicate ∈ unnamed run, ∀ term, SaidOf before runIri predicate term → SaidOf after runIri predicate term

section Advertisements

variable (server : Server)

def afterAd (state : State) (ad : Advertisement) : State :=
  (advertise server state ad.draw ad.principal ad.input ad.role).state

def Advertisement.run (ad : Advertisement) : RunIn := runInput server ad.input.run

/-- Where the run that an advertisement mints is put. -/
def Advertisement.mints (ad : Advertisement) : String := mint server.base .run ((ad.draw.site 1).site 0)

/-- The outcome of the run that an advertisement mints. -/
def Advertisement.opens (ad : Advertisement) : Course :=
  { begun server.platform ((ad.draw.site 1).site 1) (ad.run server) with status := "success" }.updated server.platform
    (ad.run server)

/-- The run an advertisement is about, when that is known. -/
def Advertisement.attached (ad : Advertisement) (state : State) : Option String :=
  ad.principal.instanceIri.bind (fun inst => (nonEmptyKey (ad.run server)).bind (fun key => state.ops.runForKey key inst))

/-- The IRI drawn for a new run is one that nothing is said of. -/
def Advertisement.New (state : State) (ad : Advertisement) : Prop :=
  ∀ quad ∈ state.data, quad.subject ≠ .named (ad.mints server)

/-- No empty text is given for a field in which the run has a value. -/
def Advertisement.Spares (state : State) (ad : Advertisement) : Prop :=
  ∀ runIri, ad.attached server state = some runIri →
    ((ad.run server).status = some "" → Unsaid state.data runIri (Ns.t Ns.tar "status")) ∧
      ((ad.run server).endedAt = some "" → Unsaid state.data runIri (Ns.t Ns.prov "endedAtTime"))

instance (state : State) (ad : Advertisement) : Decidable (ad.New server state) :=
  inferInstanceAs (Decidable (∀ quad ∈ state.data, _))

instance (state : State) (ad : Advertisement) : Decidable (ad.Spares server state) :=
  inferInstanceAs (Decidable (∀ runIri, ad.attached server state = some runIri → _))

end Advertisements

/-- The outcome of a run is that of a course. -/
def Reports (platform : Platform) (data : Dataset) (runIri : String) (l : Course) : Prop :=
  ∀ predicate ∈ outcomeVocabulary, ∀ term, SaidOf data runIri predicate term ↔ (predicate, term) ∈ l.statements platform

section Courses

variable {platform : Platform} {data : Dataset} {runIri : String} {l : Course}

theorem outcome_lifecycle : ∀ predicate ∈ outcomeVocabulary, predicate ∈ lifecycleVocabulary :=
  fun _ mem => List.mem_cons_of_mem _ mem

theorem stated_status {term : Term} : (Ns.t Ns.tar "status", term) ∈ l.statements platform ↔
    l.status ≠ "" ∧ term = .simple l.status := by
  have started : Ns.t Ns.tar "status" ≠ Ns.t Ns.prov "startedAtTime" := by decide
  have ended : Ns.t Ns.tar "status" ≠ Ns.t Ns.prov "endedAtTime" := by decide
  have apart : Ns.t Ns.tar "status" ≠ Ns.t Ns.schema "actionStatus" := by decide
  have action : (Ns.t Ns.tar "status", term) ∉ optLink platform Ns.schema "actionStatus" (Run.actionStatus l.status) :=
    fun mem => apart (only_optLink platform Ns.schema "actionStatus" _ _ mem)
  rw [mem_statements]
  unfold statusStatements text
  rw [List.mem_append]
  simp only [started, ended, action, false_and, false_or, or_false]
  by_cases empty : l.status = ""
  · rw [if_pos empty]
    simp [empty]
  · rw [if_neg empty]
    simp [empty]

theorem actionStatus_ne_empty {status action : String} (given : Run.actionStatus status = some action) : action ≠ "" := by
  unfold Run.actionStatus at given
  split at given <;> first | cases given; done | (rw [← Option.some.inj given]; decide)

theorem stated_action {term : Term} : (Ns.t Ns.schema "actionStatus", term) ∈ l.statements platform ↔
    ∃ action, Run.actionStatus l.status = some action ∧ term = linkTerm platform action := by
  have started : Ns.t Ns.schema "actionStatus" ≠ Ns.t Ns.prov "startedAtTime" := by decide
  have ended : Ns.t Ns.schema "actionStatus" ≠ Ns.t Ns.prov "endedAtTime" := by decide
  have apart : Ns.t Ns.schema "actionStatus" ≠ Ns.t Ns.tar "status" := by decide
  have status : (Ns.t Ns.schema "actionStatus", term) ∉ text Ns.tar "status" l.status :=
    fun mem => apart (only_text _ _ _ _ mem)
  rw [mem_statements]
  unfold statusStatements
  rw [List.mem_append]
  simp only [started, ended, status, false_and, false_or]
  cases given : Run.actionStatus l.status with
  | none => simp [optLink]
  | some action =>
    have written : link platform Ns.schema "actionStatus" action = [(Ns.t Ns.schema "actionStatus", linkTerm platform action)] := by
      unfold link linkTerm
      rw [if_neg (actionStatus_ne_empty given)]
      split <;> rfl
    show _ ∈ link platform Ns.schema "actionStatus" action ↔ _
    rw [written]
    simp

theorem actionStatus_empty : Run.actionStatus "" = none := by decide

/-- The outcome of a course is one outcome. -/
theorem Reports.oneOutcome (reports : Reports platform data runIri l) : OneOutcome platform data runIri := by
  have status := reports (Ns.t Ns.tar "status") (by decide)
  have ended := reports (Ns.t Ns.prov "endedAtTime") (by decide)
  have action := reports (Ns.t Ns.schema "actionStatus") (by decide)
  constructor
  · intro one other first second
    rw [status, stated_status] at first second
    rw [first.2, second.2]
  · intro one other first second
    rw [ended, mem_ended] at first second
    exact Option.some.inj (first.symm.trans second)
  · intro term
    rw [action, stated_action]
    constructor
    · intro given
      obtain ⟨action, known, same⟩ := given
      have nonempty : l.status ≠ "" := by
        intro empty
        rw [empty, actionStatus_empty] at known
        cases known
      exact ⟨l.status, action, (status _).2 (stated_status.2 ⟨nonempty, rfl⟩), known, same⟩
    · intro given
      obtain ⟨own, action, said, known, same⟩ := given
      have here := (stated_status.1 ((status _).1 said)).2
      have equal : own = l.status := by
        unfold Term.simple at here
        rw [Term.literal.injEq] at here
        exact here.1
      exact ⟨action, equal ▸ known, same⟩

/-- A run that nothing is said of has no outcome yet. -/
theorem reports_of_new (new : ∀ quad ∈ data, quad.subject ≠ .named runIri) : Reports platform data runIri ⟨none, none, ""⟩ := by
  intro predicate _ term
  have nothing : Course.statements platform ⟨none, none, ""⟩ = [] := rfl
  rw [nothing]
  exact ⟨fun held => absurd rfl (new _ held), fun mem => absurd mem List.not_mem_nil⟩

end Courses

/-- What an advertisement does to the outcomes of runs: nothing, an update of the run it is about, or the first of
the run it mints. -/
inductive Effect (server : Server) (state : State) (ad : Advertisement) (after : State) : Prop
  | stays (same : ∀ runIri predicate term, SaidOf after.data runIri predicate term ↔ SaidOf state.data runIri predicate term)
  | updates (iri : String) (attached : ad.attached server state = some iri)
      (stated : ∀ runIri, ∀ predicate ∈ outcomeVocabulary, ∀ term, SaidOf after.data runIri predicate term ↔
        (SaidOf state.data runIri predicate term ∧ ¬(runIri = iri ∧ predicate ∈ replacedBy (ad.run server))) ∨
          (runIri = iri ∧ (predicate, term) ∈ outcomeStatements server.platform (ad.run server)))
  | opens (stated : ∀ runIri, ∀ predicate ∈ outcomeVocabulary, ∀ term, SaidOf after.data runIri predicate term ↔
        SaidOf state.data runIri predicate term ∨
          (runIri = ad.mints server ∧ (predicate, term) ∈ (ad.opens server).statements server.platform))

section Steps

variable {server : Server} {state : State} {ad : Advertisement}

theorem advertise_bound {draw : Draw} {principal : Principal} {input : AdvertiseIn} {role : Role} {data : Dataset} {iri : String}
    (admitted : Api.Advertise.admitted server data draw principal input role = .ok iri) :
    principal.instanceIri = some iri := by
  unfold Api.Advertise.admitted at admitted
  obtain ⟨_, _, rest⟩ := bind_ok.1 admitted
  obtain ⟨known, required, rest⟩ := bind_ok.1 rest
  obtain ⟨there, _, rest⟩ := bind_ok.1 rest
  have same : known = iri := by
    cases there with
    | true =>
      obtain ⟨_, _, rest⟩ := bind_ok.1 rest
      exact Except.ok.inj rest
    | false => cases rest
  exact same ▸ (Principal.requireInstance_ok.1 required).2

/-- More quads that are silent on outcomes leave them as they are. -/
theorem stated_silent {tx : GraphTx} {quads : List Quad} (silent : Api.Repeats.Silent quads) {data : Dataset} {runIri predicate : String}
    (spoken : predicate ∈ outcomeVocabulary) {term : Term} :
    SaidOf (effect data (tx.extend quads)) runIri predicate term ↔ SaidOf (effect data tx) runIri predicate term := by
  have unsaid : (⟨.named runIri, predicate, term, Ns.gLocal⟩ : Quad) ∉ quads := fun mem => silent _ mem spoken
  unfold SaidOf effect GraphTx.extend
  rw [Dataset.mem_extend, Dataset.mem_extend, List.mem_append]
  simp only [unsaid, or_false]

theorem stated_outcome {platform : Platform} {data : Dataset} {iri : String} {run : RunIn} {runIri predicate : String} {term : Term} :
    SaidOf (effect data (outcomeTx platform iri run)) runIri predicate term ↔
      (SaidOf data runIri predicate term ∧ ¬(runIri = iri ∧ predicate ∈ replacedBy run)) ∨
        (runIri = iri ∧ (predicate, term) ∈ outcomeStatements platform run) := by
  unfold SaidOf
  rw [Api.Repeats.mem_effect_outcome]
  unfold Replaced describeLocal
  rw [mem_finish]
  simp

theorem stated_new {platform : Platform} {data : Dataset} {minted inst actor : String} {draw : Draw} {run : RunIn}
    {runIri predicate : String} (spoken : predicate ∈ outcomeVocabulary) {term : Term} :
    SaidOf (effect data (({} : GraphTx).extend (Run.runQuads platform minted draw run inst actor))) runIri predicate term ↔
      SaidOf data runIri predicate term ∨ (runIri = minted ∧ (predicate, term) ∈
        ({ begun platform draw run with status := "success" }.updated platform run).statements platform) := by
  have association : (⟨.named runIri, predicate, term, Ns.gLocal⟩ : Quad) ∉ finish (Run.associationNode draw) Ns.gLocal
      (Run.associationStatements platform run inst) := by
    intro mem
    have blank := (mem_finish.1 mem).1
    cases blank
  have same := @mem_runStatements platform draw run inst actor (predicate, term) (outcome_lifecycle _ spoken)
  unfold SaidOf
  rw [Api.Repeats.mem_effect_properties rfl rfl, ← same]
  unfold GraphTx.extend Run.runQuads describeLocal
  simp [association, mem_finish]

theorem concluded {α : Type} (p : Api.Advertise.Progress) (answer : α) :
    (conclude server state p answer).state.ops = p.ops ∧
      ((conclude server state p answer).state.data = state.data ∨
        (conclude server state p answer).state.data = effect state.data p.tx) := by
  unfold conclude
  cases p.failed with
  | some e => exact ⟨rfl, Or.inl rfl⟩
  | none =>
    dsimp only
    split
    · exact ⟨rfl, Or.inl rfl⟩
    · rcases Outcome.commit_cases server { state with ops := p.ops } p.tx (fun _ => .ok answer) with same | changed
      · rw [same]
        exact ⟨rfl, Or.inl rfl⟩
      · rw [changed]
        exact ⟨rfl, Or.inr rfl⟩

/-- The transaction an advertisement starts from, and the rows it knows its run by. -/
theorem resolved_cases {inst : String} (bound : ad.principal.instanceIri = some inst) :
    (∃ iri, ad.attached server state = some iri ∧
      (resolveRun server (ad.draw.site 1) ad.principal inst (ad.run server) { ops := state.ops }).2.tx =
        outcomeTx server.platform iri (ad.run server) ∧
      (resolveRun server (ad.draw.site 1) ad.principal inst (ad.run server) { ops := state.ops }).2.ops = state.ops) ∨
    ((resolveRun server (ad.draw.site 1) ad.principal inst (ad.run server) { ops := state.ops }).2.tx =
        ({} : GraphTx).extend (Run.runQuads server.platform (ad.mints server) ((ad.draw.site 1).site 1) (ad.run server) inst
          ad.principal.subject) ∧
      ∀ key theirs runIri,
        (resolveRun server (ad.draw.site 1) ad.principal inst (ad.run server) { ops := state.ops }).2.ops.runForKey key theirs =
          some runIri → state.ops.runForKey key theirs = some runIri ∨ runIri = ad.mints server) := by
  have attached : ad.attached server state =
      (nonEmptyKey (ad.run server)).bind (fun key => state.ops.runForKey key inst) := by
    unfold Advertisement.attached
    rw [bound, Option.bind_some]
  unfold resolveRun
  cases found : (nonEmptyKey (ad.run server)).bind (fun key => state.ops.runForKey key inst) with
  | some iri => exact Or.inl ⟨iri, attached.trans found, rfl, rfl⟩
  | none =>
    right
    cases keyed : nonEmptyKey (ad.run server) with
    | none => exact ⟨rfl, fun _ _ _ held => Or.inl held⟩
    | some own =>
      refine ⟨rfl, ?_⟩
      intro key theirs runIri held
      have row : (state.ops.rememberRun own inst (ad.mints server)).runForKey key theirs = some runIri := held
      unfold Ops.runForKey Ops.rememberRun at row
      rw [Ops.lookup_remember] at row
      unfold Ops.runForKey
      cases before : Ops.lookup state.ops.runKeys (key, theirs) with
      | some known =>
        rw [before] at row
        exact Or.inl row
      | none =>
        rw [before, Option.none_or] at row
        split at row
        · exact Or.inr (Option.some.inj row).symm
        · cases row

/-- Everything an advertisement does to the outcomes of runs and to the rows they are known by. -/
theorem advertised_cases : Effect server state ad (afterAd server state ad) ∧
    ∀ key inst runIri, (afterAd server state ad).ops.runForKey key inst = some runIri →
      state.ops.runForKey key inst = some runIri ∨ runIri = ad.mints server := by
  unfold afterAd advertise Outcome.planned
  cases admitted : Api.Advertise.admitted server state.data (ad.draw.site 0) ad.principal ad.input ad.role with
  | error e => exact ⟨Effect.stays (fun _ _ _ => Iff.rfl), fun _ _ _ held => Or.inl held⟩
  | ok inst =>
    have resolved := @resolved_cases server state ad inst (advertise_bound admitted)
    unfold Advertisement.run at resolved
    dsimp only
    generalize resolveRun server (ad.draw.site 1) ad.principal inst (runInput server ad.input.run) { ops := state.ops } =
      start at resolved ⊢
    obtain ⟨runIri, started⟩ := start
    dsimp only at resolved ⊢
    have moved := @Api.Repeats.addEntries_moves server state.data (ad.draw.site 2) ad.principal
      (runInput server ad.input.run) runIri ad.role started ad.input.artifacts
    generalize addEntries server state.data (ad.draw.site 2) ad.principal (runInput server ad.input.run) runIri ad.role started
      ad.input.artifacts = p at moved ⊢
    obtain ⟨ops, written⟩ := @concluded server state _ p (⟨runIri, p.artifacts, p.created, p.queued⟩ : AdvertiseOut)
    generalize (conclude server state p (⟨runIri, p.artifacts, p.created, p.queued⟩ : AdvertiseOut)).state = after at ops written ⊢
    obtain ⟨quads, tx, silent⟩ := moved.tx
    have rows (key theirs : String) : after.ops.runForKey key theirs = started.ops.runForKey key theirs := by
      unfold Ops.runForKey
      rw [ops, moved.runs]
    constructor
    · rcases written with same | changed
      · exact Effect.stays (fun runIri predicate term => by unfold SaidOf; rw [same])
      · rcases resolved with ⟨iri, attached, outcome, _⟩ | ⟨opening, _⟩
        · apply Effect.updates iri attached
          intro runIri predicate spoken term
          rw [changed, tx, outcome, stated_silent silent spoken]
          exact stated_outcome
        · apply Effect.opens
          intro runIri predicate spoken term
          rw [changed, tx, opening, stated_silent silent spoken]
          exact stated_new spoken
    · intro key theirs known held
      rw [rows] at held
      rcases resolved with ⟨iri, _, _, tables⟩ | ⟨_, remembered⟩
      · exact Or.inl (tables ▸ held)
      · exact remembered key theirs known held

/-- A run goes from one outcome to another. -/
theorem effect_reports {after : State} (effect : Effect server state ad after) {runIri : String} {l : Course}
    (reports : Reports server.platform state.data runIri l) (new : ad.New server state) :
    ∃ next, Reports server.platform after.data runIri next := by
  cases effect with
  | stays same => exact ⟨l, fun predicate spoken term => (same _ _ _).trans (reports predicate spoken term)⟩
  | updates iri attached stated =>
    by_cases here : runIri = iri
    · refine ⟨l.updated server.platform (ad.run server), ?_⟩
      intro predicate spoken term
      rw [stated runIri predicate spoken term, reports predicate spoken term, mem_updated]
      simp [here]
    · refine ⟨l, ?_⟩
      intro predicate spoken term
      rw [stated runIri predicate spoken term, reports predicate spoken term]
      simp [here]
  | opens stated =>
    by_cases here : runIri = ad.mints server
    · refine ⟨ad.opens server, ?_⟩
      intro predicate spoken term
      rw [stated runIri predicate spoken term, here]
      have unsaid : ¬SaidOf state.data (ad.mints server) predicate term := fun held => new _ held rfl
      simp only [unsaid, true_and, false_or]
    · refine ⟨l, ?_⟩
      intro predicate spoken term
      rw [stated runIri predicate spoken term, reports predicate spoken term]
      simp [here]

theorem mem_unnamed {run : RunIn} {predicate : String} : predicate ∈ unnamed run ↔
    (nonEmpty run.status = none ∧ predicate ∈ [Ns.t Ns.tar "status", Ns.t Ns.schema "actionStatus"]) ∨
      (nonEmpty run.endedAt = none ∧ predicate = Ns.t Ns.prov "endedAtTime") := by
  unfold unnamed
  rw [List.mem_append, List.mem_ite_nil_right, List.mem_ite_nil_right, List.mem_singleton]

theorem unnamed_outcome {run : RunIn} {predicate : String} (mem : predicate ∈ unnamed run) : predicate ∈ outcomeVocabulary := by
  rcases mem_unnamed.1 mem with ⟨_, status⟩ | ⟨_, ended⟩
  · exact (by decide : ∀ predicate ∈ [Ns.t Ns.tar "status", Ns.t Ns.schema "actionStatus"], predicate ∈ outcomeVocabulary) _ status
  · rw [ended]
    decide

theorem empty_of_given {value : Option String} (unnamed : nonEmpty value = none) (given : value.isSome = true) : value = some "" := by
  obtain ⟨text, same⟩ := Option.isSome_iff_exists.1 given
  rw [same] at unnamed ⊢
  have empty : text = "" := by simpa [nonEmpty] using unnamed
  rw [empty]

/-- A field without a new value is replaced by an empty text only. -/
theorem unnamed_replaced {run : RunIn} {predicate : String} (mem : predicate ∈ unnamed run) (replaced : predicate ∈ replacedBy run) :
    (run.status = some "" ∧ predicate ∈ [Ns.t Ns.tar "status", Ns.t Ns.schema "actionStatus"]) ∨
      (run.endedAt = some "" ∧ predicate = Ns.t Ns.prov "endedAtTime") := by
  have apart : Ns.t Ns.prov "endedAtTime" ∉ [Ns.t Ns.tar "status", Ns.t Ns.schema "actionStatus"] := by decide
  rcases mem_unnamed.1 mem with ⟨silent, status⟩ | ⟨silent, ended⟩ <;>
    rcases mem_replacedBy.1 replaced with ⟨given, predicateEnded⟩ | ⟨given, predicateStatus⟩
  · exact absurd (predicateEnded ▸ status) apart
  · exact Or.inl ⟨empty_of_given silent given, status⟩
  · exact Or.inr ⟨empty_of_given silent given, ended⟩
  · exact absurd (ended ▸ predicateStatus) apart

/-- Nothing is lost to an advertisement that spares what there is. -/
theorem effect_kept {after : State} (effect : Effect server state ad after) {runIri : String} {l : Course}
    (reports : Reports server.platform state.data runIri l) (spares : ad.Spares server state) :
    Kept (ad.run server) state.data after.data runIri := by
  intro predicate mem term held
  have spoken := unnamed_outcome mem
  cases effect with
  | stays same => exact (same _ _ _).2 held
  | opens stated => exact (stated _ _ spoken _).2 (Or.inl held)
  | updates iri attached stated =>
    rw [stated _ _ spoken]
    left
    refine ⟨held, ?_⟩
    intro hit
    obtain ⟨here, replaced⟩ := hit
    have spared := spares iri attached
    rw [← here] at spared
    rcases unnamed_replaced mem replaced with ⟨empty, status⟩ | ⟨empty, ended⟩
    · have unsaid := spared.1 empty
      have nothing : l.status = "" := by
        by_contra nonempty
        have said : SaidOf state.data runIri (Ns.t Ns.tar "status") (.simple l.status) :=
          (reports _ (by decide) _).2 (stated_status.2 ⟨nonempty, rfl⟩)
        exact unsaid.stated said
      rcases List.mem_pair.1 status with same | same
      · exact unsaid.stated (same ▸ held)
      · rw [same, reports _ (by decide), stated_action, nothing, actionStatus_empty] at held
        obtain ⟨_, none_, _⟩ := held
        cases none_
    · exact (spared.2 empty).stated (ended ▸ held)

end Steps

section Runs

variable {server : Server} {start : State} {key inst : String}

/-- Whatever is advertised, the run known by a key has the outcome of some course. -/
theorem run_reports {ads : List Advertisement} (unknown : start.ops.runForKey key inst = none)
    (new : Meets (afterAd server) (fun state ad => ad.New server state) start ads) (runIri : String)
    (known : (run (afterAd server) start ads).ops.runForKey key inst = some runIri) :
    ∃ l, Reports server.platform (run (afterAd server) start ads).data runIri l := by
  have invariant := run_invariant (afterAd server)
    (fun state => ∀ runIri, state.ops.runForKey key inst = some runIri → ∃ l, Reports server.platform state.data runIri l)
    (fun _ held => by rw [unknown] at held; cases held) (fun state ad held new => by
      intro runIri known
      obtain ⟨effect, rows⟩ := @advertised_cases server state ad
      rcases rows key inst runIri known with before | minted
      · obtain ⟨l, reports⟩ := held runIri before
        exact effect_reports effect reports new
      · exact effect_reports effect (reports_of_new (minted ▸ new)) new) new
  exact invariant runIri known

end Runs

/-- Through any advertisements of new runs and known ones, the run of a key has one status and one end at most and the
action status of its status; and as long as no advertisement gives an empty text where the run has a value, none of them
loses a value it names no new one for. -/
theorem outcome_stays (server : Server) (start : State) (key inst : String) (ads : List Advertisement)
    (unknown : start.ops.runForKey key inst = none)
    (meets : Meets (afterAd server) (fun state ad => ad.New server state ∧ ad.Spares server state) start ads) :
    (∀ runIri, (run (afterAd server) start ads).ops.runForKey key inst = some runIri →
      OneOutcome server.platform (run (afterAd server) start ads).data runIri) ∧
    ∀ before ad after, ads = before ++ ad :: after → ∀ runIri,
      (run (afterAd server) start before).ops.runForKey key inst = some runIri →
        Kept (ad.run server) (run (afterAd server) start before).data
          (run (afterAd server) start (before ++ [ad])).data runIri := by
  have new := meets_mono (afterAd server) (fun state ad both => And.left both) meets
  constructor
  · intro runIri known
    obtain ⟨l, reports⟩ := run_reports unknown new runIri known
    exact reports.oneOutcome
  · intro before ad after split runIri known
    rw [split, meets_append] at meets new
    obtain ⟨l, reports⟩ := run_reports unknown new.1 runIri known
    rw [run_append]
    exact effect_kept (advertised_cases.1) reports meets.2.1.2

section Specimen

open Specimen

/-- A registry with one deployment. -/
def yard : State := Library.Runs.run (Registry.step (registry [])) State.empty [byRoot "i" (.createInstance { label := "one" })]

def builder : Principal :=
  { Principal.anonymous with
    credential := .localToken, instanceIri := some "https://reg.example/instance/ia", scopes := {scopeAdvertiseProduce} }

/-- An advertisement of the run "r" with this status. -/
def ofStatus (label : String) (status : Option String) : Advertisement :=
  ⟨draw label, builder, { run := { externalKey := some "r", status } }, .produced⟩

/-- A run that is advertised as running, then without a status, then as a success. -/
theorem outcome_of_three :
    OneOutcome (platform []) (run (afterAd (registry [])) yard
      [ofStatus "a" (some "running"), ofStatus "b" none, ofStatus "c" (some "success")]).data
        ((ofStatus "a" none).mints (registry [])) ∧
      Kept ((ofStatus "b" none).run (registry [])) (run (afterAd (registry [])) yard [ofStatus "a" (some "running")]).data
        (run (afterAd (registry [])) yard [ofStatus "a" (some "running"), ofStatus "b" none]).data
        ((ofStatus "a" none).mints (registry [])) := by
  have evaluated : yard.ops.runForKey "r" "https://reg.example/instance/ia" = none ∧
      (run (afterAd (registry [])) yard [ofStatus "a" (some "running")]).ops.runForKey "r"
        "https://reg.example/instance/ia" = some ((ofStatus "a" none).mints (registry [])) ∧
      (run (afterAd (registry [])) yard [ofStatus "a" (some "running"), ofStatus "b" none,
        ofStatus "c" (some "success")]).ops.runForKey "r" "https://reg.example/instance/ia" =
          some ((ofStatus "a" none).mints (registry [])) ∧
      Meets (afterAd (registry [])) (fun state ad => ad.New (registry []) state ∧ ad.Spares (registry []) state) yard
        [ofStatus "a" (some "running"), ofStatus "b" none, ofStatus "c" (some "success")] := by decide
  have stays := outcome_stays (registry []) yard "r" "https://reg.example/instance/ia"
    [ofStatus "a" (some "running"), ofStatus "b" none, ofStatus "c" (some "success")] evaluated.1 evaluated.2.2.2
  exact ⟨stays.1 _ evaluated.2.2.1, stays.2 [ofStatus "a" (some "running")] (ofStatus "b" none) [ofStatus "c" (some "success")]
    rfl _ evaluated.2.1⟩

/-- An advertisement with an empty status is answered, and the run that was running has no status any more. -/
theorem empty_status_erases :
    yard.ops.runForKey "r" "https://reg.example/instance/ia" = none ∧
      Meets (afterAd (registry [])) (fun state ad => ad.New (registry []) state) yard
        [ofStatus "a" (some "running"), ofStatus "b" (some "")] ∧
      (advertise (registry []) (run (afterAd (registry [])) yard [ofStatus "a" (some "running")])
        (ofStatus "b" (some "")).draw builder (ofStatus "b" (some "")).input .produced).response.toOption.isSome = true ∧
      (run (afterAd (registry [])) yard [ofStatus "a" (some "running")]).ops.runForKey "r"
        "https://reg.example/instance/ia" = some ((ofStatus "a" none).mints (registry [])) ∧
      ¬Kept ((ofStatus "b" (some "")).run (registry []))
        (run (afterAd (registry [])) yard [ofStatus "a" (some "running")]).data
        (run (afterAd (registry [])) yard [ofStatus "a" (some "running"), ofStatus "b" (some "")]).data
        ((ofStatus "a" none).mints (registry [])) := by
  have evaluated : yard.ops.runForKey "r" "https://reg.example/instance/ia" = none ∧
      Meets (afterAd (registry [])) (fun state ad => ad.New (registry []) state) yard
        [ofStatus "a" (some "running"), ofStatus "b" (some "")] ∧
      (advertise (registry []) (run (afterAd (registry [])) yard [ofStatus "a" (some "running")])
        (ofStatus "b" (some "")).draw builder (ofStatus "b" (some "")).input .produced).response.toOption.isSome = true ∧
      (run (afterAd (registry [])) yard [ofStatus "a" (some "running")]).ops.runForKey "r"
        "https://reg.example/instance/ia" = some ((ofStatus "a" none).mints (registry [])) := by decide
  have held : (⟨.named ((ofStatus "a" none).mints (registry [])), Ns.t Ns.tar "status", .simple "running", Ns.gLocal⟩ : Quad) ∈
      (run (afterAd (registry [])) yard [ofStatus "a" (some "running")]).data := by decide
  have gone : Unsaid (run (afterAd (registry [])) yard [ofStatus "a" (some "running"), ofStatus "b" (some "")]).data
      ((ofStatus "a" none).mints (registry [])) (Ns.t Ns.tar "status") := by decide
  refine ⟨evaluated.1, evaluated.2.1, evaluated.2.2.1, evaluated.2.2.2, ?_⟩
  intro kept
  have unnamed : Ns.t Ns.tar "status" ∈ unnamed ((ofStatus "b" (some "")).run (registry [])) := by decide
  exact gone.stated (kept _ unnamed _ held)

end Specimen

end ToolArtifactRegistry.Laws
