import ToolArtifactRegistry.Api.Identities
import ToolArtifactRegistry.Api.Repeats
import ToolArtifactRegistry.Laws.Outcomes
import ToolArtifactRegistry.Library.Looking

/-! One key, one record. However the calls of the advertisements and the ingested events fall among each other, a
key leads to one record, as long as none of them remembers a key that another has just taken. -/
namespace ToolArtifactRegistry.Laws

open Library.Rdf Library.Runs Library.Programs Library.Serde Library.Text Ids Model Store Rdf Build Domain
open Auth hiding Role
open Api.Calls
open Api.Advertise (Role nonEmptyKey artifactKey runInput)

/-- What a key leads to. -/
def keyedRecord (j : Journal) : Key → Option String
  | .run key inst => j.state.ops.runForKey key inst
  | .artifact key => j.state.ops.artifactForKey key

/-- The key a call takes. -/
def takesKey : Api.Calls.Call → Option Key
  | .rememberRun key inst _ => some (.run key inst)
  | .rememberArtifact key _ => some (.artifact key)
  | _ => none

/-- A call takes no key that leads anywhere yet. -/
def VacantKey (j : Journal) (c : Api.Calls.Call) : Prop := ∀ key, takesKey c = some key → keyedRecord j key = none

/-- A later journal: what a key led to it still leads to. -/
def LaterKeys (before after : Journal) : Prop := ∀ key iri, keyedRecord before key = some iri → keyedRecord after key = some iri

theorem LaterKeys.trans {first second third : Journal} (one : LaterKeys first second) (other : LaterKeys second third) :
    LaterKeys first third := fun key iri held => other key iri (one key iri held)

/-- A key leads to every record that was committed under it. -/
def LeadsTo (j : Journal) (named : List (Key × String)) : Prop := ∀ entry ∈ named, keyedRecord j entry.1 = some entry.2

theorem LeadsTo.later {before after : Journal} {entries : List (Key × String)} (leads : LeadsTo before entries)
    (later : LaterKeys before after) : LeadsTo after entries := fun entry mem => later _ _ (leads entry mem)

/-- So in every later journal that is sound. -/
def EverAfter (j : Journal) (holds : Journal → Prop) : Prop := ∀ t, LaterKeys j t → LeadsTo t t.committed → holds t

/-- What a request relies on and keeps. -/
def keying (server : Server) : Contract (desk server) where
  Inv j := LeadsTo j j.committed
  grows := LaterKeys
  permitted := VacantKey
  refl _ _ _ := id
  trans first second key iri held := second key iri (first key iri held)

section Handlers

variable {server : Server} {α β : Type}

/-- A handler keeps the contract, and what it answers is so from then on. -/
structure KeepsKeys (post : α → Journal → Prop) (handler : Handler server α) (j : Journal) : Prop where
  holds : (keying server).Holds (fun result j => ∀ answer, result = .ok answer → post answer j) handler.run j

theorem KeepsKeys.pure {post : α → Journal → Prop} {answer : α} {j : Journal}
    (holds : EverAfter j (post answer)) : KeepsKeys post (pure answer : Handler server α) j := by
  constructor
  intro t later inv value same
  cases same
  exact holds t later inv

theorem KeepsKeys.throw {post : β → Journal → Prop} {error : AppError} {next : α → Handler server β} {j : Journal} :
    KeepsKeys post ((throw error : Handler server α) >>= next) j := by
  constructor
  intro t later inv value same
  cases same

/-- One handler after another. -/
theorem KeepsKeys.bind {post : α → Journal → Prop} {last : β → Journal → Prop} {first : Handler server α}
    {next : α → Handler server β} {j : Journal} (keeps : KeepsKeys post first j)
    (rest : ∀ answer t, EverAfter t (post answer) → LaterKeys j t → KeepsKeys last (next answer) t) :
    KeepsKeys last (first >>= next) j := by
  constructor
  rw [ExceptT.run_bind]
  apply Contract.Holds.bind keeps.holds
  intro result t holds later
  cases result with
  | error e =>
    intro u _ _ value same
    cases same
  | ok answer =>
    apply (rest answer t _ later).holds
    intro u further inv
    exact holds u further inv answer rfl

theorem KeepsKeys.weaken {post last : α → Journal → Prop} {handler : Handler server α} {j : Journal} (keeps : KeepsKeys post handler j)
    (implies : ∀ answer t, LaterKeys j t → LeadsTo t t.committed → post answer t → last answer t) : KeepsKeys last handler j :=
  ⟨Contract.Holds.weaken keeps.holds (fun _ t later inv holds answer same => implies answer t later inv (holds answer same))⟩

theorem remember_later {κ : Type} [DecidableEq κ] {table : List (κ × String)} {key other : κ} {value iri : String}
    (held : Ops.lookup table other = some iri) : Ops.lookup (Ops.remember table key value) other = some iri := by
  rw [Ops.lookup_remember, held]
  rfl

theorem perform_apply (tx : GraphTx) (described : List (Key × String)) (j : Journal) :
    (perform server (.apply tx described) j).2 =
      match Store.apply server.platform j.state.data tx with
      | .error _ => j
      | .ok data => ⟨{ j.state with data }, j.committed ++ described⟩ := by
  unfold perform
  dsimp only
  cases Store.apply server.platform j.state.data tx <;> rfl

/-- A call leaves every key where it led. -/
theorem perform_later (c : Api.Calls.Call) (j : Journal) : LaterKeys j (perform server c j).2 := by
  intro key iri held
  have claims (runIri artifactIri role : String) :
      keyedRecord (j.setOps (j.state.ops.claimAdvertisement runIri artifactIri role).2) key = keyedRecord j key := by
    obtain ⟨artifacts, runs⟩ : (j.state.ops.claimAdvertisement runIri artifactIri role).2.artifactKeys =
        j.state.ops.artifactKeys ∧ (j.state.ops.claimAdvertisement runIri artifactIri role).2.runKeys = j.state.ops.runKeys := by
      unfold Ops.claimAdvertisement
      dsimp only
      split <;> exact ⟨rfl, rfl⟩
    cases key <;> simp [keyedRecord, Journal.setOps, Ops.runForKey, Ops.artifactForKey, artifacts, runs]
  have queues (iri : String) : keyedRecord (j.setOps (j.state.ops.queueResolve iri)) key = keyedRecord j key := by
    obtain ⟨artifacts, runs⟩ : (j.state.ops.queueResolve iri).artifactKeys = j.state.ops.artifactKeys ∧
        (j.state.ops.queueResolve iri).runKeys = j.state.ops.runKeys := by
      unfold Ops.queueResolve
      split <;> exact ⟨rfl, rfl⟩
    cases key <;> simp [keyedRecord, Journal.setOps, Ops.runForKey, Ops.artifactForKey, artifacts, runs]
  cases c with
  | exists_ | conforms | declared | runForKey | artifactForKey => exact held
  | rememberRun own inst runIri =>
    cases key with
    | run other theirs => exact remember_later held
    | artifact other => exact held
  | rememberArtifact own artifactIri =>
    cases key with
    | run other theirs => exact held
    | artifact other => exact remember_later held
  | claim runIri artifactIri role => exact (claims runIri artifactIri role.asStr).trans held
  | queueResolve queued => exact (queues queued).trans held
  | apply tx described =>
    rw [perform_apply]
    split
    · exact held
    · cases key <;> exact held

/-- Whether a call commits what a draft describes. -/
def commitsDraft : Api.Calls.Call → Bool
  | .apply _ _ => true
  | _ => false

theorem perform_committed {c : Api.Calls.Call} (quiet : commitsDraft c = false) (j : Journal) :
    (perform server c j).2.committed = j.committed := by
  cases c with
  | apply tx described => cases quiet
  | _ => rfl

/-- A call that commits nothing. -/
theorem KeepsKeys.ask {c : Api.Calls.Call} {post : c.Reply → Journal → Prop} {j : Journal} (quiet : commitsDraft c = false)
    (each : ∀ t, VacantKey t c → ∀ u, LaterKeys (perform server c t).2 u → post (perform server c t).1 u) :
    KeepsKeys post (Api.Calls.ask server c) j := by
  constructor
  intro t later inv vacant
  have grown : LaterKeys t (perform server c t).2 := perform_later c t
  refine ⟨?_, grown, ?_⟩
  · show LeadsTo (perform server c t).2 (perform server c t).2.committed
    rw [perform_committed quiet]
    exact LeadsTo.later inv grown
  · intro u further _ value same
    cases same
    exact each t vacant u further

/-- A check that may fail, and tells nothing a request goes by. -/
theorem KeepsKeys.attempt {c : Api.Calls.Call} {reply : c.Reply = AppResult α} {j : Journal} (quiet : commitsDraft c = false) :
    KeepsKeys (fun _ _ => True) (Api.Calls.attempt server c reply) j := by
  constructor
  intro t later inv vacant
  have grown : LaterKeys t (perform server c t).2 := perform_later c t
  refine ⟨?_, grown, fun _ _ _ _ _ => trivial⟩
  show LeadsTo (perform server c t).2 (perform server c t).2.committed
  rw [perform_committed quiet]
  exact LeadsTo.later inv grown

/-- A transaction is applied with what is known of the records it describes. -/
theorem KeepsKeys.applied {tx : GraphTx} {described : List (Key × String)} {j : Journal}
    (leads : EverAfter j (fun t => LeadsTo t described)) : KeepsKeys (fun _ _ => True) (Api.Calls.applied server tx described) j := by
  constructor
  intro t later inv vacant
  have grown : LaterKeys t (perform server (.apply tx described) t).2 := perform_later (.apply tx described) t
  refine ⟨?_, grown, fun _ _ _ _ _ => trivial⟩
  have before : LeadsTo t t.committed := inv
  show LeadsTo (perform server (.apply tx described) t).2 (perform server (.apply tx described) t).2.committed
  rw [perform_apply] at grown ⊢
  split at grown
  · exact before
  · intro entry mem
    apply grown
    rcases List.mem_append.1 mem with old | new
    · exact before entry old
    · exact leads t later inv entry new

end Handlers

section Requests

variable {server : Server} {draw : Draw} {principal : Principal} {run : RunIn} {inst runIri : String} {role : Role}
  {draft : Draft} {j : Journal}

theorem known_keeps (iri : String) : KeepsKeys (fun _ _ => True) (Api.Calls.known server iri) j := by
  unfold Api.Calls.known
  exact KeepsKeys.attempt rfl

theorem conforms_keeps (quads : List Quad) : KeepsKeys (fun _ _ => True) (conforms server quads) j := by
  unfold conforms
  exact KeepsKeys.attempt rfl

theorem declared_keeps (quads : List Quad) : KeepsKeys (fun _ _ => True) (declared server quads) j := by
  unfold declared
  exact KeepsKeys.attempt rfl

/-- What a step of a draft keeps: the artifacts it lists and the records it describes. -/
def SameRecords (before after : Draft) : Prop := after.artifacts = before.artifacts ∧ after.described = before.described

theorem reference_keeps (iri : String) : KeepsKeys (fun after _ => SameRecords draft after) (reference server draft iri) j := by
  unfold reference
  split
  · exact KeepsKeys.pure (fun _ _ _ => ⟨rfl, rfl⟩)
  · apply KeepsKeys.bind (known_keeps iri)
    intro there t _ _
    cases there with
    | true => exact KeepsKeys.pure (fun _ _ _ => ⟨rfl, rfl⟩)
    | false =>
      have asked : KeepsKeys (fun _ _ => True) (ask server (.queueResolve iri)) t := KeepsKeys.ask rfl (fun _ _ _ _ => trivial)
      exact asked.bind (fun _ _ _ _ => KeepsKeys.pure (fun _ _ _ => ⟨rfl, rfl⟩))

theorem referenceAll_keeps (iris : List String) :
    KeepsKeys (fun after _ => SameRecords draft after) (referenceAll server draft iris) j := by
  induction iris generalizing draft j with
  | nil =>
    have same : SameRecords draft draft := ⟨rfl, rfl⟩
    unfold referenceAll
    exact KeepsKeys.pure (fun _ _ _ => same)
  | cons iri rest ih =>
    have first : KeepsKeys (fun after _ => SameRecords draft after) (reference server draft iri) j := reference_keeps iri
    unfold referenceAll
    apply first.bind
    intro next t same _
    apply KeepsKeys.weaken ih
    intro after u later inv further
    have first := same u later inv
    exact ⟨further.1.trans first.1, further.2.trans first.2⟩

/-- A draft describes records that their keys lead to. -/
def Backed (draft : Draft) (j : Journal) : Prop := LeadsTo j draft.described

/-- A run or an artifact that a key was looked up for. -/
def KeyLeads (key : Option Key) (iri : String) (j : Journal) : Prop := ∀ k, key = some k → keyedRecord j k = some iri

theorem SameRecords.backed {before after : Draft} (same : SameRecords before after) (backed : Backed before j) :
    Backed after j := by
  unfold Backed
  rw [same.2]
  exact backed

/-- A record that is described is one its key leads to. -/
theorem backed_describe {key : Option Key} {iri : String} (backed : Backed draft j) (found : KeyLeads key iri j) :
    Backed (draft.describe key iri) j := by
  intro entry mem
  rcases List.mem_append.1 mem with old | new
  · exact backed entry old
  · cases key with
    | none => cases new
    | some k =>
      rw [List.mem_singleton.1 new]
      exact found k rfl

/-- What a lookup finds. -/
def LooksUp (key : Option Key) (found : Option String) (j : Journal) : Prop :=
  ∀ iri, found = some iri → KeyLeads key iri j

theorem lookupRun_keeps : KeepsKeys (LooksUp (runKey run inst)) (lookupRun server run inst) j := by
  unfold lookupRun runKey
  cases nonEmptyKey run with
  | none => exact KeepsKeys.pure (fun _ _ _ _ same => by cases same)
  | some key =>
    apply @KeepsKeys.ask server (.runForKey key inst) _ j rfl
    intro t _ u later iri found k same
    cases same
    exact later _ _ found

theorem rememberRun_keeps (iri : String) : KeepsKeys (fun _ => KeyLeads (runKey run inst) iri) (rememberRun server run inst iri) j := by
  unfold rememberRun runKey
  cases nonEmptyKey run with
  | none => exact KeepsKeys.pure (fun _ _ _ _ same => by cases same)
  | some key =>
    apply @KeepsKeys.ask server (.rememberRun key inst iri) _ j rfl
    intro t vacant u later k same
    cases same
    apply later
    have freeAt : t.state.ops.runForKey key inst = none := vacant _ rfl
    exact Api.Repeats.runForKey_rememberRun _ _ _ _ freeAt

theorem lookupArtifact_keeps (key : Option String) :
    KeepsKeys (LooksUp (key.map Key.artifact)) (lookupArtifact server key) j := by
  unfold lookupArtifact
  cases key with
  | none => exact KeepsKeys.pure (fun _ _ _ _ same => by cases same)
  | some key =>
    apply @KeepsKeys.ask server (.artifactForKey key) _ j rfl
    intro t _ u later iri found k same
    cases same
    exact later _ _ found

theorem rememberArtifact_keeps (iri : String) (key : Option String) :
    KeepsKeys (fun _ => KeyLeads (key.map Key.artifact) iri) (rememberArtifact server iri key) j := by
  unfold rememberArtifact
  cases key with
  | none => exact KeepsKeys.pure (fun _ _ _ _ same => by cases same)
  | some key =>
    apply @KeepsKeys.ask server (.rememberArtifact key iri) _ j rfl
    intro t vacant u later k same
    cases same
    apply later
    have freeAt : t.state.ops.artifactForKey key = none := vacant _ rfl
    show (t.state.ops.rememberArtifact key iri).artifactForKey key = some iri
    rw [Api.Identities.artifactForKey_new freeAt, Function.update_self]

/-- The run a request resolves is the one its key leads to. -/
theorem resolveRun_keeps (backed : EverAfter j (Backed draft)) :
    KeepsKeys (fun found t => KeyLeads (runKey run inst) found.1 t ∧ Backed found.2 t ∧ found.2.artifacts = draft.artifacts)
      (resolveRun server draw principal inst run draft) j := by
  unfold resolveRun
  apply lookupRun_keeps.bind
  intro found t looked later
  cases found with
  | some iri =>
    apply KeepsKeys.pure
    intro u further inv
    exact ⟨looked u further inv iri rfl, backed u (later.trans further) inv, rfl⟩
  | none =>
    apply (rememberRun_keeps (mint server.base .run (draw.site 0))).bind
    intro _ u remembered next
    apply KeepsKeys.pure
    intro v further inv
    have found := remembered v further inv
    have before := backed v (later.trans (next.trans further)) inv
    exact ⟨found, backed_describe before found, rfl⟩

/-- The artifact of a described entry is the one its key leads to. -/
theorem describeArtifact_keeps (a : ArtifactIn) (backed : EverAfter j (Backed draft)) :
    KeepsKeys (fun found t => KeyLeads ((artifactKey server run a).map Key.artifact) found.1 t ∧ Backed found.2 t ∧
        found.2.artifacts = draft.artifacts)
      (describeArtifact server draw principal run runIri role draft a) j := by
  unfold describeArtifact
  apply (lookupArtifact_keeps (artifactKey server run a)).bind
  intro found t looked later
  cases found with
  | some iri =>
    apply KeepsKeys.pure
    intro u further inv
    exact ⟨looked u further inv iri rfl, backed u (later.trans further) inv, rfl⟩
  | none =>
    dsimp only
    apply (referenceAll_keeps a.wasDerivedFrom).bind
    intro parents u same next
    apply (rememberArtifact_keeps (mint server.base .artifact (draw.site 0)) (artifactKey server run a)).bind
    intro _ v remembered further
    apply KeepsKeys.pure
    intro w last inv
    have found := remembered w last inv
    have listed := same w (further.trans last) inv
    have before : Backed (draft.extend (Artifact.artifactQuads server.platform server.base
        (mint server.base .artifact (draw.site 0)) (draw.site 1) a principal.subject
        (if role = .produced then some runIri else none))) w :=
      backed w (later.trans (next.trans (further.trans last))) inv
    exact ⟨found, backed_describe (listed.backed before) found, listed.1⟩

/-- What an entry is answered: the reference it is, or the artifact its key leads to. -/
def EntryAnswers (server : Server) (run : RunIn) (j : Journal) (a : ArtifactIn) (iri : String) : Prop :=
  nonEmpty a.iri = none → KeyLeads ((artifactKey server run a).map Key.artifact) iri j

theorem entryIri_keeps (a : ArtifactIn) (backed : EverAfter j (Backed draft)) :
    KeepsKeys (fun found t => EntryAnswers server run t a found.1 ∧ Backed found.2 t ∧ found.2.artifacts = draft.artifacts)
      (entryIri server draw principal run runIri role draft a) j := by
  unfold entryIri
  cases brought : nonEmpty a.iri with
  | none =>
    apply (describeArtifact_keeps a backed).weaken
    intro found t _ _ holds
    exact ⟨fun _ => holds.1, holds.2⟩
  | some iri =>
    apply (reference_keeps iri).bind
    intro after t same later
    apply KeepsKeys.pure
    intro u further inv
    have listed := same u further inv
    have absent : ¬nonEmpty a.iri = none := by simp [brought]
    exact ⟨fun none_ => absurd none_ absent, listed.backed (backed u (later.trans further) inv), listed.1⟩

theorem claim_keeps (iri : String) : KeepsKeys (fun after _ => SameRecords draft after) (claim server runIri role draft iri) j := by
  unfold claim firstTime
  have asked : KeepsKeys (fun _ _ => True) (ask server (.claim runIri iri role)) j := KeepsKeys.ask rfl (fun _ _ _ _ => trivial)
  apply asked.bind
  intro fresh t _ _
  cases fresh with
  | true => exact KeepsKeys.pure (fun _ _ _ => ⟨rfl, rfl⟩)
  | false => exact KeepsKeys.pure (fun _ _ _ => ⟨rfl, rfl⟩)

/-- A draft that went on from another lists what it did and an answer for each item. -/
def ListsAnswers {Item : Type} (answers : Journal → Item → String → Prop) (items : List Item) (before after : Draft) (j : Journal) :
    Prop :=
  Backed after j ∧ ∃ iris, after.artifacts = before.artifacts ++ iris ∧ List.Forall₂ (answers j) items iris

/-- Items that are named one after the other, each with its claim. -/
theorem named_then {Item : Type} {answers : Journal → Item → String → Prop} {item : Item} {rest : List Item}
    {naming : Handler server (String × Draft)} {later : Draft → Handler server Draft}
    (names : KeepsKeys (fun found t => answers t item found.1 ∧ Backed found.2 t ∧ found.2.artifacts = draft.artifacts) naming j)
    (others : ∀ next t, EverAfter t (Backed next) → KeepsKeys (ListsAnswers answers rest next) (later next) t) :
    KeepsKeys (ListsAnswers answers (item :: rest) draft)
      (naming >>= fun found => claim server runIri role found.2 found.1 >>= fun claimed => later (claimed.add found.1)) j := by
  apply names.bind
  intro found t named here
  apply (claim_keeps found.1).bind
  intro claimed u same next
  have backed : EverAfter u (Backed (claimed.add found.1)) := by
    intro v further inv
    exact (same v further inv).backed (named v (next.trans further) inv).2.1
  apply (others (claimed.add found.1) u backed).weaken
  intro after v further inv holds
  obtain ⟨kept, iris, listed, answered⟩ := holds
  have before := named v (next.trans further) inv
  have claims := same v further inv
  have start : claimed.artifacts = draft.artifacts := claims.1.trans before.2.2
  constructor
  · exact kept
  · exact ⟨found.1 :: iris, by rw [listed]; simp [Draft.add, start], .cons before.1 answered⟩

theorem addEntries_keeps (entries : List (ArtifactIn × Nat)) (backed : EverAfter j (Backed draft)) :
    KeepsKeys (ListsAnswers (EntryAnswers server run) (entries.map Prod.fst) draft)
      (addEntries server draw principal run runIri role draft entries) j := by
  induction entries generalizing draft j with
  | nil =>
    unfold addEntries
    apply KeepsKeys.pure
    intro t later inv
    exact ⟨backed t later inv, [], by simp, .nil⟩
  | cons entry rest ih =>
    obtain ⟨a, place⟩ := entry
    unfold addEntries
    exact named_then (entryIri_keeps a backed) (fun next t backed => ih backed)

/-- What is worked out without a call. -/
theorem KeepsKeys.result {α : Type} {post : α → Journal → Prop} {result : AppResult α}
    (holds : ∀ answer, result = .ok answer → EverAfter j (post answer)) :
    KeepsKeys post (ExceptT.mk (Program.done result) : Handler server α) j := by
  constructor
  intro t later inv answer same
  exact holds answer same t later inv

theorem admitted_keeps {input : AdvertiseIn} : KeepsKeys (fun inst _ => principal.instanceIri = some inst)
    (Api.Calls.admitted server draw principal input role) j := by
  unfold Api.Calls.admitted
  have named : KeepsKeys (fun inst _ => principal.instanceIri = some inst)
      (ExceptT.mk (Program.done (do
        principal.requireScope role.scope
        principal.requireInstance)) : Handler server String) j := by
    apply KeepsKeys.result
    intro inst allowed t _ _
    obtain ⟨_, required⟩ := Library.Results.unit_ok.1 allowed
    exact (Principal.requireInstance_ok.1 required).2
  apply named.bind
  intro inst t bound _
  apply (known_keeps inst).bind
  intro there u _ later
  cases there with
  | true =>
    apply (conforms_keeps _).bind
    intro _ v _ further
    apply KeepsKeys.pure
    intro w last inv
    exact bound w (later.trans (further.trans last)) inv
  | false => exact KeepsKeys.throw

theorem commit_keeps (backed : EverAfter j (Backed draft)) : KeepsKeys (fun _ _ => True) (commit server draft) j := by
  unfold commit
  split
  · exact KeepsKeys.pure (fun _ _ _ => trivial)
  · exact KeepsKeys.applied backed

/-- An advertisement is answered with the run and the artifacts that its keys lead to. -/
theorem advertise_keeps (input : AdvertiseIn) :
    KeepsKeys (fun out t => (∀ inst, principal.instanceIri = some inst → KeyLeads (runKey (runInput server input.run) inst) out.run t) ∧
        List.Forall₂ (EntryAnswers server (runInput server input.run) t) input.artifacts out.artifacts)
      (advertise server draw principal input role) j := by
  unfold advertise
  apply admitted_keeps.bind
  intro inst t bound later
  dsimp only
  have nothing : EverAfter t (Backed {}) := fun _ _ _ _ mem => by cases mem
  apply (resolveRun_keeps nothing).bind
  intro found u resolved further
  have backed : EverAfter u (Backed found.2) := fun v next inv => (resolved v next inv).2.1
  apply (addEntries_keeps input.artifacts.zipIdx backed).bind
  intro draft v added next
  have kept : EverAfter v (Backed draft) := fun w last inv => (added w last inv).1
  apply (commit_keeps kept).bind
  intro _ w _ last
  apply KeepsKeys.pure
  intro x end_ inv
  have run_ := resolved x (next.trans (last.trans end_)) inv
  obtain ⟨_, iris, listed, answered⟩ := added x (last.trans end_) inv
  have named := bound x (further.trans (next.trans (last.trans end_))) inv
  rw [List.zipIdx_map_fst] at answered
  have all : draft.artifacts = iris := by
    rw [listed, run_.2.2]
    rfl
  constructor
  · intro other same
    have inst_ : inst = other := Option.some.inj (named.symm.trans same)
    rw [← inst_]
    exact run_.1
  · dsimp only
    rw [all]
    exact answered

theorem matchSymlink_keeps (names : List String) :
    KeepsKeys (fun found _ => ∀ iri, found = some iri → iri ∈ names) (matchSymlink server names) j := by
  induction names generalizing j with
  | nil =>
    unfold matchSymlink
    exact KeepsKeys.pure (fun _ _ _ _ same => by cases same)
  | cons name rest ih =>
    have here : KeepsKeys (fun found _ => ∀ iri, found = some iri → iri ∈ name :: rest) (pure (some name) : Handler server _) j := by
      apply KeepsKeys.pure
      intro t _ _ iri same
      rw [← Option.some.inj same]
      exact List.mem_cons_self
    have there (t : Journal) : KeepsKeys (fun found _ => ∀ iri, found = some iri → iri ∈ name :: rest) (matchSymlink server rest) t :=
      ih.weaken (fun found u _ _ listed iri same => List.mem_cons_of_mem _ (listed iri same))
    unfold matchSymlink
    split
    · split
      · exact here
      · apply (known_keeps name).bind
        intro described t _ _
        cases described with
        | true =>
          apply KeepsKeys.pure
          intro u _ _ iri same
          rw [← Option.some.inj same]
          exact List.mem_cons_self
        | false => exact there t
    · exact there j

/-- The key of a dataset. -/
def datasetKey (dataset : Json) : Key :=
  .artifact ((Api.Openlineage.textAt dataset ["namespace"]).getD "" ++ "#" ++ (Api.Openlineage.textAt dataset ["name"]).getD "")

/-- What a dataset is answered: one of its symlinks, or the artifact its key leads to. -/
def DatasetAnswers (j : Journal) (dataset : Json) (iri : String) : Prop :=
  iri ∈ Api.Openlineage.symlinks dataset ∨ keyedRecord j (datasetKey dataset) = some iri

theorem mapDataset_keeps (dataset : Json) (backed : EverAfter j (Backed draft)) :
    KeepsKeys (fun found t => DatasetAnswers t dataset found.1 ∧ Backed found.2 t ∧ found.2.artifacts = draft.artifacts)
      (mapDataset server draw principal role draft dataset) j := by
  unfold mapDataset
  apply (matchSymlink_keeps (Api.Openlineage.symlinks dataset)).bind
  intro linked t listed later
  cases linked with
  | some iri =>
    apply KeepsKeys.pure
    intro u further inv
    exact ⟨Or.inl (listed u further inv iri rfl), backed u (later.trans further) inv, rfl⟩
  | none =>
    dsimp only
    have key : Key.artifact ((Api.Openlineage.artifactOf dataset role).externalKey.getD "") = datasetKey dataset := rfl
    apply (lookupArtifact_keeps (some ((Api.Openlineage.artifactOf dataset role).externalKey.getD ""))).bind
    intro found u looked next
    cases found with
    | some iri =>
      apply KeepsKeys.pure
      intro v further inv
      have leads := looked v further inv iri rfl _ rfl
      rw [key] at leads
      exact ⟨Or.inr leads, backed v (later.trans (next.trans further)) inv, rfl⟩
    | none =>
      apply (declared_keeps _).bind
      intro _ v _ further
      apply (rememberArtifact_keeps (mint server.base .artifact (draw.site 0))
        (some ((Api.Openlineage.artifactOf dataset role).externalKey.getD ""))).bind
      intro _ w remembered last
      apply KeepsKeys.pure
      intro x end_ inv
      have found := remembered x end_ inv
      have before : Backed (draft.extend (Artifact.artifactQuads server.platform server.base
          (mint server.base .artifact (draw.site 0)) (draw.site 1) (Api.Openlineage.artifactOf dataset role) principal.subject
          none)) x := backed x (later.trans (next.trans (further.trans (last.trans end_)))) inv
      have leads := found _ rfl
      rw [key] at leads
      exact ⟨Or.inr leads, backed_describe before found, rfl⟩

theorem addDatasets_keeps (entries : List (Json × Nat)) (backed : EverAfter j (Backed draft)) :
    KeepsKeys (ListsAnswers DatasetAnswers (entries.map Prod.fst) draft)
      (addDatasets server draw principal runIri role draft entries) j := by
  induction entries generalizing draft j with
  | nil =>
    unfold addDatasets
    apply KeepsKeys.pure
    intro t later inv
    exact ⟨backed t later inv, [], by simp, .nil⟩
  | cons entry rest ih =>
    obtain ⟨dataset, place⟩ := entry
    unfold addDatasets
    exact named_then (mapDataset_keeps dataset backed) (fun next t backed => ih backed)

theorem ingestAdmitted_keeps : KeepsKeys (fun inst _ => principal.instanceIri = some inst) (ingestAdmitted server principal) j := by
  unfold ingestAdmitted
  have named : KeepsKeys (fun inst _ => principal.instanceIri = some inst)
      (ExceptT.mk (Program.done (do
        principal.requireScope scopeAdvertiseProduce
        principal.requireInstance)) : Handler server String) j := by
    apply KeepsKeys.result
    intro inst allowed t _ _
    obtain ⟨_, required⟩ := Library.Results.unit_ok.1 allowed
    exact (Principal.requireInstance_ok.1 required).2
  apply named.bind
  intro inst t bound _
  apply (known_keeps inst).bind
  intro there u _ later
  cases there with
  | true =>
    apply KeepsKeys.pure
    intro v further inv
    exact bound v (later.trans further) inv
  | false => exact KeepsKeys.throw

/-- An ingested event is answered with the run and the artifacts that its keys lead to. -/
theorem ingest_keeps (event : Json) :
    KeepsKeys (fun out t => (∀ inst, principal.instanceIri = some inst →
          KeyLeads (runKey (Api.Openlineage.runOf server event) inst) out.run t) ∧
        List.Forall₂ (DatasetAnswers t) (Api.Openlineage.datasets event "outputs") out.produced ∧
        List.Forall₂ (DatasetAnswers t) (Api.Openlineage.datasets event "inputs") out.consumed)
      (ingest server draw principal event) j := by
  unfold ingest
  apply ingestAdmitted_keeps.bind
  intro inst t bound later
  have nothing : EverAfter t (Backed {}) := fun _ _ _ _ mem => by cases mem
  apply (resolveRun_keeps nothing).bind
  intro found u resolved further
  dsimp only
  have backed : EverAfter u (Backed (found.2.extend
      (describeLocal found.1 (Api.Openlineage.payloadStatements server event)))) :=
    fun v next inv => (resolved v next inv).2.1
  apply (addDatasets_keeps (Api.Openlineage.datasets event "outputs").zipIdx backed).bind
  intro outputs v produced next
  have between : EverAfter v (Backed { outputs with artifacts := [] }) := fun w last inv => (produced w last inv).1
  apply (addDatasets_keeps (Api.Openlineage.datasets event "inputs").zipIdx between).bind
  intro draft w consumed last
  have kept : EverAfter w (fun x => LeadsTo x draft.described) := fun x more inv => (consumed x more inv).1
  apply (KeepsKeys.applied kept).bind
  intro _ x _ written
  apply KeepsKeys.pure
  intro y end_ inv
  have run_ := resolved y (next.trans (last.trans (written.trans end_))) inv
  obtain ⟨_, made, listedMade, answeredMade⟩ := produced y (last.trans (written.trans end_)) inv
  obtain ⟨_, used, listedUsed, answeredUsed⟩ := consumed y (written.trans end_) inv
  have named := bound y (further.trans (next.trans (last.trans (written.trans end_)))) inv
  rw [List.zipIdx_map_fst] at answeredMade answeredUsed
  have start : outputs.artifacts = made := by
    rw [listedMade]
    have empty : (found.2.extend (describeLocal found.1 (Api.Openlineage.payloadStatements server event))).artifacts = [] :=
      run_.2.2
    rw [empty, List.nil_append]
  refine ⟨?_, ?_, ?_⟩
  · intro other same
    have inst_ : inst = other := Option.some.inj (named.symm.trans same)
    rw [← inst_]
    exact run_.1
  · dsimp only
    rw [start]
    exact answeredMade
  · dsimp only
    rw [listedUsed, List.nil_append]
    exact answeredUsed

end Requests

/-- A request that describes runs and artifacts. -/
inductive Posted where
  | advertise (draw : Draw) (principal : Principal) (input : AdvertiseIn) (role : Role)
  | ingest (draw : Draw) (principal : Principal) (event : Json)

/-- The answer to one, with the request. -/
inductive Reply where
  | advertised (principal : Principal) (input : AdvertiseIn) (answer : AppResult AdvertiseOut)
  | ingested (principal : Principal) (event : Json) (answer : AppResult Api.Openlineage.Ingested)

section Interleavings

variable (server : Server)

def Posted.program : Posted → Program (desk server) Reply
  | .advertise draw principal input role =>
    (Api.Calls.advertise server draw principal input role).run >>= fun answer => .done (.advertised principal input answer)
  | .ingest draw principal event =>
    (Api.Calls.ingest server draw principal event).run >>= fun answer => .done (.ingested principal event answer)

/-- A request comes in, or one under way makes its next call. -/
inductive KeyMove where
  | post (posted : Posted)
  | next (place : Nat)

def KeyMove.turn : KeyMove → Turn (desk server) Reply
  | .post posted => .start (posted.program server)
  | .next place => .next place

/-- The requests under way, from nothing committed. -/
def interleaved (start : State) (moves : List KeyMove) : Pool (desk server) Reply :=
  run Pool.step ⟨⟨start, []⟩, []⟩ (moves.map (KeyMove.turn server))

/-- The key a call is about to take leads nowhere: no other request has taken it since this one looked. -/
def Unraced (pool : Pool (desk server) Reply) : Turn (desk server) Reply → Prop
  | .start _ => True
  | .next place => ∀ c, pool.Calls place c → VacantKey pool.state c

/-- Whether the next call at a place takes no key that leads anywhere. -/
def freeAt (pool : Pool (desk server) Reply) (place : Nat) : Bool :=
  match (pool.running[place]?).bind Program.next? with
  | none => true
  | some c => (takesKey c).all (fun key => (keyedRecord pool.state key).isNone)

theorem unraced_iff_free (pool : Pool (desk server) Reply) (place : Nat) :
    Unraced server pool (.next place) ↔ freeAt server pool place = true := by
  have calls (c : Api.Calls.Call) : pool.Calls place c ↔ (pool.running[place]?).bind Program.next? = some c := by
    rw [Option.bind_eq_some_iff]
    rfl
  unfold Unraced freeAt
  simp only [calls]
  cases (pool.running[place]?).bind Program.next? with
  | none => simp
  | some c =>
    simp only [Option.some.injEq, forall_eq', VacantKey]
    cases takesKey c with
    | none => simp
    | some key => simp

instance (pool : Pool (desk server) Reply) : (turn : Turn (desk server) Reply) → Decidable (Unraced server pool turn)
  | .start _ => isTrue trivial
  | .next place => decidable_of_iff _ (unraced_iff_free server pool place).symm

/-- An answer names the records that the keys of its request lead to. -/
def NamesRecords (j : Journal) : Reply → Prop
  | .advertised principal input (.ok out) =>
    (∀ inst, principal.instanceIri = some inst → KeyLeads (runKey (runInput server input.run) inst) out.run j) ∧
      List.Forall₂ (EntryAnswers server (runInput server input.run) j) input.artifacts out.artifacts
  | .ingested principal event (.ok out) =>
    (∀ inst, principal.instanceIri = some inst → KeyLeads (runKey (Api.Openlineage.runOf server event) inst) out.run j) ∧
      List.Forall₂ (DatasetAnswers j) (Api.Openlineage.datasets event "outputs") out.produced ∧
      List.Forall₂ (DatasetAnswers j) (Api.Openlineage.datasets event "inputs") out.consumed
  | .advertised _ _ (.error _) => True
  | .ingested _ _ (.error _) => True

variable {server}

theorem posted_keeps (posted : Posted) (j : Journal) :
    (keying server).Holds (fun reply t => NamesRecords server t reply) (posted.program server) j := by
  cases posted with
  | advertise draw principal input role =>
    apply Contract.Holds.bind (advertise_keeps input).holds
    intro answer t holds _ u further inv
    cases answer with
    | error e => trivial
    | ok out => exact holds u further inv out rfl
  | ingest draw principal event =>
    apply Contract.Holds.bind (ingest_keeps event).holds
    intro answer t holds _ u further inv
    cases answer with
    | error e => trivial
    | ok out => exact holds u further inv out rfl

theorem allowed_of_unraced (moves : List KeyMove) (pool : Pool (desk server) Reply)
    (unraced : Meets Pool.step (Unraced server) pool (moves.map (KeyMove.turn server))) :
    Meets Pool.step (Pool.Allowed (keying server) (fun reply t => NamesRecords server t reply)) pool (moves.map (KeyMove.turn server)) := by
  induction moves generalizing pool with
  | nil => trivial
  | cons move rest ih =>
    obtain ⟨here, later⟩ := unraced
    refine ⟨?_, ih _ later⟩
    cases move with
    | post posted => exact fun j _ => posted_keeps posted j
    | next place => exact fun p found c calls => here c ⟨p, found, calls⟩

theorem interleaved_kept {start : State} {moves : List KeyMove}
    (unraced : Meets Pool.step (Unraced server) ⟨⟨start, []⟩, []⟩ (moves.map (KeyMove.turn server))) :
    (interleaved server start moves).Kept (keying server) (fun reply t => NamesRecords server t reply) := by
  apply Pool.run_kept
  · constructor
    · exact fun entry mem => by cases mem
    · exact fun p mem => by cases mem
  · exact allowed_of_unraced moves _ unraced

end Interleavings

/-- However the calls of any advertisements and ingested events fall, as long as none takes a key that another has taken since
it looked: one record at most is committed under a key, and every answer names it. -/
theorem one_record_per_key (server : Server) (start : State) (moves : List KeyMove)
    (unraced : Meets Pool.step (Unraced server) ⟨⟨start, []⟩, []⟩ (moves.map (KeyMove.turn server))) :
    (∀ key iri other, (key, iri) ∈ (interleaved server start moves).state.committed →
      (key, other) ∈ (interleaved server start moves).state.committed → iri = other) ∧
    (∀ key iri, (key, iri) ∈ (interleaved server start moves).state.committed →
      keyedRecord (interleaved server start moves).state key = some iri) ∧
    ∀ p ∈ (interleaved server start moves).running, ∀ reply, p.answer? = some reply →
      NamesRecords server (interleaved server start moves).state reply := by
  have kept := interleaved_kept unraced
  have inv : LeadsTo (interleaved server start moves).state (interleaved server start moves).state.committed := kept.1
  refine ⟨?_, fun key iri mem => inv (key, iri) mem, fun p mem reply finished => Pool.answered kept mem finished⟩
  intro key iri other one another
  exact Option.some.inj ((inv (key, iri) one).symm.trans (inv (key, other) another))

section Specimen

open Specimen

/-- An advertisement of the run "r". -/
def ofRun (label : String) : KeyMove := .post (.advertise (draw label) builder { run := { externalKey := some "r" } } .produced)

/-- The second advertisement looks for the run after the first has taken its key, and before it is committed. -/
def overlappingKeys : List KeyMove :=
  [ofRun "a", ofRun "b"] ++ List.replicate 4 (.next 0) ++ List.replicate 5 (.next 1) ++ [.next 0]

/-- Both look for the run before either takes its key. -/
def racingKeys : List KeyMove :=
  [ofRun "a", ofRun "b"] ++ List.replicate 3 (.next 0) ++ List.replicate 5 (.next 1) ++ List.replicate 2 (.next 0)

theorem overlapping_one_record : keyedRecord (interleaved (registry []) yard overlappingKeys).state
    (.run "r" "https://reg.example/instance/ia") = some "https://reg.example/run/aba" :=
  (one_record_per_key (registry []) yard overlappingKeys (by decide)).2.1 _ _ (by decide)

/-- Two runs are committed under one key. -/
theorem racing_two_records : (interleaved (registry []) yard racingKeys).state.committed =
    [(.run "r" "https://reg.example/instance/ia", "https://reg.example/run/bba"),
      (.run "r" "https://reg.example/instance/ia", "https://reg.example/run/aba")] := by
  decide

end Specimen

end ToolArtifactRegistry.Laws
