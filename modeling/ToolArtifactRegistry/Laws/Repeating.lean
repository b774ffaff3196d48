import ToolArtifactRegistry.Api.Identities
import ToolArtifactRegistry.Laws.Outcomes
import ToolArtifactRegistry.RegistryTokens

/-! The same advertisement, posted again and again. Its run and its artifacts are the ones it had, and the graph
stays as the first left it. -/
namespace ToolArtifactRegistry.Laws

open Library.Rdf Library.Runs Library.Results Library.Serde Ids Model Store Rdf Build Domain Registry
open Auth hiding Role
open Api.Advertise (Role Progress advertise resolveRun addEntry addEntries runInput nonEmptyKey conclude candidate outcomeVocabulary)
open Api.Identities (entryIdentity)
open Api.Repeats (Readable Replaced Grown outcomeTx outcomeStatements replacedBy)

section Rows

variable {server : Server}

/-- Where the run that a request mints is put. -/
def mintedRun (server : Server) : Event → Option String
  | .request _ draw (.advertise _ _) => some (mint server.base .run ((draw.site 1).site 0))
  | .request _ draw (.ingest _) => some (mint server.base .run ((draw.site 0).site 0))
  | _ => none

/-- The IRI drawn for the run of a request is one that nothing is said of. -/
def Unforeseen (server : Server) (state : State) (event : Event) : Prop :=
  ∀ runIri, mintedRun server event = some runIri → ∀ quad ∈ state.data, quad.subject ≠ .named runIri

instance (server : Server) (state : State) (event : Event) : Decidable (Unforeseen server state event) :=
  inferInstanceAs (Decidable (∀ runIri, mintedRun server event = some runIri → _))

/-- No run is known by the IRI of the deployment it ran on. -/
def RunsApart (state : State) : Prop := ∀ key inst runIri, state.ops.runForKey key inst = some runIri → runIri ≠ inst

theorem RunsApart.congr {before after : State} (apart : RunsApart before) (same : after.ops.runKeys = before.ops.runKeys) :
    RunsApart after := by
  intro key inst runIri known
  unfold Ops.runForKey at known
  rw [same] at known
  exact apart key inst runIri known

theorem resolveRun_rows {draw : Draw} {principal : Principal} {inst key theirs runIri : String} {run : RunIn} {p : Progress}
    (known : (resolveRun server draw principal inst run p).2.ops.runForKey key theirs = some runIri) :
    p.ops.runForKey key theirs = some runIri ∨ (theirs = inst ∧ runIri = mint server.base .run (draw.site 0)) := by
  unfold resolveRun at known
  cases found : (nonEmptyKey run).bind (fun key => p.ops.runForKey key inst) with
  | some iri =>
    rw [found] at known
    exact Or.inl known
  | none =>
    rw [found] at known
    cases keyed : nonEmptyKey run with
    | none =>
      rw [keyed] at known
      exact Or.inl known
    | some own =>
      rw [keyed] at known
      have row : (p.ops.rememberRun own inst (mint server.base .run (draw.site 0))).runForKey key theirs = some runIri := known
      unfold Ops.runForKey Ops.rememberRun at row
      rw [Ops.lookup_remember] at row
      unfold Ops.runForKey
      cases before : Ops.lookup p.ops.runKeys (key, theirs) with
      | some iri =>
        rw [before] at row
        exact Or.inl row
      | none =>
        rw [before, Option.none_or] at row
        split at row
        · next same =>
          right
          exact ⟨(Prod.ext_iff.1 same).2, (Option.some.inj row).symm⟩
        · cases row

theorem described_of_exists {platform : Platform} {data : Dataset} {iri : String}
    (there : exists_ platform data iri = .ok true) : ∃ quad ∈ data, quad.subject = .named iri := by
  unfold exists_ at there
  split at there
  · have some_ := Except.ok.inj there
    rw [Dataset.any_eq_true] at some_
    obtain ⟨quad, held, hit⟩ := some_
    exact ⟨quad, held, by simpa [Store.about] using hit⟩
  · cases there

theorem exists_of_described {platform : Platform} {before after : Dataset} {iri : String} {quad : Quad}
    (there : exists_ platform before iri = .ok true) (held : quad ∈ after) (subject : quad.subject = .named iri) :
    exists_ platform after iri = .ok true := by
  unfold exists_ at there ⊢
  split at there
  · next valid =>
    rw [if_pos valid, Dataset.any_eq_true.2 ⟨quad, held, by simp [Store.about, subject]⟩]
  · cases there

theorem resolved_apart {draw : Draw} {principal : Principal} {inst : String} {run : RunIn} {state : State}
    (apart : RunsApart state) (there : exists_ server.platform state.data inst = .ok true)
    (unforeseen : ∀ quad ∈ state.data, quad.subject ≠ .named (mint server.base .run (draw.site 0))) :
    RunsApart { state with ops := (resolveRun server draw principal inst run { ops := state.ops }).2.ops } := by
  intro key theirs runIri known
  rcases resolveRun_rows known with before | ⟨here, minted⟩
  · exact apart key theirs runIri before
  · intro same
    obtain ⟨quad, held, subject⟩ := described_of_exists there
    exact unforeseen quad held (by rw [subject, ← minted, same, here])

theorem known_of_admitted {draw : Draw} {principal : Principal} {input : AdvertiseIn} {role : Role} {data : Dataset} {inst : String}
    (admitted : Api.Advertise.admitted server data draw principal input role = .ok inst) :
    exists_ server.platform data inst = .ok true := by
  unfold Api.Advertise.admitted at admitted
  obtain ⟨_, _, rest⟩ := bind_ok.1 admitted
  obtain ⟨named, _, rest⟩ := bind_ok.1 rest
  obtain ⟨there, known, rest⟩ := bind_ok.1 rest
  cases there with
  | true =>
    obtain ⟨_, _, rest⟩ := bind_ok.1 rest
    have same : named = inst := Except.ok.inj rest
    rw [← same]
    exact known
  | false => cases rest

theorem known_of_ingested {principal : Principal} {data : Dataset} {inst : String}
    (admitted : Api.Openlineage.admitted server data principal = .ok inst) : exists_ server.platform data inst = .ok true := by
  unfold Api.Openlineage.admitted at admitted
  obtain ⟨_, _, rest⟩ := bind_ok.1 admitted
  obtain ⟨named, _, rest⟩ := bind_ok.1 rest
  obtain ⟨there, known, rest⟩ := bind_ok.1 rest
  cases there with
  | true =>
    have same : named = inst := Except.ok.inj rest
    rw [← same]
    exact known
  | false => cases rest

theorem mapDataset_runs {data : Dataset} {draw : Draw} {principal : Principal} {role : Role} (p : Progress) (dataset : Json) :
    (Api.Openlineage.mapDataset server data draw principal role p dataset).2.ops.runKeys = p.ops.runKeys := by
  unfold Api.Openlineage.mapDataset
  split
  · rfl
  · rfl
  · dsimp only
    split
    · rfl
    · split <;> rfl

theorem addDatasets_runs {data : Dataset} {draw : Draw} {principal : Principal} {runIri : String} {role : Role} (p : Progress)
    (entries : List Json) :
    (Api.Openlineage.addDatasets server data draw principal runIri role p entries).ops.runKeys = p.ops.runKeys := by
  unfold Api.Openlineage.addDatasets
  generalize entries.zipIdx = numbered
  induction numbered generalizing p with
  | nil => rfl
  | cons entry rest ih =>
    rw [List.foldl_cons, ih]
    have mapped := @mapDataset_runs server data (draw.site entry.2) principal role p entry.1
    unfold Api.Openlineage.addDataset
    split
    · rfl
    · generalize Api.Openlineage.mapDataset server data (draw.site entry.2) principal role p entry.1 = found at mapped
      obtain ⟨iri, next⟩ := found
      cases iri with
      | none => exact mapped
      | some iri => exact (Api.Repeats.claim_moves server.platform next runIri iri role).runs.trans mapped

theorem advertised_apart {state : State} {draw : Draw} {principal : Principal} {input : AdvertiseIn} {role : Role}
    (apart : RunsApart state)
    (unforeseen : ∀ quad ∈ state.data, quad.subject ≠ .named (mint server.base .run ((draw.site 1).site 0))) :
    RunsApart (advertise server state draw principal input role).state := by
  unfold advertise Outcome.planned
  cases admitted : Api.Advertise.admitted server state.data (draw.site 0) principal input role with
  | error e => exact apart
  | ok inst =>
    have resolved := @resolved_apart server (draw.site 1) principal inst (runInput server input.run) state apart
      (known_of_admitted admitted) unforeseen
    dsimp only
    generalize resolveRun server (draw.site 1) principal inst (runInput server input.run) { ops := state.ops } = start at resolved ⊢
    have moved := @Api.Repeats.addEntries_moves server state.data (draw.site 2) principal (runInput server input.run) start.1 role
      start.2 input.artifacts
    apply resolved.congr
    rw [Api.Identities.conclude_ops]
    exact moved.runs

theorem ingested_apart {state : State} {draw : Draw} {principal : Principal} {event : Json} (apart : RunsApart state)
    (unforeseen : ∀ quad ∈ state.data, quad.subject ≠ .named (mint server.base .run ((draw.site 0).site 0))) :
    RunsApart (Api.Openlineage.ingest server state draw principal event).state := by
  unfold Api.Openlineage.ingest Outcome.planned
  cases admitted : Api.Openlineage.admitted server state.data principal with
  | error e => exact apart
  | ok inst =>
    have resolved := @resolved_apart server (draw.site 0) principal inst (Api.Openlineage.runOf server event) state apart
      (known_of_ingested admitted) unforeseen
    dsimp only
    generalize resolveRun server (draw.site 0) principal inst (Api.Openlineage.runOf server event) { ops := state.ops } =
      start at resolved ⊢
    apply resolved.congr
    have outputs := @addDatasets_runs server state.data (draw.site 1) principal start.1 .produced
      (start.2.extend (describeLocal start.1 (Api.Openlineage.payloadStatements server event)))
      (Api.Openlineage.datasets event "outputs")
    generalize Api.Openlineage.addDatasets server state.data (draw.site 1) principal start.1 .produced _ _ = q at outputs ⊢
    have inputs := @addDatasets_runs server state.data (draw.site 2) principal start.1 .consumed { q with artifacts := [] }
      (Api.Openlineage.datasets event "inputs")
    generalize Api.Openlineage.addDatasets server state.data (draw.site 2) principal start.1 .consumed _ _ = p at inputs ⊢
    have rows : p.ops.runKeys = start.2.ops.runKeys := inputs.trans outputs
    split
    · exact rows
    · unfold Outcome.commit
      split <;> exact rows

/-- Each request and each background step keeps the runs and the deployments apart. -/
theorem step_apart {state : State} {event : Event} (apart : RunsApart state) (unforeseen : Unforeseen server state event) :
    RunsApart (Registry.step server state event) := by
  by_cases other : ∀ credential draw action, event ≠ .request credential draw action
  · obtain ⟨peers, queue, same⟩ := @background_ops server state event other
    apply apart.congr
    rw [same]
  · simp only [not_forall, not_not] at other
    obtain ⟨credential, draw, action, rfl⟩ := other
    simp only [Registry.step, requested]
    cases principalOf server state draw.now credential with
    | error e => exact apart
    | ok principal =>
      dsimp only
      by_cases quiet : writesKeys action = false
      · obtain ⟨tokens, peers, same⟩ := @perform_tables server state draw principal action quiet
        apply apart.congr
        rw [same]
      · cases action with
        | advertise input role => exact advertised_apart apart (unforeseen _ rfl)
        | ingest event => exact ingested_apart apart (unforeseen _ rfl)
        | createArtifact input =>
          apply apart.congr
          rcases @createArtifact_ops server state draw principal input with same | ⟨key, remembered⟩
          · exact congrArg Ops.runKeys same
          · have rows := congrArg Ops.runKeys remembered
            exact rows
        | _ => exact absurd rfl quiet

theorem run_apart {history : List Event} (unforeseen : Meets (Registry.step server) (Unforeseen server) State.empty history) :
    RunsApart (run (Registry.step server) State.empty history) := by
  apply run_invariant (Registry.step server) RunsApart
  · intro key inst runIri known
    cases known
  · exact fun state event => step_apart
  · exact unforeseen

end Rows

section Entries

variable {server : Server} {data : Dataset}

/-- An entry has its artifact, and its link to the run is claimed. -/
structure Placed (server : Server) (run : RunIn) (runIri : String) (role : Role) (ops : Ops) (a : ArtifactIn) (iri : String) :
    Prop where
  readable : Readable server a
  stands : (entryIdentity server run a).Stands ops.artifactForKey iri
  claimed : Ops.idemKey runIri iri role.asStr ∈ ops.advertised

theorem Placed.grown {run : RunIn} {runIri : String} {role : Role} {before after : Ops} {a : ArtifactIn} {iri : String}
    (placed : Placed server run runIri role before a iri) (grown : Grown before after) :
    Placed server run runIri role after a iri where
  readable := placed.readable
  stands := placed.stands.mono (fun _ _ held => grown.artifacts held)
  claimed := grown.claims placed.claimed

variable {principal : Principal} {run : RunIn} {runIri : String} {role : Role}

theorem describeArtifact_lists {draw : Draw} (p : Progress) (a : ArtifactIn) :
    (Api.Advertise.describeArtifact server data draw principal run runIri role p a).2.artifacts = p.artifacts ∧
      ((Api.Advertise.describeArtifact server data draw principal run runIri role p a).1 = none →
        (Api.Advertise.describeArtifact server data draw principal run runIri role p a).2.failed.isSome = true) := by
  unfold Api.Advertise.describeArtifact
  split
  · exact ⟨rfl, nofun⟩
  · dsimp only
    have parents := @Api.Identities.references_keys server data a.wasDerivedFrom (p.extend
      (Artifact.artifactQuads server.platform server.base (mint server.base .artifact (draw.site 0)) (draw.site 1) a
        principal.subject (if role = .produced then some runIri else none)))
    generalize a.wasDerivedFrom.foldl _ _ = q at parents ⊢
    by_cases stopped : q.failed.isSome = true
    · rw [if_pos stopped]
      exact ⟨parents.2, fun _ => stopped⟩
    · rw [if_neg stopped]
      refine ⟨?_, nofun⟩
      dsimp only
      split <;> exact parents.2

theorem entryIri_lists {draw : Draw} (p : Progress) (a : ArtifactIn) :
    (Api.Advertise.entryIri server data draw principal run runIri role p a).2.artifacts = p.artifacts ∧
      ((Api.Advertise.entryIri server data draw principal run runIri role p a).1 = none →
        (Api.Advertise.entryIri server data draw principal run runIri role p a).2.failed.isSome = true) := by
  unfold Api.Advertise.entryIri
  cases nonEmpty a.iri with
  | none => exact describeArtifact_lists p a
  | some iri =>
    have referenced := @Api.Identities.reference_keys server data p iri
    refine ⟨referenced.2, ?_⟩
    dsimp only
    by_cases stopped : (Api.Advertise.reference server data p iri).failed.isSome = true
    · exact fun _ => stopped
    · rw [if_neg stopped]
      exact nofun

/-- An entry that is added is placed. -/
theorem addEntry_placed {draw : Draw} {p : Progress} {a : ArtifactIn} (keyed : run.externalKey.isSome = true)
    (working : (addEntry server data draw principal run runIri role p a).failed = none) :
    ∃ iri, Placed server run runIri role (addEntry server data draw principal run runIri role p a).ops a iri ∧
      (addEntry server data draw principal run runIri role p a).artifacts = p.artifacts ++ [iri] := by
  have named := @Api.Repeats.entryIri_stands server data draw principal run runIri role p a
  have lists := @entryIri_lists server data principal run runIri role draw p a
  rw [Api.Calls.addEntry_eq] at working ⊢
  by_cases stopped : p.failed.isSome = true
  · rw [if_pos stopped] at working
    rw [working] at stopped
    cases stopped
  · rw [if_neg stopped] at working ⊢
    generalize Api.Advertise.entryIri server data draw principal run runIri role p a = found at named lists working ⊢
    obtain ⟨iri, next⟩ := found
    cases iri with
    | none =>
      have failing := lists.2 rfl
      have none_ : next.failed = none := working
      rw [none_] at failing
      cases failing
    | some iri =>
      obtain ⟨readable, stands⟩ := named keyed rfl
      have moved := Api.Repeats.claim_moves server.platform next runIri iri role
      have table := Api.Identities.claim_keys server.platform next runIri iri role
      refine ⟨iri, ⟨readable, ?_, ?_⟩, ?_⟩
      · exact stands.mono (fun _ _ held => moved.ops.artifacts held)
      · have claimed := Api.Repeats.claimed next.ops runIri iri role.asStr
        have rows : (next.claim server.platform runIri iri role).ops = (next.ops.claimAdvertisement runIri iri role.asStr).2 := by
          unfold Progress.claim
          dsimp only
          split <;> rfl
        show _ ∈ (next.claim server.platform runIri iri role).ops.advertised
        rw [rows]
        exact claimed
      · show (next.claim server.platform runIri iri role).artifacts ++ [iri] = p.artifacts ++ [iri]
        rw [table.2, lists.1]

/-- Entries that are added are placed, and stay placed to the end. -/
theorem fold_placed {draw : Draw} (keyed : run.externalKey.isSome = true) (numbered : List (ArtifactIn × Nat)) (p : Progress)
    (working : (numbered.foldl (fun p entry => addEntry server data (draw.site entry.2) principal run runIri role p entry.1)
      p).failed = none) :
    ∃ iris, List.Forall₂ (Placed server run runIri role (numbered.foldl (fun p entry =>
        addEntry server data (draw.site entry.2) principal run runIri role p entry.1) p).ops) (numbered.map Prod.fst) iris ∧
      (numbered.foldl (fun p entry => addEntry server data (draw.site entry.2) principal run runIri role p entry.1)
        p).artifacts = p.artifacts ++ iris := by
  induction numbered generalizing p with
  | nil => exact ⟨[], .nil, by simp⟩
  | cons entry rest ih =>
    rw [List.foldl_cons] at working ⊢
    have here : (addEntry server data (draw.site entry.2) principal run runIri role p entry.1).failed = none := by
      by_contra stopped
      have isSome := Option.isSome_iff_ne_none.2 stopped
      rw [Api.Calls.foldl_failed (fun q item stopped => by simp [addEntry, stopped]) rest isSome] at working
      exact stopped working
    obtain ⟨iri, placed, first⟩ := addEntry_placed keyed here
    obtain ⟨iris, others, listed⟩ := ih _ working
    have later := @Api.Repeats.fold_moves server data draw principal run runIri role rest
      (addEntry server data (draw.site entry.2) principal run runIri role p entry.1)
    refine ⟨iri :: iris, ?_, ?_⟩
    · rw [List.map_cons]
      exact .cons (placed.grown later.ops) others
    · rw [listed, first, List.append_assoc]
      rfl

theorem addEntries_placed {draw : Draw} (keyed : run.externalKey.isSome = true) (entries : List ArtifactIn) {p : Progress}
    (nothing : p.artifacts = [])
    (working : (addEntries server data draw principal run runIri role p entries).failed = none) :
    List.Forall₂ (Placed server run runIri role (addEntries server data draw principal run runIri role p entries).ops) entries
      (addEntries server data draw principal run runIri role p entries).artifacts := by
  obtain ⟨iris, placed, listed⟩ := fold_placed keyed entries.zipIdx p working
  unfold addEntries
  rw [listed, nothing, List.nil_append]
  rw [List.zipIdx_map_fst] at placed
  exact placed

/-- An entry that is placed is given its artifact again, and nothing more is said. -/
theorem addEntry_again {draw : Draw} {p : Progress} {a : ArtifactIn} {iri : String} (working : p.failed = none)
    (placed : Placed server run runIri role p.ops a iri) :
    ∃ ops queued, Grown p.ops ops ∧ addEntry server data draw principal run runIri role p a =
      { p with ops, queued, artifacts := p.artifacts ++ [iri] } := by
  obtain ⟨ops, queued, grown, again⟩ := @Api.Repeats.entryIri_again server data draw principal run runIri role p a iri working
    placed.readable placed.stands
  refine ⟨ops, queued, grown, ?_⟩
  have claimed : ({ p with ops, queued } : Progress).claim server.platform runIri iri role = { p with ops, queued } :=
    Api.Repeats.claim_again (grown.claims placed.claimed)
  have going : ¬p.failed.isSome = true := by simp [working]
  unfold addEntry
  rw [if_neg going, again]
  dsimp only
  rw [claimed]

theorem fold_again {draw : Draw} (numbered : List (ArtifactIn × Nat)) {p : Progress} {iris : List String}
    (working : p.failed = none) (placed : List.Forall₂ (Placed server run runIri role p.ops) (numbered.map Prod.fst) iris) :
    ∃ ops queued, Grown p.ops ops ∧ numbered.foldl (fun p entry =>
        addEntry server data (draw.site entry.2) principal run runIri role p entry.1) p =
      { p with ops, queued, artifacts := p.artifacts ++ iris } := by
  induction numbered generalizing p iris with
  | nil =>
    cases placed
    exact ⟨p.ops, p.queued, Grown.refl _, by simp⟩
  | cons entry rest ih =>
    rw [List.map_cons] at placed
    obtain _ | ⟨first, others⟩ := placed
    obtain ⟨ops, queued, grown, added⟩ := @addEntry_again server data principal run runIri role (draw.site entry.2) p entry.1 _
      working first
    rw [List.foldl_cons, added]
    obtain ⟨last, lastQueued, further, done⟩ := ih (p := { p with ops, queued, artifacts := p.artifacts ++ [_] }) working
      (others.imp (fun _ _ here => here.grown grown))
    refine ⟨last, lastQueued, grown.trans further, ?_⟩
    rw [done]
    simp

end Entries

section Settling

variable {server : Server} {ad : Advertisement} {inst : String} {out : AdvertiseOut} {state : State}

/-- The advertisement once more. -/
def Advertisement.again (ad : Advertisement) (draw : Draw) : Advertisement := { ad with draw }

/-- The IRIs of the registry itself parse: its graph, the predicates of an outcome, and the run it mints. -/
structure Parses (server : Server) (ad : Advertisement) : Prop where
  graph : server.platform.validIri Ns.gLocal = true
  outcome : ∀ predicate ∈ outcomeVocabulary, server.platform.validIri predicate = true
  minted : server.platform.validIri (ad.mints server) = true

/-- The run of an advertisement is known and reported as it says, its entries are placed, and an update of the run would
be written. -/
structure SettledAd (server : Server) (ad : Advertisement) (inst : String) (out : AdvertiseOut) (state : State) : Prop where
  known : (nonEmptyKey (ad.run server)).bind (fun key => state.ops.runForKey key inst) = some out.run
  reported : Api.Repeats.Reported server.platform state.data out.run (ad.run server)
  placed : List.Forall₂ (Placed server (ad.run server) out.run ad.role state.ops) ad.input.artifacts out.artifacts
  writable : ∀ reference ∈ (outcomeTx server.platform out.run (ad.run server)).references,
    server.platform.validIri reference = true

theorem mem_effect_empty {data : Dataset} {tx : GraphTx} (nothing : tx.isEmpty = true) (quad : Quad) :
    quad ∈ effect data tx ↔ quad ∈ data := by
  simp only [GraphTx.isEmpty, Bool.and_eq_true, List.isEmpty_iff] at nothing
  obtain ⟨⟨⟨inserts, subjects⟩, properties⟩, graphs⟩ := nothing
  rw [Api.Repeats.mem_effect_properties graphs subjects, properties, inserts]
  simp

/-- A progress that is answered was written. -/
theorem conclude_written {α : Type} {p : Progress} {answer found : α}
    (answered : (conclude server state p answer).response = .ok found) :
    (∀ quad, quad ∈ (conclude server state p answer).state.data ↔ quad ∈ effect state.data p.tx) ∧
      (p.tx.isEmpty = false → ∀ reference ∈ p.tx.references, server.platform.validIri reference = true) := by
  obtain ⟨working, _⟩ := Api.Identities.conclude_ok answered
  unfold conclude at answered ⊢
  rw [working] at answered ⊢
  dsimp only at answered ⊢
  by_cases nothing : p.tx.isEmpty = true
  · rw [if_pos nothing]
    refine ⟨fun quad => (mem_effect_empty nothing quad).symm, fun some_ => ?_⟩
    rw [nothing] at some_
    cases some_
  · rw [if_neg nothing] at answered ⊢
    unfold Outcome.commit at answered ⊢
    cases written : Store.apply server.platform state.data p.tx with
    | error e =>
      rw [written] at answered
      cases answered
    | ok data =>
      refine ⟨fun quad => by rw [apply_ok written], fun _ reference mem => ?_⟩
      unfold Store.apply at written
      split at written
      · cases written
      · next none_ =>
        have fits := List.find?_eq_none.1 none_ reference mem
        simpa using fits

/-- And one that can be written is answered. -/
theorem conclude_writes {α : Type} {p : Progress} (answer : α) (working : p.failed = none)
    (writable : ∀ reference ∈ p.tx.references, server.platform.validIri reference = true) :
    (conclude server state p answer).response = .ok answer := by
  unfold conclude
  rw [working]
  dsimp only
  by_cases nothing : p.tx.isEmpty = true
  · rw [if_pos nothing]
  · rw [if_neg nothing]
    have accepted : p.tx.references.find? (fun iri => !server.platform.validIri iri) = none :=
      List.find?_eq_none.2 (fun reference mem => by simp [writable reference mem])
    unfold Outcome.commit Store.apply
    rw [accepted]

theorem outcome_writable {runIri : String} {run : RunIn} (graph : server.platform.validIri Ns.gLocal = true)
    (outcome : ∀ predicate ∈ outcomeVocabulary, server.platform.validIri predicate = true)
    (named : server.platform.validIri runIri = true) :
    ∀ reference ∈ (outcomeTx server.platform runIri run).references, server.platform.validIri reference = true := by
  intro reference mem
  rw [Api.Repeats.outcomeTx_eq] at mem
  simp only [GraphTx.references, List.flatMap_nil, List.nil_append, List.append_nil, List.mem_flatMap, List.mem_map] at mem
  obtain ⟨target, ⟨predicate, replaced, rfl⟩, mem⟩ := mem
  simp only [List.mem_cons, List.not_mem_nil, or_false] at mem
  rcases mem with rfl | rfl | rfl
  · exact named
  · exact outcome reference (Api.Repeats.replacedBy_outcome replaced)
  · exact graph

theorem mem_effect_extend {data : Dataset} {tx : GraphTx} {quads : List Quad} {quad : Quad} :
    quad ∈ effect data (tx.extend quads) ↔ quad ∈ effect data tx ∨ quad ∈ quads := by
  unfold effect GraphTx.extend
  rw [Dataset.mem_extend, Dataset.mem_extend, List.mem_append, or_assoc]

theorem resolveRun_known {draw : Draw} {principal : Principal} {key : String} {run : RunIn} {p : Progress}
    (keyed : nonEmptyKey run = some key) : (resolveRun server draw principal inst run p).2.ops.runForKey key inst =
      some (resolveRun server draw principal inst run p).1 := by
  unfold resolveRun
  rw [keyed, Option.bind_some]
  cases found : p.ops.runForKey key inst with
  | some iri => exact found
  | none => exact Api.Repeats.runForKey_rememberRun _ _ _ _ found

/-- The run an advertisement starts with is known by its key, and reported once the advertisement is written. -/
structure Started (server : Server) (data : Dataset) (run : RunIn) (key inst : String) (start : String × Progress) : Prop where
  nothing : start.2.artifacts = []
  apart : start.1 ≠ inst
  keeps : ∀ quads, ∀ quad ∈ data, ¬Replaced start.1 run quad → quad ∈ effect data (start.2.tx.extend quads)
  known : start.2.ops.runForKey key inst = some start.1
  reported : ∀ quads, Api.Repeats.Silent quads → Api.Repeats.Reported server.platform (effect data (start.2.tx.extend quads)) start.1 run
  writable : (start.2.tx.isEmpty = false → ∀ reference ∈ start.2.tx.references, server.platform.validIri reference = true) →
    ∀ reference ∈ (outcomeTx server.platform start.1 run).references, server.platform.validIri reference = true

theorem resolveRun_started {key : String} (parses : Parses server ad) (new : ad.New server state) (apart : RunsApart state)
    (there : exists_ server.platform state.data inst = .ok true) (keyed : nonEmptyKey (ad.run server) = some key) :
    Started server state.data (ad.run server) key inst
      (resolveRun server (ad.draw.site 1) ad.principal inst (ad.run server) { ops := state.ops }) := by
  have rows := @resolved_apart server (ad.draw.site 1) ad.principal inst (ad.run server) state apart there new
  have known := @resolveRun_known server inst (ad.draw.site 1) ad.principal key (ad.run server) { ops := state.ops } keyed
  have distinct := rows _ _ _ known
  unfold resolveRun at known distinct ⊢
  rw [keyed, Option.bind_some] at known distinct ⊢
  cases found : state.ops.runForKey key inst with
  | some iri =>
    rw [found] at known distinct
    refine ⟨rfl, distinct, ?_, known, fun quads silent => Api.Repeats.reported_of_update silent, fun written => ?_⟩
    · intro quads quad held spared
      apply mem_effect_extend.2
      exact Or.inl (Api.Repeats.mem_effect_outcome.2 (Or.inl ⟨held, spared⟩))
    · by_cases nothing : (outcomeTx server.platform iri (ad.run server)).isEmpty = true
      · intro reference mem
        simp only [GraphTx.isEmpty, Bool.and_eq_true, List.isEmpty_iff] at nothing
        simp [GraphTx.references, nothing] at mem
      · rw [Bool.not_eq_true] at nothing
        exact written nothing
  | none =>
    rw [found] at known distinct
    refine ⟨rfl, distinct, ?_, known, fun quads silent => Api.Repeats.reported_of_new new silent, fun _ => ?_⟩
    · intro quads quad held _
      apply mem_effect_extend.2
      exact Or.inl (mem_effect_extend.2 (Or.inl ((mem_effect_empty rfl quad).2 held)))
    · exact outcome_writable parses.graph parses.outcome parses.minted

theorem isEmpty_extend {tx : GraphTx} {quads : List Quad} (some_ : tx.isEmpty = false) : (tx.extend quads).isEmpty = false := by
  unfold GraphTx.isEmpty GraphTx.extend at *
  dsimp only
  cases quads with
  | nil =>
    rw [List.append_nil]
    exact some_
  | cons quad rest => simp

/-- The first advertisement settles what it is about, and spares what is no outcome of its run. -/
theorem settled_of_first (parses : Parses server ad) (new : ad.New server state) (apart : RunsApart state)
    (keyed : nonEmptyKey ad.input.run ≠ none)
    (admitted : Api.Advertise.admitted server state.data (ad.draw.site 0) ad.principal ad.input ad.role = .ok inst)
    (first : (advertise server state ad.draw ad.principal ad.input ad.role).response = .ok out) :
    SettledAd server ad inst out (afterAd server state ad) ∧ out.run ≠ inst ∧
      ∀ quad ∈ state.data, ¬Replaced out.run (ad.run server) quad → quad ∈ (afterAd server state ad).data := by
  obtain ⟨key, has⟩ : ∃ key, nonEmptyKey (ad.run server) = some key := Option.ne_none_iff_exists'.1 keyed
  have given : (ad.run server).externalKey.isSome = true := by
    have filtered : nonEmpty (ad.run server).externalKey = some key := has
    cases none_ : (ad.run server).externalKey with
    | none => simp [none_, nonEmpty] at filtered
    | some own => rfl
  have started := @resolveRun_started server ad inst state key parses new apart (known_of_admitted admitted) has
  unfold afterAd advertise Outcome.planned at *
  rw [admitted] at first ⊢
  have same : runInput server ad.input.run = ad.run server := rfl
  dsimp only at first ⊢
  rw [same] at first ⊢
  generalize resolveRun server (ad.draw.site 1) ad.principal inst (ad.run server) { ops := state.ops } = start at started first ⊢
  have moved := @Api.Repeats.addEntries_moves server state.data (ad.draw.site 2) ad.principal (ad.run server) start.1 ad.role
    start.2 ad.input.artifacts
  have placed := @addEntries_placed server state.data ad.principal (ad.run server) start.1 ad.role (ad.draw.site 2) given
    ad.input.artifacts start.2 started.nothing
  generalize addEntries server state.data (ad.draw.site 2) ad.principal (ad.run server) start.1 ad.role start.2
    ad.input.artifacts = p at moved placed first ⊢
  obtain ⟨working, answer⟩ := Api.Identities.conclude_ok first
  obtain ⟨written, valid⟩ := conclude_written first
  obtain ⟨quads, tx, silent⟩ := moved.tx
  subst answer
  have ops := @Api.Identities.conclude_ops server _ state p (⟨start.1, p.artifacts, p.created, p.queued⟩ : AdvertiseOut)
  refine ⟨⟨?_, ?_, ?_, ?_⟩, started.apart, fun quad held spared => ?_⟩
  · rw [has, Option.bind_some, ops]
    exact moved.ops.runs started.known
  · apply (started.reported quads silent).congr
    intro quad
    rw [written quad, tx]
  · rw [ops]
    exact placed working
  · apply started.writable
    intro some_
    rw [tx] at valid
    exact valid (isEmpty_extend some_)
  · rw [written quad, tx]
    exact started.keeps quads quad held spared

/-- A repetition that is admitted is answered as the first was, and leaves the graph as it is. -/
theorem again_of_settled {draw : Draw} (settled : SettledAd server ad inst out state)
    (admitted : Api.Advertise.admitted server state.data (draw.site 0) ad.principal ad.input ad.role = .ok inst) :
    (∃ answer, (advertise server state draw ad.principal ad.input ad.role).response = .ok answer ∧ answer.run = out.run ∧
        answer.artifacts = out.artifacts) ∧
      (∀ quad, quad ∈ (afterAd server state (ad.again draw)).data ↔ quad ∈ state.data) ∧
      SettledAd server ad inst out (afterAd server state (ad.again draw)) := by
  have reached : afterAd server state (ad.again draw) =
      (advertise server state draw ad.principal ad.input ad.role).state := rfl
  rw [reached]
  unfold advertise Outcome.planned
  rw [admitted]
  have same : runInput server ad.input.run = ad.run server := rfl
  have resolved : resolveRun server (draw.site 1) ad.principal inst (ad.run server) { ops := state.ops } =
      (out.run, { ops := state.ops, tx := outcomeTx server.platform out.run (ad.run server) }) := by
    unfold resolveRun
    rw [settled.known]
    rfl
  dsimp only
  rw [same, resolved]
  dsimp only
  obtain ⟨ops, queued, grown, added⟩ := @fold_again server state.data ad.principal (ad.run server) out.run ad.role
    (draw.site 2) ad.input.artifacts.zipIdx
    { ops := state.ops, tx := outcomeTx server.platform out.run (ad.run server) } out.artifacts rfl
    (by rw [List.zipIdx_map_fst]; exact settled.placed)
  have entries : addEntries server state.data (draw.site 2) ad.principal (ad.run server) out.run ad.role
      { ops := state.ops, tx := outcomeTx server.platform out.run (ad.run server) } ad.input.artifacts =
      { ops, queued, tx := outcomeTx server.platform out.run (ad.run server), artifacts := [] ++ out.artifacts } := added
  rw [entries, List.nil_append]
  have answered := @conclude_writes server state _
    ({ ops, queued, tx := outcomeTx server.platform out.run (ad.run server), artifacts := out.artifacts } : Progress)
    (⟨out.run, out.artifacts, false, queued⟩ : AdvertiseOut) rfl settled.writable
  obtain ⟨written, _⟩ := conclude_written answered
  have kept (quad : Quad) := (written quad).trans (settled.reported.same quad)
  have table := @Api.Identities.conclude_ops server _ state
    ({ ops, queued, tx := outcomeTx server.platform out.run (ad.run server), artifacts := out.artifacts } : Progress)
    (⟨out.run, out.artifacts, false, queued⟩ : AdvertiseOut)
  refine ⟨⟨_, answered, rfl, rfl⟩, kept, ?_, settled.reported.congr kept, ?_, settled.writable⟩
  · obtain ⟨key, has, held⟩ := Option.bind_eq_some_iff.1 settled.known
    rw [has, Option.bind_some, table]
    exact grown.runs held
  · rw [table]
    exact settled.placed.imp (fun _ _ here => here.grown grown)

theorem admitted_again {draw other : Draw} {principal : Principal} {input : AdvertiseIn} {role : Role} {before after : Dataset}
    (first : Api.Advertise.admitted server before draw principal input role = .ok inst)
    (there : exists_ server.platform after inst = .ok true)
    (passes : server.platform.enforceWrite before (candidate server draw principal inst input) = .ok () →
      server.platform.enforceWrite after (candidate server other principal inst input) = .ok ()) :
    Api.Advertise.admitted server after other principal input role = .ok inst := by
  unfold Api.Advertise.admitted at first ⊢
  obtain ⟨_, allowed, rest⟩ := bind_ok.1 first
  obtain ⟨named, required, rest⟩ := bind_ok.1 rest
  obtain ⟨known, _, rest⟩ := bind_ok.1 rest
  cases known with
  | false => cases rest
  | true =>
    obtain ⟨_, passed, rest⟩ := bind_ok.1 rest
    have same : named = inst := Except.ok.inj rest
    subst same
    have again := passes passed
    exact bind_ok.2 ⟨_, allowed, bind_ok.2 ⟨named, required, bind_ok.2 ⟨true, there, bind_ok.2 ⟨_, again, rfl⟩⟩⟩⟩

/-- The check of a write judges the repetitions as it judged the first: it asks the store for nothing but the types that are
declared, and does not look at the names that are drawn. -/
def JudgesAlike (server : Server) (ad : Advertisement) (repeats : List Draw) (data : Dataset) : Prop :=
  ∀ inst after, (∀ quad ∈ data, quad.predicate = Ns.rdfType → quad ∈ after) →
    server.platform.violations data (candidate server (ad.draw.site 0) ad.principal inst ad.input) = none →
    ∀ draw ∈ repeats, server.platform.violations after (candidate server (draw.site 0) ad.principal inst ad.input) = none

theorem enforceWrite_ok {platform : Platform} {data : Dataset} {quads : List Quad} :
    platform.enforceWrite data quads = .ok () ↔ platform.violations data quads = none := by
  unfold Platform.enforceWrite
  cases platform.violations data quads <;> simp

/-- What the first advertisement settled stays settled through any repetitions, and the graph stays the same. -/
theorem run_settled {start : State} {repeats : List Draw}
    (admits : ∀ after : State, (∀ quad, quad ∈ after.data ↔ quad ∈ start.data) → ∀ draw ∈ repeats,
      Api.Advertise.admitted server after.data (draw.site 0) ad.principal ad.input ad.role = .ok inst)
    (settled : SettledAd server ad inst out start) :
    SettledAd server ad inst out (run (afterAd server) start (repeats.map ad.again)) ∧
      ∀ quad, quad ∈ (run (afterAd server) start (repeats.map ad.again)).data ↔ quad ∈ start.data := by
  have meets : Meets (afterAd server) (fun _ next => ∃ draw ∈ repeats, next = ad.again draw) start (repeats.map ad.again) := by
    apply meets_of_forall
    intro next mem _
    obtain ⟨draw, listed, rfl⟩ := List.mem_map.1 mem
    exact ⟨draw, listed, rfl⟩
  apply run_invariant (afterAd server) (fun state => SettledAd server ad inst out state ∧
    ∀ quad, quad ∈ state.data ↔ quad ∈ start.data) ⟨settled, fun _ => Iff.rfl⟩ _ meets
  intro state next held repeated
  obtain ⟨draw, listed, rfl⟩ := repeated
  obtain ⟨_, same, stays⟩ := again_of_settled held.1 (admits state held.2 draw listed)
  exact ⟨stays, fun quad => (same quad).trans (held.2 quad)⟩

end Settling

/-- Two enumerations of one graph. -/
def SameGraph (left right : Dataset) : Prop := ∀ quad, quad ∈ left ↔ quad ∈ right

section Specimen

open Specimen

/-- The run of this key, with an artifact and a reference to another registry's. -/
def posted (key label : String) : Advertisement :=
  ⟨draw label, builder,
    { run := { externalKey := some key, status := some "success" }
      artifacts := [{ title := some "t" }, { iri := some "https://peer.example/artifact/x" }] }, .produced⟩

/-- The registry has one deployment. -/
def yardHistory : List Event := [byRoot "i" (.createInstance { label := "one" })]

end Specimen

end ToolArtifactRegistry.Laws
