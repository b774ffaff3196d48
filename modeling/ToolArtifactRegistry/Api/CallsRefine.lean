import ToolArtifactRegistry.Api.Calls

/-! Served alone, the calls of an advertisement or of an ingested event do what the endpoint does in one step. -/
namespace ToolArtifactRegistry.Api.Calls

open Library.Rdf Library.Serde Library.Programs Ids Model Store Rdf Build Domain
open Auth hiding Role
open Advertise (Role Progress nonEmptyKey artifactKey)

section Serving

variable {server : Server} {α β : Type}

@[simp] theorem serve_pure (answer : α) (j : Journal) : serve server (pure answer) j = (.ok answer, j) := rfl

@[simp] theorem serve_throw (error : AppError) (j : Journal) :
    serve server (throw error : Handler server α) j = (.error error, j) := rfl

theorem serve_bind (first : Handler server α) (next : α → Handler server β) (j : Journal) :
    serve server (first >>= next) j =
      match serve server first j with
      | (.ok answer, after) => serve server (next answer) after
      | (.error e, after) => (.error e, after) := by
  unfold serve
  rw [ExceptT.run_bind, Program.finish_bind]
  cases first.run.finish j with
  | mk result after => cases result <;> rfl

@[simp] theorem serve_ask (call : Call) (j : Journal) :
    serve server (ask server call) j = (.ok (perform server call j).1, (perform server call j).2) := rfl

@[simp] theorem serve_known (iri : String) (j : Journal) :
    serve server (known server iri) j = (exists_ server.platform j.state.data iri, j) := rfl

theorem serve_conforms (quads : List Quad) (j : Journal) :
    serve server (conforms server quads) j = (server.platform.enforceWrite j.state.data quads, j) := rfl

theorem serve_declared (quads : List Quad) (j : Journal) :
    serve server (declared server quads) j = (server.platform.enforceVocabulary j.state.data quads, j) := rfl

@[simp] theorem setOps_data (j : Journal) (ops : Ops) : (j.setOps ops).state.data = j.state.data := rfl

@[simp] theorem setOps_ops (j : Journal) (ops : Ops) : (j.setOps ops).state.ops = ops := rfl

@[simp] theorem setOps_setOps (j : Journal) (ops later : Ops) : (j.setOps ops).setOps later = j.setOps later := rfl

@[simp] theorem setOps_same (j : Journal) : j.setOps j.state.ops = j := rfl

end Serving

/-- A draft with the tables as they stand. -/
def progressOf (draft : Draft) (ops : Ops) : Progress where
  ops := ops
  tx := draft.tx
  artifacts := draft.artifacts
  queued := draft.queued
  created := draft.created

/-- What serving some calls came to, against the progress of the one step. -/
def Follows (p : Progress) (j : Journal) (served : AppResult Draft × Journal) : Prop :=
  served.2 = j.setOps p.ops ∧
    match served.1 with
    | .ok draft => p = progressOf draft p.ops
    | .error e => p.failed = some e

/-- The same of calls that also name an artifact. -/
def Names (named : Option String × Progress) (j : Journal) (served : AppResult (String × Draft) × Journal) : Prop :=
  served.2 = j.setOps named.2.ops ∧
    match served.1 with
    | .ok (iri, draft) => named = (some iri, progressOf draft named.2.ops)
    | .error e => named.1 = none ∧ named.2.failed = some e

section Steps

variable {server : Server}

@[simp] theorem progressOf_ops (draft : Draft) (ops : Ops) : (progressOf draft ops).ops = ops := rfl

@[simp] theorem progressOf_failed (draft : Draft) (ops : Ops) : (progressOf draft ops).failed = none := rfl

theorem Follows.cases {p : Progress} {j : Journal} {served : AppResult Draft × Journal} (follows : Follows p j served) :
    (∃ draft, served = (.ok draft, j.setOps p.ops) ∧ p = progressOf draft p.ops) ∨
      ∃ e, served = (.error e, j.setOps p.ops) ∧ p.failed = some e := by
  obtain ⟨result, after⟩ := served
  obtain ⟨rfl, kept⟩ := follows
  cases result with
  | ok draft => exact Or.inl ⟨draft, rfl, kept⟩
  | error e => exact Or.inr ⟨e, rfl, kept⟩

theorem Names.cases {named : Option String × Progress} {j : Journal} {served : AppResult (String × Draft) × Journal}
    (names : Names named j served) :
    (∃ iri draft, served = (.ok (iri, draft), j.setOps named.2.ops) ∧ named = (some iri, progressOf draft named.2.ops)) ∨
      ∃ e, served = (.error e, j.setOps named.2.ops) ∧ named.1 = none ∧ named.2.failed = some e := by
  obtain ⟨result, after⟩ := served
  obtain ⟨rfl, kept⟩ := names
  cases result with
  | ok both => exact Or.inl ⟨both.1, both.2, rfl, kept⟩
  | error e => exact Or.inr ⟨e, rfl, kept⟩

theorem reference_follows (draft : Draft) (iri : String) (j : Journal) :
    Follows (Advertise.reference server j.state.data (progressOf draft j.state.ops) iri) j
      (serve server (reference server draft iri) j) := by
  unfold Advertise.reference reference
  by_cases here : isLocal server.base iri = true
  · simp [here, Follows]
  · simp only [here, Bool.false_eq_true, if_false]
    rw [serve_bind, serve_known]
    cases exists_ server.platform j.state.data iri with
    | error e => exact ⟨rfl, rfl⟩
    | ok there =>
      cases there with
      | true => exact ⟨rfl, rfl⟩
      | false => exact ⟨rfl, rfl⟩

/-- A progress that failed goes no further. -/
theorem foldl_failed {Item : Type} {next : Progress → Item → Progress} (stops : ∀ p item, p.failed.isSome = true → next p item = p)
    (items : List Item) {p : Progress} (failed : p.failed.isSome = true) : items.foldl next p = p := by
  induction items with
  | nil => rfl
  | cons item rest ih => rw [List.foldl_cons, stops p item failed, ih]

theorem referenceAll_follows (draft : Draft) (iris : List String) (j : Journal) :
    Follows (iris.foldl (fun p iri => if p.failed.isSome then p else Advertise.reference server j.state.data p iri)
      (progressOf draft j.state.ops)) j (serve server (referenceAll server draft iris) j) := by
  induction iris generalizing draft j with
  | nil => exact ⟨rfl, rfl⟩
  | cons iri rest ih =>
    rw [List.foldl_cons, referenceAll, serve_bind]
    simp only [progressOf_failed, Option.isSome_none, Bool.false_eq_true, if_false]
    have first := (@reference_follows server draft iri j).cases
    generalize Advertise.reference server j.state.data (progressOf draft j.state.ops) iri = p at first ⊢
    rcases first with ⟨next, served, same⟩ | ⟨e, served, failed⟩
    · rw [served]
      simp only
      rw [same]
      exact ih next (j.setOps p.ops)
    · have stopped : p.failed.isSome = true := by
        rw [failed]
        rfl
      rw [served, foldl_failed (fun p _ stopped => by simp [stopped]) rest stopped]
      exact ⟨rfl, failed⟩

theorem serve_lookupRun (run : RunIn) (instanceIri : String) (j : Journal) :
    serve server (lookupRun server run instanceIri) j =
      (.ok ((nonEmptyKey run).bind (fun key => j.state.ops.runForKey key instanceIri)), j) := by
  unfold lookupRun
  cases nonEmptyKey run <;> rfl

theorem serve_rememberRun (run : RunIn) (instanceIri runIri : String) (j : Journal) :
    serve server (rememberRun server run instanceIri runIri) j =
      (.ok (), j.setOps (match nonEmptyKey run with
        | some key => j.state.ops.rememberRun key instanceIri runIri
        | none => j.state.ops)) := by
  unfold rememberRun
  cases nonEmptyKey run <;> rfl

theorem serve_lookupArtifact (key : Option String) (j : Journal) :
    serve server (lookupArtifact server key) j = (.ok (key.bind j.state.ops.artifactForKey), j) := by
  cases key <;> rfl

theorem serve_rememberArtifact (key : Option String) (iri : String) (j : Journal) :
    serve server (rememberArtifact server iri key) j =
      (.ok (), j.setOps (match key with
        | some key => j.state.ops.rememberArtifact key iri
        | none => j.state.ops)) := by
  cases key <;> rfl

theorem resolveRun_serve (draw : Draw) (principal : Principal) (instanceIri : String) (run : RunIn) (j : Journal) :
    ∃ draft, serve server (resolveRun server draw principal instanceIri run {}) j =
        (.ok ((Advertise.resolveRun server draw principal instanceIri run { ops := j.state.ops }).1, draft),
          j.setOps (Advertise.resolveRun server draw principal instanceIri run { ops := j.state.ops }).2.ops) ∧
      (Advertise.resolveRun server draw principal instanceIri run { ops := j.state.ops }).2 = progressOf draft
        (Advertise.resolveRun server draw principal instanceIri run { ops := j.state.ops }).2.ops := by
  unfold resolveRun Advertise.resolveRun
  rw [serve_bind, serve_lookupRun]
  cases found : (nonEmptyKey run).bind (fun key => j.state.ops.runForKey key instanceIri) with
  | some iri =>
    simp only
    exact ⟨_, rfl, rfl⟩
  | none =>
    simp only
    rw [serve_bind, serve_rememberRun]
    cases key : nonEmptyKey run with
    | none => exact ⟨_, rfl, rfl⟩
    | some text => exact ⟨_, rfl, rfl⟩

theorem describeArtifact_names (draw : Draw) (principal : Principal) (run : RunIn) (runIri : String) (role : Role)
    (draft : Draft) (a : ArtifactIn) (j : Journal) :
    Names (Advertise.describeArtifact server j.state.data draw principal run runIri role (progressOf draft j.state.ops) a) j
      (serve server (describeArtifact server draw principal run runIri role draft a) j) := by
  unfold describeArtifact Advertise.describeArtifact
  rw [serve_bind, serve_lookupArtifact]
  simp only [progressOf_ops]
  cases found : (artifactKey server run a).bind j.state.ops.artifactForKey with
  | some iri =>
    simp only
    exact ⟨rfl, rfl⟩
  | none =>
    simp only
    rw [serve_bind]
    have parents := (@referenceAll_follows server (draft.extend (Artifact.artifactQuads server.platform server.base
      (mint server.base .artifact (draw.site 0)) (draw.site 1) a principal.subject
      (if role = .produced then some runIri else none))) a.wasDerivedFrom j).cases
    have described : (progressOf draft j.state.ops).extend (Artifact.artifactQuads server.platform server.base
        (mint server.base .artifact (draw.site 0)) (draw.site 1) a principal.subject
        (if role = .produced then some runIri else none)) =
      progressOf (draft.extend (Artifact.artifactQuads server.platform server.base
        (mint server.base .artifact (draw.site 0)) (draw.site 1) a principal.subject
        (if role = .produced then some runIri else none))) j.state.ops := rfl
    rw [described]
    generalize a.wasDerivedFrom.foldl
      (fun p iri => if p.failed.isSome then p else Advertise.reference server j.state.data p iri) _ = p at parents ⊢
    rcases parents with ⟨next, served, same⟩ | ⟨e, served, failed⟩
    · rw [served]
      simp only
      rw [serve_bind, serve_rememberArtifact]
      have unfailed : p.failed.isSome = false := by
        rw [same]
        rfl
      simp only [unfailed, Bool.false_eq_true, if_false]
      cases key : artifactKey server run a with
      | none =>
        refine ⟨rfl, ?_⟩
        simp only [serve_pure]
        rw [same]
        rfl
      | some text =>
        refine ⟨rfl, ?_⟩
        simp only [serve_pure]
        rw [same]
        rfl
    · have stopped : p.failed.isSome = true := by
        rw [failed]
        rfl
      rw [served]
      simp only [stopped, if_true]
      exact ⟨rfl, rfl, failed⟩

theorem entryIri_names (draw : Draw) (principal : Principal) (run : RunIn) (runIri : String) (role : Role)
    (draft : Draft) (a : ArtifactIn) (j : Journal) :
    Names (Advertise.entryIri server j.state.data draw principal run runIri role (progressOf draft j.state.ops) a) j
      (serve server (entryIri server draw principal run runIri role draft a) j) := by
  unfold entryIri Advertise.entryIri
  cases nonEmpty a.iri with
  | none => exact describeArtifact_names draw principal run runIri role draft a j
  | some iri =>
    simp only
    rw [serve_bind]
    have first := (@reference_follows server draft iri j).cases
    generalize Advertise.reference server j.state.data (progressOf draft j.state.ops) iri = p at first ⊢
    rcases first with ⟨next, served, same⟩ | ⟨e, served, failed⟩
    · rw [served]
      refine ⟨rfl, ?_⟩
      simp only [serve_pure]
      rw [same]
      rfl
    · rw [served]
      refine ⟨rfl, ?_, failed⟩
      simp [failed]

theorem serve_firstTime (runIri iri : String) (role : Role) (j : Journal) :
    serve server (firstTime server runIri iri role) j =
      (.ok (j.state.ops.claimAdvertisement runIri iri role.asStr).1,
        j.setOps (j.state.ops.claimAdvertisement runIri iri role.asStr).2) := rfl

theorem claim_follows (runIri iri : String) (role : Role) (draft : Draft) (j : Journal) :
    Follows ((progressOf draft j.state.ops).claim server.platform runIri iri role) j
      (serve server (claim server runIri role draft iri) j) := by
  unfold claim Progress.claim
  rw [serve_bind, serve_firstTime]
  simp only [progressOf_ops]
  by_cases fresh : (j.state.ops.claimAdvertisement runIri iri role.asStr).1 = true
  · simp only [fresh, if_true]
    cases role <;> exact ⟨rfl, rfl⟩
  · simp only [fresh, Bool.false_eq_true, if_false]
    exact ⟨rfl, rfl⟩

/-- What naming an artifact leads to: it is claimed and listed, or nothing more is done. -/
def proceed (platform : Platform) (runIri : String) (role : Role) : Option String × Progress → Progress
  | (some iri, p) => { p.claim platform runIri iri role with
      artifacts := (p.claim platform runIri iri role).artifacts ++ [iri] }
  | (none, p) => p

theorem addEntry_eq (data : Dataset) (draw : Draw) (principal : Principal) (run : RunIn) (runIri : String) (role : Role)
    (p : Progress) (a : ArtifactIn) : Advertise.addEntry server data draw principal run runIri role p a =
      if p.failed.isSome then p
      else proceed server.platform runIri role (Advertise.entryIri server data draw principal run runIri role p a) := by
  unfold Advertise.addEntry
  split
  · rfl
  · cases Advertise.entryIri server data draw principal run runIri role p a with
    | mk named next => cases named <;> rfl

theorem proceed_follows (runIri : String) (role : Role) (more : Draft → Handler server Draft)
    (later : Progress → Progress) {j : Journal} {named : Option String × Progress} {first : Handler server (String × Draft)}
    (names : Names named j (serve server first j)) (stops : ∀ p, p.failed.isSome = true → later p = p)
    (rest : ∀ draft ops, Follows (later (progressOf draft ops)) (j.setOps ops) (serve server (more draft) (j.setOps ops))) :
    Follows (later (proceed server.platform runIri role named)) j
      (serve server (do
        let (iri, described) ← first
        let claimed ← claim server runIri role described iri
        more (claimed.add iri)) j) := by
  rw [serve_bind]
  rcases names.cases with ⟨iri, described, answer, same⟩ | ⟨e, answer, unnamed, failed⟩
  · rw [answer]
    simp only
    rw [serve_bind]
    have claims := (@claim_follows server runIri iri role described (j.setOps named.2.ops)).cases
    rw [setOps_ops, setOps_setOps] at claims
    rw [same]
    simp only [proceed, progressOf_ops]
    generalize (progressOf described named.2.ops).claim server.platform runIri iri role = p at claims ⊢
    rcases claims with ⟨claimed, reply, there⟩ | ⟨e, reply, failed⟩
    · rw [reply]
      have added : { p with artifacts := p.artifacts ++ [iri] } = progressOf (claimed.add iri) p.ops := by
        rw [there]
        rfl
      simp only [added]
      exact rest (claimed.add iri) p.ops
    · rw [reply, stops]
      · exact ⟨rfl, failed⟩
      · simp [failed]
  · rw [answer]
    obtain ⟨name, p⟩ := named
    simp only at unnamed failed
    subst unnamed
    simp only [proceed]
    rw [stops p]
    · exact ⟨rfl, failed⟩
    · simp [failed]

/-- Entries named one after the other, each claimed and listed, follow the progress that does the same. -/
theorem entries_follow {Item : Type} (runIri : String) (role : Role) {named : Progress → Item → Option String × Progress}
    {first : Draft → Item → Handler server (String × Draft)} {every : Draft → List Item → Handler server Draft}
    (data : Dataset) (none : ∀ draft, every draft [] = return draft)
    (each : ∀ draft item rest, every draft (item :: rest) = (do
      let (iri, described) ← first draft item
      let claimed ← claim server runIri role described iri
      every (claimed.add iri) rest))
    (names : ∀ draft item j, j.state.data = data →
      Names (named (progressOf draft j.state.ops) item) j (serve server (first draft item) j))
    (draft : Draft) (items : List Item) (j : Journal) (here : j.state.data = data) :
    Follows (items.foldl (fun p item => if p.failed.isSome then p else proceed server.platform runIri role (named p item))
      (progressOf draft j.state.ops)) j (serve server (every draft items) j) := by
  induction items generalizing draft j with
  | nil =>
    rw [none]
    exact ⟨rfl, rfl⟩
  | cons item rest ih =>
    rw [List.foldl_cons, each]
    simp only [progressOf_failed, Option.isSome_none, Bool.false_eq_true, if_false]
    refine proceed_follows runIri role (fun draft => every draft rest)
      (fun p => rest.foldl (fun p item => if p.failed.isSome then p
        else proceed server.platform runIri role (named p item)) p) (names draft item j here) ?_ ?_
    · intro p stopped
      exact foldl_failed (fun p item stopped => by simp [stopped]) rest stopped
    · intro draft ops
      exact ih draft (j.setOps ops) here

theorem addEntries_follows (draw : Draw) (principal : Principal) (run : RunIn) (runIri : String) (role : Role)
    (draft : Draft) (entries : List (ArtifactIn × Nat)) (j : Journal) :
    Follows (entries.foldl (fun p entry => Advertise.addEntry server j.state.data (draw.site entry.2) principal run runIri
      role p entry.1) (progressOf draft j.state.ops)) j
      (serve server (addEntries server draw principal run runIri role draft entries) j) := by
  simp only [addEntry_eq]
  refine entries_follow runIri role j.state.data (fun _ => by rw [addEntries]) (fun _ _ _ => by rw [addEntries]) ?_
    draft entries j rfl
  intro draft entry i same
  rw [← same]
  exact entryIri_names (draw.site entry.2) principal run runIri role draft entry.1 i

theorem matchSymlink_serve (names : List String) (j : Journal) :
    serve server (matchSymlink server names) j = (Openlineage.matchSymlink server j.state.data names, j) := by
  induction names with
  | nil => rfl
  | cons name rest ih =>
    unfold matchSymlink Openlineage.matchSymlink
    by_cases web : Library.Text.startsWith name "http" = true
    · simp only [web, if_true]
      by_cases here : isLocal server.base name = true
      · simp [here]
      · simp only [here, Bool.false_eq_true, if_false]
        rw [serve_bind, serve_known]
        cases exists_ server.platform j.state.data name with
        | error e => rfl
        | ok there =>
          cases there with
          | true => rfl
          | false => exact ih
    · simp only [web, Bool.false_eq_true, if_false]
      exact ih

theorem mapDataset_names (draw : Draw) (principal : Principal) (role : Role) (draft : Draft) (dataset : Json) (j : Journal) :
    Names (Openlineage.mapDataset server j.state.data draw principal role (progressOf draft j.state.ops) dataset) j
      (serve server (mapDataset server draw principal role draft dataset) j) := by
  unfold mapDataset Openlineage.mapDataset
  rw [serve_bind, matchSymlink_serve]
  cases Openlineage.matchSymlink server j.state.data (Openlineage.symlinks dataset) with
  | error e => exact ⟨rfl, rfl, rfl⟩
  | ok matched =>
    cases matched with
    | some iri => exact ⟨rfl, rfl⟩
    | none =>
      simp only
      rw [serve_bind, serve_lookupArtifact]
      simp only [progressOf_ops, Option.bind_some]
      cases j.state.ops.artifactForKey ((Openlineage.artifactOf dataset role).externalKey.getD "") with
      | some iri => exact ⟨rfl, rfl⟩
      | none =>
        simp only
        rw [serve_bind, serve_declared]
        generalize Artifact.artifactQuads server.platform server.base (mint server.base .artifact (draw.site 0))
          (draw.site 1) (Openlineage.artifactOf dataset role) principal.subject none = quads
        cases server.platform.enforceVocabulary j.state.data quads with
        | error e => exact ⟨rfl, rfl, rfl⟩
        | ok _ =>
          simp only
          rw [serve_bind, serve_rememberArtifact]
          exact ⟨rfl, rfl⟩

theorem addDataset_eq (data : Dataset) (draw : Draw) (principal : Principal) (runIri : String) (role : Role) (p : Progress)
    (dataset : Json) : Openlineage.addDataset server data draw principal runIri role p dataset =
      if p.failed.isSome then p
      else proceed server.platform runIri role (Openlineage.mapDataset server data draw principal role p dataset) := by
  unfold Openlineage.addDataset
  split
  · rfl
  · cases Openlineage.mapDataset server data draw principal role p dataset with
    | mk named next => cases named <;> rfl

theorem addDatasets_follows (draw : Draw) (principal : Principal) (runIri : String) (role : Role) (draft : Draft)
    (entries : List (Json × Nat)) (j : Journal) :
    Follows (entries.foldl (fun p entry => Openlineage.addDataset server j.state.data (draw.site entry.2) principal runIri
      role p entry.1) (progressOf draft j.state.ops)) j
      (serve server (addDatasets server draw principal runIri role draft entries) j) := by
  simp only [addDataset_eq]
  refine entries_follow runIri role j.state.data (fun _ => by rw [addDatasets]) (fun _ _ _ => by rw [addDatasets]) ?_
    draft entries j rfl
  intro draft entry i same
  rw [← same]
  exact mapDataset_names (draw.site entry.2) principal role draft entry.1 i

@[simp] theorem serve_result {α : Type} (result : AppResult α) (j : Journal) :
    serve server (ExceptT.mk (Program.done result)) j = (result, j) := rfl

theorem admitted_serve (draw : Draw) (principal : Principal) (input : AdvertiseIn) (role : Role) (j : Journal) :
    serve server (admitted server draw principal input role) j =
      (Advertise.admitted server j.state.data draw principal input role, j) := by
  unfold admitted Advertise.admitted
  rw [serve_bind, serve_result]
  cases principal.requireScope role.scope with
  | error e => rfl
  | ok _ =>
    cases principal.requireInstance with
    | error e => rfl
    | ok instanceIri =>
      change serve server (known server instanceIri >>= _) j = _
      rw [serve_bind, serve_known]
      simp only [bind, Except.bind, pure, Except.pure]
      cases exists_ server.platform j.state.data instanceIri with
      | error e => rfl
      | ok there =>
        cases there with
        | false => rfl
        | true =>
          change serve server (conforms server _ >>= _) j = _
          rw [serve_bind, serve_conforms]
          simp only [Bool.not_true, Bool.false_eq_true, if_false]
          cases server.platform.enforceWrite j.state.data (Advertise.candidate server draw principal instanceIri input) <;> rfl

theorem ingestAdmitted_serve (principal : Principal) (j : Journal) :
    serve server (ingestAdmitted server principal) j = (Openlineage.admitted server j.state.data principal, j) := by
  unfold ingestAdmitted Openlineage.admitted
  rw [serve_bind, serve_result]
  cases principal.requireScope scopeAdvertiseProduce with
  | error e => rfl
  | ok _ =>
    cases principal.requireInstance with
    | error e => rfl
    | ok instanceIri =>
      change serve server (known server instanceIri >>= _) j = _
      rw [serve_bind, serve_known]
      simp only [bind, Except.bind, pure, Except.pure]
      cases exists_ server.platform j.state.data instanceIri with
      | error e => rfl
      | ok there => cases there <;> rfl

theorem serve_applied (tx : GraphTx) (described : List (Key × String)) (j : Journal) :
    serve server (applied server tx described) j =
      match Store.apply server.platform j.state.data tx with
      | .error e => (.error e, j)
      | .ok data => (.ok (), ⟨{ j.state with data }, j.committed ++ described⟩) := by
  have performed : serve server (applied server tx described) j = perform server (.apply tx described) j := rfl
  rw [performed]
  rfl

/-- Served alone, an advertisement answers and leaves what the endpoint does in one step. -/
theorem advertise_serve (draw : Draw) (principal : Principal) (input : AdvertiseIn) (role : Role) (j : Journal) :
    (serve server (advertise server draw principal input role) j).1 =
        (Advertise.advertise server j.state draw principal input role).response ∧
      (serve server (advertise server draw principal input role) j).2.state =
        (Advertise.advertise server j.state draw principal input role).state := by
  unfold advertise Advertise.advertise Outcome.planned
  rw [serve_bind, admitted_serve]
  cases Advertise.admitted server j.state.data (draw.site 0) principal input role with
  | error e => exact ⟨rfl, rfl⟩
  | ok instanceIri =>
    simp only
    rw [serve_bind]
    obtain ⟨started, resolved, same⟩ :=
      resolveRun_serve (draw.site 1) principal instanceIri (Advertise.runInput server input.run) j
    rw [resolved]
    generalize Advertise.resolveRun server (draw.site 1) principal instanceIri (Advertise.runInput server input.run)
      { ops := j.state.ops } = run at same ⊢
    simp only
    rw [serve_bind]
    have entries := (@addEntries_follows server (draw.site 2) principal (Advertise.runInput server input.run) run.1 role
      started input.artifacts.zipIdx (j.setOps run.2.ops)).cases
    rw [setOps_setOps, setOps_data, setOps_ops, ← same] at entries
    unfold Advertise.addEntries
    generalize input.artifacts.zipIdx.foldl _ run.2 = p at entries ⊢
    unfold Advertise.conclude
    rcases entries with ⟨draft, served, after⟩ | ⟨e, served, failed⟩
    · rw [served, after]
      simp only [progressOf_failed]
      rw [serve_bind]
      unfold commit
      by_cases empty : draft.tx.isEmpty = true
      · simp only [empty, if_true]
        exact ⟨by simp [progressOf, empty], by simp [progressOf, empty, Journal.setOps]⟩
      · simp only [empty, Bool.false_eq_true, if_false]
        rw [serve_applied]
        unfold Outcome.commit
        simp only [progressOf, empty, setOps_data, Bool.false_eq_true, if_false]
        cases Store.apply server.platform j.state.data draft.tx <;> exact ⟨rfl, rfl⟩
    · rw [served, failed]
      exact ⟨rfl, rfl⟩

/-- And an ingested event likewise. -/
theorem ingest_serve (draw : Draw) (principal : Principal) (event : Json) (j : Journal) :
    (serve server (ingest server draw principal event) j).1 =
        (Openlineage.ingest server j.state draw principal event).response ∧
      (serve server (ingest server draw principal event) j).2.state =
        (Openlineage.ingest server j.state draw principal event).state := by
  unfold ingest Openlineage.ingest Outcome.planned
  rw [serve_bind, ingestAdmitted_serve]
  cases Openlineage.admitted server j.state.data principal with
  | error e => exact ⟨rfl, rfl⟩
  | ok instanceIri =>
    simp only
    rw [serve_bind]
    obtain ⟨started, resolved, same⟩ :=
      resolveRun_serve (draw.site 0) principal instanceIri (Openlineage.runOf server event) j
    rw [resolved]
    generalize Advertise.resolveRun server (draw.site 0) principal instanceIri (Openlineage.runOf server event)
      { ops := j.state.ops } = run at same ⊢
    simp only
    rw [serve_bind]
    have outputs := (@addDatasets_follows server (draw.site 1) principal run.1 .produced
      (started.extend (describeLocal run.1 (Openlineage.payloadStatements server event)))
      (Openlineage.datasets event "outputs").zipIdx (j.setOps run.2.ops)).cases
    have kept : progressOf (started.extend (describeLocal run.1 (Openlineage.payloadStatements server event))) run.2.ops =
        run.2.extend (describeLocal run.1 (Openlineage.payloadStatements server event)) := by
      rw [same]
      rfl
    rw [setOps_setOps, setOps_data, setOps_ops, kept] at outputs
    unfold Openlineage.addDatasets
    generalize (Openlineage.datasets event "outputs").zipIdx.foldl _
      (run.2.extend (describeLocal run.1 (Openlineage.payloadStatements server event))) = p at outputs ⊢
    rcases outputs with ⟨draft, served, after⟩ | ⟨e, served, failed⟩
    · rw [served]
      simp only
      rw [serve_bind]
      have inputs := (@addDatasets_follows server (draw.site 2) principal run.1 .consumed { draft with artifacts := [] }
        (Openlineage.datasets event "inputs").zipIdx (j.setOps p.ops)).cases
      have again : progressOf { draft with artifacts := [] } p.ops = { p with artifacts := [] } := by
        rw [after]
        rfl
      rw [setOps_setOps, setOps_data, setOps_ops, again] at inputs
      generalize (Openlineage.datasets event "inputs").zipIdx.foldl _ { p with artifacts := [] } = q at inputs ⊢
      rcases inputs with ⟨last, answered, ends⟩ | ⟨e, answered, failed⟩
      · rw [answered, ends]
        simp only [progressOf_failed]
        rw [serve_bind, serve_applied]
        unfold Outcome.commit
        simp only [progressOf, setOps_data]
        have listed : p.artifacts = draft.artifacts := by
          rw [after]
          rfl
        rw [listed]
        cases Store.apply server.platform j.state.data last.tx <;> exact ⟨rfl, rfl⟩
      · rw [answered, failed]
        exact ⟨rfl, rfl⟩
    · have stopped : ({ p with artifacts := [] } : Progress).failed.isSome = true := by simp [failed]
      rw [served, foldl_failed (fun q entry stopped => by simp [Openlineage.addDataset, stopped]) _ stopped]
      simp only [failed]
      exact ⟨trivial, rfl⟩

end Steps

end ToolArtifactRegistry.Api.Calls
