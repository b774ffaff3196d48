import ToolArtifactRegistry.Api.AdvertisePrints
import ToolArtifactRegistry.Api.CallsRefine
import ToolArtifactRegistry.Library.Naming
import ToolArtifactRegistry.Library.Tables

/-! What tells one advertised artifact from another: the IRI it brings, the key it is remembered by, or
nothing at all. -/
namespace ToolArtifactRegistry.Api.Identities

open Library.Rdf Library.Text Library.Serde Library.Naming Library.Tables Ids Model Store Rdf Build Domain
open Auth hiding Role
open Advertise (Role Progress artifactKey)
open Calls (proceed foldl_failed)

/-- What the registry is told of: an entry of an advertisement with its run, or a dataset of an ingested
event, with the IRI its symlinks lead to. -/
inductive Described where
  | entry (instanceIri : Option String) (run : RunIn) (a : ArtifactIn)
  | dataset (namespace_ name : String) (linked : Option String)

section

variable (server : Server)

def entryIdentity (run : RunIn) (a : ArtifactIn) : Identity String String :=
  match nonEmpty a.iri with
  | some iri => .given iri
  | none =>
    match artifactKey server run a with
    | some key => .keyed key
    | none => .new

def datasetIdentity (namespace_ name : String) : Option String → Identity String String
  | some iri => .given iri
  | none => .keyed (namespace_ ++ "#" ++ name)

def identity : Described → Identity String String
  | .entry _ run a => entryIdentity server run a
  | .dataset namespace_ name linked => datasetIdentity namespace_ name linked

end

section Tables

variable {server : Server} {data : Dataset}

theorem artifactForKey_congr {before after : Ops} (same : after.artifactKeys = before.artifactKeys) :
    after.artifactForKey = before.artifactForKey := by
  funext key
  simp only [Ops.artifactForKey, same]

/-- A key that is not known yet. -/
theorem artifactForKey_new {ops : Ops} {key : String} (absent : ops.artifactForKey key = none) (iri : String) :
    (ops.rememberArtifact key iri).artifactForKey = Function.update ops.artifactForKey key (some iri) := by
  funext other
  rw [Ops.artifactForKey_rememberArtifact]
  by_cases same : other = key
  · rw [same, absent, Function.update_self]
    simp
  · rw [Function.update_of_ne same, if_neg same, Option.or_none]

/-- A key that is known keeps its artifact. -/
theorem artifactForKey_known {ops : Ops} {key iri : String} (held : ops.artifactForKey key = some iri) (other : String) :
    (ops.rememberArtifact key other).artifactForKey = ops.artifactForKey := by
  funext wanted
  rw [Ops.artifactForKey_rememberArtifact]
  by_cases same : wanted = key
  · rw [same, held]
    rfl
  · rw [if_neg same, Option.or_none]

/-- The artifacts known by a key, and those listed so far, are as they were. -/
def SameKeys (p q : Progress) : Prop := q.ops.artifactForKey = p.ops.artifactForKey ∧ q.artifacts = p.artifacts

theorem reference_keys (p : Progress) (iri : String) : SameKeys p (Advertise.reference server data p iri) := by
  unfold Advertise.reference
  split
  · exact ⟨rfl, rfl⟩
  · split
    · exact ⟨rfl, rfl⟩
    · split
      · exact ⟨rfl, rfl⟩
      · exact ⟨artifactForKey_congr (Advertise.Within.queueResolve_tables p.ops iri).1, rfl⟩

theorem references_keys (iris : List String) (p : Progress) :
    SameKeys p (iris.foldl (fun p iri => if p.failed.isSome then p else Advertise.reference server data p iri) p) := by
  induction iris generalizing p with
  | nil => exact ⟨rfl, rfl⟩
  | cons iri rest ih =>
    have first : SameKeys p (if p.failed.isSome then p else Advertise.reference server data p iri) := by
      split
      · exact ⟨rfl, rfl⟩
      · exact reference_keys p iri
    have later := ih (if p.failed.isSome then p else Advertise.reference server data p iri)
    exact ⟨later.1.trans first.1, later.2.trans first.2⟩

theorem claim_keys (platform : Platform) (p : Progress) (runIri iri : String) (role : Role) :
    SameKeys p (p.claim platform runIri iri role) := by
  have table := (Advertise.Within.claim_tables p.ops runIri iri role.asStr).1
  unfold Progress.claim
  simp only []
  split <;> exact ⟨artifactForKey_congr table, rfl⟩

end Tables

/-- What naming one entry comes to. -/
structure NamesOne (server : Server) (fresh : String → Prop) (p : Progress) (item : Described)
    (named : Option String × Progress) : Prop where
  names : Names (identity server) fresh p.ops.artifactForKey named.2.ops.artifactForKey
    (named.1.toList.map (fun iri => (item, iri)))
  artifacts : named.2.artifacts = p.artifacts
  failed : named.1 = none → named.2.failed.isSome = true

section Entries

variable {server : Server} {data : Dataset} {draw : Draw} {principal : Principal} {p : Progress} {item : Described}

theorem describeArtifact_names {run : RunIn} {runIri : String} {role : Role} {a : ArtifactIn}
    (described : nonEmpty a.iri = none) (is : identity server item = entryIdentity server run a)
    (unused : ∀ k, p.ops.artifactForKey k ≠ some (mint server.base .artifact (draw.site 0))) :
    NamesOne server (fun n => n = mint server.base .artifact (draw.site 0)) p item
      (Advertise.describeArtifact server data draw principal run runIri role p a) := by
  unfold entryIdentity at is
  rw [described] at is
  unfold Advertise.describeArtifact
  cases found : (artifactKey server run a).bind p.ops.artifactForKey with
  | some iri =>
    refine ⟨?_, rfl, by simp⟩
    obtain ⟨key, has, there⟩ := Option.bind_eq_some_iff.1 found
    rw [has] at is
    exact Names.recalled is there
  | none =>
    have parents := @references_keys server data a.wasDerivedFrom (p.extend
      (Artifact.artifactQuads server.platform server.base (mint server.base .artifact (draw.site 0)) (draw.site 1) a
        principal.subject (if role = .produced then some runIri else none)))
    simp only
    generalize a.wasDerivedFrom.foldl _ _ = q at parents ⊢
    obtain ⟨table, listed⟩ := parents
    by_cases stopped : q.failed.isSome = true
    · rw [if_pos stopped]
      refine ⟨?_, listed, fun _ => stopped⟩
      simp only [Option.toList_none, List.map_nil, table]
      exact Names.refl _ _
    · rw [if_neg stopped]
      cases has : artifactKey server run a with
      | none =>
        rw [has] at is
        refine ⟨?_, listed, by simp⟩
        simp only [table]
        exact Names.make is rfl unused
      | some key =>
        rw [has] at is found
        refine ⟨?_, listed, by simp⟩
        have absent : q.ops.artifactForKey key = none := by
          rw [table]
          exact found
        simp only [artifactForKey_new absent, table]
        have unknown : p.ops.artifactForKey key = none := found
        have learned : Names (identity server) (fun n => n = mint server.base .artifact (draw.site 0)) p.ops.artifactForKey
            (Function.update p.ops.artifactForKey key (some (mint server.base .artifact (draw.site 0)))) [] :=
          Names.learn unknown rfl unused
        exact learned.assign is (Function.update_self _ _ _)

theorem entryIri_names {run : RunIn} {runIri : String} {role : Role} {a : ArtifactIn}
    (is : identity server item = entryIdentity server run a)
    (unused : ∀ k, p.ops.artifactForKey k ≠ some (mint server.base .artifact (draw.site 0))) :
    NamesOne server (fun n => n = mint server.base .artifact (draw.site 0)) p item
      (Advertise.entryIri server data draw principal run runIri role p a) := by
  unfold Advertise.entryIri
  cases brought : nonEmpty a.iri with
  | none => exact describeArtifact_names brought is unused
  | some iri =>
    unfold entryIdentity at is
    rw [brought] at is
    obtain ⟨table, listed⟩ := @reference_keys server data p iri
    simp only
    by_cases stopped : (Advertise.reference server data p iri).failed.isSome = true
    · rw [if_pos stopped]
      refine ⟨?_, listed, fun _ => stopped⟩
      simp only [Option.toList_none, List.map_nil, table]
      exact Names.refl _ _
    · rw [if_neg stopped]
      refine ⟨?_, listed, by simp⟩
      simp only [table]
      exact Names.bring is

/-- Where the symlinks of a dataset lead. -/
def linked (server : Server) (data : Dataset) (dataset : Json) : Option String :=
  match Openlineage.matchSymlink server data (Openlineage.symlinks dataset) with
  | .ok found => found
  | .error _ => none

def datasetOf (server : Server) (data : Dataset) (dataset : Json) : Described :=
  .dataset ((Openlineage.textAt dataset ["namespace"]).getD "") ((Openlineage.textAt dataset ["name"]).getD "")
    (linked server data dataset)

theorem mapDataset_names {role : Role} {dataset : Json}
    (unused : ∀ k, p.ops.artifactForKey k ≠ some (mint server.base .artifact (draw.site 0))) :
    NamesOne server (fun n => n = mint server.base .artifact (draw.site 0)) p (datasetOf server data dataset)
      (Openlineage.mapDataset server data draw principal role p dataset) := by
  have is : identity server (datasetOf server data dataset) =
      datasetIdentity ((Openlineage.textAt dataset ["namespace"]).getD "") ((Openlineage.textAt dataset ["name"]).getD "")
        (linked server data dataset) := rfl
  unfold Openlineage.mapDataset
  unfold linked at is
  cases matched : Openlineage.matchSymlink server data (Openlineage.symlinks dataset) with
  | error e =>
    refine ⟨?_, rfl, fun _ => rfl⟩
    exact Names.refl _ _
  | ok found =>
    rw [matched] at is
    cases found with
    | some iri =>
      refine ⟨?_, rfl, by simp⟩
      exact Names.bring is
    | none =>
      have key : (Openlineage.artifactOf dataset role).externalKey.getD "" =
          (Openlineage.textAt dataset ["namespace"]).getD "" ++ "#" ++ (Openlineage.textAt dataset ["name"]).getD "" := rfl
      simp only [key]
      cases known : p.ops.artifactForKey ((Openlineage.textAt dataset ["namespace"]).getD "" ++ "#" ++
          (Openlineage.textAt dataset ["name"]).getD "") with
      | some iri =>
        refine ⟨?_, rfl, by simp⟩
        exact Names.recalled is known
      | none =>
        simp only
        generalize Artifact.artifactQuads server.platform server.base (mint server.base .artifact (draw.site 0))
          (draw.site 1) (Openlineage.artifactOf dataset role) principal.subject none = quads
        cases server.platform.enforceVocabulary data quads with
        | error e =>
          refine ⟨?_, rfl, fun _ => rfl⟩
          exact Names.refl _ _
        | ok _ =>
          refine ⟨?_, rfl, by simp⟩
          have absent : (p.extend quads).ops.artifactForKey ((Openlineage.textAt dataset ["namespace"]).getD "" ++ "#" ++
              (Openlineage.textAt dataset ["name"]).getD "") = none := known
          have table := artifactForKey_new absent (mint server.base .artifact (draw.site 0))
          show Names (identity server) _ p.ops.artifactForKey ((p.extend quads).ops.rememberArtifact _ _).artifactForKey _
          rw [table]
          have learned : Names (identity server) (fun n => n = mint server.base .artifact (draw.site 0)) p.ops.artifactForKey
              (Function.update p.ops.artifactForKey _ (some (mint server.base .artifact (draw.site 0)))) [] :=
            Names.learn known rfl unused
          exact learned.assign is (Function.update_self _ _ _)

end Entries

section Requests

variable {server : Server}

theorem iriOf_inj {base left right : String} {kind : Kind} (same : iriOf base kind left = iriOf base kind right) :
    left = right := by
  have texts := congrArg String.toList same
  simp only [iriOf, String.toList_append, List.append_cancel_left_eq] at texts
  exact String.toList_inj.1 texts

/-- Entries are named one after the other, as long as each has a new name of its own. -/
theorem fold_names {Entry : Type} {item : Entry → Described} {named : Progress → Entry → Option String × Progress}
    {fresh : Entry → String → Prop} (platform : Platform) (runIri : String) (role : Role)
    (each : ∀ p entry, (∀ n, fresh entry n → ∀ k, p.ops.artifactForKey k ≠ some n) →
      NamesOne server (fresh entry) p (item entry) (named p entry))
    (entries : List Entry) (apart : entries.Pairwise (fun x y => ∀ n, fresh x n → ¬fresh y n)) (p : Progress)
    (unused : ∀ entry ∈ entries, ∀ n, fresh entry n → ∀ k, p.ops.artifactForKey k ≠ some n) :
    ∃ iris, Names (identity server) (fun n => ∃ entry ∈ entries, fresh entry n) p.ops.artifactForKey
        (entries.foldl (fun p entry => if p.failed.isSome then p else proceed platform runIri role (named p entry))
          p).ops.artifactForKey ((entries.map item).zip iris) ∧
      ((entries.foldl (fun p entry => if p.failed.isSome then p else proceed platform runIri role (named p entry))
          p).failed = none → iris.length = entries.length ∧
        (entries.foldl (fun p entry => if p.failed.isSome then p else proceed platform runIri role (named p entry))
          p).artifacts = p.artifacts ++ iris) := by
  induction entries generalizing p with
  | nil => exact ⟨[], Names.refl _ _, fun _ => ⟨rfl, by simp⟩⟩
  | cons entry rest ih =>
    rw [List.foldl_cons]
    by_cases stopped : p.failed.isSome = true
    · rw [if_pos stopped, foldl_failed (fun p item stopped => by simp [stopped]) rest stopped]
      refine ⟨[], by simpa using Names.refl _ _, fun working => ?_⟩
      simp [working] at stopped
    · rw [if_neg stopped]
      have one := each p entry (unused entry List.mem_cons_self)
      obtain ⟨disjoint, restApart⟩ := List.pairwise_cons.1 apart
      cases brought : named p entry with
      | mk iri q =>
        rw [brought] at one
        cases iri with
        | none =>
          have ended := one.failed rfl
          have first := one.names
          have nothing : proceed platform runIri role (none, q) = q := rfl
          rw [nothing, foldl_failed (fun p item stopped => by simp [stopped]) rest ended]
          refine ⟨[], ?_, fun working => ?_⟩
          · rw [List.zip_nil_right]
            exact first.mono (fun n made => ⟨entry, List.mem_cons_self, made⟩)
          · rw [working] at ended
            cases ended
        | some iri =>
          obtain ⟨table, listed⟩ := claim_keys platform q runIri iri role
          have first := one.names
          have before := one.artifacts
          simp only at first before
          have claimed : proceed platform runIri role (some iri, q) = { q.claim platform runIri iri role with
            artifacts := (q.claim platform runIri iri role).artifacts ++ [iri] } := rfl
          rw [claimed]
          have free : ∀ other ∈ rest, ∀ n, fresh other n → ∀ k, q.ops.artifactForKey k ≠ some n := by
            intro other mem n made k held
            rcases first.minted held with there | clash
            · exact unused other (List.mem_cons_of_mem _ mem) n made k there
            · exact disjoint other mem n clash made
          obtain ⟨iris, later, finished⟩ := ih restApart { q.claim platform runIri iri role with
            artifacts := (q.claim platform runIri iri role).artifacts ++ [iri] } (by simpa only [table] using free)
          simp only [table, listed, before] at later finished
          rw [listed, before]
          refine ⟨iri :: iris, ?_, fun working => ?_⟩
          · have both := first.trans later (fun n made ⟨other, mem, again⟩ => disjoint other mem n made again)
            refine both.mono ?_
            intro n made
            rcases made with here | ⟨other, mem, there⟩
            · exact ⟨entry, List.mem_cons_self, here⟩
            · exact ⟨other, List.mem_cons_of_mem _ mem, there⟩
          · obtain ⟨counted, appended⟩ := finished working
            refine ⟨by simp [counted], ?_⟩
            rw [appended, List.append_assoc]
            rfl

theorem map_fst_zipIdx {α β : Type} (f : α → β) (items : List α) : items.zipIdx.map (fun entry => f entry.1) = items.map f := by
  calc items.zipIdx.map (fun entry => f entry.1) = (items.zipIdx.map Prod.fst).map f := by rw [List.map_map]; rfl
    _ = items.map f := by rw [List.zipIdx_map_fst]

/-- The artifact IRIs a request may make up. -/
def Drawn (base : String) (draw : Draw) (iri : String) : Prop := ∃ path, iri = iriOf base .artifact (draw.id path)

/-- The entry at a place makes up the IRI drawn there. -/
def drawnAt (base : String) (draw : Draw) {Entry : Type} (entry : Entry × Nat) (iri : String) : Prop :=
  iri = mint base .artifact ((draw.site entry.2).site 0)

theorem drawnAt_apart {Entry : Type} {base : String} {draw : Draw} {place : Nat} (injective : Function.Injective draw.id)
    (entries : List Entry) :
    entries.zipIdx.Pairwise (fun x y => ∀ n, drawnAt base (draw.site place) x n → ¬drawnAt base (draw.site place) y n) := by
  refine (pairwise_zipIdx entries).imp ?_
  intro x y different n left right
  have paths := injective (iriOf_inj (left.symm.trans right))
  simp only [List.cons.injEq, and_true, true_and] at paths
  exact different paths

theorem drawn_of_drawnAt {Entry : Type} {base : String} {draw : Draw} {place : Nat} {entries : List (Entry × Nat)}
    {n : String} (made : ∃ entry ∈ entries, drawnAt base (draw.site place) entry n) : Drawn base draw n := by
  obtain ⟨entry, _, same⟩ := made
  exact ⟨_, same⟩

theorem conclude_ops {α : Type} (state : State) (p : Progress) (answer : α) :
    (Advertise.conclude server state p answer).state.ops = p.ops := by
  unfold Advertise.conclude
  split
  · rfl
  · split
    · rfl
    · unfold Outcome.commit
      split <;> rfl

theorem conclude_ok {α : Type} {state : State} {p : Progress} {answer out : α}
    (answered : (Advertise.conclude server state p answer).response = .ok out) : p.failed = none ∧ out = answer := by
  unfold Advertise.conclude at answered
  split at answered
  · cases answered
  · rename_i working
    split at answered
    · cases answered
      exact ⟨working, rfl⟩
    · unfold Outcome.commit at answered
      split at answered
      · cases answered
      · cases answered
        exact ⟨working, rfl⟩

theorem resolveRun_keys (draw : Draw) (principal : Principal) (instanceIri : String) (run : RunIn) (p : Progress) :
    SameKeys p (Advertise.resolveRun server draw principal instanceIri run p).2 := by
  unfold Advertise.resolveRun
  split
  · exact ⟨rfl, rfl⟩
  · simp only []
    split <;> exact ⟨rfl, rfl⟩

theorem addEntries_names {data : Dataset} {draw : Draw} {p : Progress} (principal : Principal) (run : RunIn) (runIri : String)
    (role : Role) (artifacts : List ArtifactIn) {place : Nat} (injective : Function.Injective draw.id)
    (unused : ∀ n, Drawn server.base draw n → ∀ k, p.ops.artifactForKey k ≠ some n) :
    ∃ iris, Names (identity server) (Drawn server.base draw) p.ops.artifactForKey
        (Advertise.addEntries server data (draw.site place) principal run runIri role p artifacts).ops.artifactForKey
        ((artifacts.map (Described.entry principal.instanceIri run)).zip iris) ∧
      ((Advertise.addEntries server data (draw.site place) principal run runIri role p artifacts).failed = none →
        iris.length = artifacts.length ∧
        (Advertise.addEntries server data (draw.site place) principal run runIri role p artifacts).artifacts =
          p.artifacts ++ iris) := by
  have each (p : Progress) (entry : ArtifactIn × Nat)
      (free : ∀ n, drawnAt server.base (draw.site place) entry n → ∀ k, p.ops.artifactForKey k ≠ some n) :
      NamesOne server (drawnAt server.base (draw.site place) entry) p (Described.entry principal.instanceIri run entry.1)
        (Advertise.entryIri server data ((draw.site place).site entry.2) principal run runIri role p entry.1) := by
    have is : identity server (Described.entry principal.instanceIri run entry.1) = entryIdentity server run entry.1 := rfl
    exact entryIri_names is (free _ rfl)
  have free : ∀ entry ∈ artifacts.zipIdx, ∀ n, drawnAt server.base (draw.site place) entry n →
      ∀ k, p.ops.artifactForKey k ≠ some n :=
    fun entry mem n made => unused n (drawn_of_drawnAt ⟨entry, mem, made⟩)
  obtain ⟨iris, names, finished⟩ := fold_names server.platform runIri role each artifacts.zipIdx
    (drawnAt_apart injective artifacts) p free
  unfold Advertise.addEntries
  simp only [Calls.addEntry_eq]
  refine ⟨iris, ?_, ?_⟩
  · rw [map_fst_zipIdx (Described.entry principal.instanceIri run)] at names
    exact names.mono (fun n made => drawn_of_drawnAt made)
  · intro working
    obtain ⟨counted, appended⟩ := finished working
    rw [List.length_zipIdx] at counted
    exact ⟨counted, appended⟩

theorem addDatasets_names {data : Dataset} {draw : Draw} {p : Progress} (principal : Principal) (runIri : String)
    (role : Role) (datasets : List Json) {place : Nat} (injective : Function.Injective draw.id)
    (unused : ∀ entry ∈ datasets.zipIdx, ∀ n, drawnAt server.base (draw.site place) entry n →
      ∀ k, p.ops.artifactForKey k ≠ some n) :
    ∃ iris, Names (identity server) (fun n => ∃ entry ∈ datasets.zipIdx, drawnAt server.base (draw.site place) entry n)
        p.ops.artifactForKey
        (Openlineage.addDatasets server data (draw.site place) principal runIri role p datasets).ops.artifactForKey
        ((datasets.map (datasetOf server data)).zip iris) ∧
      ((Openlineage.addDatasets server data (draw.site place) principal runIri role p datasets).failed = none →
        iris.length = datasets.length ∧
        (Openlineage.addDatasets server data (draw.site place) principal runIri role p datasets).artifacts =
          p.artifacts ++ iris) := by
  have each (p : Progress) (entry : Json × Nat)
      (free : ∀ n, drawnAt server.base (draw.site place) entry n → ∀ k, p.ops.artifactForKey k ≠ some n) :
      NamesOne server (drawnAt server.base (draw.site place) entry) p (datasetOf server data entry.1)
        (Openlineage.mapDataset server data ((draw.site place).site entry.2) principal role p entry.1) :=
    mapDataset_names (free _ rfl)
  obtain ⟨iris, names, finished⟩ := fold_names server.platform runIri role each datasets.zipIdx
    (drawnAt_apart injective datasets) p unused
  unfold Openlineage.addDatasets
  simp only [Calls.addDataset_eq]
  refine ⟨iris, ?_, ?_⟩
  · rw [map_fst_zipIdx (datasetOf server data)] at names
    exact names
  · intro working
    obtain ⟨counted, appended⟩ := finished working
    rw [List.length_zipIdx] at counted
    exact ⟨counted, appended⟩

/-- The entries of an advertisement with the artifacts the registry answers. -/
def entriesNamed (principal : Principal) (run : RunIn) (artifacts : List ArtifactIn) (answer : AppResult AdvertiseOut) :
    List (Described × String) :=
  match answer with
  | .ok out => (artifacts.map (Described.entry principal.instanceIri run)).zip out.artifacts
  | .error _ => []

theorem advertise_names {state : State} {draw : Draw} (principal : Principal) (input : AdvertiseIn) (role : Role)
    (injective : Function.Injective draw.id)
    (unused : ∀ n, Drawn server.base draw n → ∀ k, state.ops.artifactForKey k ≠ some n) :
    Names (identity server) (Drawn server.base draw) state.ops.artifactForKey
      (Advertise.advertise server state draw principal input role).state.ops.artifactForKey
      (entriesNamed principal (Advertise.runInput server input.run) input.artifacts
        (Advertise.advertise server state draw principal input role).response) := by
  unfold Advertise.advertise Outcome.planned
  cases Advertise.admitted server state.data (draw.site 0) principal input role with
  | error e => exact Names.refl _ _
  | ok instanceIri =>
    have started := @resolveRun_keys server (draw.site 1) principal instanceIri (Advertise.runInput server input.run)
      { ops := state.ops }
    simp only
    generalize Advertise.resolveRun server (draw.site 1) principal instanceIri
      (Advertise.runInput server input.run) { ops := state.ops } = run at started ⊢
    obtain ⟨table, listed⟩ := started
    obtain ⟨iris, names, finished⟩ := @addEntries_names server state.data draw run.2 principal
      (Advertise.runInput server input.run) run.1 role input.artifacts 2 injective (by rw [table]; exact unused)
    generalize Advertise.addEntries server state.data (draw.site 2) principal (Advertise.runInput server input.run) run.1
      role run.2 input.artifacts = p at names finished ⊢
    rw [table] at names
    rw [conclude_ops]
    unfold entriesNamed
    split
    · rename_i out answered
      obtain ⟨working, rfl⟩ := conclude_ok answered
      obtain ⟨_, appended⟩ := finished working
      simp only [appended, listed, List.nil_append]
      exact names
    · exact names.forget

/-- The datasets of an event with the artifacts the registry answers. -/
def datasetsNamed (server : Server) (data : Dataset) (event : Json) (answer : AppResult Openlineage.Ingested) :
    List (Described × String) :=
  match answer with
  | .ok out => ((Openlineage.datasets event "outputs").map (datasetOf server data)).zip out.produced ++
      ((Openlineage.datasets event "inputs").map (datasetOf server data)).zip out.consumed
  | .error _ => []

theorem ingest_names {state : State} {draw : Draw} (principal : Principal) (event : Json)
    (injective : Function.Injective draw.id)
    (unused : ∀ n, Drawn server.base draw n → ∀ k, state.ops.artifactForKey k ≠ some n) :
    Names (identity server) (Drawn server.base draw) state.ops.artifactForKey
      (Openlineage.ingest server state draw principal event).state.ops.artifactForKey
      (datasetsNamed server state.data event (Openlineage.ingest server state draw principal event).response) := by
  unfold Openlineage.ingest Outcome.planned
  cases Openlineage.admitted server state.data principal with
  | error e => exact Names.refl _ _
  | ok instanceIri =>
    have started := @resolveRun_keys server (draw.site 0) principal instanceIri (Openlineage.runOf server event)
      { ops := state.ops }
    simp only
    generalize Advertise.resolveRun server (draw.site 0) principal instanceIri (Openlineage.runOf server event)
      { ops := state.ops } = run at started ⊢
    obtain ⟨table, listed⟩ := started
    have freeOutputs : ∀ entry ∈ (Openlineage.datasets event "outputs").zipIdx, ∀ n,
        drawnAt server.base (draw.site 1) entry n → ∀ k,
        (run.2.extend (describeLocal run.1 (Openlineage.payloadStatements server event))).ops.artifactForKey k ≠ some n := by
      intro entry mem n made k held
      exact unused n (drawn_of_drawnAt ⟨entry, mem, made⟩) k (by rw [← held, ← table]; rfl)
    obtain ⟨produced, outputs, written⟩ := @addDatasets_names server state.data draw
      (run.2.extend (describeLocal run.1 (Openlineage.payloadStatements server event))) principal run.1 .produced
      (Openlineage.datasets event "outputs") 1 injective freeOutputs
    generalize Openlineage.addDatasets server state.data (draw.site 1) principal run.1 .produced
      (run.2.extend (describeLocal run.1 (Openlineage.payloadStatements server event)))
      (Openlineage.datasets event "outputs") = p at outputs written ⊢
    have start : (run.2.extend (describeLocal run.1 (Openlineage.payloadStatements server event))).ops.artifactForKey =
        state.ops.artifactForKey := table
    rw [start] at outputs
    have disjoint : ∀ n, (∃ entry ∈ (Openlineage.datasets event "outputs").zipIdx,
        drawnAt server.base (draw.site 1) entry n) →
        ¬∃ entry ∈ (Openlineage.datasets event "inputs").zipIdx, drawnAt server.base (draw.site 2) entry n := by
      intro n output input
      obtain ⟨_, _, left⟩ := output
      obtain ⟨_, _, right⟩ := input
      have paths := injective (iriOf_inj (left.symm.trans right))
      simp at paths
    have freeInputs : ∀ entry ∈ (Openlineage.datasets event "inputs").zipIdx, ∀ n,
        drawnAt server.base (draw.site 2) entry n → ∀ k,
        ({ p with artifacts := [] } : Progress).ops.artifactForKey k ≠ some n := by
      intro entry mem n made k held
      rcases outputs.minted held with before | clash
      · exact unused n (drawn_of_drawnAt ⟨entry, mem, made⟩) k before
      · exact disjoint n clash ⟨entry, mem, made⟩
    obtain ⟨consumed, inputs, read⟩ := @addDatasets_names server state.data draw { p with artifacts := [] } principal run.1
      .consumed (Openlineage.datasets event "inputs") 2 injective freeInputs
    have stays : p.failed.isSome = true → (Openlineage.addDatasets server state.data (draw.site 2) principal run.1 .consumed
        { p with artifacts := [] } (Openlineage.datasets event "inputs")).failed = p.failed := by
      intro stopped
      have halted : ({ p with artifacts := [] } : Progress).failed.isSome = true := stopped
      unfold Openlineage.addDatasets
      rw [foldl_failed (fun q entry stopped => by simp [Openlineage.addDataset, stopped]) _ halted]
    generalize Openlineage.addDatasets server state.data (draw.site 2) principal run.1 .consumed { p with artifacts := [] }
      (Openlineage.datasets event "inputs") = q at inputs read stays ⊢
    have both : Names (identity server) (Drawn server.base draw) state.ops.artifactForKey q.ops.artifactForKey _ :=
      (outputs.trans inputs disjoint).mono (by
      intro n made
      rcases made with output | input
      · exact drawn_of_drawnAt output
      · exact drawn_of_drawnAt input)
    cases ended : q.failed with
    | some e => exact both.forget
    | none =>
      have working : p.failed = none := by
        by_contra stopped
        rw [stays (Option.isSome_iff_ne_none.2 stopped)] at ended
        exact stopped ended
      obtain ⟨_, made⟩ := written working
      obtain ⟨_, used⟩ := read ended
      have madeOnly : p.artifacts = produced := by
        rw [made]
        exact congrArg (· ++ produced) listed
      rw [List.nil_append] at used
      simp only
      unfold Outcome.commit
      cases Store.apply server.platform state.data q.tx with
      | error e => exact both.forget
      | ok data =>
        simp only [datasetsNamed, madeOnly, used]
        exact both

end Requests

end ToolArtifactRegistry.Api.Identities
