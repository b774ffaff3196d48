import ToolArtifactRegistry.Api.Hosting
import ToolArtifactRegistry.Domain.Hosting
import ToolArtifactRegistry.Laws.Specimen

/-! No software that is marked as not deployable is served by a deployment with an endpoint, as long as no
software is marked while a deployment of it carries one, or is about to. The mark is looked at when a deployment
is written, and by nothing else. -/
namespace ToolArtifactRegistry.Laws

open Library.Rdf Library.Runs Library.Programs Library.Results Ids Model Store Rdf Build Auth Domain
open Domain.Hosting Api.Hosting

section Checking

variable {server : Server} {data : Dataset} {input : InstanceIn}

/-- What the check reads of a software that is marked. -/
theorem bool_of_marked {software : String} (stated : Stated server.base data) (here : isLocal server.base software = true)
    (marked : unhostable software ∈ data) :
    (Props.fromQuads software (describeQuads data software)).bool Ns.tar "deployable" = some false := by
  have false_ : ∀ object ∈ (Props.fromQuads software (describeQuads data software)).terms Ns.tar "deployable",
      object = .literal "false" (Ns.xsd ++ "boolean") none := by
    intro object mem
    obtain ⟨quad, found, rfl⟩ := List.mem_map.1 mem
    obtain ⟨own, marks⟩ := List.mem_filter.1 found
    obtain ⟨described, key⟩ := List.mem_filter.1 own
    obtain ⟨other, same⟩ := stated quad (describe_sound described).1 (of_decide_eq_true marks)
      (by rw [of_decide_eq_true key]; exact here)
    rw [same, unhostable]
  have said : (.literal "false" (Ns.xsd ++ "boolean") none : Term) ∈
      (Props.fromQuads software (describeQuads data software)).terms Ns.tar "deployable" := by
    have described : unhostable software ∈ (describeQuads data software).filter (Store.about (.named software)) := by
      rw [describe_about_self]
      exact Dataset.mem_matching.2 ⟨marked, by simp [Store.about, unhostable]⟩
    refine List.mem_map.2 ⟨unhostable software, List.mem_filter.2 ⟨List.mem_filter.2 ⟨(List.mem_filter.1 described).1, ?_⟩, ?_⟩, rfl⟩
    · simp [unhostable, subjectKey]
    · simp [unhostable]
  unfold Props.bool Props.str Props.one
  cases terms : (Props.fromQuads software (describeQuads data software)).terms Ns.tar "deployable" with
  | nil =>
    rw [terms] at said
    cases said
  | cons first rest =>
    rw [false_ first (by simp [terms])]
    rfl

/-- The check passes where an endpoint is given only when the software is not marked. -/
theorem unmarked_of_check {software endpoint : String} (stated : Stated server.base data)
    (passes : Api.Instances.checkDeployable server data (some software) input = .ok ())
    (given : nonEmpty input.endpointUrl = some endpoint) (here : isLocal server.base software = true) :
    unhostable software ∉ data := by
  intro marked
  unfold Api.Instances.checkDeployable at passes
  simp only [given] at passes
  obtain ⟨quads, described, unmarked⟩ := bind_ok.1 passes
  have same : quads = describeQuads data software := by
    unfold describe at described
    split at described
    · exact (Except.ok.inj described).symm
    · cases described
  rw [same, if_pos (bool_of_marked stated here marked)] at unmarked
  cases unmarked

/-- A deployment whose software is resolved and checked is written to serve only what is not marked. -/
theorem unmarked_of_checked {platform : Platform} {base iri actor named : String} {draw : Draw} {software : Option String}
    {before : Dataset} (stated : Stated server.base data)
    (resolved : Api.Instances.resolveSoftwareFor server before input = .ok software)
    (passes : Api.Instances.checkDeployable server data software input = .ok ())
    (serves : Serves (· ∈ Instance.instanceQuads platform base iri draw input actor software) named)
    (here : isLocal server.base named = true) : unhostable named ∉ data := by
  obtain ⟨names, present, endpoint, given⟩ := serves_instance serves
  cases software with
  | some found =>
    obtain rfl : found = named := Option.some.inj names
    exact unmarked_of_check stated passes given here
  | none =>
    have own : nonEmpty input.software = some named := by
      have names : input.software = some named := names
      simp [names, nonEmpty, present, Option.filter]
    unfold Api.Instances.resolveSoftwareFor at resolved
    rw [own] at resolved
    cases resolved

end Checking

section Watching

variable (server : Server)

/-- The transaction a call applies. -/
def written : (desk server).Call → Option GraphTx
  | .inl (.register draft draw now software) => some (draft.registerTx server draw now software)
  | .inl (.replace draft draw now software) => some (draft.replaceTx server draw now software)
  | .inr (.apply tx) => some tx
  | _ => none

/-- The calls that look whether a software can be hosted. -/
def looks : (desk server).Call → Prop
  | .inl (.checkDeployable ..) => True
  | .inr (.checkDeployable ..) => True
  | _ => False

/-- What a deployment is written with: the software it serves is not marked. -/
def hosting : Watch (desk server) String where
  fit c := ∀ tx, written server c = some tx → ∃ iri, Writes tx iri
  inv state := Hosted server.base state.data ∧ Stated server.base state.data
  holds software state := isLocal server.base software = true → unhostable software ∉ state.data
  uses c software := ∃ tx, written server c = some tx ∧ Serves (· ∈ tx.insert) software
  checks := looks server

/-- Requests begin, and a record that is added is a new one. -/
def Asked (pool : Pool (desk server) Replied) : Turn (desk server) Replied → Prop
  | .start p => ∃ request : Request, p = request.program server
  | .next place => ∀ c, pool.Calls place c → ∀ tx, written server c = some tx → Anew tx pool.state.data

/-- No software is marked while a deployment of it carries an endpoint, or one that has been checked is still
to be written. -/
def Unserved (pool : Pool (desk server) Replied) : Turn (desk server) Replied → Prop
  | .start _ => True
  | .next place => ∀ c, pool.Calls place c → ∀ tx, written server c = some tx → ∀ software,
      isLocal server.base software = true → unhostable software ∈ tx.insert →
        ¬ Serves (· ∈ pool.state.data) software ∧ ∀ p ∈ pool.running, ¬ p.Owes (hosting server) software

variable {server}

theorem fit_of_reads {c : (desk server).Call} (reads : written server c = none) : (hosting server).fit c := by
  intro tx some_
  rw [reads] at some_
  cases some_

theorem unused_of_reads {c : (desk server).Call} (reads : written server c = none) (software : String) :
    ¬ (hosting server).uses c software := by
  intro uses
  obtain ⟨tx, some_, _⟩ := uses
  rw [reads] at some_
  cases some_

end Watching

section Updates

open Api.Updating (proceed rewrite Handler)

variable {server : Server} {α : Type}

/-- What is so of a refusal and of the rest is so of going on. -/
theorem proceed_cases {P : Handler server → Prop} {result : AppResult α} {next : α → Handler server}
    (refused : ∀ e, P (.done (.error e))) (each : ∀ value, result = .ok value → P (next value)) :
    P (proceed server result next) := by
  cases result with
  | error e => exact refused e
  | ok value => exact each value rfl

/-- A program that only reads, or adds what speaks of hosting nowhere. -/
def Harmless (p : Handler server) : Prop :=
  p.Each (fun c => (hosting server).right.fit c ∧ ∀ software, ¬ (hosting server).right.uses c software)

theorem harmless_proceed {result : AppResult α} {next : α → Handler server} (each : ∀ value, Harmless (next value)) :
    Harmless (proceed server result next) := proceed_cases (fun _ => trivial) (fun value _ => each value)

/-- A call that reads, before what is harmless. -/
theorem harmless_read {c : Api.Updating.Call} {rest : c.Reply → Handler server} (reads : written server (.inr c) = none)
    (each : ∀ reply, Harmless (rest reply)) : Harmless (.call c rest) :=
  ⟨⟨fit_of_reads reads, unused_of_reads reads⟩, each⟩

theorem harmless_apply {tx : GraphTx} {iri : String} {rest : AppResult Unit → Handler server} (writes : Writes tx iri)
    (serves : ∀ software, ¬ Serves (· ∈ tx.insert) software) (each : ∀ reply, Harmless (rest reply)) :
    Harmless (.call (.apply tx) rest) := by
  refine ⟨⟨fun other some_ => ?_, fun software uses => ?_⟩, each⟩
  · cases some_
    exact ⟨iri, writes⟩
  · obtain ⟨other, some_, served⟩ := uses
    cases some_
    exact serves software served

theorem harmless_rewrite {tx : GraphTx} {iri : String} {next : Handler server} (writes : Writes tx iri)
    (serves : ∀ software, ¬ Serves (· ∈ tx.insert) software) (later : Harmless next) :
    Harmless (rewrite server tx next) :=
  harmless_read rfl (fun _ => harmless_proceed (fun _ =>
    harmless_apply writes serves (fun _ => harmless_proceed (fun _ => later))))

theorem wary_of_harmless {p : Handler server} (harmless : Harmless p) : p.Wary (hosting server).right :=
  Program.wary_of_each harmless

/-- What is left of a rewriting uses what its transaction serves. -/
theorem serves_of_owes {tx : GraphTx} {next : Handler server} {software : String} (later : Harmless next)
    (owes : (rewrite server tx next).Owes (hosting server).right software) : Serves (· ∈ tx.insert) software := by
  by_contra unserved
  have applies : ¬ (hosting server).right.uses (.apply tx) software := by
    intro uses
    obtain ⟨other, some_, served⟩ := uses
    cases some_
    exact unserved served
  have nothing : ¬ (rewrite server tx next).Owes (hosting server).right software := by
    refine Program.not_owes_call (unused_of_reads (c := .inr (.enforceWrite tx.insert)) rfl software) (fun conforms => ?_)
    refine proceed_cases (P := fun p => ¬ p.Owes (hosting server).right software) (fun _ owes => owes) (fun _ _ => ?_)
    refine Program.not_owes_call applies (fun written => ?_)
    exact proceed_cases (P := fun p => ¬ p.Owes (hosting server).right software) (fun _ owes => owes)
      (fun _ _ => (wary_of_harmless later).free software)
  exact nothing owes

theorem each_rewrite {tx : GraphTx} {iri : String} {next : Handler server} (writes : Writes tx iri)
    (later : Harmless next) : (rewrite server tx next).Each (hosting server).right.fit := by
  have fits : (hosting server).right.fit (.apply tx) := by
    intro other some_
    cases some_
    exact ⟨iri, writes⟩
  refine ⟨fit_of_reads rfl, fun conforms => ?_⟩
  refine proceed_cases (P := Program.Each (hosting server).right.fit) (fun _ => trivial) (fun _ _ => ⟨fits, fun reply => ?_⟩)
  exact proceed_cases (P := Program.Each (hosting server).right.fit) (fun _ => trivial)
    (fun _ _ => (wary_of_harmless later).fits)

theorem checked_rewrite {tx : GraphTx} {next : Handler server} (later : Harmless next) :
    (rewrite server tx next).Checked (hosting server).right := by
  refine Program.checked_call (fun looks => looks) (fun _ _ => ?_)
  refine proceed_cases (P := Program.Checked (hosting server).right) (fun _ => trivial) (fun _ _ => ?_)
  refine Program.checked_call (fun looks => looks) (fun _ _ => ?_)
  exact proceed_cases (P := Program.Checked (hosting server).right) (fun _ => trivial)
    (fun _ _ => (wary_of_harmless later).checked)

/-- A deployment is written after its software was resolved and checked. -/
theorem wary_resolved {input : InstanceIn} {iri actor : String} {draw : Draw} {tx : Option String → GraphTx}
    {next : Handler server} (writes : ∀ software, Writes (tx software) iri)
    (inserts : ∀ software, (tx software).insert =
      Instance.instanceQuads server.platform server.base iri draw input actor software) (later : Harmless next) :
    (.call (.resolveSoftwareFor input) fun resolved => proceed server resolved fun software =>
      .call (.checkDeployable software input) fun deployable => proceed server deployable fun _ =>
      rewrite server (tx software) next : Handler server).Wary (hosting server).right where
  fits := by
    refine ⟨fit_of_reads rfl, fun resolved => ?_⟩
    refine proceed_cases (P := Program.Each (hosting server).right.fit) (fun _ => trivial)
      (fun software _ => ⟨fit_of_reads rfl, fun deployable => ?_⟩)
    exact proceed_cases (P := Program.Each (hosting server).right.fit) (fun _ => trivial)
      (fun _ _ => each_rewrite (writes software) later)
  checked := by
    refine Program.checked_call (fun looks => looks) (fun before _ => ?_)
    refine proceed_cases (P := Program.Checked (hosting server).right) (fun _ => trivial) (fun software resolved => ?_)
    intro state inv
    refine ⟨fun _ named owes here => ?_, ?_⟩
    · revert owes
      refine proceed_cases (P := fun p => p.Owes (hosting server).right named → unhostable named ∉ state.data)
        (fun _ owes => owes.elim) (fun _ passes owes => ?_)
      have serves := serves_of_owes later owes
      rw [inserts software] at serves
      exact unmarked_of_checked inv.2 resolved passes serves here
    · exact proceed_cases (P := Program.Checked (hosting server).right) (fun _ => trivial)
        (fun _ _ => checked_rewrite later)
  free software := by
    refine Program.not_owes_call (unused_of_reads rfl software) (fun resolved => ?_)
    exact proceed_cases (P := fun p => ¬ p.Owes (hosting server).right software) (fun _ owes => owes)
      (fun _ _ => Program.not_owes_check trivial (unused_of_reads rfl software))

theorem wary_proceed {result : AppResult α} {next : α → Handler server}
    (each : ∀ value, (next value).Wary (hosting server).right) : (proceed server result next).Wary (hosting server).right :=
  proceed_cases (P := Program.Wary (hosting server).right) (fun _ => Program.wary_done _) (fun value _ => each value)

theorem wary_read {c : Api.Updating.Call} {rest : c.Reply → Handler server} (reads : written server (.inr c) = none)
    (each : ∀ reply, (rest reply).Wary (hosting server).right) :
    (Program.call c rest : Handler server).Wary (hosting server).right :=
  Program.wary_call (fit_of_reads reads) (unused_of_reads reads) each

/-- The answer of a request reads what it has written. -/
theorem harmless_answer {c : Api.Updating.Call} {answer : c.Reply → AppResult Api.Updating.Answer}
    (reads : written server (.inr c) = none) :
    Harmless (.call c (fun reply => .done (answer reply)) : Handler server) := harmless_read reads (fun _ => trivial)

theorem wary_createInstance (draw : Draw) (principal : Principal) (input : InstanceIn) :
    (createInstance server draw principal input).Wary (hosting server).right := by
  refine wary_proceed (fun given => ?_)
  exact wary_resolved (fun software => writes_instance (fun quad mem _ => mem) (.inr rfl) rfl) (fun software => rfl)
    (harmless_answer rfl)

theorem wary_patchInstance (draw : Draw) (principal : Principal) (id : String) (body : Library.Serde.Json) :
    (Api.Updating.patchInstance server draw principal id body).Wary (hosting server).right := by
  refine wary_proceed (fun _ => wary_read rfl (fun loaded => ?_))
  refine wary_proceed (fun current => wary_proceed (fun input => ?_))
  exact wary_resolved (fun software => writes_instance (fun quad mem _ => mem) (.inl rfl) rfl) (fun software => rfl)
    (harmless_answer rfl)

theorem not_serves {quads : List Quad} (silent : ∀ quad ∈ quads, quad.predicate ≠ Ns.t Ns.tar "instanceOf")
    (software : String) : ¬ Serves (· ∈ quads) software := by
  intro serves
  obtain ⟨node, endpoint, names, _⟩ := serves
  exact silent _ names rfl

theorem software_serves_nothing {platform : Platform} {base iri actor : String} {draw : Draw} {input : SoftwareIn}
    {created : Option String} (software : String) :
    ¬ Serves (· ∈ Domain.Software.softwareQuads platform base iri draw input actor created) software := by
  refine not_serves (fun quad mem names => ?_) software
  have marks := software_own mem (by simp [hostingTerms, names])
  have other : Ns.t Ns.tar "deployable" ≠ Ns.t Ns.tar "instanceOf" := by decide
  rw [marks] at names
  exact other names

theorem harmless_createSoftware (draw : Draw) (principal : Principal) (input : SoftwareIn) :
    Harmless (createSoftware server draw principal input) := by
  refine harmless_proceed (fun _ => ?_)
  exact harmless_rewrite (writes_software (fun quad mem => mem) (.inr rfl) rfl) software_serves_nothing
    (harmless_answer rfl)

theorem harmless_patchSoftware (draw : Draw) (principal : Principal) (id : String) (body : Library.Serde.Json) :
    Harmless (Api.Updating.patchSoftware server draw principal id body) := by
  refine harmless_proceed (fun _ => harmless_read rfl (fun loaded => ?_))
  refine harmless_proceed (fun found => harmless_proceed (fun input => ?_))
  exact harmless_rewrite (writes_software (fun quad mem => mem) (.inl rfl) rfl) software_serves_nothing
    (harmless_answer rfl)

section Sync

theorem status_silent {iri : String} {status : SyncStatus} {quad : Quad}
    (mem : quad ∈ (Api.Software.syncStatusTx server iri status).insert) : quad.predicate ∉ hostingTerms := by
  have speaks : Speaks [Ns.t Ns.tar "syncedAt", Ns.t Ns.tar "syncStatus", Ns.t Ns.tar "syncError", Ns.t Ns.tar "syncChanged"]
      (Api.Software.syncStatusStatements server status) := by
    unfold Api.Software.syncStatusStatements
    simp only [speaks_append]
    and_intros
    · exact speaks_optDatetime _ _ (by simp)
    · exact speaks_text _ (by simp)
    · exact speaks_optText _ (by simp)
    · exact speaks_texts _ (by simp)
  have apart : ∀ term ∈ hostingTerms, term ∉ [Ns.t Ns.tar "syncedAt", Ns.t Ns.tar "syncStatus", Ns.t Ns.tar "syncError",
      Ns.t Ns.tar "syncChanged"] := by decide
  exact fun spoken => apart _ spoken (speaks _ (mem_finish.1 mem).2.2)

theorem harmless_silent {tx : GraphTx} {rest : AppResult Unit → Handler server}
    (silent : ∀ quad ∈ tx.insert, quad.predicate ∉ hostingTerms) (whole : tx.deleteSubjects = [])
    (graphs : tx.clearGraphs = []) (each : ∀ reply, Harmless (rest reply)) : Harmless (.call (.apply tx) rest) := by
  have writes : Writes tx "" := writes_silent silent whole graphs
  refine harmless_apply writes (not_serves (fun quad mem names => ?_)) each
  exact silent quad mem (by simp [hostingTerms, names])

theorem harmless_writeSyncStatus {iri : String} {status : SyncStatus} {next : Handler server} (later : Harmless next) :
    Harmless (Api.Updating.writeSyncStatus server iri status next) :=
  harmless_silent (fun _ mem => status_silent mem) rfl rfl (fun _ => harmless_proceed (fun _ => later))

theorem harmless_addReleases {principal : Principal} {draw : Draw} {iri : String} {known : List String}
    {next : List String → Handler server} (later : ∀ added, Harmless (next added)) (place : Nat)
    (releases : List ReleaseIn) (added : List String) :
    Harmless (Api.Updating.addReleases server principal draw iri known next place releases added) := by
  induction releases generalizing place added with
  | nil => exact later added
  | cons release rest ih =>
    unfold Api.Updating.addReleases
    split
    · exact ih _ _
    · refine harmless_read rfl (fun conforms => ?_)
      cases conforms with
      | error e => exact ih _ _
      | ok _ => exact harmless_silent (fun _ mem => release_silent mem) rfl rfl (fun _ => harmless_proceed (fun _ => ih _ _))

theorem harmless_newReleases {principal : Principal} {draw : Draw} {iri : String} {next : List String → Handler server}
    (later : ∀ added, Harmless (next added)) (releases : List ReleaseIn) :
    Harmless (Api.Updating.newReleases server principal draw iri releases next) := by
  unfold Api.Updating.newReleases
  split
  · exact later []
  · exact harmless_read rfl (fun known => harmless_addReleases later 0 releases [])

theorem harmless_reportSync (draw : Draw) (iri : String) (status : SyncStatus) (synced : Forge.Syncing)
    (added : List String) : Harmless (Api.Updating.reportSync server draw iri status synced added) := by
  have answers : Harmless (Api.Updating.answerSync server draw iri synced added) := harmless_answer rfl
  unfold Api.Updating.reportSync
  split
  · exact answers
  · exact harmless_writeSyncStatus answers

theorem harmless_sync (draw : Draw) (principal : Principal) (id : String) (forge : Forge.GitHub) :
    Harmless (Api.Updating.sync server draw principal id forge) := by
  refine harmless_proceed (fun _ => harmless_read rfl (fun loaded => ?_))
  refine harmless_proceed (fun (existing, cfg, created) => harmless_read rfl (fun outcome => ?_))
  cases outcome with
  | error message => exact harmless_writeSyncStatus trivial
  | ok synced =>
    refine harmless_rewrite (writes_software (fun quad mem => mem) (.inl rfl) rfl) software_serves_nothing ?_
    exact harmless_writeSyncStatus (harmless_newReleases (fun added => harmless_reportSync draw _ _ synced added) _)

end Sync

end Updates

section Announcements

open Api.Announcing (proceed)

variable {server : Server}

/-- What an announcement adds to the record it writes speaks of hosting nowhere. -/
theorem stamped_own {tx : GraphTx} {iri now : String} {quad : Quad} (mem : quad ∈ (Api.Instances.stampSeen server tx iri now).insert)
    (spoken : quad.predicate ∈ hostingTerms) : quad ∈ tx.insert := by
  rcases List.mem_append.1 mem with own | stamp
  · exact own
  · have only := only_datetime server.platform Ns.tar "lastSeenAt" now _ (mem_finish.1 stamp).2.2
    have apart : Ns.t Ns.tar "lastSeenAt" ∉ hostingTerms := by decide
    exact absurd (only ▸ spoken) apart

theorem stamped_serves {tx : GraphTx} {iri now software : String}
    (serves : Serves (· ∈ (Api.Instances.stampSeen server tx iri now).insert) software) : Serves (· ∈ tx.insert) software := by
  obtain ⟨node, endpoint, names, carries⟩ := serves
  exact ⟨node, endpoint, stamped_own names (by simp [hostingTerms]), stamped_own carries (by simp [hostingTerms])⟩

theorem proceed_announcing {α : Type} {P : Api.Announcing.Handler server → Prop} {result : AppResult α}
    {next : α → Api.Announcing.Handler server} (refused : ∀ e, P (.done (.error e)))
    (each : ∀ value, result = .ok value → P (next value)) : P (proceed server result next) := by
  cases result with
  | error e => exact refused e
  | ok value => exact each value rfl

variable {draft : Api.Announcing.Draft} {draw : Draw}

/-- The answer of an announcement, after its write. -/
theorem wary_answer (result : AppResult Unit) : (proceed server result fun _ =>
    .call (.answer draw draft.iri) .done : Api.Announcing.Handler server).Wary (hosting server).left :=
  proceed_announcing (P := Program.Wary (hosting server).left) (fun _ => Program.wary_done _) (fun _ _ =>
    Program.wary_call (fit_of_reads (c := .inl (.answer draw draft.iri)) rfl) (unused_of_reads rfl)
      (fun _ => Program.wary_done _))

/-- The write of an announcement, whose transaction is that of its draft. -/
structure Draws (server : Server) (draft : Api.Announcing.Draft) (software : Option String) (c : Api.Announcing.Call)
    (tx : GraphTx) : Prop where
  applies : written server (.inl c) = some tx
  writes : Writes tx draft.iri
  serves : ∀ named, Serves (· ∈ tx.insert) named →
    ∃ draw, Serves (· ∈ draft.quads server draw software) named

theorem draws_register (draw : Draw) (now : String) (software : Option String) :
    Draws server draft software (.register draft draw now software) (draft.registerTx server draw now software) where
  applies := rfl
  writes := writes_instance (fun _ mem spoken => stamped_own mem spoken) (.inr rfl) rfl
  serves _ serves := ⟨draw, stamped_serves serves⟩

theorem draws_replace (draw : Draw) (now : String) (software : Option String) :
    Draws server draft software (.replace draft draw now software) (draft.replaceTx server draw now software) where
  applies := rfl
  writes := writes_instance (fun _ mem spoken => stamped_own mem spoken) (.inl rfl) rfl
  serves _ serves := ⟨draw, stamped_serves serves⟩

/-- A program that goes on to write a deployment, and uses what its draft serves. -/
structure Drafts (draft : Api.Announcing.Draft) (software : Option String) (p : Api.Announcing.Handler server) : Prop where
  fits : p.Each (hosting server).left.fit
  checked : p.Checked (hosting server).left
  owes : ∀ named, p.Owes (hosting server).left named → ∃ draw, Serves (· ∈ draft.quads server draw software) named

theorem drafts_call {software : Option String} {c : Api.Announcing.Call} {rest : c.Reply → Api.Announcing.Handler server}
    {tx : GraphTx} (draws : Draws server draft software c tx) (blind : ¬ (hosting server).left.checks c)
    (later : ∀ reply, (rest reply).Wary (hosting server).left) : Drafts draft software (.call c rest) where
  fits := by
    refine ⟨fun other some_ => ?_, fun reply => (later reply).fits⟩
    rw [draws.applies] at some_
    cases some_
    exact ⟨draft.iri, draws.writes⟩
  checked := Program.checked_call blind (fun _ _ => (later _).checked)
  owes named owes := by
    rcases owes with uses | further
    · obtain ⟨other, some_, served⟩ := uses
      rw [draws.applies] at some_
      cases some_
      exact draws.serves named served
    · obtain ⟨_, reply, owes⟩ := further
      exact absurd owes ((later reply).free named)

theorem drafts_proceed {α : Type} {software : Option String} {result : AppResult α}
    {next : α → Api.Announcing.Handler server} (each : ∀ value, Drafts draft software (next value)) :
    Drafts draft software (proceed server result next) :=
  proceed_announcing (P := Drafts draft software) (fun _ => ⟨trivial, trivial, fun _ owes => owes.elim⟩)
    (fun value _ => each value)

theorem drafts_read {software : Option String} {c : Api.Announcing.Call} {rest : c.Reply → Api.Announcing.Handler server}
    (reads : written server (.inl c) = none) (blind : ¬ (hosting server).left.checks c)
    (each : ∀ reply, Drafts draft software (rest reply)) : Drafts draft software (.call c rest) where
  fits := ⟨fit_of_reads reads, fun reply => (each reply).fits⟩
  checked := Program.checked_call blind (fun _ _ => (each _).checked)
  owes named owes := by
    rcases owes with uses | further
    · exact absurd uses (unused_of_reads reads named)
    · obtain ⟨_, reply, owes⟩ := further
      exact (each reply).owes named owes

/-- A deployment announced is written after its software was resolved and checked. -/
theorem wary_drafted {rest : Option String → Api.Announcing.Handler server}
    (drafts : ∀ software, Drafts draft software (rest software)) :
    (.call (.resolveSoftwareFor draft) fun resolved => proceed server resolved fun software =>
      .call (.checkDeployable draft software) fun deployable => proceed server deployable fun _ => rest software :
      Api.Announcing.Handler server).Wary (hosting server).left where
  fits := by
    refine ⟨fit_of_reads rfl, fun resolved => ?_⟩
    refine proceed_announcing (P := Program.Each (hosting server).left.fit) (fun _ => trivial)
      (fun software _ => ⟨fit_of_reads rfl, fun deployable => ?_⟩)
    exact proceed_announcing (P := Program.Each (hosting server).left.fit) (fun _ => trivial)
      (fun _ _ => (drafts software).fits)
  checked := by
    refine Program.checked_call (fun looks => looks) (fun before _ => ?_)
    refine proceed_announcing (P := Program.Checked (hosting server).left) (fun _ => trivial) (fun software resolved => ?_)
    intro state inv
    refine ⟨fun _ named owes here => ?_, ?_⟩
    · revert owes
      refine proceed_announcing (P := fun p => p.Owes (hosting server).left named → unhostable named ∉ state.data)
        (fun _ owes => owes.elim) (fun _ passes owes => ?_)
      obtain ⟨draw, serves⟩ := (drafts software).owes named owes
      exact unmarked_of_checked inv.2 resolved passes serves here
    · exact proceed_announcing (P := Program.Checked (hosting server).left) (fun _ => trivial)
        (fun _ _ => (drafts software).checked)
  free software := by
    refine Program.not_owes_call (unused_of_reads (c := .inl (.resolveSoftwareFor draft)) rfl software) (fun resolved => ?_)
    exact proceed_announcing (P := fun p => ¬ p.Owes (hosting server).left software) (fun _ owes => owes)
      (fun _ _ => Program.not_owes_check trivial (unused_of_reads rfl software))

theorem wary_announced {α : Type} {result : AppResult α} {next : α → Api.Announcing.Handler server}
    (each : ∀ value, (next value).Wary (hosting server).left) : (proceed server result next).Wary (hosting server).left :=
  proceed_announcing (P := Program.Wary (hosting server).left) (fun _ => Program.wary_done _) (fun value _ => each value)

theorem wary_replaceDraft (draw : Draw) (draft : Api.Announcing.Draft) :
    (Api.Announcing.replaceDraft server draw draft).Wary (hosting server).left := by
  refine Program.wary_call (fit_of_reads rfl) (unused_of_reads rfl) (fun conforms => wary_announced (fun _ => ?_))
  exact wary_drafted (fun software => drafts_call (draws_replace _ _ software) (fun looks => looks) wary_answer)

theorem wary_registerDraft (draw : Draw) (draft : Api.Announcing.Draft) :
    (Api.Announcing.registerDraft server draw draft).Wary (hosting server).left := by
  refine wary_drafted (fun software => drafts_read rfl (fun looks => looks) (fun conforms => drafts_proceed (fun _ => ?_)))
  exact drafts_call (draws_register _ _ software) (fun looks => looks) wary_answer

theorem wary_existingRecord {principal : Principal} {input : SelfAnnounceIn}
    {next : Option String → Api.Announcing.Handler server} (each : ∀ existing, (next existing).Wary (hosting server).left) :
    (Api.Announcing.existingRecord server principal input next).Wary (hosting server).left := by
  have looked : ∀ then_ : Option String → Api.Announcing.Handler server, (∀ found, (then_ found).Wary (hosting server).left) →
      (Program.call (.findSelfRegistered principal.subject (Api.Instances.selfKey principal input)) then_ :
        Api.Announcing.Handler server).Wary (hosting server).left :=
    fun _ each => Program.wary_call (fit_of_reads rfl) (unused_of_reads rfl) each
  unfold Api.Announcing.existingRecord
  split
  · exact looked _ (fun _ => each _)
  · split
    · exact each _
    · exact looked _ each

theorem wary_announceSelf (draw : Draw) (principal : Principal) (input : SelfAnnounceIn) :
    (Api.Announcing.announceSelf server draw principal input).Wary (hosting server).left := by
  refine wary_announced (fun clientId => wary_existingRecord (fun existing => ?_))
  cases existing with
  | some iri =>
    refine Program.wary_call (fit_of_reads rfl) (unused_of_reads rfl) (fun loaded => wary_announced (fun current => ?_))
    exact wary_replaceDraft draw _
  | none => exact wary_announced (fun authorised => wary_registerDraft draw _)

end Announcements

section Run

variable {server : Server}

/-- Every request looks at the software before it writes a deployment of it. -/
theorem wary_program (request : Request) : (request.program server).Wary (hosting server) := by
  cases request with
  | createInstance draw principal input => exact (wary_createInstance draw principal input).right
  | createSoftware draw principal input => exact (wary_of_harmless (harmless_createSoftware draw principal input)).right
  | announce draw principal input => exact (wary_announceSelf draw principal input).left
  | update edit =>
    cases edit with
    | instance_ draw principal id body => exact (wary_patchInstance draw principal id body).right
    | software draw principal id body => exact (wary_of_harmless (harmless_patchSoftware draw principal id body)).right
    | sync draw principal id forge => exact (wary_of_harmless (harmless_sync draw principal id forge)).right

/-- A call changes the store only by the transaction it applies. -/
theorem perform_data (c : (desk server).Call) (state : State) :
    ((desk server).perform c state).2.data = state.data ∨
      ∃ tx, written server c = some tx ∧ ((desk server).perform c state).2.data = effect state.data tx := by
  have applied : ∀ tx, (Api.Updating.applied server state tx).2.data = state.data ∨
      (Api.Updating.applied server state tx).2.data = effect state.data tx := by
    intro tx
    unfold Api.Updating.applied
    cases result : Store.apply server.platform state.data tx with
    | error e => exact .inl rfl
    | ok data => exact .inr (apply_ok result)
  have announced : ∀ tx, (Api.Announcing.applied server state tx).2.data = state.data ∨
      (Api.Announcing.applied server state tx).2.data = effect state.data tx := applied
  cases c with
  | inl c =>
    cases c with
    | register draft draw now software => exact (announced _).imp_right (fun same => ⟨_, rfl, same⟩)
    | replace draft draw now software => exact (announced _).imp_right (fun same => ⟨_, rfl, same⟩)
    | _ => exact .inl rfl
  | inr c =>
    cases c with
    | apply tx => exact (applied tx).imp_right (fun same => ⟨_, rfl, same⟩)
    | _ => exact .inl rfl

/-- One call, where it is allowed, keeps what is kept and what the programs under way have found. -/
theorem mindful_of_unserved {pool : Pool (desk server) Replied} {turn : Turn (desk server) Replied}
    (asked : Asked server pool turn) (unserved : Unserved server pool turn) : pool.Mindful (hosting server) turn := by
  cases turn with
  | start p =>
    obtain ⟨request, rfl⟩ := asked
    exact wary_program request
  | next place =>
    intro c calls inv used fits
    obtain ⟨hosted, stated⟩ := inv
    rcases perform_data c pool.state with same | changed
    · refine ⟨⟨same ▸ hosted, same ▸ stated⟩, fun p _ software _ holds here => ?_⟩
      rw [same]
      exact holds here
    · obtain ⟨tx, applies, same⟩ := changed
      obtain ⟨iri, writes⟩ := fits tx applies
      have anew := asked c calls tx applies
      have spares := unserved c calls tx applies
      refine ⟨⟨?_, ?_⟩, fun p under software owes holds here => ?_⟩
      · rw [same]
        exact hosted_effect hosted writes anew (fun software here serves => used software ⟨tx, applies, serves⟩ here)
          (fun software here marked => (spares software here marked).1)
      · rw [same]
        exact stated_effect stated writes
      · rw [same]
        intro marked
        rcases mem_effect_cases marked with before | inserted
        · exact holds here before
        · exact (spares software here inserted).2 p under owes

/-- In every run in which no software is marked while a deployment of it carries an endpoint, or one that has
been checked is still to be written, no marked software is served. -/
theorem marked_never_served {start : State} {turns : List (Turn (desk server) Replied)}
    (hosted : Hosted server.base start.data) (stated : Stated server.base start.data)
    (meets : Meets Pool.step (fun pool turn => Asked server pool turn ∧ Unserved server pool turn) ⟨start, []⟩ turns) :
    Hosted server.base (run Pool.step (⟨start, []⟩ : Pool (desk server) Replied) turns).state.data :=
  (Pool.run_honest (Pool.honest_empty (W := hosting server) ⟨hosted, stated⟩)
    (meets_mono Pool.step (fun _ _ meets => mindful_of_unserved meets.1 meets.2) meets)).inv.1

end Run

section Specimen

open Specimen

/-- A request begins, or the one at a place makes its next call. -/
abbrev Pace := Request ⊕ Nat

def turn (server : Server) : Pace → Turn (desk server) Replied
  | .inl request => .start (request.program server)
  | .inr place => .next place

/-- What the call at a place inserts satisfies a test. -/
def inserts (server : Server) (test : State → GraphTx → Bool) (pool : Pool (desk server) Replied) : Pace → Bool
  | .inl _ => true
  | .inr place =>
    match pool.running[place]? with
    | some (.call c _) => ((written server c).map (test pool.state)).getD true
    | _ => true

def insertsAll (server : Server) (test : State → GraphTx → Bool) : Pool (desk server) Replied → List Pace → Bool
  | _, [] => true
  | pool, move :: rest => inserts server test pool move && insertsAll server test (pool.step (turn server move)) rest

theorem inserts_of_calls {server : Server} {test : State → GraphTx → Bool} {pool : Pool (desk server) Replied} {place : Nat}
    {c : (desk server).Call} {tx : GraphTx} (passes : inserts server test pool (.inr place) = true)
    (calls : pool.Calls place c) (applies : written server c = some tx) : test pool.state tx = true := by
  obtain ⟨p, found, next⟩ := calls
  cases p with
  | done answer => cases next
  | call d rest =>
    obtain rfl : d = c := Option.some.inj next
    simpa only [inserts, found, applies, Option.map_some, Option.getD_some] using passes

theorem meets_of_inserts {server : Server} {test : State → GraphTx → Bool}
    {condition : Pool (desk server) Replied → Turn (desk server) Replied → Prop}
    (each : ∀ pool move, inserts server test pool move = true → condition pool (turn server move))
    {pool : Pool (desk server) Replied} {moves : List Pace} (passes : insertsAll server test pool moves = true) :
    Meets Pool.step condition pool (moves.map (turn server)) := by
  induction moves generalizing pool with
  | nil => trivial
  | cons move rest ih =>
    obtain ⟨here, later⟩ := Bool.and_eq_true_iff.1 passes
    exact ⟨each pool move here, ih later⟩

theorem asked_of_inserts {server : Server} {test : State → GraphTx → Bool}
    (new : ∀ state tx, test state tx = true → Anew tx state.data) (pool : Pool (desk server) Replied) (move : Pace)
    (passes : inserts server test pool move = true) : Asked server pool (turn server move) := by
  cases move with
  | inl request => exact ⟨request, rfl⟩
  | inr place => exact fun c calls tx applies => new _ _ (inserts_of_calls passes calls applies)

def addsNew (state : State) (tx : GraphTx) : Bool := decide (Anew tx state.data)

/-- What is added is new, and nothing is marked. -/
def marksNothing (state : State) (tx : GraphTx) : Bool :=
  addsNew state tx && tx.insert.all (fun quad => quad.predicate != Ns.t Ns.tar "deployable")

theorem unserved_of_inserts {server : Server} (pool : Pool (desk server) Replied) (move : Pace)
    (passes : inserts server marksNothing pool move = true) : Unserved server pool (turn server move) := by
  cases move with
  | inl request => trivial
  | inr place =>
    intro c calls tx applies software _ marked
    have unmarked := (Bool.and_eq_true_iff.1 (inserts_of_calls passes calls applies)).2
    have other := List.all_eq_true.1 unmarked _ marked
    simp [unhostable] at other

def theSoftware : String := "https://reg.example/software/aa"

/-- A deployment of the software, with an endpoint. -/
def hostedThere : InstanceIn :=
  { label := "there", software := some theSoftware, endpointUrl := some "https://there.example" }

/-- Each request runs by itself. -/
def oneByOne (requests : List Request) : List Pace :=
  requests.zipIdx.flatMap (fun entry => .inl entry.1 :: List.replicate 8 (.inr entry.2))

def markedAfter : List Request :=
  [.createSoftware (draw "a") rootPrincipal { name := "soft" }, .createInstance (draw "b") rootPrincipal hostedThere,
    .update (.software (draw "c") rootPrincipal "aa" (.object [("deployable", .bool false)]))]

/-- A software is marked after its deployment was given an endpoint. -/
theorem marked_while_served : ¬ ∀ (server : Server) (start : State) (turns : List (Turn (desk server) Replied)),
    Hosted server.base start.data → Stated server.base start.data → Meets Pool.step (Asked server) ⟨start, []⟩ turns →
      Hosted server.base (run Pool.step (⟨start, []⟩ : Pool (desk server) Replied) turns).state.data := by
  intro all
  have evaluated : insertsAll (registry []) addsNew ⟨State.empty, []⟩ (oneByOne markedAfter) = true ∧
      isLocal (registry []).base theSoftware = true ∧
      unhostable theSoftware ∈ (run Pool.step (⟨State.empty, []⟩ : Pool (desk (registry [])) Replied)
        ((oneByOne markedAfter).map (turn (registry [])))).state.data ∧
      ⟨.named "https://reg.example/instance/ba", Ns.t Ns.tar "instanceOf", .named theSoftware, Ns.gLocal⟩ ∈
        (run Pool.step (⟨State.empty, []⟩ : Pool (desk (registry [])) Replied)
          ((oneByOne markedAfter).map (turn (registry [])))).state.data ∧
      ⟨.named "https://reg.example/instance/ba", Ns.t Ns.dcat "endpointURL", .named "https://there.example", Ns.gLocal⟩ ∈
        (run Pool.step (⟨State.empty, []⟩ : Pool (desk (registry [])) Replied)
          ((oneByOne markedAfter).map (turn (registry [])))).state.data := by
    decide
  obtain ⟨asked, here, marked, names, carries⟩ := evaluated
  have nothing : ∀ quad ∈ State.empty.data, False := by decide
  refine all (registry []) State.empty _ (fun _ _ mem => (nothing _ mem).elim) (fun quad mem => (nothing quad mem).elim)
    (meets_of_inserts (asked_of_inserts (fun _ _ new => of_decide_eq_true new)) asked) theSoftware here marked ?_
  exact ⟨_, _, names, carries⟩

/-- A software that is installed and never hosted, as an administrator registered it. -/
def installable : State :=
  (Api.Software.create (registry []) State.empty (draw "a") rootPrincipal { name := "soft", deployable := some false }).state

/-- A deployment with an endpoint, which is refused, and one without. -/
def installed : List Request :=
  [.createInstance (draw "b") rootPrincipal hostedThere,
    .createInstance (draw "c") rootPrincipal { hostedThere with endpointUrl := none }]

theorem marked_never_served_installed :
    Hosted (registry []).base (run Pool.step (⟨installable, []⟩ : Pool (desk (registry [])) Replied)
      ((oneByOne installed).map (turn (registry [])))).state.data := by
  have evaluated : (∀ quad ∈ installable.data.quads, quad.predicate ≠ Ns.t Ns.tar "instanceOf" ∧
        (quad.predicate = Ns.t Ns.tar "deployable" → quad = unhostable theSoftware)) ∧
      insertsAll (registry []) marksNothing ⟨installable, []⟩ (oneByOne installed) = true := by
    decide
  obtain ⟨held, passes⟩ := evaluated
  refine marked_never_served (fun _ _ _ => not_serves (fun quad mem => (held quad mem).1) _)
    (fun quad mem marks _ => ⟨theSoftware, (held quad mem).2 marks⟩) (meets_of_inserts (fun pool move passes => ?_) passes)
  refine ⟨asked_of_inserts (fun _ _ new => ?_) pool move passes, unserved_of_inserts pool move passes⟩
  exact of_decide_eq_true (Bool.and_eq_true_iff.1 new).1

end Specimen

end ToolArtifactRegistry.Laws
