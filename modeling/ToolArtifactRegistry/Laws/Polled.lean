import ToolArtifactRegistry.Library.Runs
import ToolArtifactRegistry.Polling

/-! The numbers beside a software are those of the last answer about the repository the row names, and a pass asks about
every record whose numbers are out of date and about no other. -/
namespace ToolArtifactRegistry.Laws.Polled

open Library.Rdf Library.Runs Library.Tables Library.Text Library.Instants Domain Rdf Polling

/-- A poll that was written down. -/
structure Poll where
  now : Nat
  iri : String
  repo : String
  reply : Polling.Reply

def found? : Polling.Reply → Option RepoStats
  | .found stats => some stats
  | _ => none

def error? : Polling.Reply → Option String
  | .failed error => some error
  | _ => none

def kept : Polling.Reply → Bool
  | .lost => false
  | _ => true

/-- The polls of a run, the last one first. -/
def note (history : List Poll) (poller : Poller) : Polling.Event → List Poll
  | .begin_ _ _ => history
  | .polled now reply =>
    match poller.pass with
    | [] => history
    | (iri, repo) :: _ => if kept reply then ⟨now, iri, repo, reply⟩ :: history else history

def polls (interval : Nat) (events : List Polling.Event) : List Poll :=
  remember (step interval) note [] Poller.empty events

def about (iri : String) (history : List Poll) : List Poll := history.filter (fun poll => decide (poll.iri = iri))

/-- The last answer since the repository was another one. -/
def lastFound (repo : String) (history : List Poll) : Option (Nat × RepoStats) :=
  (history.takeWhile (fun poll => decide (poll.repo = repo))).findSome? (fun poll =>
    (found? poll.reply).map (fun stats => (poll.now, stats)))

/-- The row of a software after its last poll. -/
def rowOf (iri : String) (last : Poll) (history : List Poll) : RepositoryStats where
  softwareIri := iri
  repo := last.repo
  stars := (lastFound last.repo history).bind (fun found => found.2.stars)
  forks := (lastFound last.repo history).bind (fun found => found.2.forks)
  lastCommitAt := (lastFound last.repo history).bind (fun found => found.2.pushedAt)
  fetchedAt := (lastFound last.repo history).map (fun found => stamp found.1)
  checkedAt := stamp last.now
  lastError := error? last.reply

/-- What the polls of a software have its row say. -/
def told (iri : String) (history : List Poll) : Option RepositoryStats :=
  history.head?.map (fun last => rowOf iri last history)

section Rows

variable {iri other repo error : String} {now : Nat} {stats : RepoStats} {table : List RepositoryStats}

theorem stats_same : repositoryStats iri (recordRepositoryStats now iri repo stats table) =
    some ⟨iri, repo, stats.stars, stats.forks, stats.pushedAt, some (stamp now), stamp now, none⟩ := by
  have gone : (deleteWhere (fun row => decide (row.softwareIri = iri)) table).find?
      (fun row => decide (row.softwareIri = iri)) = none := by
    rw [List.find?_eq_none]
    intro row mem
    simpa using (mem_deleteWhere.1 mem).2
  unfold repositoryStats recordRepositoryStats
  rw [List.find?_append, gone, Option.none_or, List.find?_cons_of_pos (by simp)]

theorem stats_other (apart : other ≠ iri) :
    repositoryStats other (recordRepositoryStats now iri repo stats table) = repositoryStats other table := by
  have rest : (deleteWhere (fun row => decide (row.softwareIri = iri)) table).find?
      (fun row => decide (row.softwareIri = other)) = table.find? (fun row => decide (row.softwareIri = other)) := by
    unfold deleteWhere
    rw [List.find?_filter]
    congr 1
    funext row
    by_cases here : row.softwareIri = other
    · simp [here, apart]
    · simp [here]
  unfold repositoryStats recordRepositoryStats
  rw [List.find?_append, rest, List.find?_cons_of_neg (by simpa using apart.symm), List.find?_nil, Option.or_none]

theorem updated_find (wanted : String) :
    (updateWhere (fun row => decide (row.softwareIri = iri)) (Polling.failed now repo error) table).find?
        (fun row => decide (row.softwareIri = wanted)) =
      (table.find? (fun row => decide (row.softwareIri = wanted))).map (fun row =>
        if decide (row.softwareIri = iri) then Polling.failed now repo error row else row) :=
  @find_updateWhere _ _ RepositoryStats.softwareIri _ _ (Polling.failed now repo error) table (fun _ => rfl) wanted

theorem error_same : repositoryStats iri (recordRepositoryError now iri repo error table) =
    some (match repositoryStats iri table with
      | some row => Polling.failed now repo error row
      | none => ⟨iri, repo, none, none, none, none, stamp now, some error⟩) := by
  unfold recordRepositoryError
  cases held : repositoryStats iri table with
  | none =>
    rw [if_neg (by simp)]
    unfold repositoryStats at held ⊢
    rw [List.find?_append, held, Option.none_or, List.find?_cons_of_pos (by simp)]
  | some row =>
    have named : row.softwareIri = iri := by simpa using List.find?_some held
    rw [if_pos (by simp)]
    unfold repositoryStats at held ⊢
    rw [updated_find, held, Option.map_some, if_pos (by simpa using named)]

theorem error_other (apart : other ≠ iri) :
    repositoryStats other (recordRepositoryError now iri repo error table) = repositoryStats other table := by
  unfold recordRepositoryError
  split
  · unfold repositoryStats
    rw [updated_find]
    cases held : table.find? (fun row => decide (row.softwareIri = other)) with
    | none => rfl
    | some row =>
      have named : row.softwareIri = other := by simpa using List.find?_some held
      rw [Option.map_some, if_neg (by simpa [named] using apart)]
  · unfold repositoryStats
    rw [List.find?_append, List.find?_cons_of_neg (by simpa using apart.symm), List.find?_nil, Option.or_none]

end Rows

section Histories

variable {interval : Nat} {iri repo : String} {now : Nat} {history : List Poll}

theorem lastFound_found (stats : RepoStats) :
    lastFound repo (⟨now, iri, repo, .found stats⟩ :: history) = some (now, stats) := by
  unfold lastFound
  rw [List.takeWhile_cons_of_pos (by simp), List.findSome?_cons_of_isSome (by rfl)]
  rfl

/-- After a failure the numbers are those of before, unless the repository is another one. -/
theorem lastFound_failed (error : String) (last : Poll) :
    lastFound repo (⟨now, iri, repo, .failed error⟩ :: last :: history) =
      if last.repo = repo then lastFound repo (last :: history) else none := by
  unfold lastFound
  rw [List.takeWhile_cons_of_pos (by simp), List.findSome?_cons_of_isNone (by rfl)]
  by_cases same : last.repo = repo
  · rw [if_pos same]
  · rw [if_neg same, List.takeWhile_cons_of_neg (by simpa using same), List.findSome?_nil]

theorem about_same (reply : Polling.Reply) : about iri (⟨now, iri, repo, reply⟩ :: history) =
    ⟨now, iri, repo, reply⟩ :: about iri history := List.filter_cons_of_pos (by simp)

theorem about_other {other : String} (apart : other ≠ iri) (reply : Polling.Reply) :
    about other (⟨now, iri, repo, reply⟩ :: history) = about other history :=
  List.filter_cons_of_neg (by simpa using apart.symm)

/-- The rows are what the polls have them say. -/
def Told (history : List Poll) (poller : Poller) : Prop :=
  ∀ iri, repositoryStats iri poller.table = told iri (about iri history)

theorem record_found {table : List RepositoryStats} {rest : List Polling.Target} (stats : RepoStats)
    (tells : ∀ other, repositoryStats other table = told other (about other history)) :
    Told (⟨now, iri, repo, .found stats⟩ :: history) ⟨recordRepositoryStats now iri repo stats table, rest⟩ := by
  intro other
  by_cases same : other = iri
  · subst same
    rw [about_same, stats_same]
    simp [told, rowOf, lastFound_found, error?]
  · rw [about_other same, stats_other same]
    exact tells other

theorem record_failed {table : List RepositoryStats} {rest : List Polling.Target} (error : String)
    (tells : ∀ other, repositoryStats other table = told other (about other history)) :
    Told (⟨now, iri, repo, .failed error⟩ :: history) ⟨recordRepositoryError now iri repo error table, rest⟩ := by
  intro other
  by_cases same : other = iri
  · subst same
    rw [about_same, error_same, tells other]
    cases before : about other history with
    | nil => simp [told, rowOf, lastFound, error?, found?]
    | cons last earlier =>
      simp only [told, rowOf, List.head?_cons, Option.map_some, lastFound_failed, Polling.failed, error?]
      by_cases unchanged : last.repo = repo
      · simp [unchanged]
      · simp [unchanged]
  · rw [about_other same, error_other same]
    exact tells other

theorem step_told {poller : Poller} {event : Polling.Event} (tells : Told history poller) :
    Told (note history poller event) (step interval poller event) := by
  cases event with
  | begin_ now rows =>
    simp only [step, note]
    split <;> exact tells
  | polled now reply =>
    simp only [step, note]
    cases poller.pass with
    | nil => exact tells
    | cons target rest =>
      cases reply with
      | found stats => exact record_found stats tells
      | failed error => exact record_failed error tells
      | lost => exact tells

theorem rows_told (interval : Nat) (events : List Polling.Event) (iri : String) :
    repositoryStats iri (run (step interval) Poller.empty events).table = told iri (about iri (polls interval events)) :=
  @remember_invariant _ _ (step interval) _ Told note (fun _ _ => True) _ _ _ (fun _ => rfl)
    (fun _ _ _ tells _ => step_told tells) (meets_of_forall (step interval) _ _ (by simp)) iri

/-- The row of a software names the repository of the last poll, with the numbers of the last answer about it: never those
of another repository, and never forgotten for a failure. -/
theorem numbers_told (interval : Nat) (events : List Polling.Event) (iri : String) :
    repositoryStats iri (run (step interval) Poller.empty events).table = told iri (about iri (polls interval events)) :=
  rows_told interval events iri

end Histories

section Passes

variable {data : Dataset} {iri repo : String}

/-- What the record says its repository is: the one it syncs from, and where there is none what its code link names. -/
def Names (data : Dataset) (iri repo : String) : Prop :=
  ⟨.named iri, Ns.rdfType, .named Domain.Software.typeSoftware, Ns.gLocal⟩ ∈ data ∧
    isTombstoned data (.named iri) = false ∧
    ((∃ n value, ⟨.named iri, Ns.t Ns.tar "sync", Node.term n, Ns.gLocal⟩ ∈ data ∧
        ⟨n, Ns.t Ns.tar "syncRepo", value, Ns.gLocal⟩ ∈ data ∧ Forge.githubRepo (Props.termValue value) = some repo) ∨
      (∀ n value, ⟨.named iri, Ns.t Ns.tar "sync", Node.term n, Ns.gLocal⟩ ∈ data →
        ⟨n, Ns.t Ns.tar "syncRepo", value, Ns.gLocal⟩ ∉ data) ∧
      ∃ link, ⟨.named iri, Ns.t Ns.schema "codeRepository", .named link, Ns.gLocal⟩ ∈ data ∧
        Forge.githubRepo link = some repo)

theorem mem_softwares {s : Node} : s ∈ softwares data ↔
    ⟨s, Ns.rdfType, .named Domain.Software.typeSoftware, Ns.gLocal⟩ ∈ data ∧ isTombstoned data s = false := by
  unfold softwares
  rw [List.mem_filter, List.mem_map]
  simp only [Dataset.mem_matching, isSoftware, decide_eq_true_eq, Bool.not_eq_true']
  constructor
  · rintro ⟨⟨⟨_, _, _, _⟩, ⟨mem, rfl, rfl, rfl⟩, rfl⟩, live⟩
    exact ⟨mem, live⟩
  · rintro ⟨mem, live⟩
    exact ⟨⟨_, ⟨mem, rfl, rfl, rfl⟩, rfl⟩, live⟩

theorem mem_said {s : Node} {predicate : String} {value : Term} :
    value ∈ (data.matching (Health.speaks s predicate)).map Quad.object ↔ ⟨s, predicate, value, Ns.gLocal⟩ ∈ data := by
  rw [List.mem_map]
  simp only [Dataset.mem_matching, Health.speaks, decide_eq_true_eq]
  constructor
  · rintro ⟨⟨_, _, _, _⟩, ⟨mem, rfl, rfl, rfl⟩, rfl⟩
    exact mem
  · intro mem
    exact ⟨_, ⟨mem, rfl, rfl, rfl⟩, rfl⟩

theorem some_mem_bindings {values : List Term} {value : Term} : some value ∈ bindings values ↔ value ∈ values := by
  unfold bindings
  split
  · rename_i none_
    simp [none_]
  · simp

theorem none_mem_bindings {values : List Term} : none ∈ bindings values ↔ values = [] := by
  unfold bindings
  split
  · rename_i none_
    simp [none_]
  · rename_i some_
    simp [some_]

theorem exists_mem_bindings (values : List Term) : ∃ binding, binding ∈ bindings values := by
  by_cases none_ : values = []
  · exact ⟨none, none_mem_bindings.2 none_⟩
  · obtain ⟨value, mem⟩ := List.exists_mem_of_ne_nil values none_
    exact ⟨some value, some_mem_bindings.2 mem⟩

theorem mem_coded {s : Node} {value : Term} :
    value ∈ coded data s ↔ ⟨s, Ns.t Ns.schema "codeRepository", value, Ns.gLocal⟩ ∈ data := mem_said

theorem node_of_term {value : Term} {n : Node} : value.node? = some n ↔ value = n.term := by
  cases value <;> cases n <;> simp [Term.node?, Node.term]

theorem mem_synced {s : Node} {value : Term} : value ∈ synced data s ↔
    ∃ n, ⟨s, Ns.t Ns.tar "sync", Node.term n, Ns.gLocal⟩ ∈ data ∧ ⟨n, Ns.t Ns.tar "syncRepo", value, Ns.gLocal⟩ ∈ data := by
  unfold synced
  simp only [List.mem_flatMap, mem_said, List.mem_filterMap, Dataset.mem_matching, Health.speaks, decide_eq_true_eq,
    node_of_term]
  constructor
  · rintro ⟨n, ⟨⟨_, _, _, _⟩, ⟨mem, rfl, rfl, rfl⟩, rfl⟩, told⟩
    exact ⟨n, mem, told⟩
  · rintro ⟨n, mem, told⟩
    exact ⟨n, ⟨_, ⟨mem, rfl, rfl, rfl⟩, rfl⟩, told⟩

theorem targetOf_eq {row : Solution} : targetOf row = some (iri, repo) ↔
    row.s = .named iri ∧ repoOf (row.sync.map Props.termValue) (row.code.bind Props.namedIri) = some repo := by
  unfold targetOf
  cases named : row.s with
  | named known =>
    cases repoOf (row.sync.map Props.termValue) (row.code.bind Props.namedIri) <;> simp [Node.iri?, bind, Option.bind, pure]
  | blank label => simp [Node.iri?, bind, Option.bind]

theorem mem_solutions {row : Solution} : row ∈ solutions data ↔
    row.s ∈ softwares data ∧ row.code ∈ bindings (coded data row.s) ∧ row.sync ∈ bindings (synced data row.s) := by
  simp only [solutions, List.mem_flatMap, List.mem_map]
  constructor
  · rintro ⟨s, live, code, link, sync, bound, rfl⟩
    exact ⟨live, link, bound⟩
  · rintro ⟨live, link, bound⟩
    exact ⟨_, live, _, link, _, bound, rfl⟩

theorem repoOf_named {code : Option Term} (named : repoOf none (code.bind Props.namedIri) = some repo) :
    ∃ link, code = some (.named link) ∧ Forge.githubRepo link = some repo := by
  obtain ⟨link, bound, named⟩ := Option.bind_eq_some_iff.1 named
  obtain ⟨term, coded, same⟩ := Option.bind_eq_some_iff.1 bound
  cases term with
  | named iri =>
    obtain rfl := Option.some.inj same
    exact ⟨iri, coded, named⟩
  | blank label => cases same
  | literal value datatype language => cases same

theorem repoOf_some (text : String) (code : Option String) : repoOf (some text) code = Forge.githubRepo text := rfl

theorem repoOf_none (code : Option String) : repoOf none code = code.bind Forge.githubRepo := rfl

theorem repoOf_link (url : String) : repoOf none ((some (Term.named url)).bind Props.namedIri) = Forge.githubRepo url := by
  have link : (some (Term.named url)).bind Props.namedIri = some url := rfl
  rw [repoOf_none, link, Option.bind_some]

/-- The rows of the query are what the records name. -/
theorem row_names : (∃ row ∈ solutions data, targetOf row = some (iri, repo)) ↔ Names data iri repo := by
  constructor
  · rintro ⟨⟨s, code, sync⟩, mem, target⟩
    obtain ⟨live, link, bound⟩ := mem_solutions.1 mem
    obtain ⟨subject, named⟩ := targetOf_eq.1 target
    obtain rfl : s = .named iri := subject
    refine ⟨(mem_softwares.1 live).1, (mem_softwares.1 live).2, ?_⟩
    cases sync with
    | some value =>
      obtain ⟨n, synced, told⟩ := mem_synced.1 (some_mem_bindings.1 bound)
      exact Or.inl ⟨n, value, synced, told, named⟩
    | none =>
      have nothing : synced data (.named iri) = [] := none_mem_bindings.1 bound
      obtain ⟨url, same, repository⟩ := repoOf_named named
      obtain rfl : code = some (.named url) := same
      refine Or.inr ⟨fun n value synced told => ?_, url, mem_coded.1 (some_mem_bindings.1 link), repository⟩
      have mem := mem_synced.2 ⟨n, synced, told⟩
      rw [nothing] at mem
      cases mem
  · rintro ⟨typed, live, named⟩
    have software : Node.named iri ∈ softwares data := mem_softwares.2 ⟨typed, live⟩
    rcases named with ⟨n, value, told, repository, named⟩ | ⟨nothing, url, link, named⟩
    · obtain ⟨code, bound⟩ := exists_mem_bindings (coded data (.named iri))
      have value_ : some value ∈ bindings (synced data (.named iri)) := some_mem_bindings.2 (mem_synced.2 ⟨n, told, repository⟩)
      exact ⟨⟨.named iri, code, some value⟩, mem_solutions.2 ⟨software, bound, value_⟩,
          targetOf_eq.2 ⟨rfl, (repoOf_some _ _).trans named⟩⟩
    · have unsynced : none ∈ bindings (synced data (.named iri)) := by
        refine none_mem_bindings.2 (List.eq_nil_iff_forall_not_mem.2 (fun value mem => ?_))
        obtain ⟨n, synced, told⟩ := mem_synced.1 mem
        exact nothing n value synced told
      have link_ : some (Term.named url) ∈ bindings (coded data (.named iri)) := some_mem_bindings.2 (mem_coded.2 link)
      exact ⟨⟨.named iri, some (.named url), none⟩, mem_solutions.2 ⟨software, link_, unsynced⟩,
        targetOf_eq.2 ⟨rfl, (repoOf_link url).trans named⟩⟩

/-- One more row of a pass. -/
def keepFirst (out : List Polling.Target) (target : Polling.Target) : List Polling.Target :=
  if out.any (fun other => decide (other.1 = target.1)) then out else out ++ [target]

theorem mem_keepFirst {out : List Polling.Target} {target other : Polling.Target} (mem : other ∈ keepFirst out target) :
    other ∈ out ∨ other = target := by
  unfold keepFirst at mem
  split at mem
  · exact Or.inl mem
  · simpa using mem

theorem keepFirst_mem (out : List Polling.Target) (target : Polling.Target) :
    (∀ other ∈ out, other ∈ keepFirst out target) ∧ ∃ other ∈ keepFirst out target, other.1 = target.1 := by
  unfold keepFirst
  split
  · rename_i held
    obtain ⟨other, mem, same⟩ := List.any_eq_true.1 held
    exact ⟨fun _ mem => mem, other, mem, of_decide_eq_true same⟩
  · exact ⟨fun _ mem => List.mem_append_left _ mem, target, by simp, rfl⟩

theorem keepFirst_nodup {out : List Polling.Target} (target : Polling.Target) (once : (out.map Prod.fst).Nodup) :
    ((keepFirst out target).map Prod.fst).Nodup := by
  unfold keepFirst
  split
  · exact once
  · rename_i missing
    exact Keyed.append once (fun row mem same => missing (List.any_eq_true.2 ⟨row, mem, decide_eq_true same⟩))

theorem firsts (found : List Polling.Target) {out : List Polling.Target} (once : (out.map Prod.fst).Nodup) :
    ((found.foldl keepFirst out).map Prod.fst).Nodup ∧
      (∀ target ∈ found.foldl keepFirst out, target ∈ out ∨ target ∈ found) ∧
      (∀ target, target ∈ out ∨ target ∈ found → ∃ other ∈ found.foldl keepFirst out, other.1 = target.1) := by
  induction found generalizing out with
  | nil => exact ⟨once, fun _ mem => Or.inl mem, fun target mem => ⟨target, by simpa using mem, rfl⟩⟩
  | cons first rest ih =>
    obtain ⟨distinct, from_, all⟩ := ih (keepFirst_nodup first once)
    obtain ⟨kept, mine⟩ := keepFirst_mem out first
    refine ⟨distinct, fun target mem => ?_, fun target mem => ?_⟩
    · rcases from_ target mem with before | later
      · exact (mem_keepFirst before).imp_right (fun same => by simp [same])
      · exact Or.inr (List.mem_cons_of_mem _ later)
    · rcases mem with before | later
      · exact all target (Or.inl (kept target before))
      · rcases List.mem_cons.1 later with rfl | later
        · obtain ⟨other, held, same⟩ := mine
          obtain ⟨last, there, equal⟩ := all other (Or.inl held)
          exact ⟨last, there, equal.trans same⟩
        · exact all target (Or.inr later)

/-- A pass lists each software that names a repository, once and with one that it names. -/
theorem targets_names {rows : List Solution} (answers : rows.Perm (solutions data)) :
    ((Polling.targets rows).map Prod.fst).Nodup ∧ (∀ target ∈ Polling.targets rows, Names data target.1 target.2) ∧
      ∀ iri repo, Names data iri repo → ∃ other, (iri, other) ∈ Polling.targets rows := by
  obtain ⟨distinct, from_, all⟩ := @firsts (rows.filterMap targetOf) [] (by simp)
  refine ⟨distinct, fun target mem => ?_, fun iri repo named => ?_⟩
  · have found := (from_ target mem).resolve_left List.not_mem_nil
    obtain ⟨row, held, same⟩ := List.mem_filterMap.1 found
    exact row_names.1 ⟨row, answers.mem_iff.1 held, same⟩
  · obtain ⟨row, held, same⟩ := row_names.2 named
    obtain ⟨other, mem, equal⟩ := all (iri, repo) (Or.inr (List.mem_filterMap.2 ⟨row, answers.mem_iff.2 held, same⟩))
    obtain ⟨known, repository⟩ := other
    obtain rfl : known = iri := equal
    exact ⟨repository, mem⟩

/-- Asked about this repository by the last poll, and less than the interval ago. -/
def Recent (interval now : Nat) (repo : String) (history : List Poll) : Prop :=
  ∃ last ∈ history.head?, last.repo = repo ∧ now < last.now + interval

theorem fresh_iff {interval now time : Nat} {row : RepositoryStats} (readBack : read row.checkedAt = some (ofCount time)) :
    fresh interval now repo row = true ↔ row.repo = repo ∧ now < time + interval := by
  rw [fresh, readBack, Option.any_some, count_ofCount, Bool.and_eq_true, decide_eq_true_eq, decide_eq_true_eq]

theorem fresh_recent {interval now : Nat} {history : List Poll} (dated : ∀ poll ∈ history, (ofCount poll.now).year ≤ 9999) :
    (told iri history).any (fresh interval now repo) = true ↔ Recent interval now repo history := by
  cases history with
  | nil =>
    constructor
    · intro fresh
      cases fresh
    · rintro ⟨last, none_, _⟩
      cases none_
  | cons last earlier =>
    have readBack : read (stamp last.now) = some (ofCount last.now) := read_text (dated last List.mem_cons_self)
    have row : told iri (last :: earlier) = some (rowOf iri last (last :: earlier)) := rfl
    have checked : read (rowOf iri last (last :: earlier)).checkedAt = some (ofCount last.now) := readBack
    rw [row, Option.any_some, fresh_iff checked]
    refine ⟨fun recent => ⟨last, rfl, recent⟩, ?_⟩
    rintro ⟨other, same, recent⟩
    obtain rfl := Option.some.inj same
    exact recent

end Passes

section Specimen

/-- One software with a code link. -/
def linked : Dataset :=
  ⟨[⟨.named "https://reg.example/software/1", Ns.rdfType, .named Domain.Software.typeSoftware, Ns.gLocal⟩,
    ⟨.named "https://reg.example/software/1", Ns.t Ns.schema "codeRepository", .named "https://github.com/o/r", Ns.gLocal⟩],
    by decide⟩

/-- It has been asked about once. -/
def onePass : List Polling.Event := [.begin_ 0 (solutions linked), .polled 1000 (.found ⟨some 7, none, none⟩)]

end Specimen

end ToolArtifactRegistry.Laws.Polled
