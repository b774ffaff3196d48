import ToolArtifactRegistry.Domain.Software
import ToolArtifactRegistry.Library.Instants
import ToolArtifactRegistry.Library.Tables
import ToolArtifactRegistry.Probing

/-! The stars, forks and last push of the repositories that records name: a pass lists the records, leaves out those it
asked about within the interval, and asks about the others one after the other. -/
namespace ToolArtifactRegistry.Polling

open Library.Rdf Library.Tables Library.Text Library.Instants Domain Rdf

/-! The table. Times are counted in nanoseconds and stored as texts. -/

/-- What one poll learns about a repository. -/
structure RepoStats where
  stars : Option Int
  forks : Option Int
  pushedAt : Option String
  deriving DecidableEq

structure RepositoryStats where
  softwareIri : String
  repo : String
  stars : Option Int
  forks : Option Int
  lastCommitAt : Option String
  fetchedAt : Option String
  checkedAt : String
  lastError : Option String
  deriving DecidableEq

def repositoryStats (softwareIri : String) (table : List RepositoryStats) : Option RepositoryStats :=
  table.find? (fun row => decide (row.softwareIri = softwareIri))

/-- `INSERT OR REPLACE`. -/
def recordRepositoryStats (now : Nat) (softwareIri repo : String) (stats : RepoStats) (table : List RepositoryStats) :
    List RepositoryStats :=
  deleteWhere (fun row => decide (row.softwareIri = softwareIri)) table ++
    [⟨softwareIri, repo, stats.stars, stats.forks, stats.pushedAt, some (stamp now), stamp now, none⟩]

/-- The numbers of another repository go. -/
def failed (now : Nat) (repo error : String) (row : RepositoryStats) : RepositoryStats where
  softwareIri := row.softwareIri
  repo := repo
  stars := if row.repo = repo then row.stars else none
  forks := if row.repo = repo then row.forks else none
  lastCommitAt := if row.repo = repo then row.lastCommitAt else none
  fetchedAt := if row.repo = repo then row.fetchedAt else none
  checkedAt := stamp now
  lastError := some error

/-- `ON CONFLICT(software_iri) DO UPDATE`. -/
def recordRepositoryError (now : Nat) (softwareIri repo error : String) (table : List RepositoryStats) :
    List RepositoryStats :=
  if (repositoryStats softwareIri table).isSome then
    updateWhere (fun row => decide (row.softwareIri = softwareIri)) (failed now repo error) table
  else table ++ [⟨softwareIri, repo, none, none, none, none, stamp now, some error⟩]

/-! The records of a pass. -/

/-- A sync repository that is not on GitHub means none. -/
def repoOf (syncRepo codeRepository : Option String) : Option String :=
  match syncRepo with
  | some s => Forge.githubRepo s
  | none => codeRepository.bind Forge.githubRepo

/-- A solution of the query: a software, a code link of it and a repository it syncs from. -/
structure Solution where
  s : Node
  code : Option Term
  sync : Option Term
  deriving DecidableEq

def isSoftware (quad : Quad) : Bool :=
  decide (quad.predicate = Ns.rdfType ∧ quad.object = .named Domain.Software.typeSoftware ∧ quad.graph = Ns.gLocal)

/-- What is local and not withdrawn. -/
def softwares (data : Dataset) : List Node :=
  ((data.matching isSoftware).map Quad.subject).filter (fun s => !isTombstoned data s)

def coded (data : Dataset) (s : Node) : List Term :=
  (data.matching (Health.speaks s (Ns.t Ns.schema "codeRepository"))).map Quad.object

/-- The bindings of an optional pattern: one for each value, or a single one that is unbound. -/
def bindings (values : List Term) : List (Option Term) := if values = [] then [none] else values.map some

/-- The repositories of its sync nodes. -/
def synced (data : Dataset) (s : Node) : List Term :=
  ((data.matching (Health.speaks s (Ns.t Ns.tar "sync"))).filterMap (fun quad => quad.object.node?)).flatMap (fun n =>
    (data.matching (Health.speaks n (Ns.t Ns.tar "syncRepo"))).map Quad.object)

/-- Every solution of the query, in some order. -/
def solutions (data : Dataset) : List Solution :=
  (softwares data).flatMap (fun s =>
    (bindings (coded data s)).flatMap (fun code => (bindings (synced data s)).map (fun sync => ⟨s, code, sync⟩)))

/-- A software and its repository. -/
abbrev Target := String × String

def targetOf (row : Solution) : Option Target := do
  let iri ← row.s.iri?
  let repo ← repoOf (row.sync.map Props.termValue) (row.code.bind Props.namedIri)
  return (iri, repo)

/-- Of several rows about one software the first counts. -/
def targets (rows : List Solution) : List Target :=
  (rows.filterMap targetOf).foldl (fun out target => if out.any (fun other => decide (other.1 = target.1)) then out
    else out ++ [target]) []

/-! The pass. -/

/-- Asked about this repository, and within the interval. -/
def fresh (interval now : Nat) (repo : String) (last : RepositoryStats) : Bool :=
  decide (last.repo = repo) && (read last.checkedAt).any (fun t => decide (now < t.count + interval))

def due (interval now : Nat) (listed : List Target) (table : List RepositoryStats) : List Target :=
  listed.filter (fun target => !(repositoryStats target.1 table).any (fresh interval now target.2))

/-- What came of a poll. -/
inductive Reply where
  | found (stats : RepoStats)
  | failed (error : String)
  /-- It could not be written down. -/
  | lost

def Reply.record (now : Nat) (softwareIri repo : String) (reply : Reply) (table : List RepositoryStats) :
    List RepositoryStats :=
  match reply with
  | .found stats => recordRepositoryStats now softwareIri repo stats table
  | .failed error => recordRepositoryError now softwareIri repo error table
  | .lost => table

structure Poller where
  table : List RepositoryStats
  /-- What is left of the pass. -/
  pass : List Target

def Poller.empty : Poller := ⟨[], []⟩

inductive Event where
  /-- A pass lists the records, as the store answers then. -/
  | begin_ (now : Nat) (rows : List Solution)
  /-- The next repository of the pass has been asked about. -/
  | polled (now : Nat) (reply : Reply)

def step (interval : Nat) (poller : Poller) : Event → Poller
  | .begin_ now rows => if poller.pass = [] then { poller with pass := due interval now (targets rows) poller.table } else poller
  | .polled now reply =>
    match poller.pass with
    | [] => poller
    | (iri, repo) :: rest => ⟨reply.record now iri repo poller.table, rest⟩

end ToolArtifactRegistry.Polling
