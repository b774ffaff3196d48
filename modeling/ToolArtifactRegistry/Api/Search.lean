import ToolArtifactRegistry.Federation.Claims
import ToolArtifactRegistry.Federation.Wire

/-! Federated search at one registry: what a request asks for, the budgets it is granted, the peers it
is passed on to, and the answer made of what came back. -/
namespace ToolArtifactRegistry.Api.Search

open Library.Text Ids Domain Federation

def milliseconds (count : Nat) : Nat := count * 1000000

/-- Below this there is no point paying for a round trip. -/
def minUsefulHopBudget : Nat := milliseconds 250

structure SearchQuery where
  q : Option String := none
  entityType : Option String := none
  federated : Bool := false
  limit : Option Nat := none
  fedId : Option String := none
  fedHops : Option Nat := none
  fedOrigin : Option String := none
  fedPath : Option String := none
  fedBudgetMs : Option Nat := none

/-- One registry as a search sees it: its base without a slash at the end, its settings, and how long
it waits for a peer. -/
structure Host where
  base : String
  fed : FedSettings
  federatedSearchTimeout : Nat

/-- A time read as an instant, for the merging of copies. -/
abbrev Instants := String → Option Int

def me (host : Host) : String := trimSlash host.base

/-- The id a request carries; a bad one is refused, not cleaned up. -/
def inboundId (sq : SearchQuery) : AppResult (Option String) :=
  match sq.fedId with
  | none => .ok none
  | some raw =>
    if validQueryId raw then .ok (some raw)
    else .error (AppError.badRequest
      "fed_id must be 1–100 characters of [A-Za-z0-9._:-] — it is a query identifier, not free text")

def isRelayedLeg (sq : SearchQuery) : Bool := sq.fedId.isSome

/-- Marked federated, or carrying an id. -/
def participates (sq : SearchQuery) : Bool := sq.federated || isRelayedLeg sq

def incomingPath (host : Host) (sq : SearchQuery) : List String := parsePath sq.fedPath (host.fed.maxHops + 2)

def originIri (sq : SearchQuery) : Option String :=
  (sq.fedOrigin.map trimSlash).filter (fun s => s != "" && byteLen s ≤ 200)

def limit (sq : SearchQuery) : Nat := max 1 (min 100 (sq.limit.getD 30))

/-- What is granted is cut to this registry's own ceiling. -/
def hopsGranted (host : Host) (sq : SearchQuery) : Nat := min (sq.fedHops.getD host.fed.maxHops) host.fed.maxHops

def timeBudget (host : Host) (sq : SearchQuery) : Nat :=
  let own := min host.federatedSearchTimeout host.fed.totalTimeout
  match sq.fedBudgetMs with
  | some ms => min own (milliseconds (min ms 600000))
  | none => own

def forwardBudget (host : Host) (sq : SearchQuery) : Nat := timeBudget host sq - host.fed.hopMargin

def hopsForwarded (host : Host) (sq : SearchQuery) : Nat :=
  if 0 < hopsGranted host sq ∧ minUsefulHopBudget ≤ forwardBudget host sq then hopsGranted host sq - 1 else 0

def outgoingPath (host : Host) (sq : SearchQuery) : List String :=
  if me host ∈ incomingPath host sq then incomingPath host sq else incomingPath host sq ++ [me host]

/-- A peer that is neither this registry, nor on the path, nor the origin. -/
def askable (host : Host) (sq : SearchQuery) (peer : PeerRecord) : Bool :=
  let base := trimSlash peer.baseIri
  base != me host && !(outgoingPath host sq).contains base && some base != originIri sq

/-- The peers left to ask once those on the path are set aside and the fan-out is cut. -/
def withinFanOut (host : Host) (sq : SearchQuery) (peers : List PeerRecord) : List PeerRecord :=
  (peers.filter (askable host sq)).take host.fed.maxPeers

def overFanOut (host : Host) (sq : SearchQuery) (peers : List PeerRecord) : List PeerRecord :=
  (peers.filter (askable host sq)).drop host.fed.maxPeers

/-- The peers a search is passed on to. -/
def asked (host : Host) (sq : SearchQuery) (peers : List PeerRecord) : List PeerRecord :=
  if sq.federated = true ∧ 0 < hopsGranted host sq then withinFanOut host sq peers else []

/-- What a peer is asked. -/
def legFor (host : Host) (sq : SearchQuery) (queryId : String) : SearchQuery where
  q := some (sq.q.getD "")
  entityType := sq.entityType
  federated := true
  limit := some (limit sq)
  fedId := some queryId
  fedHops := some (hopsForwarded host sq)
  fedOrigin := some ((originIri sq).getD (me host))
  fedPath := some (join "," (outgoingPath host sq))
  fedBudgetMs := some (max 1 (forwardBudget host sq / 1000000))

/-- What came of asking a peer. -/
inductive Outcome where
  | timeout
  | failed (error : String)
  | answered (results : FedSearchResults)

/-- The answer as it grows while the outcomes are taken in. -/
structure Gathered where
  hits : List FedSearchHit
  peers : List FedPeerStatus
  incomplete : Bool

def skipped (note : String) (peer : PeerRecord) : FedPeerStatus :=
  { FedPeerStatus.direct peer "skipped" with note := some note }

/-- One peer's outcome: a refusal of a repeat is a healthy answer without hits. -/
def gather (host : Host) (waited : Nat) (so : Gathered) (asked : PeerRecord × Outcome) : Gathered :=
  let (peer, outcome) := asked
  match outcome with
  | .timeout =>
    { so with
      incomplete := true
      peers := so.peers ++ [{ FedPeerStatus.direct peer "timeout" with
        error := some ("no response within " ++ toString (waited / 1000000) ++ "ms") }] }
  | .failed error =>
    { so with
      incomplete := true
      peers := so.peers ++ [{ FedPeerStatus.direct peer "error" with error := some error }] }
  | .answered results =>
    if results.alreadyHandled then
      let note := (results.federation.bind FederationTrace.reason).getD "peer had already handled this query id"
      { so with peers := so.peers ++ [{ FedPeerStatus.direct peer "already_handled" with note := some note }] }
    else
      let taken := (results.hits.take host.fed.maxPeerHits).map (fun hit => hit.relayed peer)
      let theirs := (results.peers.take host.fed.maxPeerStatuses).filter (fun s => trimSlash s.baseIri != me host)
      { hits := so.hits ++ taken
        peers := so.peers ++ theirs.map (fun s => s.relayed peer) ++
          [{ FedPeerStatus.direct peer "ok" with hits := taken.length }]
        incomplete := so.incomplete || results.incomplete }

/-- The answer before the peers are heard: the local hits, and the peers that are not asked. -/
def before (host : Host) (sq : SearchQuery) (peers : List PeerRecord) (local_ : List SearchHit) : Gathered :=
  let hits := local_.map FedSearchHit.local
  if sq.federated then
    let onPath := ((peers.filter (fun peer => !askable host sq peer)).take host.fed.maxPeers).map
      (skipped "already on this query's path — asking it would close a loop")
    let beyond := ((overFanOut host sq peers).take host.fed.maxPeers).map
      (skipped ("fan-out capped at " ++ toString host.fed.maxPeers ++ " peers per query"))
    let unasked :=
      if hopsGranted host sq = 0 then
        (withinFanOut host sq peers).map (skipped "hop budget exhausted — the walk stops here")
      else []
    ⟨hits, onPath ++ beyond ++ unasked, !(overFanOut host sq peers).isEmpty⟩
  else ⟨hits, [], false⟩

def budgetExhausted (host : Host) (sq : SearchQuery) (peers : List PeerRecord) : Bool :=
  sq.federated && !(withinFanOut host sq peers).isEmpty &&
    (hopsGranted host sq == 0 || decide (1 < hopsGranted host sq ∧ hopsForwarded host sq = 0))

def trace (host : Host) (sq : SearchQuery) (queryId : String) (peers : List PeerRecord) : FederationTrace where
  queryId := queryId
  origin := some ((originIri sq).getD (me host))
  registry := me host
  maxHops := host.fed.maxHops
  hopsGranted := hopsGranted host sq
  hopsForwarded := hopsForwarded host sq
  budgetExhausted := budgetExhausted host sq peers
  path := outgoingPath host sq
  firstSeenAt := none
  reason := none

def byScore (hits : List FedSearchHit) : List FedSearchHit :=
  List.insertionSort (fun first second => second.hit.score ≤ first.hit.score) hits

/-- The hits of an answer before the total cap: only the registry that started the search merges copies. -/
def merged (instants : Instants) (host : Host) (sq : SearchQuery) (hits : List FedSearchHit) : List FedSearchHit :=
  byScore (if isRelayedLeg sq then hits else mergeCopies instants hits (me host))

/-- The answer, once every peer that was asked has answered or been given up. -/
def conclude (instants : Instants) (host : Host) (sq : SearchQuery) (queryId : String) (peers : List PeerRecord)
    (local_ : List SearchHit) (outcomes : List (PeerRecord × Outcome)) : FedSearchResults :=
  let so := outcomes.foldl (gather host (timeBudget host sq)) (before host sq peers local_)
  let hits := merged instants host sq so.hits
  let kept := hits.take host.fed.maxTotalHits
  { query := sq.q.getD ""
    hits := kept
    total := kept.length
    incomplete := so.incomplete || decide (host.fed.maxTotalHits < hits.length)
    peers := so.peers
    alreadyHandled := false
    federation := if participates sq then some (trace host sq queryId peers) else none }

def ordinal : Nat → String
  | 1 => "first"
  | 2 => "second"
  | n => toString n ++ "th"

/-- The explicit refusal of a repeat. -/
def refusal (host : Host) (sq : SearchQuery) (queryId firstSeenAt : String) (repeatCount : Nat) : FedSearchResults :=
  let reason := me host ++ " already handled federated query " ++ queryId ++ " at " ++ firstSeenAt ++
    "; its results were returned on the path that arrived first. This is the " ++ ordinal repeatCount ++
    " repeat, which means the peer graph contains a cycle."
  { query := sq.q.getD ""
    hits := []
    total := 0
    incomplete := false
    peers := []
    alreadyHandled := true
    federation := some
      { queryId := queryId, origin := originIri sq, registry := me host, maxHops := host.fed.maxHops
        hopsGranted := 0, hopsForwarded := 0, budgetExhausted := false, path := incomingPath host sq
        firstSeenAt := some firstSeenAt, reason := some reason } }

/-- What a request comes to before anything is claimed. -/
inductive Opening where
  | refused (error : AppError)
  | blank
  | plain
  | claims (queryId : String)

/-- The new id is drawn only when the request carries none. -/
def opening (sq : SearchQuery) (newId : String) : Opening :=
  match inboundId sq with
  | .error error => .refused error
  | .ok inbound =>
    if trim (sq.q.getD "") = "" then .blank
    else if participates sq then .claims (inbound.getD newId)
    else .plain

/-- A grant above a registry's own ceiling forwards what the ceiling itself would. -/
theorem hopsForwarded_of_le {host : Host} (sq : SearchQuery) {granted : Nat} (above : host.fed.maxHops ≤ granted) :
    hopsForwarded host { sq with fedHops := some granted } =
      hopsForwarded host { sq with fedHops := some host.fed.maxHops } := by
  have cut : hopsGranted host { sq with fedHops := some granted } =
      hopsGranted host { sq with fedHops := some host.fed.maxHops } := by
    simp [hopsGranted, above]
  have time : forwardBudget host { sq with fedHops := some granted } =
      forwardBudget host { sq with fedHops := some host.fed.maxHops } := rfl
  unfold hopsForwarded
  rw [cut, time]

theorem hopsGranted_le_own (host : Host) (sq : SearchQuery) : hopsGranted host sq ≤ host.fed.maxHops :=
  Nat.min_le_right _ _

theorem hopsGranted_le_asked {host : Host} {sq : SearchQuery} {granted : Nat} (asks : sq.fedHops = some granted) :
    hopsGranted host sq ≤ granted := by
  unfold hopsGranted
  rw [asks]
  exact Nat.min_le_left _ _

theorem hopsForwarded_le (host : Host) (sq : SearchQuery) : hopsForwarded host sq ≤ hopsGranted host sq - 1 := by
  unfold hopsForwarded
  split <;> omega

/-- Peers are asked only out of a budget that is left. -/
theorem granted_of_asked {host : Host} {sq : SearchQuery} {peers : List PeerRecord} {peer : PeerRecord}
    (mem : peer ∈ asked host sq peers) : 0 < hopsGranted host sq := by
  unfold asked at mem
  split at mem
  next open_ => exact open_.2
  next => cases mem

/-- The hits an outcome brings, before the cap on what is taken from one peer. -/
def offered : Outcome → List FedSearchHit
  | .answered results => if results.alreadyHandled then [] else results.hits
  | _ => []

/-- An answer that never came, or could not be read. -/
def Outcome.isLost : Outcome → Bool
  | .answered _ => false
  | _ => true

theorem answered_of_not_lost {outcome : Outcome} (came : outcome.isLost = false) :
    ∃ results, outcome = .answered results := by
  cases outcome with
  | answered results => exact ⟨results, rfl⟩
  | timeout => cases came
  | failed error => cases came

/-- An outcome that makes the answer incomplete. -/
def Outcome.loses : Outcome → Bool
  | .answered results => !results.alreadyHandled && results.incomplete
  | _ => true

theorem loses_of_isLost {outcome : Outcome} (lost : outcome.isLost = true) : outcome.loses = true := by
  cases outcome with
  | answered results => cases lost
  | timeout => rfl
  | failed error => rfl

theorem iris_gather (host : Host) (waited : Nat) (so : Gathered) (asked : PeerRecord × Outcome) :
    iris (gather host waited so asked).hits = iris so.hits ++ (iris (offered asked.2)).take host.fed.maxPeerHits := by
  obtain ⟨peer, outcome⟩ := asked
  cases outcome with
  | timeout => simp [gather, offered, iris]
  | failed error => simp [gather, offered, iris]
  | answered results =>
    unfold gather offered
    dsimp only
    split
    · simp [iris]
    · rw [iris_append, iris_relayed]
      simp [iris, List.map_take]

theorem incomplete_gather (host : Host) (waited : Nat) (so : Gathered) (asked : PeerRecord × Outcome) :
    (gather host waited so asked).incomplete = (so.incomplete || asked.2.loses) := by
  obtain ⟨peer, outcome⟩ := asked
  cases outcome with
  | timeout => simp [gather, Outcome.loses]
  | failed error => simp [gather, Outcome.loses]
  | answered results =>
    unfold gather Outcome.loses
    dsimp only
    split
    · next again => simp [again]
    · next new => simp [new]

/-- What the outcomes bring is taken peer by peer, as much of each as the cap allows. -/
theorem iris_gathered (host : Host) (waited : Nat) (so : Gathered) (outcomes : List (PeerRecord × Outcome)) :
    iris (outcomes.foldl (gather host waited) so).hits =
      iris so.hits ++ outcomes.flatMap (fun asked => (iris (offered asked.2)).take host.fed.maxPeerHits) := by
  induction outcomes generalizing so with
  | nil => simp
  | cons first rest ih => rw [List.foldl_cons, ih, iris_gather, List.flatMap_cons, List.append_assoc]

theorem incomplete_gathered (host : Host) (waited : Nat) (so : Gathered) (outcomes : List (PeerRecord × Outcome)) :
    (outcomes.foldl (gather host waited) so).incomplete =
      (so.incomplete || outcomes.any (fun asked => asked.2.loses)) := by
  induction outcomes generalizing so with
  | nil => simp
  | cons first rest ih => rw [List.foldl_cons, ih, incomplete_gather, List.any_cons, Bool.or_assoc]

theorem iris_before (host : Host) (sq : SearchQuery) (peers : List PeerRecord) (local_ : List SearchHit) :
    iris (before host sq peers local_).hits = local_.map SearchHit.iri := by
  unfold before
  dsimp only
  split <;> exact iris_local local_

theorem incomplete_before (host : Host) (sq : SearchQuery) (peers : List PeerRecord) (local_ : List SearchHit) :
    (before host sq peers local_).incomplete = (sq.federated && !(overFanOut host sq peers).isEmpty) := by
  unfold before
  dsimp only
  split
  · next federated => simp [federated]
  · next plain => simp [plain]

/-- Merging and sorting keep every record, and bring none. -/
theorem mem_iris_merged {instants : Instants} {host : Host} {sq : SearchQuery} {hits : List FedSearchHit} {iri : String} :
    iri ∈ iris (merged instants host sq hits) ↔ iri ∈ iris hits := by
  have sorted (some_ : List FedSearchHit) : iri ∈ iris (byScore some_) ↔ iri ∈ iris some_ :=
    ((List.perm_insertionSort _ some_).map _).mem_iff
  unfold merged
  rw [sorted]
  split
  · rfl
  · rw [iris_mergeCopies, mem_firsts]

/-- No record is counted more often after the merging than before. -/
theorem iris_merged_subperm (instants : Instants) (host : Host) (sq : SearchQuery) (hits : List FedSearchHit) :
    (iris (merged instants host sq hits)).Subperm (iris hits) := by
  have sorted (some_ : List FedSearchHit) : (iris (byScore some_)).Perm (iris some_) :=
    (List.perm_insertionSort _ some_).map _
  unfold merged
  refine (sorted _).subperm.trans ?_
  split
  · exact List.Subperm.refl _
  · rw [iris_mergeCopies]
    exact List.subperm_of_subset (nodup_firsts _) (fun iri mem => mem_firsts.mp mem)

end ToolArtifactRegistry.Api.Search
