import Mathlib.Algebra.GroupWithZero.Nat
import Mathlib.Data.List.Sort
import ToolArtifactRegistry.Domain.Context

/-! What federated registries tell each other: hits with the way they came, the status of the peers
asked, the trace of the walk; and how copies of one record are merged at the registry that started it. -/
namespace ToolArtifactRegistry.Federation

open Library.Text Model Domain

/-- Durations are in nanoseconds. -/
structure FedSettings where
  maxHops : Nat
  totalTimeout : Nat
  hopMargin : Nat
  maxPeers : Nat
  maxPeerBytes : Nat
  maxPeerHits : Nat
  maxPeerStatuses : Nat
  maxTotalHits : Nat
  idTtl : Nat
  maxSeenRows : Int

structure SearchHit where
  iri : String
  entityType : String
  title : String
  snippet : Option String
  origin : Origin
  score : Rat
  deriving DecidableEq

def reachLocal : String := "local"
def reachDirect : String := "direct"
def reachIndirect : String := "indirect"

structure FedSearchHit where
  hit : SearchHit
  reach : String
  hops : Nat
  via : Option String
  alsoFrom : List String
  deriving DecidableEq

def FedSearchHit.local (hit : SearchHit) : FedSearchHit := ⟨hit, reachLocal, 0, none, []⟩

/-- One more hop, as far as 32 bits count. -/
def saturatingSucc (hops : Nat) : Nat := min (hops + 1) (2 ^ 32 - 1)

/-- A hit that arrived in a peer's response: minted there only if the peer says it is its own. -/
def FedSearchHit.relayed (hit : FedSearchHit) (peer : PeerRecord) : FedSearchHit :=
  let wasLocalToPeer := hit.hops == 0 && hit.hit.origin.kind == "local"
  let origin : Origin :=
    if wasLocalToPeer then
      { kind := "peer", peerId := some peer.id, peerTitle := peer.title, peerBaseIri := some peer.baseIri
        resolveStatus := some "live" }
    else
      { hit.hit.origin with
        peerId := none
        kind := if hit.hit.origin.kind == "local" then "peer" else hit.hit.origin.kind }
  { hit with
    hit := { hit.hit with origin := origin }
    hops := saturatingSucc hit.hops
    reach := if saturatingSucc hit.hops = 1 then reachDirect else reachIndirect
    via := some peer.baseIri }

/-- What ranks one copy of a record above another: the home registry's own copy, then freshness, then directness. -/
structure Rank where
  home : Bool
  cached : Option Int
  hops : Nat

/-- The instant an RFC 3339 text names. -/
def rank (instant : String → Option Int) (hit : FedSearchHit) : Rank where
  home := hit.hit.origin.kind == "local" || hit.hit.origin.resolveStatus == some "live"
  cached := hit.hit.origin.cachedAt.bind instant
  hops := hit.hops

def cachedLe : Option Int → Option Int → Bool
  | none, _ => true
  | some _, none => false
  | some left, some right => decide (left ≤ right)

/-- No better than another: compared field by field, fewer hops being better. -/
def Rank.le (left right : Rank) : Bool :=
  if left.home = right.home then
    if left.cached = right.cached then decide (right.hops ≤ left.hops) else cachedLe left.cached right.cached
  else right.home

/-- The last of the best, and the others. -/
def pickBest (instant : String → Option Int) : FedSearchHit → List FedSearchHit → FedSearchHit × List FedSearchHit
  | best, [] => (best, [])
  | best, next :: rest =>
    if (rank instant best).le (rank instant next) then
      let (winner, beaten) := pickBest instant next rest
      (winner, best :: beaten)
    else
      let (winner, beaten) := pickBest instant best rest
      (winner, next :: beaten)

/-- Each of some texts once, in order. -/
def sortedOnce (texts : List String) : List String :=
  (List.insertionSort (fun left right => le left right = true) texts).dedup

/-- The texts in the order they first arrived in. -/
def firsts (texts : List String) : List String :=
  texts.foldl (fun seen text => if text ∈ seen then seen else seen ++ [text]) []

def source (me : String) (hit : FedSearchHit) : String := hit.via.getD me

/-- The winning copy of one record, which names the sources of the copies it beat. -/
def mergeGroup (instant : String → Option Int) (me : String) : List FedSearchHit → Option FedSearchHit
  | [] => none
  | first :: rest =>
    let (winner, beaten) := pickBest instant first rest
    some { winner with alsoFrom := sortedOnce ((beaten.map (source me)).filter (fun s => s != source me winner)) }

def mergeCopies (instant : String → Option Int) (hits : List FedSearchHit) (me : String) : List FedSearchHit :=
  (firsts (hits.map (fun hit => hit.hit.iri))).filterMap
    (fun iri => mergeGroup instant me (hits.filter (fun hit => hit.hit.iri == iri)))

/-- The records some hits are about. -/
def iris (hits : List FedSearchHit) : List String := hits.map (fun hit => hit.hit.iri)

theorem iris_append (left right : List FedSearchHit) : iris (left ++ right) = iris left ++ iris right :=
  List.map_append

theorem iris_local (hits : List SearchHit) : iris (hits.map FedSearchHit.local) = hits.map SearchHit.iri := by
  unfold iris
  rw [List.map_map]
  rfl

theorem iris_relayed (hits : List FedSearchHit) (peer : PeerRecord) :
    iris (hits.map (fun hit => hit.relayed peer)) = iris hits := by
  unfold iris
  rw [List.map_map]
  rfl

theorem firsts_spec (seen texts : List String) (once : seen.Nodup) :
    (texts.foldl (fun seen text => if text ∈ seen then seen else seen ++ [text]) seen).Nodup ∧
      ∀ text, text ∈ texts.foldl (fun seen text => if text ∈ seen then seen else seen ++ [text]) seen ↔
        text ∈ seen ∨ text ∈ texts := by
  induction texts generalizing seen with
  | nil => exact ⟨once, by simp⟩
  | cons head rest ih =>
    rw [List.foldl_cons]
    by_cases held : head ∈ seen
    · rw [if_pos held]
      refine ⟨(ih seen once).1, fun text => ?_⟩
      rw [(ih seen once).2, List.mem_cons]
      constructor
      · intro found
        exact found.imp_right Or.inr
      · intro found
        rcases found with old | same | later
        · exact Or.inl old
        · exact Or.inl (by rw [same]; exact held)
        · exact Or.inr later
    · have longer : (seen ++ [head]).Nodup := by
        rw [List.nodup_append]
        exact ⟨once, by simp, fun a mem b last same => held (by rwa [same, List.mem_singleton.mp last] at mem)⟩
      rw [if_neg held]
      refine ⟨(ih _ longer).1, fun text => ?_⟩
      rw [(ih _ longer).2, List.mem_append, List.mem_singleton, List.mem_cons, or_assoc]

theorem mem_firsts {texts : List String} {text : String} : text ∈ firsts texts ↔ text ∈ texts := by
  have spec := (firsts_spec [] texts List.nodup_nil).2 text
  rw [List.mem_nil_iff, false_or] at spec
  exact spec

theorem nodup_firsts (texts : List String) : (firsts texts).Nodup := (firsts_spec [] texts List.nodup_nil).1

theorem pickBest_mem (instant : String → Option Int) (best : FedSearchHit) (rest : List FedSearchHit) :
    (pickBest instant best rest).1 ∈ best :: rest := by
  induction rest generalizing best with
  | nil => simp [pickBest]
  | cons next rest ih =>
    unfold pickBest
    split
    · exact List.mem_cons_of_mem _ (ih next)
    · have found := ih best
      rw [List.mem_cons] at found ⊢
      exact found.imp_right (List.mem_cons_of_mem _)

/-- The row of a group is about the record of the group. -/
theorem mergeGroup_iri {instant : String → Option Int} {me iri : String} {group : List FedSearchHit}
    (same : ∀ hit ∈ group, hit.hit.iri = iri) (some_ : group ≠ []) :
    ∃ row, mergeGroup instant me group = some row ∧ row.hit.iri = iri := by
  cases group with
  | nil => exact absurd rfl some_
  | cons first rest => exact ⟨_, rfl, same (pickBest instant first rest).1 (pickBest_mem instant first rest)⟩

/-- One row for each record, and no record without a row. -/
theorem iris_mergeCopies (instant : String → Option Int) (hits : List FedSearchHit) (me : String) :
    iris (mergeCopies instant hits me) = firsts (iris hits) := by
  have rows (wanted : List String) (each : ∀ iri ∈ wanted, iri ∈ iris hits) :
      iris (wanted.filterMap
        (fun iri => mergeGroup instant me (hits.filter (fun hit => hit.hit.iri == iri)))) = wanted := by
    induction wanted with
    | nil => rfl
    | cons iri rest ih =>
      obtain ⟨hit, mem, named⟩ := List.mem_map.mp (each iri List.mem_cons_self)
      have some_ : hits.filter (fun hit => hit.hit.iri == iri) ≠ [] :=
        List.ne_nil_of_mem (List.mem_filter.mpr ⟨mem, beq_iff_eq.mpr named⟩)
      obtain ⟨row, found, about⟩ := @mergeGroup_iri instant me _ _
        (fun hit mem => beq_iff_eq.mp (List.mem_filter.mp mem).2) some_
      have later := ih (fun other mem => each other (List.mem_cons_of_mem _ mem))
      rw [List.filterMap_cons, found]
      unfold iris at later ⊢
      rw [List.map_cons, later, about]
  exact rows _ (fun iri mem => mem_firsts.mp mem)

structure FedPeerStatus where
  peerId : String
  baseIri : String
  title : Option String
  status : String
  hits : Nat := 0
  error : Option String := none
  reach : String := reachDirect
  hops : Nat := 1
  via : Option String := none
  note : Option String := none
  deriving DecidableEq

def FedPeerStatus.direct (peer : PeerRecord) (status : String) : FedPeerStatus :=
  { peerId := peer.id, baseIri := peer.baseIri, title := peer.title, status := status }

def FedPeerStatus.relayed (status : FedPeerStatus) (peer : PeerRecord) : FedPeerStatus :=
  { status with
    hops := saturatingSucc status.hops
    reach := if saturatingSucc status.hops = 1 then reachDirect else reachIndirect
    via := some peer.baseIri
    peerId := peer.id ++ "|" ++ status.baseIri }

structure FederationTrace where
  queryId : String
  origin : Option String
  registry : String
  maxHops : Nat
  hopsGranted : Nat
  hopsForwarded : Nat
  budgetExhausted : Bool
  path : List String
  firstSeenAt : Option String
  reason : Option String
  deriving DecidableEq

/-- `incomplete` is the field the wire calls by the word for a part: some peer failed, timed out or was cut. -/
structure FedSearchResults where
  query : String
  hits : List FedSearchHit
  total : Nat
  incomplete : Bool
  peers : List FedPeerStatus
  alreadyHandled : Bool
  federation : Option FederationTrace
  deriving DecidableEq

def FedSearchResults.empty (query : String) : FedSearchResults := ⟨query, [], 0, false, [], false, none⟩

/-- The bytes a text takes. -/
def byteLen (text : String) : Nat := (text.toList.map Char.utf8Size).sum

def validQueryId (id : String) : Bool :=
  id != "" && byteLen id ≤ 100 &&
    id.toList.all (fun c => c.isAlphanum || c == '-' || c == '_' || c == '.' || c == ':')

/-- One more entry of a path, unless it is empty, too long or there already. -/
def addToPath (cap : Nat) (path : List String) (part : String) : List String :=
  let entry := trimEndMatches (trim part) (fun c => c == '/')
  if cap ≤ path.length ∧ path ≠ [] then path
  else if entry = "" ∨ 200 < byteLen entry ∨ entry ∈ path then path
  else path ++ [entry]

/-- The registries already on a query's path. The loop stops as soon as the cap is reached, which is
looked at after an entry is added. -/
def parsePath (raw : Option String) (cap : Nat) : List String :=
  (split (raw.getD "") (fun c => c == ',')).foldl (addToPath cap) []

end ToolArtifactRegistry.Federation
