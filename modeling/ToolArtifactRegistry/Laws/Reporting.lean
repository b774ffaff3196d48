import Mathlib.Algebra.Order.BigOperators.Group.List
import ToolArtifactRegistry.Api.Search

/-! What a federated search loses on the way and whether it says so. A walk is the tree of legs that
were answered; every registry in it cuts what it takes from one peer, and only the other cuts are
reported. -/
namespace ToolArtifactRegistry.Laws

open Domain Federation Api.Search

section Reporting

/-- A registry that handled the query, and what came of the peers it asked. -/
structure Visited where
  host : Host
  sq : SearchQuery
  queryId : String
  peers : List PeerRecord
  localHits : List SearchHit
  outcomes : List (PeerRecord × Outcome)

variable (instants : Instants)

def Visited.response (node : Visited) : FedSearchResults :=
  conclude instants node.host node.sq node.queryId node.peers node.localHits node.outcomes

/-- A peer that was asked, what came of it, and who handled the query on its account. -/
structure SentLeg where
  peer : PeerRecord
  outcome : Outcome
  below : List Visited

def SentLeg.asked (leg : SentLeg) : PeerRecord × Outcome := (leg.peer, leg.outcome)

/-- An answer to a request together with every registry that handled the query for it. A leg whose
answer was lost may have anything below it. -/
inductive Walked : SearchQuery → FedSearchResults → List Visited → Prop where
  | refused (host : Host) (sq : SearchQuery) (queryId firstSeenAt : String) (repeatCount : Nat) :
      Walked sq (refusal host sq queryId firstSeenAt repeatCount) []
  | handled (host : Host) (sq : SearchQuery) (queryId : String) (peers : List PeerRecord) (localHits : List SearchHit)
      (legs : List SentLeg) (asks : legs.map SentLeg.peer = asked host sq peers)
      (each : ∀ leg ∈ legs, ∀ results, leg.outcome = .answered results →
        Walked (legFor host sq queryId) results leg.below) :
      Walked sq (conclude instants host sq queryId peers localHits (legs.map SentLeg.asked))
        (⟨host, sq, queryId, peers, localHits, legs.map SentLeg.asked⟩ :: legs.flatMap SentLeg.below)

/-- The registry cut its fan-out, lost an answer, or had more hits than it may return. -/
def Visited.flags (node : Visited) : Bool :=
  (node.sq.federated && !(overFanOut node.host node.sq node.peers).isEmpty) ||
    node.outcomes.any (fun asked => asked.2.isLost) ||
    decide (node.host.fed.maxTotalHits < (merged instants node.host node.sq
      (node.outcomes.foldl (gather node.host (timeBudget node.host node.sq))
        (before node.host node.sq node.peers node.localHits)).hits).length)

def Flagged (nodes : List Visited) : Prop := ∃ node ∈ nodes, node.flags instants = true

/-- No peer offers a registry more hits than it takes from one peer. -/
def Fits (nodes : List Visited) : Prop :=
  ∀ node ∈ nodes, ∀ asked ∈ node.outcomes, (offered asked.2).length ≤ node.host.fed.maxPeerHits

instance (nodes : List Visited) : Decidable (Fits nodes) :=
  inferInstanceAs (Decidable (∀ node ∈ nodes, ∀ asked ∈ node.outcomes,
    (offered asked.2).length ≤ node.host.fed.maxPeerHits))

/-- An answer that does not call itself incomplete has a row for every record in every response below it. -/
def Reported (results : FedSearchResults) (nodes : List Visited) : Prop :=
  results.incomplete = false → ∀ node ∈ nodes, ∀ hit ∈ (node.response instants).hits,
    ∃ row ∈ results.hits, row.hit.iri = hit.hit.iri

/-- The records the registries hold themselves. -/
def held (nodes : List Visited) : List String := nodes.flatMap (fun node => node.localHits.map SearchHit.iri)

variable {instants}

theorem incomplete_conclude (host : Host) (sq : SearchQuery) (queryId : String) (peers : List PeerRecord)
    (localHits : List SearchHit) (outcomes : List (PeerRecord × Outcome)) :
    (conclude instants host sq queryId peers localHits outcomes).incomplete =
      ((Visited.mk host sq queryId peers localHits outcomes).flags instants ||
        outcomes.any (fun asked => asked.2.loses)) := by
  have lost : outcomes.any (fun asked => asked.2.isLost) = true → outcomes.any (fun asked => asked.2.loses) = true := by
    intro some_
    obtain ⟨asked, mem, gone⟩ := List.any_eq_true.mp some_
    exact List.any_eq_true.mpr ⟨asked, mem, loses_of_isLost gone⟩
  unfold conclude Visited.flags
  dsimp only
  rw [incomplete_gathered, incomplete_before]
  cases some_ : outcomes.any (fun asked => asked.2.isLost) with
  | true =>
    rw [lost some_]
    simp
  | false => simp [Bool.or_right_comm]

/-- A refusal stands alone and loses nothing. -/
theorem Walked.again {sq : SearchQuery} {results : FedSearchResults} {nodes : List Visited}
    (walked : Walked instants sq results nodes) (again : results.alreadyHandled = true) :
    nodes = [] ∧ results.incomplete = false := by
  cases walked with
  | refused => exact ⟨rfl, rfl⟩
  | handled => cases again

/-- A registry that did not refuse stands at the head of its own walk. -/
theorem Walked.head {sq : SearchQuery} {results : FedSearchResults} {nodes : List Visited}
    (walked : Walked instants sq results nodes) (new : results.alreadyHandled = false) :
    ∃ node ∈ nodes, node.response instants = results := by
  cases walked with
  | refused => cases new
  | handled => exact ⟨_, List.mem_cons_self, rfl⟩

theorem Flagged.mono {part whole : List Visited} (flagged : Flagged instants part)
    (inside : ∀ node ∈ part, node ∈ whole) : Flagged instants whole := by
  obtain ⟨node, mem, flags⟩ := flagged
  exact ⟨node, inside node mem, flags⟩

theorem flags_of_lost {node : Visited} {asked : PeerRecord × Outcome} (mem : asked ∈ node.outcomes)
    (lost : asked.2.isLost = true) : node.flags instants = true := by
  have some_ : node.outcomes.any (fun asked => asked.2.isLost) = true := List.any_eq_true.mpr ⟨asked, mem, lost⟩
  unfold Visited.flags
  rw [some_, Bool.or_true, Bool.true_or]

/-- The answer calls itself incomplete exactly when some registry flagged a cut other than the one on a peer. -/
theorem incomplete_iff {sq : SearchQuery} {results : FedSearchResults} {nodes : List Visited}
    (walked : Walked instants sq results nodes) : results.incomplete = true ↔ Flagged instants nodes := by
  induction walked with
  | refused => simp [refusal, Flagged]
  | handled host sq queryId peers localHits legs asks each ih =>
    rw [incomplete_conclude, Bool.or_eq_true]
    constructor
    · intro incomplete
      rcases incomplete with own | loses
      · exact ⟨_, List.mem_cons_self, own⟩
      · obtain ⟨asked, mem, loses⟩ := List.any_eq_true.mp loses
        cases lost : asked.2.isLost with
        | true => exact ⟨_, List.mem_cons_self, flags_of_lost mem lost⟩
        | false =>
          obtain ⟨results, answered⟩ := answered_of_not_lost lost
          obtain ⟨leg, sent, same⟩ := List.mem_map.mp mem
          rw [answered, Outcome.loses, Bool.and_eq_true] at loses
          have inside := (ih leg sent results (by rw [← answered, ← same]; rfl)).mp loses.2
          exact inside.mono (fun node below => List.mem_cons_of_mem _ (List.mem_flatMap.mpr ⟨leg, sent, below⟩))
    · intro flagged
      obtain ⟨node, mem, flags⟩ := flagged
      rcases List.mem_cons.mp mem with first | later
      · rw [first] at flags
        exact Or.inl flags
      · obtain ⟨leg, sent, below⟩ := List.mem_flatMap.mp later
        refine Or.inr (List.any_eq_true.mpr ⟨leg.asked, List.mem_map_of_mem sent, ?_⟩)
        cases lost : leg.outcome.isLost with
        | true => exact loses_of_isLost lost
        | false =>
          obtain ⟨results, answered⟩ := answered_of_not_lost lost
          have incomplete := (ih leg sent results answered).mpr ⟨node, below, flags⟩
          have new : results.alreadyHandled = false := by
            by_contra again
            rw [((each leg sent results answered).again (Bool.eq_true_of_not_eq_false again)).2] at incomplete
            cases incomplete
          rw [SentLeg.asked, answered, Outcome.loses, new, incomplete]
          rfl

/-- The records in an answer, when no total cap cut it: those held here and those taken from the peers. -/
theorem mem_iris_conclude {host : Host} {sq : SearchQuery} {queryId : String} {peers : List PeerRecord}
    {localHits : List SearchHit} {outcomes : List (PeerRecord × Outcome)}
    (uncut : (Visited.mk host sq queryId peers localHits outcomes).flags instants = false) (iri : String) :
    iri ∈ iris (conclude instants host sq queryId peers localHits outcomes).hits ↔
      iri ∈ localHits.map SearchHit.iri ++
        outcomes.flatMap (fun asked => (iris (offered asked.2)).take host.fed.maxPeerHits) := by
  unfold Visited.flags at uncut
  rw [Bool.or_eq_false_iff, decide_eq_false_iff_not, Nat.not_lt] at uncut
  unfold conclude
  dsimp only
  rw [List.take_of_length_le uncut.2, mem_iris_merged, iris_gathered, iris_before]

theorem subperm_flatMap {α β : Type} {items : List α} {small large : α → List β}
    (each : ∀ item ∈ items, (small item).Subperm (large item)) :
    (items.flatMap small).Subperm (items.flatMap large) := by
  induction items with
  | nil => exact List.Subperm.refl _
  | cons first rest ih =>
    rw [List.flatMap_cons, List.flatMap_cons]
    exact (each first List.mem_cons_self).append (ih (fun item mem => each item (List.mem_cons_of_mem _ mem)))

theorem nodup_of_subperm {α : Type} {small large : List α} (inside : small.Subperm large) (once : large.Nodup) :
    small.Nodup := by
  obtain ⟨between, perm, sublist⟩ := inside
  exact perm.nodup_iff.mp (once.sublist sublist)

/-- An answer holds no record more often than the registries below it do. -/
theorem iris_subperm {sq : SearchQuery} {results : FedSearchResults} {nodes : List Visited}
    (walked : Walked instants sq results nodes) : (iris results.hits).Subperm (held nodes) := by
  induction walked with
  | refused => exact List.nil_subperm
  | handled host sq queryId peers localHits legs asks each ih =>
    have cut : (iris (conclude instants host sq queryId peers localHits (legs.map SentLeg.asked)).hits).Subperm
        (localHits.map SearchHit.iri ++
          (legs.map SentLeg.asked).flatMap (fun asked => (iris (offered asked.2)).take host.fed.maxPeerHits)) := by
      unfold conclude
      dsimp only
      refine List.Subperm.trans (((List.take_sublist _ _).map _).subperm) ?_
      refine (iris_merged_subperm instants host sq _).trans ?_
      rw [iris_gathered, iris_before]
    refine cut.trans ?_
    unfold held
    rw [List.flatMap_cons, List.flatMap_assoc, List.flatMap_map]
    refine List.Subperm.append (List.Subperm.refl _) (subperm_flatMap ?_)
    intro leg sent
    refine (List.take_sublist _ _).subperm.trans ?_
    unfold SentLeg.asked offered
    cases outcome : leg.outcome with
    | timeout => exact List.nil_subperm
    | failed error => exact List.nil_subperm
    | answered results =>
      dsimp only
      split
      · exact List.nil_subperm
      · exact ih leg sent results outcome

/-- Nothing is lost where no flag is raised and no peer offers more than is taken from it. -/
theorem reported_of_fits {sq : SearchQuery} {results : FedSearchResults} {nodes : List Visited}
    (walked : Walked instants sq results nodes) (silent : ¬ Flagged instants nodes) (fits : Fits nodes) :
    ∀ node ∈ nodes, iris (node.response instants).hits ⊆ iris results.hits := by
  induction walked with
  | refused => simp
  | handled host sq queryId peers localHits legs asks each ih =>
    have uncut : (Visited.mk host sq queryId peers localHits (legs.map SentLeg.asked)).flags instants = false := by
      by_contra flags
      exact silent ⟨_, List.mem_cons_self, Bool.eq_true_of_not_eq_false flags⟩
    intro node mem iri listed
    rcases List.mem_cons.mp mem with first | later
    · rw [first] at listed
      exact listed
    · obtain ⟨leg, sent, below⟩ := List.mem_flatMap.mp later
      have inside : ∀ other ∈ leg.below, other ∈
          (Visited.mk host sq queryId peers localHits (legs.map SentLeg.asked)) :: legs.flatMap SentLeg.below :=
        fun other mem => List.mem_cons_of_mem _ (List.mem_flatMap.mpr ⟨leg, sent, mem⟩)
      have came : leg.outcome.isLost = false := by
        by_contra lost
        rw [flags_of_lost (List.mem_map_of_mem sent) (Bool.eq_true_of_not_eq_false lost)] at uncut
        cases uncut
      obtain ⟨results, answered⟩ := answered_of_not_lost came
      have theirs := ih leg sent results answered (fun flagged => silent (flagged.mono inside))
        (fun other mem => fits other (inside other mem)) node below listed
      have new : results.alreadyHandled = false := by
        by_contra again
        rw [((each leg sent results answered).again (Bool.eq_true_of_not_eq_false again)).1] at below
        cases below
      have room := fits _ List.mem_cons_self leg.asked (List.mem_map_of_mem sent)
      rw [mem_iris_conclude uncut, List.mem_append]
      right
      refine List.mem_flatMap.mpr ⟨leg.asked, List.mem_map_of_mem sent, ?_⟩
      rw [List.take_of_length_le (by rw [iris, List.length_map]; exact room)]
      unfold SentLeg.asked offered
      rw [answered]
      simp only [new]
      exact theirs

/-- A response below an answer brings only what some registry below the answer holds. -/
theorem iris_subset_held {sq : SearchQuery} {results : FedSearchResults} {nodes : List Visited}
    (walked : Walked instants sq results nodes) (silent : ¬ Flagged instants nodes) :
    ∀ node ∈ nodes, iris (node.response instants).hits ⊆ held nodes := by
  induction walked with
  | refused => simp
  | handled host sq queryId peers localHits legs asks each ih =>
    intro node mem
    rcases List.mem_cons.mp mem with first | later
    · rw [first]
      exact (iris_subperm (Walked.handled host sq queryId peers localHits legs asks each)).subset
    · obtain ⟨leg, sent, below⟩ := List.mem_flatMap.mp later
      have inside : ∀ other ∈ leg.below, other ∈
          (Visited.mk host sq queryId peers localHits (legs.map SentLeg.asked)) :: legs.flatMap SentLeg.below :=
        fun other mem => List.mem_cons_of_mem _ (List.mem_flatMap.mpr ⟨leg, sent, mem⟩)
      have came : leg.outcome.isLost = false := by
        by_contra lost
        exact silent ⟨_, List.mem_cons_self,
          flags_of_lost (List.mem_map_of_mem sent) (Bool.eq_true_of_not_eq_false lost)⟩
      obtain ⟨results, answered⟩ := answered_of_not_lost came
      have theirs := ih leg sent results answered (fun flagged => silent (flagged.mono inside)) node below
      intro iri listed
      obtain ⟨holder, among, record⟩ := List.mem_flatMap.mp (theirs listed)
      exact List.mem_flatMap.mpr ⟨holder, inside holder among, record⟩

/-- Where every item of the pieces is among their beginnings, and none occurs twice, no piece was cut. -/
theorem uncut_of_subset {α β : Type} {front : List β} {items : List α} {piece : α → List β} {size : Nat}
    (once : (front ++ items.flatMap piece).Nodup)
    (kept : ∀ x ∈ items.flatMap piece, x ∈ front ++ items.flatMap (fun item => (piece item).take size)) :
    ∀ item ∈ items, (piece item).length ≤ size := by
  have inside : front ++ items.flatMap piece ⊆ front ++ items.flatMap (fun item => (piece item).take size) := by
    intro x mem
    rcases List.mem_append.mp mem with here | there
    · exact List.mem_append_left _ here
    · exact kept x there
  have lengths := (List.subperm_of_subset once inside).length_le
  rw [List.length_append, List.length_append, List.length_flatMap, List.length_flatMap] at lengths
  intro item mem
  by_contra long
  have less : (items.map (fun item => ((piece item).take size).length)).sum < (items.map (fun item => (piece item).length)).sum := by
    apply List.sum_lt_sum
    · intro other _
      rw [List.length_take]
      exact Nat.min_le_right _ _
    · refine ⟨item, mem, ?_⟩
      rw [List.length_take]
      omega
  omega

/-- The records held below two different legs are different. -/
theorem held_disjoint {legs : List SentLeg} (once : (held (legs.flatMap SentLeg.below)).Nodup) {first second : SentLeg}
    (left : first ∈ legs) (right : second ∈ legs) (apart : first ≠ second) {iri : String} (here : iri ∈ held first.below) :
    iri ∉ held second.below := by
  intro there
  have inside {legs : List SentLeg} {leg : SentLeg} (mem : leg ∈ legs) (record : iri ∈ held leg.below) :
      iri ∈ held (legs.flatMap SentLeg.below) := by
    unfold held at record ⊢
    rw [List.flatMap_assoc]
    exact List.mem_flatMap.mpr ⟨leg, mem, record⟩
  obtain ⟨front, back, split⟩ := List.append_of_mem left
  rw [split, List.mem_append, List.mem_cons] at right
  unfold held at once
  rw [split, List.flatMap_append, List.flatMap_cons, List.flatMap_append, List.flatMap_append,
    List.nodup_append, List.nodup_append] at once
  rcases right with earlier | same | later
  · exact once.2.2 iri (inside earlier there) iri (List.mem_append_left _ here) rfl
  · exact apart same.symm
  · exact once.2.1.2.2 iri here iri (inside later there) rfl

/-- Where the registries hold different records and nothing is lost unreported, no peer offers too much. -/
theorem fits_of_reported {sq : SearchQuery} {results : FedSearchResults} {nodes : List Visited}
    (walked : Walked instants sq results nodes) (once : (held nodes).Nodup) (silent : ¬ Flagged instants nodes)
    (reported : ∀ node ∈ nodes, iris (node.response instants).hits ⊆ iris results.hits) : Fits nodes := by
  induction walked with
  | refused => exact fun node mem => by cases mem
  | handled host sq queryId peers localHits legs asks each ih =>
    have uncut : (Visited.mk host sq queryId peers localHits (legs.map SentLeg.asked)).flags instants = false := by
      by_contra flags
      exact silent ⟨_, List.mem_cons_self, Bool.eq_true_of_not_eq_false flags⟩
    have inside {leg : SentLeg} (sent : leg ∈ legs) : ∀ other ∈ leg.below, other ∈
        (Visited.mk host sq queryId peers localHits (legs.map SentLeg.asked)) :: legs.flatMap SentLeg.below :=
      fun other mem => List.mem_cons_of_mem _ (List.mem_flatMap.mpr ⟨leg, sent, mem⟩)
    have came {leg : SentLeg} (sent : leg ∈ legs) : ∃ results, leg.outcome = .answered results := by
      apply answered_of_not_lost
      by_contra lost
      rw [flags_of_lost (List.mem_map_of_mem sent) (Bool.eq_true_of_not_eq_false lost)] at uncut
      cases uncut
    have below_held {leg : SentLeg} (sent : leg ∈ legs) : (iris (offered leg.outcome)).Subperm (held leg.below) := by
      obtain ⟨results, answered⟩ := came sent
      rw [answered]
      unfold offered
      dsimp only
      split
      · exact List.nil_subperm
      · exact iris_subperm (each leg sent results answered)
    have whole : held ((Visited.mk host sq queryId peers localHits (legs.map SentLeg.asked)) :: legs.flatMap SentLeg.below) =
        localHits.map SearchHit.iri ++ held (legs.flatMap SentLeg.below) := List.flatMap_cons
    rw [whole] at once
    obtain ⟨_, onceBelow, apart⟩ := List.nodup_append.mp once
    -- what a leg offers reaches the answer, so it was not cut
    have offers_kept {leg : SentLeg} (sent : leg ∈ legs) {iri : String} (listed : iri ∈ iris (offered leg.outcome)) :
        iri ∈ localHits.map SearchHit.iri ++
          (legs.map SentLeg.asked).flatMap (fun asked => (iris (offered asked.2)).take host.fed.maxPeerHits) := by
      obtain ⟨results, answered⟩ := came sent
      rw [answered] at listed
      unfold offered at listed
      dsimp only at listed
      split at listed
      · cases listed
      · next new =>
        obtain ⟨node, mem, same⟩ := (each leg sent results answered).head (Bool.eq_false_of_not_eq_true new)
        rw [← same] at listed
        exact (mem_iris_conclude uncut iri).mp (reported node (inside sent node mem) listed)
    intro node mem
    rcases List.mem_cons.mp mem with first | later
    · rw [first]
      have onceOffered : (localHits.map SearchHit.iri ++
          (legs.map SentLeg.asked).flatMap (fun asked => iris (offered asked.2))).Nodup := by
        have smaller : ((legs.map SentLeg.asked).flatMap (fun asked => iris (offered asked.2))).Subperm
            (held (legs.flatMap SentLeg.below)) := by
          unfold held
          rw [List.flatMap_map, List.flatMap_assoc]
          exact subperm_flatMap (fun leg sent => below_held sent)
        exact nodup_of_subperm ((List.Subperm.refl _).append smaller) once
      have room := uncut_of_subset onceOffered (fun iri listed => by
        obtain ⟨asked, mem, offers⟩ := List.mem_flatMap.mp listed
        obtain ⟨leg, sent, same⟩ := List.mem_map.mp mem
        rw [← same] at offers
        exact offers_kept sent offers)
      intro asked mem
      have bound := room asked mem
      rw [iris, List.length_map] at bound
      exact bound
    · obtain ⟨leg, sent, below⟩ := List.mem_flatMap.mp later
      obtain ⟨results, answered⟩ := came sent
      have notFlagged : ¬ Flagged instants leg.below := fun flagged => silent (flagged.mono (inside sent))
      refine ih leg sent results answered ?_ notFlagged ?_ node below
      · unfold held at onceBelow
        rw [List.flatMap_assoc, List.nodup_flatMap] at onceBelow
        exact onceBelow.1 leg sent
      · -- what reaches the answer from below this leg came by this leg
        intro other mem' iri listed
        have record := iris_subset_held (each leg sent results answered) notFlagged other mem' listed
        have reached := (mem_iris_conclude uncut iri).mp (reported other (inside sent other mem') listed)
        rcases List.mem_append.mp reached with here | taken
        · have inBelow : iri ∈ held (legs.flatMap SentLeg.below) := by
            unfold held at record ⊢
            rw [List.flatMap_assoc]
            exact List.mem_flatMap.mpr ⟨leg, sent, record⟩
          exact absurd rfl (apart iri here iri inBelow)
        · obtain ⟨asked, mem'', begins⟩ := List.mem_flatMap.mp taken
          obtain ⟨carrier, sent', same⟩ := List.mem_map.mp mem''
          rw [← same] at begins
          have offers : iri ∈ iris (offered carrier.outcome) := List.mem_of_mem_take begins
          have one : leg = carrier := by
            by_contra different
            exact held_disjoint onceBelow sent sent' different record ((below_held sent').subset offers)
          rw [← one, answered] at offers
          unfold offered at offers
          dsimp only at offers
          split at offers
          · cases offers
          · exact offers

theorem reported_iff (results : FedSearchResults) (nodes : List Visited) : Reported instants results nodes ↔
    (results.incomplete = false → ∀ node ∈ nodes, iris (node.response instants).hits ⊆ iris results.hits) := by
  unfold Reported iris
  refine imp_congr Iff.rfl (forall_congr' fun node => imp_congr Iff.rfl ?_)
  constructor
  · intro rows iri listed
    obtain ⟨hit, mem, named⟩ := List.mem_map.mp listed
    obtain ⟨row, found, same⟩ := rows hit mem
    rw [← named, ← same]
    exact List.mem_map_of_mem found
  · intro inside hit mem
    obtain ⟨row, found, same⟩ := List.mem_map.mp (inside (List.mem_map_of_mem mem))
    exact ⟨row, found, same⟩

/-- Loss is reported by every walk with a flag raised in it and by every walk in which no peer offers more
than is taken from it; and by no other walk through registries that hold different records. -/
theorem loss_is_reported {sq : SearchQuery} {results : FedSearchResults} {nodes : List Visited}
    (walked : Walked instants sq results nodes) :
    (Flagged instants nodes ∨ Fits nodes → Reported instants results nodes) ∧
      ((held nodes).Nodup → Reported instants results nodes → Flagged instants nodes ∨ Fits nodes) := by
  rw [reported_iff]
  constructor
  · intro condition whole
    have silent : ¬ Flagged instants nodes := by
      intro flagged
      rw [(incomplete_iff walked).mpr flagged] at whole
      cases whole
    exact reported_of_fits walked silent (condition.resolve_left silent)
  · intro once reported
    by_cases flagged : Flagged instants nodes
    · exact Or.inl flagged
    · have whole : results.incomplete = false := by
        by_contra incomplete
        exact flagged ((incomplete_iff walked).mp (Bool.eq_true_of_not_eq_false incomplete))
      exact Or.inr (fits_of_reported walked once flagged (reported whole))

end Reporting

/-- A registry that takes so many hits from one peer. -/
def hostAt (base : String) (maxPeerHits : Nat) : Host where
  base := base
  fed :=
    { maxHops := 3, totalTimeout := milliseconds 10000, hopMargin := milliseconds 600, maxPeers := 12
      maxPeerBytes := 2097152, maxPeerHits := maxPeerHits, maxPeerStatuses := 32, maxTotalHits := 500
      idTtl := 600000000000, maxSeenRows := 50000 }
  federatedSearchTimeout := milliseconds 3000

def hitOf (iri : String) : SearchHit := ⟨iri, "software", iri, none, { kind := "local" }, 1⟩

def peerB : PeerRecord := ⟨"b", "https://b.example", none, none, "ok", 0, false⟩

def searchFair : SearchQuery := { q := some "fair", federated := true }

/-- The registry asked by the first, with two records of its own. -/
def asksB (maxPeerHits : Nat) : Visited :=
  ⟨hostAt "https://b.example" 100, legFor (hostAt "https://a.example" maxPeerHits) searchFair "q", "q", [],
    [hitOf "https://b.example/software/1", hitOf "https://b.example/software/2"], []⟩

def legToB (maxPeerHits : Nat) : SentLeg :=
  ⟨peerB, .answered ((asksB maxPeerHits).response (fun _ => none)), [asksB maxPeerHits]⟩

def startsAtA (maxPeerHits : Nat) : Visited :=
  ⟨hostAt "https://a.example" maxPeerHits, searchFair, "q", [peerB], [], [(legToB maxPeerHits).asked]⟩

theorem walk_from_a (maxPeerHits : Nat) : Walked (fun _ => none) searchFair
    ((startsAtA maxPeerHits).response (fun _ => none)) [startsAtA maxPeerHits, asksB maxPeerHits] := by
  have answer : Walked (fun _ => none) (legFor (hostAt "https://a.example" maxPeerHits) searchFair "q")
      ((asksB maxPeerHits).response (fun _ => none)) [asksB maxPeerHits] :=
    Walked.handled _ _ "q" [] _ [] (by simp [asked, withinFanOut]) (by simp)
  refine Walked.handled (hostAt "https://a.example" maxPeerHits) searchFair "q" [peerB] [] [legToB maxPeerHits] ?_ ?_
  · have free : askable (hostAt "https://a.example" maxPeerHits) searchFair peerB = true :=
      show askable (hostAt "https://a.example" 0) searchFair peerB = true by decide
    have budget : searchFair.federated = true ∧ 0 < hopsGranted (hostAt "https://a.example" maxPeerHits) searchFair :=
      show searchFair.federated = true ∧ 0 < hopsGranted (hostAt "https://a.example" 0) searchFair by decide
    unfold asked withinFanOut
    rw [if_pos budget, List.filter_cons_of_pos free]
    rfl
  · intro leg sent results answered
    rw [List.mem_singleton.mp sent] at answered ⊢
    rw [← Outcome.answered.inj answered]
    exact answer

/-- With room for both records, the answer has them. -/
theorem loss_is_reported_two : Reported (fun _ => none) ((startsAtA 100).response (fun _ => none)) [startsAtA 100, asksB 100] :=
  (loss_is_reported (walk_from_a 100)).1 (Or.inr (by decide))

/-- With room for one, the other goes and the answer calls itself whole. -/
theorem cut_hit_unreported :
    Walked (fun _ => none) searchFair ((startsAtA 1).response (fun _ => none)) [startsAtA 1, asksB 1] ∧
      ¬ Reported (fun _ => none) ((startsAtA 1).response (fun _ => none)) [startsAtA 1, asksB 1] := by
  refine ⟨walk_from_a 1, fun reported => ?_⟩
  have whole : ((startsAtA 1).response (fun _ => none)).incomplete = false := by decide
  have lost := reported whole (asksB 1) (by simp)
  revert lost
  decide

end ToolArtifactRegistry.Laws
