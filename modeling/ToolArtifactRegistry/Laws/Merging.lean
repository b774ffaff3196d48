import Mathlib.Data.List.Induction
import ToolArtifactRegistry.Federation.Wire

/-! Copies of one record that came in from several registries, and the one row they are merged into. -/
namespace ToolArtifactRegistry.Laws

open Library.Text Federation

section Order

theorem cachedLe_refl (time : Option Int) : cachedLe time time = true := by
  cases time <;> simp [cachedLe]

theorem cachedLe_trans {left middle right : Option Int} (first : cachedLe left middle = true)
    (second : cachedLe middle right = true) : cachedLe left right = true := by
  cases left with
  | none => rfl
  | some l =>
    cases middle with
    | none => simp [cachedLe] at first
    | some m =>
      cases right with
      | none => simp [cachedLe] at second
      | some r =>
        simp only [cachedLe, decide_eq_true_eq] at first second ⊢
        omega

theorem cachedLe_total (left right : Option Int) : cachedLe left right = true ∨ cachedLe right left = true := by
  cases left with
  | none => exact Or.inl rfl
  | some l =>
    cases right with
    | none => exact Or.inr rfl
    | some r =>
      simp only [cachedLe, decide_eq_true_eq]
      omega

theorem cachedLe_antisymm {left right : Option Int} (first : cachedLe left right = true)
    (second : cachedLe right left = true) : left = right := by
  cases left with
  | none =>
    cases right with
    | none => rfl
    | some r => simp [cachedLe] at second
  | some l =>
    cases right with
    | none => simp [cachedLe] at first
    | some r =>
      simp only [cachedLe, decide_eq_true_eq] at first second
      rw [show l = r by omega]

/-- Field by field: a home copy above any other, then the later of two times, then the fewer hops. -/
theorem rank_le_iff {left right : Rank} :
    left.le right = true ↔ (left.home = true → right.home = true) ∧
      (left.home = right.home → cachedLe left.cached right.cached = true ∧
        (left.cached = right.cached → right.hops ≤ left.hops)) := by
  unfold Rank.le
  by_cases home : left.home = right.home
  · rw [if_pos home]
    by_cases cached : left.cached = right.cached
    · simp [home, cached, cachedLe_refl]
    · simp [home, cached]
  · rw [if_neg home]
    cases l : left.home <;> cases r : right.home <;> simp_all

theorem rank_le_refl (rank : Rank) : rank.le rank = true :=
  rank_le_iff.mpr ⟨id, fun _ => ⟨cachedLe_refl _, fun _ => le_rfl⟩⟩

theorem rank_le_total (left right : Rank) : left.le right = true ∨ right.le left = true := by
  unfold Rank.le
  by_cases home : left.home = right.home
  · rw [if_pos home, if_pos home.symm]
    by_cases cached : left.cached = right.cached
    · rw [if_pos cached, if_pos cached.symm, decide_eq_true_eq, decide_eq_true_eq]
      omega
    · rw [if_neg cached, if_neg (Ne.symm cached)]
      exact cachedLe_total left.cached right.cached
  · rw [if_neg home, if_neg (Ne.symm home)]
    cases l : left.home <;> cases r : right.home <;> simp_all

theorem rank_le_trans {left middle right : Rank} (first : left.le middle = true)
    (second : middle.le right = true) : left.le right = true := by
  rw [rank_le_iff] at first second ⊢
  refine ⟨fun home => second.1 (first.1 home), fun home => ?_⟩
  have early : left.home = middle.home := by
    cases l : left.home <;> cases m : middle.home <;> simp_all
  have late : middle.home = right.home := early.symm.trans home
  have times := cachedLe_trans (first.2 early).1 (second.2 late).1
  refine ⟨times, fun cached => ?_⟩
  have between : left.cached = middle.cached := by
    apply cachedLe_antisymm (first.2 early).1
    rw [cached]
    exact (second.2 late).1
  have near := (first.2 early).2 between
  have nearer := (second.2 late).2 (between.symm.trans cached)
  omega

theorem rank_le_antisymm {left right : Rank} (first : left.le right = true) (second : right.le left = true) :
    left = right := by
  rw [rank_le_iff] at first second
  have home : left.home = right.home := by
    cases l : left.home <;> cases r : right.home <;> simp_all
  have cached : left.cached = right.cached := cachedLe_antisymm (first.2 home).1 (second.2 home.symm).1
  have near := (first.2 home).2 cached
  have nearer := (second.2 home.symm).2 cached.symm
  cases left
  cases right
  simp only [Rank.mk.injEq] at *
  exact ⟨home, cached, by omega⟩

end Order

section Picking

variable (instant : String → Option Int)

/-- The pick splits a group into the winner and the others, and ranks none of them above the winner. -/
theorem pickBest_perm (best : FedSearchHit) (rest : List FedSearchHit) :
    List.Perm ((pickBest instant best rest).1 :: (pickBest instant best rest).2) (best :: rest) := by
  induction rest generalizing best with
  | nil => exact List.Perm.refl _
  | cons next rest ih =>
    unfold pickBest
    split
    · have later := ih next
      exact (List.Perm.swap best _ _).trans ((later.cons best))
    · have later := ih best
      exact ((List.Perm.swap next _ _).trans (later.cons next)).trans (List.Perm.swap best next rest)

theorem pickBest_best (best : FedSearchHit) (rest : List FedSearchHit) :
    ∀ hit ∈ best :: rest, (rank instant hit).le (rank instant (pickBest instant best rest).1) = true := by
  induction rest generalizing best with
  | nil =>
    intro hit mem
    rw [List.mem_singleton.mp mem]
    exact rank_le_refl _
  | cons next rest ih =>
    intro hit mem
    unfold pickBest
    split
    · case _ worse =>
      rcases List.mem_cons.mp mem with same | later
      · rw [same]
        exact rank_le_trans worse (ih next next List.mem_cons_self)
      · exact ih next hit later
    · case _ better =>
      have over_ := (rank_le_total (rank instant best) (rank instant next)).resolve_left better
      rcases List.mem_cons.mp mem with same | later
      · rw [same]
        exact ih best best List.mem_cons_self
      · rcases List.mem_cons.mp later with same | deeper
        · rw [same]
          exact rank_le_trans over_ (ih best best List.mem_cons_self)
        · exact ih best hit (List.mem_cons_of_mem _ deeper)

/-- What makes one copy the row to show: no other copy is its record's home unless it is one too; among
those alike in that none is more recently cached; and among those alike in both none came fewer hops. -/
structure Foremost (winner : FedSearchHit) (others : List FedSearchHit) : Prop where
  home : ∀ other ∈ others, (rank instant other).home = true → (rank instant winner).home = true
  recent : ∀ other ∈ others, (rank instant other).home = (rank instant winner).home →
    cachedLe (rank instant other).cached (rank instant winner).cached = true
  near : ∀ other ∈ others, (rank instant other).home = (rank instant winner).home →
    (rank instant other).cached = (rank instant winner).cached → winner.hops ≤ other.hops

theorem pickBest_foremost (best : FedSearchHit) (rest : List FedSearchHit) :
    Foremost instant (pickBest instant best rest).1 (pickBest instant best rest).2 := by
  have each (other : FedSearchHit) (mem : other ∈ (pickBest instant best rest).2) :=
    rank_le_iff.mp (pickBest_best instant best rest other
      ((pickBest_perm instant best rest).mem_iff.mp (List.mem_cons_of_mem _ mem)))
  exact
    { home := fun other mem => (each other mem).1
      recent := fun other mem home => ((each other mem).2 home).1
      near := fun other mem home cached => ((each other mem).2 home).2 cached }

end Picking

section Sources

theorem sortedOnce_sorted (texts : List String) : (sortedOnce texts).Pairwise (fun l r => le l r = true) := by
  have : Std.Total (fun left right : String => le left right = true) := ⟨fun l r => charsLe_total _ _⟩
  have : IsTrans String (fun left right : String => le left right = true) :=
    ⟨fun _ _ _ first second => charsLe_trans first second⟩
  exact (List.pairwise_insertionSort _ texts).sublist (List.dedup_sublist _)

theorem sortedOnce_nodup (texts : List String) : (sortedOnce texts).Nodup := List.nodup_dedup _

theorem mem_sortedOnce {texts : List String} {text : String} : text ∈ sortedOnce texts ↔ text ∈ texts := by
  unfold sortedOnce
  rw [List.mem_dedup, List.mem_insertionSort]

end Sources

section Rows

theorem firsts_snoc (texts : List String) (text : String) :
    firsts (texts ++ [text]) = if text ∈ firsts texts then firsts texts else firsts texts ++ [text] := by
  unfold firsts
  rw [List.foldl_append]
  rfl

/-- The texts stand in the order in which each of them was first there. -/
theorem firsts_order (texts : List String) :
    (firsts texts).Pairwise (fun l r => texts.idxOf l < texts.idxOf r) := by
  induction texts using List.reverseRecOn with
  | nil => exact List.Pairwise.nil
  | append_singleton texts text ih =>
    have kept (l : String) (mem : l ∈ firsts texts) : (texts ++ [text]).idxOf l = texts.idxOf l :=
      List.idxOf_append_of_mem (mem_firsts.mp mem)
    have before : (firsts texts).Pairwise (fun l r => (texts ++ [text]).idxOf l < (texts ++ [text]).idxOf r) := by
      apply ih.imp_of_mem
      intro l r left right order
      rw [kept l left, kept r right]
      exact order
    rw [firsts_snoc]
    split
    · exact before
    · case _ fresh =>
      rw [List.pairwise_append]
      refine ⟨before, List.pairwise_singleton _ _, fun l left r right => ?_⟩
      have absent : text ∉ texts := fun mem => fresh (mem_firsts.mpr mem)
      have early : texts.idxOf l < texts.length := List.idxOf_lt_length_of_mem (mem_firsts.mp left)
      rw [List.mem_singleton.mp right, kept l left, List.idxOf_append_of_notMem absent]
      omega

variable {instant : String → Option Int} {me : String}

/-- How a row comes from the copies of its record. -/
structure RowOf (instant : String → Option Int) (me : String) (copies : List FedSearchHit)
    (row winner : FedSearchHit) (others : List FedSearchHit) : Prop where
  copies : List.Perm (winner :: others) copies
  shown : row = { winner with alsoFrom := row.alsoFrom }
  foremost : Foremost instant winner others
  sorted : row.alsoFrom.Pairwise (fun l r => le l r = true)
  once : row.alsoFrom.Nodup
  sources : ∀ s, s ∈ row.alsoFrom ↔ s ≠ source me winner ∧ ∃ other ∈ others, source me other = s

theorem mergeGroup_row {copies : List FedSearchHit} {row : FedSearchHit}
    (merged : mergeGroup instant me copies = some row) : ∃ winner others, RowOf instant me copies row winner others := by
  cases copies with
  | nil => simp [mergeGroup] at merged
  | cons first rest =>
    have made : { (pickBest instant first rest).1 with
        alsoFrom := sortedOnce (((pickBest instant first rest).2.map (source me)).filter
          (fun s => s != source me (pickBest instant first rest).1)) } = row := Option.some.inj merged
    refine ⟨(pickBest instant first rest).1, (pickBest instant first rest).2, pickBest_perm instant first rest, ?_,
      pickBest_foremost instant first rest, ?_, ?_, fun s => ?_⟩
    · rw [← made]
    · rw [← made]
      exact sortedOnce_sorted _
    · rw [← made]
      exact sortedOnce_nodup _
    · rw [← made]
      show s ∈ sortedOnce _ ↔ _
      rw [mem_sortedOnce, List.mem_filter, List.mem_map, bne_iff_ne, and_comm]

/-- The copies of one record among some hits. -/
def copiesOf (iri : String) (hits : List FedSearchHit) : List FedSearchHit :=
  hits.filter (fun hit => hit.hit.iri == iri)

theorem mergeCopies_row {hits : List FedSearchHit} {row : FedSearchHit} (mem : row ∈ mergeCopies instant hits me) :
    ∃ winner others, RowOf instant me (copiesOf row.hit.iri hits) row winner others := by
  obtain ⟨iri, _, merged⟩ := List.mem_filterMap.mp mem
  obtain ⟨winner, others, of⟩ := mergeGroup_row merged
  have named : winner.hit.iri = iri := by
    have found := of.copies.mem_iff.mp List.mem_cons_self
    exact beq_iff_eq.mp (List.mem_filter.mp found).2
  have same : row.hit.iri = iri := by
    rw [of.shown]
    exact named
  exact ⟨winner, others, by rw [same]; exact of⟩

/-- The rank of a row is that of its winner, the best among its copies. -/
theorem rank_row {copies others : List FedSearchHit} {row winner : FedSearchHit}
    (of : RowOf instant me copies row winner others) :
    (∃ hit ∈ copies, rank instant hit = rank instant row) ∧
      ∀ hit ∈ copies, (rank instant hit).le (rank instant row) = true := by
  have same : rank instant row = rank instant winner := by
    rw [of.shown]
    rfl
  rw [same]
  refine ⟨⟨winner, of.copies.mem_iff.mp List.mem_cons_self, rfl⟩, fun hit mem => ?_⟩
  rcases List.mem_cons.mp (of.copies.mem_iff.mpr mem) with won | beaten
  · rw [won]
    exact rank_le_refl _
  · exact rank_le_iff.mpr ⟨of.foremost.home hit beaten,
      fun home => ⟨of.foremost.recent hit beaten home, of.foremost.near hit beaten home⟩⟩

theorem rank_shuffled {hits shuffled : List FedSearchHit} (perm : shuffled.Perm hits) {row other : FedSearchHit}
    (mem : row ∈ mergeCopies instant hits me) (mem' : other ∈ mergeCopies instant shuffled me)
    (same : other.hit.iri = row.hit.iri) : rank instant other = rank instant row := by
  obtain ⟨_, _, of⟩ := mergeCopies_row mem
  obtain ⟨_, _, of'⟩ := mergeCopies_row mem'
  have copies : (copiesOf other.hit.iri shuffled).Perm (copiesOf row.hit.iri hits) := by
    rw [same]
    exact perm.filter _
  have best := rank_row of
  have best' := rank_row of'
  obtain ⟨hit, held, ranked⟩ := best.1
  obtain ⟨hit', held', ranked'⟩ := best'.1
  apply rank_le_antisymm
  · rw [← ranked']
    exact best.2 hit' (copies.mem_iff.mp held')
  · rw [← ranked]
    exact best'.2 hit (copies.mem_iff.mpr held)

/-- One row for each record, in the order in which the records first arrived. Each row is a copy no other copy
outranks, and names in order, and once each, the other registries the record came from. In whatever order the
hits arrive, the same records have a row, of the same rank. -/
theorem mergeCopies_keeps_best (instant : String → Option Int) (hits : List FedSearchHit) (me : String) :
    ((iris (mergeCopies instant hits me)).Nodup ∧
      (∀ iri, iri ∈ iris (mergeCopies instant hits me) ↔ iri ∈ iris hits) ∧
      (iris (mergeCopies instant hits me)).Pairwise (fun l r => (iris hits).idxOf l < (iris hits).idxOf r)) ∧
    (∀ row ∈ mergeCopies instant hits me, ∃ winner others,
      RowOf instant me (copiesOf row.hit.iri hits) row winner others) ∧
    (∀ shuffled : List FedSearchHit, shuffled.Perm hits →
      (∀ iri, iri ∈ iris (mergeCopies instant shuffled me) ↔ iri ∈ iris (mergeCopies instant hits me)) ∧
      ∀ row ∈ mergeCopies instant hits me, ∀ other ∈ mergeCopies instant shuffled me,
        other.hit.iri = row.hit.iri → rank instant other = rank instant row) := by
  have among (some_ : List FedSearchHit) (iri : String) :
      iri ∈ iris (mergeCopies instant some_ me) ↔ iri ∈ iris some_ := by
    rw [iris_mergeCopies]
    exact mem_firsts
  refine ⟨⟨?_, among hits, ?_⟩, fun row mem => mergeCopies_row mem, fun shuffled perm => ⟨fun iri => ?_, ?_⟩⟩
  · rw [iris_mergeCopies]
    exact nodup_firsts _
  · rw [iris_mergeCopies]
    exact firsts_order _
  · rw [among, among]
    exact (perm.map _).mem_iff
  · intro row mem other mem' same
    exact rank_shuffled perm mem mem' same

end Rows

end ToolArtifactRegistry.Laws

/-! A hit that travels from registry to registry: what a chain of peers, however long, does to the
account of where it came from. -/
namespace ToolArtifactRegistry.Laws

open Federation Model Domain

/-- A hit of a registry, as it arrives through some peers in turn. -/
def carried (hit : SearchHit) (peers : List PeerRecord) : FedSearchHit :=
  peers.foldl FedSearchHit.relayed (FedSearchHit.local hit)

theorem carried_snoc (hit : SearchHit) (peers : List PeerRecord) (peer : PeerRecord) :
    carried hit (peers ++ [peer]) = (carried hit peers).relayed peer := by
  unfold carried
  rw [List.foldl_append]
  rfl

theorem hops_carried (hit : SearchHit) (peers : List PeerRecord) :
    (carried hit peers).hops = min peers.length (2 ^ 32 - 1) := by
  induction peers using List.reverseRecOn with
  | nil => rfl
  | append_singleton peers peer ih =>
    rw [carried_snoc, List.length_append, List.length_singleton]
    show min ((carried hit peers).hops + 1) (2 ^ 32 - 1) = _
    omega

theorem hops_carried_eq_zero {hit : SearchHit} {peers : List PeerRecord} :
    (carried hit peers).hops = 0 ↔ peers = [] := by
  rw [hops_carried, ← List.length_eq_zero_iff]
  omega

theorem via_carried (hit : SearchHit) (peers : List PeerRecord) :
    (carried hit peers).via = peers.getLast?.map PeerRecord.baseIri := by
  induction peers using List.reverseRecOn with
  | nil => rfl
  | append_singleton peers peer _ =>
    rw [carried_snoc, List.getLast?_concat]
    rfl

theorem reach_carried (hit : SearchHit) (peers : List PeerRecord) :
    (carried hit peers).reach =
      if peers.length = 0 then reachLocal else if peers.length = 1 then reachDirect else reachIndirect := by
  induction peers using List.reverseRecOn with
  | nil => rfl
  | append_singleton peers peer _ =>
    have hops := hops_carried hit peers
    have once : saturatingSucc (carried hit peers).hops = 1 ↔ peers.length + 1 = 1 := by
      unfold saturatingSucc
      omega
    rw [carried_snoc, List.length_append, List.length_singleton, if_neg (by omega)]
    show (if saturatingSucc (carried hit peers).hops = 1 then reachDirect else reachIndirect) = _
    simp only [once]

/-- One relay: a hit the peer answered with as its own becomes the peer's, any other keeps its home. -/
theorem relayed_own {hit : FedSearchHit} {peer : PeerRecord} (near : hit.hops = 0)
    (own : hit.hit.origin.kind = "local") :
    (hit.relayed peer).hit.origin =
      { kind := "peer", peerId := some peer.id, peerTitle := peer.title, peerBaseIri := some peer.baseIri
        resolveStatus := some "live" } := by
  have both : (hit.hops == 0 && hit.hit.origin.kind == "local") = true := by simp [near, own]
  show (if (hit.hops == 0 && hit.hit.origin.kind == "local") = true then _ else _ : Origin) = _
  rw [if_pos both]

theorem relayed_other {hit : FedSearchHit} {peer : PeerRecord}
    (other : hit.hops ≠ 0 ∨ hit.hit.origin.kind ≠ "local") :
    (hit.relayed peer).hit.origin =
      { hit.hit.origin with
        peerId := none
        kind := if hit.hit.origin.kind == "local" then "peer" else hit.hit.origin.kind } := by
  have neither : ¬ (hit.hops == 0 && hit.hit.origin.kind == "local") = true := by
    simp only [Bool.and_eq_true, beq_iff_eq]
    intro both
    exact other.elim (fun far => far both.1) (fun foreign => foreign both.2)
  show (if (hit.hops == 0 && hit.hit.origin.kind == "local") = true then _ else _ : Origin) = _
  rw [if_neg neither]

theorem relayed_not_local (hit : FedSearchHit) (peer : PeerRecord) :
    (hit.relayed peer).hit.origin.kind ≠ "local" := by
  by_cases own : hit.hops = 0 ∧ hit.hit.origin.kind = "local"
  · rw [relayed_own own.1 own.2]
    show "peer" ≠ "local"
    decide
  · rw [relayed_other (by rwa [not_and_or] at own)]
    by_cases here : hit.hit.origin.kind = "local"
    · simp [here]
    · simp [here]

theorem carried_not_local {hit : SearchHit} {peers : List PeerRecord} (some_ : peers ≠ []) :
    (carried hit peers).hit.origin.kind ≠ "local" := by
  induction peers using List.reverseRecOn with
  | nil => exact absurd rfl some_
  | append_singleton peers peer _ =>
    rw [carried_snoc]
    exact relayed_not_local (carried hit peers) peer

/-- The registry that minted a record stays its home, whoever relays it next. -/
theorem home_carried {hit : SearchHit} (own : hit.origin.kind = "local") (first : PeerRecord)
    (rest : List PeerRecord) : (carried hit (first :: rest)).hit.origin.peerBaseIri = some first.baseIri := by
  induction rest using List.reverseRecOn with
  | nil =>
    have origin := @relayed_own (FedSearchHit.local hit) first rfl own
    show ((FedSearchHit.local hit).relayed first).hit.origin.peerBaseIri = _
    rw [origin]
  | append_singleton rest peer ih =>
    have far : (carried hit (first :: rest)).hops ≠ 0 := by
      intro near
      exact absurd (hops_carried_eq_zero.mp near) (List.cons_ne_nil first rest)
    rw [← List.cons_append, carried_snoc, relayed_other (Or.inl far)]
    exact ih

/-- A copy keeps the state of resolution it was cached with. -/
theorem resolveStatus_carried {hit : SearchHit} (copy : hit.origin.kind ≠ "local") (peers : List PeerRecord) :
    (carried hit peers).hit.origin.resolveStatus = hit.origin.resolveStatus := by
  induction peers using List.reverseRecOn with
  | nil => rfl
  | append_singleton peers peer ih =>
    have other : (carried hit peers).hops ≠ 0 ∨ (carried hit peers).hit.origin.kind ≠ "local" := by
      by_cases start : peers = []
      · rw [start]
        exact Or.inr copy
      · exact Or.inr (carried_not_local start)
    rw [carried_snoc, relayed_other other]
    exact ih

/-- Whatever registry a hit starts from and however many peers relay it: the hops are counted, the last peer is
the one it came through, no relayed hit passes for local, the first peer stays the home of what it minted, and
a cached copy never becomes live. -/
theorem relaying_keeps_provenance (hit : SearchHit) (peers : List PeerRecord) :
    (carried hit peers).hops = min peers.length (2 ^ 32 - 1) ∧
    (carried hit peers).via = peers.getLast?.map PeerRecord.baseIri ∧
    (peers.length = 1 → (carried hit peers).reach = reachDirect) ∧
    (2 ≤ peers.length → (carried hit peers).reach = reachIndirect) ∧
    (peers ≠ [] → (carried hit peers).hit.origin.kind ≠ "local") ∧
    (hit.origin.kind = "local" → ∀ first rest, peers = first :: rest →
      (carried hit peers).hit.origin.peerBaseIri = some first.baseIri) ∧
    (hit.origin.kind ≠ "local" →
      (carried hit peers).hit.origin.resolveStatus = hit.origin.resolveStatus) := by
  have reach := reach_carried hit peers
  refine ⟨hops_carried hit peers, via_carried hit peers, fun one => ?_, fun more => ?_, carried_not_local,
    fun own first rest same => ?_, fun copy => resolveStatus_carried copy peers⟩
  · rw [reach, if_neg (by omega), if_pos one]
  · rw [reach, if_neg (by omega), if_neg (by omega)]
  · rw [same]
    exact home_carried own first rest

end ToolArtifactRegistry.Laws
