import ToolArtifactRegistry.Library.Worklist
import ToolArtifactRegistry.Platform

/-! The graph store: transactions that replace what is said about a subject, and the description
of a subject together with what it owns. -/
namespace ToolArtifactRegistry.Store

open Library.Rdf Library.Worklist

/-- An atomic unit of graph change. -/
structure GraphTx where
  insert : List Quad := []
  deleteSubjects : List (String × String) := []
  deleteProperties : List (String × String × String) := []
  clearGraphs : List String := []

namespace GraphTx

def extend (tx : GraphTx) (quads : List Quad) : GraphTx := { tx with insert := tx.insert ++ quads }

def replaceSubject (tx : GraphTx) (subject graph : String) : GraphTx :=
  { tx with deleteSubjects := tx.deleteSubjects ++ [(subject, graph)] }

def replaceProperty (tx : GraphTx) (subject predicate graph : String) : GraphTx :=
  { tx with deleteProperties := tx.deleteProperties ++ [(subject, predicate, graph)] }

def isEmpty (tx : GraphTx) : Bool :=
  tx.insert.isEmpty && tx.deleteSubjects.isEmpty && tx.deleteProperties.isEmpty && tx.clearGraphs.isEmpty

/-- Every IRI the store parses before it changes anything, in the order it parses them. -/
def references (tx : GraphTx) : List String :=
  tx.clearGraphs ++ tx.deleteSubjects.flatMap (fun target => [target.1, target.2]) ++
    tx.deleteProperties.flatMap (fun target => [target.1, target.2.1, target.2.2])

end GraphTx

def ownedSubresourcePredicates : List String :=
  ["http://www.w3.org/ns/prov#qualifiedAttribution",
    "http://www.w3.org/ns/dcat#distribution",
    "http://www.w3.org/ns/dcat#endpointDescription",
    "https://w3id.org/tar/ns#hasCapability",
    "https://w3id.org/tar/ns#sync",
    "http://spdx.org/rdf/terms#checksum",
    "http://www.w3.org/ns/prov#qualifiedAssociation"]

def isOwnedSubresource (predicate : String) : Bool := decide (predicate ∈ ownedSubresourcePredicates)

/-- Where the closure goes next: into a blank node whatever the predicate, into a named node when
the predicate says the subject owns it. -/
def follow (quad : Quad) : Option Node :=
  match quad.object with
  | .blank label => some (.blank label)
  | .named iri => if isOwnedSubresource quad.predicate then some (.named iri) else none
  | .literal .. => none

def edges (quads : List Quad) : List (Node × Node) :=
  quads.filterMap (fun quad => (follow quad).map (fun target => (quad.subject, target)))

def inGraph (graph : String) (quad : Quad) : Bool := decide (quad.graph = graph)

def about (subject : Node) (quad : Quad) : Bool := decide (quad.subject = subject)

/-- The nodes that go when a subject is replaced in a graph. -/
def owned (data : Dataset) (graph subject : String) : List Node :=
  reach (edges (data.matching (inGraph graph))) (.named subject)

def clearGraph (data : Dataset) (graph : String) : Dataset := data.discard (inGraph graph)

def deleteSubject (data : Dataset) (target : String × String) : Dataset :=
  let doomed := owned data target.2 target.1
  data.discard (fun quad => inGraph target.2 quad && decide (quad.subject ∈ doomed))

def isProperty (target : String × String × String) (quad : Quad) : Bool :=
  decide (quad.subject = .named target.1 ∧ quad.predicate = target.2.1 ∧ quad.graph = target.2.2)

def deleteProperty (data : Dataset) (target : String × String × String) : Dataset :=
  data.discard (isProperty target)

/-- What a transaction leaves: graphs cleared, subjects and properties deleted, quads inserted. -/
def effect (data : Dataset) (tx : GraphTx) : Dataset :=
  (tx.deleteProperties.foldl deleteProperty
    (tx.deleteSubjects.foldl deleteSubject
      (tx.clearGraphs.foldl clearGraph data))).extend tx.insert

/-- One bad IRI aborts the transaction before it changes anything. -/
def apply (platform : Platform) (data : Dataset) (tx : GraphTx) : AppResult Dataset :=
  match tx.references.find? (fun iri => !platform.validIri iri) with
  | some bad => .error (AppError.internal s!"bad IRI {bad}")
  | none => .ok (effect data tx)

theorem apply_ok {platform : Platform} {data after : Dataset} {tx : GraphTx}
    (accepted : apply platform data tx = .ok after) : after = effect data tx := by
  unfold apply at accepted
  split at accepted
  · exact absurd accepted (by simp)
  · exact (Except.ok.inj accepted).symm

/-- Ownership inside one graph. -/
def Owns (data : Dataset) (graph : String) : Node → Node → Prop :=
  Reaches (edges (data.matching (inGraph graph)))

theorem mem_owned {data : Dataset} {graph subject : String} {node : Node} :
    node ∈ owned data graph subject ↔ Owns data graph (.named subject) node := mem_reach

instance (data : Dataset) (graph subject : String) (node : Node) : Decidable (Owns data graph (.named subject) node) :=
  decidable_of_iff _ mem_owned

theorem mem_deleteSubject {data : Dataset} {subject graph : String} {quad : Quad} :
    quad ∈ deleteSubject data (subject, graph) ↔
      quad ∈ data ∧ ¬(quad.graph = graph ∧ Owns data graph (.named subject) quad.subject) := by
  simp only [deleteSubject, Dataset.mem_discard, inGraph, Bool.and_eq_false_iff, decide_eq_false_iff_not,
    mem_owned]
  tauto

theorem mem_deleteProperty {data : Dataset} {target : String × String × String} {quad : Quad} :
    quad ∈ deleteProperty data target ↔ quad ∈ data ∧ isProperty target quad = false := by
  simp [deleteProperty]

theorem mem_clearGraph {data : Dataset} {graph : String} {quad : Quad} :
    quad ∈ clearGraph data graph ↔ quad ∈ data ∧ quad.graph ≠ graph := by
  simp [clearGraph, inGraph]

theorem mem_edges {quads : List Quad} {source target : Node} :
    (source, target) ∈ edges quads ↔ ∃ quad ∈ quads, quad.subject = source ∧ follow quad = some target := by
  simp only [edges, List.mem_filterMap, Option.map_eq_some_iff, Prod.mk.injEq]
  constructor
  · rintro ⟨quad, mem, node, goes, same, rfl⟩
    exact ⟨quad, mem, same, goes⟩
  · rintro ⟨quad, mem, same, goes⟩
    exact ⟨quad, mem, target, goes, same, rfl⟩

theorem successors_edges (quads : List Quad) (node : Node) :
    successors (edges quads) node = (quads.filter (about node)).filterMap follow := by
  induction quads with
  | nil => rfl
  | cons quad rest ih =>
    simp only [successors, edges] at ih ⊢
    by_cases here : quad.subject = node
    · cases goes : follow quad <;> simp [about, here, goes, ih]
    · cases goes : follow quad <;> simp [about, here, goes, ih]

section Frame

theorem owns_mono {small big : Dataset} {graph : String} {source target : Node}
    (within : ∀ quad ∈ small, quad ∈ big) (owns : Owns small graph source target) : Owns big graph source target := by
  refine Relation.ReflTransGen.mono ?_ _ _ owns
  intro node next linked
  obtain ⟨quad, mem, subject, goes⟩ := mem_edges.1 linked
  obtain ⟨held, here⟩ := Dataset.mem_matching.1 mem
  exact mem_edges.2 ⟨quad, Dataset.mem_matching.2 ⟨within quad held, here⟩, subject, goes⟩

/-- A transaction deletes no such quad. -/
structure Spares (data : Dataset) (tx : GraphTx) (quad : Quad) : Prop where
  graphs : quad.graph ∉ tx.clearGraphs
  subjects : ∀ target ∈ tx.deleteSubjects,
    ¬(quad.graph = target.2 ∧ Owns data target.2 (.named target.1) quad.subject)
  properties : ∀ target ∈ tx.deleteProperties, isProperty target quad = false

theorem deleteSubjects_matching {targets : List (String × String)} {data : Dataset} {pattern : Quad → Bool}
    (spared : ∀ quad ∈ data, pattern quad = true → ∀ target ∈ targets,
      ¬(quad.graph = target.2 ∧ Owns data target.2 (.named target.1) quad.subject)) :
    (targets.foldl deleteSubject data).matching pattern = data.matching pattern := by
  induction targets generalizing data with
  | nil => rfl
  | cons target rest ih =>
    have first : (deleteSubject data target).matching pattern = data.matching pattern := by
      apply Dataset.matching_discard
      intro quad held hit
      have apart := spared quad held hit target (by simp)
      rw [Bool.and_eq_false_iff]
      simp only [inGraph, decide_eq_false_iff_not, mem_owned]
      tauto
    rw [List.foldl_cons, ih, first]
    intro quad held hit next inRest owned
    have before := (Dataset.mem_discard.1 held).1
    refine spared quad before hit next (List.mem_cons_of_mem _ inRest) ⟨owned.1, owns_mono ?_ owned.2⟩
    intro other mem
    exact (Dataset.mem_discard.1 mem).1

theorem deleteProperties_matching {targets : List (String × String × String)} {data : Dataset} {pattern : Quad → Bool}
    (spared : ∀ quad ∈ data, pattern quad = true → ∀ target ∈ targets, isProperty target quad = false) :
    (targets.foldl deleteProperty data).matching pattern = data.matching pattern := by
  induction targets generalizing data with
  | nil => rfl
  | cons target rest ih =>
    rw [List.foldl_cons, ih, deleteProperty, Dataset.matching_discard]
    · intro quad held hit
      exact spared quad held hit target (by simp)
    · intro quad held hit next inRest
      exact spared quad (mem_deleteProperty.1 held).1 hit next (List.mem_cons_of_mem _ inRest)

theorem clearGraphs_matching {graphs : List String} {data : Dataset} {pattern : Quad → Bool}
    (spared : ∀ quad ∈ data, pattern quad = true → quad.graph ∉ graphs) :
    (graphs.foldl clearGraph data).matching pattern = data.matching pattern := by
  induction graphs generalizing data with
  | nil => rfl
  | cons graph rest ih =>
    rw [List.foldl_cons, ih, clearGraph, Dataset.matching_discard]
    · intro quad held hit
      have apart := spared quad held hit
      simp only [List.mem_cons, not_or] at apart
      simpa [inGraph] using apart.1
    · intro quad held hit
      have apart := spared quad (mem_clearGraph.1 held).1 hit
      simp only [List.mem_cons, not_or] at apart
      exact apart.2

theorem mem_of_mem_deleteSubjects {targets : List (String × String)} {data : Dataset} {quad : Quad}
    (mem : quad ∈ targets.foldl deleteSubject data) : quad ∈ data := by
  induction targets generalizing data with
  | nil => exact mem
  | cons target rest ih => exact (Dataset.mem_discard.1 (ih mem)).1

theorem mem_of_mem_deleteProperties {targets : List (String × String × String)} {data : Dataset} {quad : Quad}
    (mem : quad ∈ targets.foldl deleteProperty data) : quad ∈ data := by
  induction targets generalizing data with
  | nil => exact mem
  | cons target rest ih => exact (Dataset.mem_discard.1 (ih mem)).1

theorem mem_of_mem_clearGraphs {graphs : List String} {data : Dataset} {quad : Quad}
    (mem : quad ∈ graphs.foldl clearGraph data) : quad ∈ data := by
  induction graphs generalizing data with
  | nil => exact mem
  | cons graph rest ih => exact (Dataset.mem_discard.1 (ih mem)).1

/-- Nothing is in the store after a transaction that was not there before or inserted by it. -/
theorem mem_effect_cases {data : Dataset} {tx : GraphTx} {quad : Quad} (mem : quad ∈ effect data tx) :
    quad ∈ data ∨ quad ∈ tx.insert := by
  rcases Dataset.mem_extend.1 mem with kept | inserted
  · exact Or.inl (mem_of_mem_clearGraphs (mem_of_mem_deleteSubjects (mem_of_mem_deleteProperties kept)))
  · exact Or.inr inserted

theorem mem_effect_of_insert {data : Dataset} {tx : GraphTx} {quad : Quad} (inserted : quad ∈ tx.insert) :
    quad ∈ effect data tx := Dataset.mem_extend.2 (Or.inr inserted)

/-- A pattern none of whose answers is deleted, and that matches nothing new, keeps its answers. -/
theorem effect_matching {data : Dataset} {tx : GraphTx} {pattern : Quad → Bool}
    (spared : ∀ quad ∈ data, pattern quad = true → Spares data tx quad)
    (silent : ∀ quad ∈ tx.insert, pattern quad = true → quad ∈ data) :
    (effect data tx).matching pattern = data.matching pattern := by
  have cleared : (tx.clearGraphs.foldl clearGraph data).matching pattern = data.matching pattern :=
    clearGraphs_matching (fun quad held hit => (spared quad held hit).graphs)
  have removed : (tx.deleteSubjects.foldl deleteSubject (tx.clearGraphs.foldl clearGraph data)).matching pattern =
      data.matching pattern := by
    rw [deleteSubjects_matching, cleared]
    intro quad held hit target mem owned
    have before := mem_of_mem_clearGraphs held
    exact (spared quad before hit).subjects target mem
      ⟨owned.1, owns_mono (fun other inside => mem_of_mem_clearGraphs inside) owned.2⟩
  have stripped : (tx.deleteProperties.foldl deleteProperty
      (tx.deleteSubjects.foldl deleteSubject (tx.clearGraphs.foldl clearGraph data))).matching pattern =
      data.matching pattern := by
    rw [deleteProperties_matching, removed]
    intro quad held hit target mem
    exact (spared quad (mem_of_mem_clearGraphs (mem_of_mem_deleteSubjects held)) hit).properties target mem
  rw [effect, Dataset.matching_extend, stripped]
  intro quad inserted hit
  have held : quad ∈ data.matching pattern := Dataset.mem_matching.2 ⟨silent quad inserted hit, hit⟩
  rw [← stripped] at held
  exact (Dataset.mem_matching.1 held).1

/-- A quad that a transaction spares is held after it exactly when it was held before or is inserted. -/
theorem mem_effect_of_spared {data : Dataset} {tx : GraphTx} {quad : Quad} (spared : Spares data tx quad) :
    quad ∈ effect data tx ↔ quad ∈ data ∨ quad ∈ tx.insert := by
  refine ⟨mem_effect_cases, ?_⟩
  rintro (held | inserted)
  · have same : (effect data tx).matching (fun other => decide (other = quad)) =
        data.matching (fun other => decide (other = quad)) ∨ quad ∈ tx.insert := by
      by_cases inserted : quad ∈ tx.insert
      · exact Or.inr inserted
      · left
        apply effect_matching
        · intro other _ hit
          exact of_decide_eq_true hit ▸ spared
        · intro other mem hit
          exact absurd (of_decide_eq_true hit ▸ mem) inserted
    rcases same with same | inserted
    · have mem : quad ∈ data.matching (fun other => decide (other = quad)) :=
        Dataset.mem_matching.2 ⟨held, decide_eq_true rfl⟩
      rw [← same] at mem
      exact (Dataset.mem_matching.1 mem).1
    · exact mem_effect_of_insert inserted
  · exact mem_effect_of_insert inserted

/-- What the one deleted subject owned is gone unless the transaction writes it again. -/
theorem gone_of_deleted {data : Dataset} {tx : GraphTx} {subject graph : String} {quad : Quad}
    (cleared : tx.clearGraphs = []) (deleted : tx.deleteSubjects = [(subject, graph)]) (here : quad.graph = graph)
    (owned : Owns data graph (.named subject) quad.subject) (mem : quad ∈ effect data tx) : quad ∈ tx.insert := by
  rcases Dataset.mem_extend.1 mem with kept | inserted
  · have before := mem_of_mem_deleteProperties kept
    rw [cleared, deleted] at before
    exact absurd ⟨here, owned⟩ (mem_deleteSubject.1 before).2
  · exact inserted

theorem gone_of_replaced {data : Dataset} {subject graph : String} {quads : List Quad} {quad : Quad}
    (here : quad.graph = graph) (owned : Owns data graph (.named subject) quad.subject)
    (mem : quad ∈ effect data ((({} : GraphTx).replaceSubject subject graph).extend quads)) : quad ∈ quads := by
  have inserted := gone_of_deleted rfl rfl here owned mem
  simpa [GraphTx.extend, GraphTx.replaceSubject] using inserted

end Frame

/-- Whether any graph says anything about a subject. -/
def exists_ (platform : Platform) (data : Dataset) (subject : String) : AppResult Bool :=
  if platform.validIri subject then .ok (data.any (about (.named subject)))
  else .error (AppError.internal s!"bad IRI {subject}")

def subjectKey : Node → String
  | .named iri => iri
  | .blank label => "_:" ++ label

/-- One level of the closure: the quads about the nodes that many followed edges away. -/
def level (data : Dataset) (subject : String) (depth : Nat) : List Quad :=
  let nodes := ring (edges data.quads) (.named subject) depth
  data.matching (fun quad => decide (quad.subject ∈ nodes))

/-- Whether the deepest level reached a node no shallower level did. -/
def truncated (data : Dataset) (subject : String) (depth : Nat) : Bool :=
  let shallower := (List.range depth).flatMap (fun d => (level data subject d).map (fun q => subjectKey q.subject))
  (level data subject depth).any (fun quad => decide (subjectKey quad.subject ∉ shallower))

def describeTo (data : Dataset) (subject : String) (depth : Nat) : List Quad :=
  ((List.range (depth + 1)).flatMap (level data subject)).eraseDups

def defaultDepth : Nat := 4

/-- The chain is doubled until nothing new is at the bottom of it, up to 32 levels. -/
def escalate (data : Dataset) (subject : String) (depth : Nat) : List Nat → List Quad
  | [] => describeTo data subject depth
  | deeper :: rest =>
    if truncated data subject depth then escalate data subject deeper rest
    else describeTo data subject depth

def describeQuads (data : Dataset) (subject : String) : List Quad :=
  escalate data subject defaultDepth [8, 16, 32]

def describe (platform : Platform) (data : Dataset) (subject : String) : AppResult (List Quad) :=
  if platform.validIri subject then .ok (describeQuads data subject)
  else .error (AppError.internal s!"bad IRI {subject}")

theorem level_zero (data : Dataset) (subject : String) :
    level data subject 0 = data.matching (about (.named subject)) := by
  simp only [level, ring, List.mem_singleton]
  rfl

theorem mem_level {data : Dataset} {subject : String} {depth : Nat} {quad : Quad} :
    quad ∈ level data subject depth ↔
      quad ∈ data ∧ quad.subject ∈ ring (edges data.quads) (.named subject) depth := by
  simp [level]

theorem escalate_eq (data : Dataset) (subject : String) (depth : Nat) (deeper : List Nat) :
    ∃ reached ∈ depth :: deeper, escalate data subject depth deeper = describeTo data subject reached := by
  induction deeper generalizing depth with
  | nil => exact ⟨depth, by simp, rfl⟩
  | cons next rest ih =>
    simp only [escalate]
    split
    · obtain ⟨reached, mem, same⟩ := ih next
      exact ⟨reached, List.mem_cons_of_mem _ mem, same⟩
    · exact ⟨depth, by simp, rfl⟩

/-- A description goes at least four levels deep. -/
theorem describeQuads_eq (data : Dataset) (subject : String) :
    ∃ depth, defaultDepth ≤ depth ∧ describeQuads data subject = describeTo data subject depth := by
  obtain ⟨reached, mem, same⟩ := escalate_eq data subject defaultDepth [8, 16, 32]
  refine ⟨reached, ?_, same⟩
  simp only [List.mem_cons, List.not_mem_nil, or_false, defaultDepth] at mem ⊢
  omega

theorem mem_describeTo {data : Dataset} {subject : String} {depth : Nat} {quad : Quad} :
    quad ∈ describeTo data subject depth ↔ ∃ d ≤ depth, quad ∈ level data subject d := by
  simp only [describeTo, List.mem_eraseDups, List.mem_flatMap, List.mem_range]
  constructor
  · rintro ⟨d, bound, mem⟩
    exact ⟨d, by omega, mem⟩
  · rintro ⟨d, bound, mem⟩
    exact ⟨d, by omega, mem⟩

/-- Everything described is held and reached by followed edges. -/
theorem describe_sound {data : Dataset} {subject : String} {quad : Quad}
    (mem : quad ∈ describeQuads data subject) :
    quad ∈ data ∧ Reaches (edges data.quads) (.named subject) quad.subject := by
  obtain ⟨depth, _, same⟩ := describeQuads_eq data subject
  rw [same, mem_describeTo] at mem
  obtain ⟨d, _, inLevel⟩ := mem
  rw [mem_level] at inLevel
  exact ⟨inLevel.1, reaches_of_mem_ring inLevel.2⟩

theorem eraseDups_of_nodup {α : Type} [DecidableEq α] {items : List α} (distinct : items.Nodup) :
    items.eraseDups = items := by
  induction items with
  | nil => rfl
  | cons head tail ih =>
    rw [List.nodup_cons] at distinct
    rw [List.eraseDups_cons, List.filter_eq_self.2, ih distinct.2]
    intro other mem
    have apart : other ≠ head := fun same => distinct.1 (same ▸ mem)
    simp [apart]

theorem filter_eraseDups {α : Type} [DecidableEq α] (keep : α → Bool) (items : List α) :
    items.eraseDups.filter keep = (items.filter keep).eraseDups := by
  match items with
  | [] => rfl
  | head :: tail =>
    have shorter : (tail.filter (fun other => !other == head)).length < tail.length + 1 :=
      Nat.lt_succ_of_le (List.length_filter_le _ tail)
    have swap : (tail.filter (fun other => !other == head)).filter keep =
        (tail.filter keep).filter (fun other => !other == head) := by
      simp only [List.filter_filter, Bool.and_comm]
    rw [List.eraseDups_cons]
    by_cases kept : keep head = true
    · rw [List.filter_cons_of_pos kept, List.filter_cons_of_pos kept, List.eraseDups_cons,
        filter_eraseDups keep (tail.filter _), swap]
    · rw [List.filter_cons_of_neg kept, List.filter_cons_of_neg kept,
        filter_eraseDups keep (tail.filter _), swap, List.filter_eq_self.2]
      intro other mem
      have apart : other ≠ head := fun same => kept (same ▸ (List.mem_filter.1 mem).2)
      simp [apart]
termination_by items.length

theorem eraseDups_flatMap_same {α β : Type} [DecidableEq α] {items : List β} {block : List α}
    {pick : β → List α} (distinct : block.Nodup) (uniform : ∀ item ∈ items, pick item = [] ∨ pick item = block)
    (chosen : ∃ item ∈ items, pick item = block) : (items.flatMap pick).eraseDups = block := by
  induction items with
  | nil => simp at chosen
  | cons head tail ih =>
    have later : ∀ item ∈ tail, pick item = [] ∨ pick item = block :=
      fun item mem => uniform item (List.mem_cons_of_mem _ mem)
    rw [List.flatMap_cons]
    rcases uniform head (by simp) with none_ | all
    · by_cases blank : block = []
      · have nothing : tail.flatMap pick = [] := by
          rw [List.flatMap_eq_nil_iff]
          intro item mem
          rcases later item mem with one | two
          · exact one
          · rw [two, blank]
        rw [none_, nothing, blank]
        rfl
      · rw [none_, List.nil_append]
        apply ih later
        obtain ⟨item, mem, same⟩ := chosen
        rcases List.mem_cons.1 mem with rfl | inTail
        · exact absurd (none_ ▸ same).symm blank
        · exact ⟨item, inTail, same⟩
    · rw [all, List.eraseDups_append, eraseDups_of_nodup distinct]
      have nothing : (tail.flatMap pick).removeAll block = [] := by
        rw [List.removeAll, List.filter_eq_nil_iff]
        intro other mem
        obtain ⟨item, inTail, here⟩ := List.mem_flatMap.1 mem
        rcases later item inTail with one | two
        · rw [one] at here
          simp at here
        · rw [two] at here
          simpa using here
      rw [nothing]
      simp

/-- The part of a description that is about one node is everything the store says about it, when
the node is within four levels, in the store's order. -/
theorem describe_about {data : Dataset} {subject : String} {node : Node} {distance : Nat}
    (near : distance ≤ defaultDepth) (inRing : node ∈ ring (edges data.quads) (.named subject) distance) :
    (describeQuads data subject).filter (about node) = data.matching (about node) := by
  obtain ⟨depth, deep, same⟩ := describeQuads_eq data subject
  rw [same, describeTo, filter_eraseDups, List.filter_flatMap]
  have whole : ∀ d, node ∈ ring (edges data.quads) (.named subject) d →
      (level data subject d).filter (about node) = data.matching (about node) := by
    intro d mem
    simp only [level, Dataset.matching, List.filter_filter]
    apply List.filter_congr
    intro quad _
    by_cases here : quad.subject = node
    · simp [about, here, mem]
    · simp [about, here]
  apply eraseDups_flatMap_same (data.nodup.filter _)
  · intro d _
    by_cases mem : node ∈ ring (edges data.quads) (.named subject) d
    · exact Or.inr (whole d mem)
    · left
      rw [List.filter_eq_nil_iff]
      intro quad inLevel
      have apart : quad.subject ≠ node := fun here => mem (here ▸ (mem_level.1 inLevel).2)
      simp [about, apart]
  · exact ⟨distance, by simp only [List.mem_range]; omega, whole distance inRing⟩

theorem describe_about_self (data : Dataset) (subject : String) :
    (describeQuads data subject).filter (about (.named subject)) = data.matching (about (.named subject)) :=
  have near : 0 ≤ defaultDepth := Nat.zero_le _
  describe_about near (by simp [ring])

theorem describe_isEmpty {data : Dataset} {subject : String}
    (silent : data.matching (about (.named subject)) = []) : describeQuads data subject = [] := by
  obtain ⟨depth, _, same⟩ := describeQuads_eq data subject
  have nothing : ∀ d, ring (edges data.quads) (.named subject) (d + 1) = [] := by
    have dead : successors (edges data.quads) (.named subject) = [] := by
      rw [successors_edges]
      unfold Dataset.matching at silent
      rw [silent]
      rfl
    intro d
    induction d with
    | zero => simp [ring, dead]
    | succ d ih => rw [ring, ih]; rfl
  rw [List.eq_nil_iff_forall_not_mem]
  intro quad mem
  rw [same, mem_describeTo] at mem
  obtain ⟨d, _, inLevel⟩ := mem
  cases d with
  | zero =>
    rw [level_zero, silent] at inLevel
    simp at inLevel
  | succ d =>
    rw [mem_level, nothing d] at inLevel
    simp at inLevel

section Locality

variable {data other : Dataset} {subject : String} (inside : Node → Bool)

end Locality

end ToolArtifactRegistry.Store
