import ToolArtifactRegistry.Domain.Provenance
import ToolArtifactRegistry.Escalating
import ToolArtifactRegistry.Laws.Specimen
import ToolArtifactRegistry.Library.Distance

/-! A description is the owned closure of its subject. -/
namespace ToolArtifactRegistry.Laws

open Library.Rdf Library.Worklist Library.Text Store

/-- The loop ends on every store, and a closure no deeper than the store looks comes back whole: each
quad about a node the subject owns, with its graph, once, and no other quad. -/
theorem describe_owned_closure {platform : Platform} {data : Dataset} {subject : String} :
    (∃ fuel, describeLoop data subject fuel defaultDepth = some (describeQuads data subject)) ∧
      (Schemed platform → Parsed platform data → platform.validIri subject = true →
        (∀ node, Reaches (edges data.quads) (.named subject) node →
          ∃ distance ≤ maxDepth, AtDistance (edges data.quads) (.named subject) distance node) →
        ∃ quads, describe platform data subject = .ok quads ∧ quads.Nodup ∧
          ∀ quad, quad ∈ quads ↔ quad ∈ data ∧ Reaches (edges data.quads) (.named subject) quad.subject) := by
  refine ⟨⟨4, describeLoop_four⟩, ?_⟩
  intro schemed parsed accepted shallow
  obtain ⟨reached, same, stopped⟩ := describeLoop_stops (@describeLoop_four data subject)
  refine ⟨describeQuads data subject, by rw [describe, if_pos accepted], ?_, ?_⟩
  · rw [same]
    exact nodup_describeTo reached
  · intro quad
    rw [same]
    exact mem_describeTo_iff schemed parsed stopped shallow

section Looped

/-- A record whose distribution owns itself and a checksum in another graph. -/
def looped : Dataset := Dataset.empty.extend
  [⟨.named "https://reg.example/artifact/1", "http://www.w3.org/ns/dcat#distribution",
      .named "https://reg.example/distribution/1", "urn:tar:local"⟩,
    ⟨.named "https://reg.example/distribution/1", "https://w3id.org/tar/ns#hasCapability",
      .named "https://reg.example/distribution/1", "urn:tar:local"⟩,
    ⟨.named "https://reg.example/distribution/1", "http://spdx.org/rdf/terms#checksum", .blank "b0", "urn:tar:peer:other"⟩,
    ⟨.blank "b0", "http://spdx.org/rdf/terms#checksumValue", .simple "deadbeef", "urn:tar:peer:other"⟩]

theorem looped_shallow (node : Node)
    (path : Reaches (edges looped.quads) (.named "https://reg.example/artifact/1") node) :
    ∃ distance ≤ maxDepth, AtDistance (edges looped.quads) (.named "https://reg.example/artifact/1") distance node := by
  have near : ∀ other ∈ reach (edges looped.quads) (.named "https://reg.example/artifact/1"), ∃ distance ≤ maxDepth,
      other ∈ ring (edges looped.quads) (.named "https://reg.example/artifact/1") distance ∧
        ∀ shorter < distance, other ∉ ring (edges looped.quads) (.named "https://reg.example/artifact/1") shorter := by
    decide
  obtain ⟨distance, bound, walked, least⟩ := near node (mem_reach.2 path)
  exact ⟨distance, bound, walked, least⟩

theorem schemed_platform : Schemed (Specimen.platform []) := by
  intro label
  simp only [Specimen.platform, startsWith, String.toList_append]
  rfl

theorem describe_owned_closure_looped : ∃ quads, describe (Specimen.platform []) looped "https://reg.example/artifact/1" =
    .ok quads ∧ quads.Nodup ∧ ∀ quad, quad ∈ quads ↔
      quad ∈ looped ∧ Reaches (edges looped.quads) (.named "https://reg.example/artifact/1") quad.subject :=
  describe_owned_closure.2 schemed_platform
    (by
      have named : ∀ quad ∈ looped.quads, quad.subject.iri?.all (Specimen.platform []).validIri = true := by decide
      intro quad held iri here
      simpa [here, Node.iri?] using named quad held)
    (by decide) looped_shallow

end Looped

/-! How far away a lineage reaches. It is told depth first, and agrees with the distances only when the shortest ways
are the ones it happens to come along. -/

open Library.Descent Model Rdf Domain Domain.Provenance

section Reach

/-- How many ways lie between a start and a node, at the least. -/
abbrev Away (data : Dataset) (direction : Direction) (root : String) (distance : Nat) (iri : String) : Prop :=
  AtDistance (ways data direction) root distance iri

instance (data : Dataset) (direction : Direction) (root : String) (distance : Nat) : DecidablePred (Away data direction root distance) :=
  fun iri => decidable_of_iff (iri ∈ ring (ways data direction) root distance ∧
    ∀ shorter < distance, iri ∉ ring (ways data direction) root shorter)
    ⟨fun both => ⟨both.1, both.2⟩, fun away => ⟨away.walked, away.least⟩⟩

/-- A lineage that tells of the nodes no further away than the depth, of each once and at its distance, and that is cut
short only where something lies beyond. -/
structure BreadthFirst (data : Dataset) (direction : Direction) (root : String) (depth : Nat) (l : Lineage) : Prop where
  nodes : ∀ iri distance, (∃ node ∈ l.nodes, node.iri = iri ∧ node.depth = distance) ↔
    Away data direction root distance iri ∧ distance ≤ depth
  once : (l.nodes.map LineageNode.iri).Nodup
  truncated : l.truncated = true → ∃ iri distance, depth < distance ∧ Away data direction root distance iri

variable (ctx : Ctx) (arrange : List (String × String) → List (String × String)) (depth : Nat) (direction : Direction)
  (root : String)

/-- The walk along shortest ways only. -/
def shortestFirst : List (String × Nat) :=
  descend (onward (linksOf ctx arrange direction) (Away ctx.data direction root)) depth 0 [] root

/-- The nodes within reach can be looked up, and each but the start is among what is read at a node one way nearer; along
the shortest ways, the target of any other link comes no later than the node it leaves; and where something at the bound
is described, something lies beyond. -/
structure Tiered : Prop where
  valid : ∀ iri distance, distance ≤ depth → Away ctx.data direction root distance iri → ctx.platform.validIri iri = true
  read : ∀ iri distance, distance < depth → Away ctx.data direction root (distance + 1) iri →
    ∃ nearer, Away ctx.data direction root distance nearer ∧ iri ∈ linksOf ctx arrange direction nearer
  ordered : Ordered (linksOf ctx arrange direction) (Away ctx.data direction root) depth
    (shortestFirst ctx arrange depth direction root)
  ends : (∃ iri, Away ctx.data direction root depth iri ∧ describeQuads ctx.data iri ≠ []) →
    ∃ iri, Away ctx.data direction root (depth + 1) iri

end Reach

section Distances

variable {ctx : Ctx} {arrange : List (String × String) → List (String × String)} {depth : Nat} {direction : Direction}
  {root : String} {hashing : Ctx.Hashing}

theorem away_start : Away ctx.data direction root 0 root :=
  ⟨List.mem_singleton_self _, fun _ shorter => absurd shorter (Nat.not_lt_zero _)⟩

theorem away_unique {one other : Nat} {iri : String} (first : Away ctx.data direction root one iri)
    (second : Away ctx.data direction root other iri) : one = other :=
  Nat.le_antisymm (first.le second.walked) (second.le first.walked)

theorem eq_of_away_zero {iri : String} (away : Away ctx.data direction root 0 iri) : iri = root := List.mem_singleton.1 away.walked

/-- A way leads to a node at most one step further. -/
theorem away_next {distance : Nat} {iri next : String} (away : Away ctx.data direction root distance iri)
    (way : (iri, next) ∈ ways ctx.data direction) : ∃ place ≤ distance + 1, Away ctx.data direction root place next := by
  have walked_ : next ∈ ring (ways ctx.data direction) root (distance + 1) := mem_ring_succ.2 ⟨iri, away.walked, way⟩
  obtain ⟨place, there⟩ := exists_atDistance (reaches_of_mem_ring walked_)
  exact ⟨place, there.le walked_, there⟩

theorem near_of_valid (schemed : Schemed ctx.platform) (arranged : ∀ rows, (arrange rows).Perm rows)
    (valid : ∀ iri distance, distance ≤ depth → Away ctx.data direction root distance iri → ctx.platform.validIri iri = true) :
    ∀ distance iri next, distance < depth → Away ctx.data direction root distance iri → next ∈ linksOf ctx arrange direction iri →
      ∃ place ≤ distance + 1, Away ctx.data direction root place next :=
  fun distance iri _ above away linked => away_next away
    (linksOf_way schemed arranged (valid iri distance (Nat.le_of_lt above) away) linked)

/-- The entries of a walk are those of the lineage that tells of it. -/
theorem assembled_iff {met : List (String × Nat)} {iri : String} {distance : Nat} :
    (∃ node ∈ (assembled ctx hashing arrange depth direction root met).nodes, node.iri = iri ∧ node.depth = distance) ↔
      (iri, distance) ∈ met := by
  unfold assembled
  dsimp only
  constructor
  · intro told
    obtain ⟨node, mem, named, placed⟩ := told
    obtain ⟨entry, listed, same⟩ := List.mem_map.1 mem
    rw [← same] at named placed
    rw [← named, ← placed]
    exact listed
  · intro mem
    exact ⟨_, List.mem_map.2 ⟨(iri, distance), mem, rfl⟩, rfl, rfl⟩

theorem mem_walked_le {iri : String} {distance : Nat} (mem : (iri, distance) ∈ walked ctx arrange depth direction root) :
    distance ≤ depth := by
  have bound := @descend_le String _ (fun _ => linksOf ctx arrange direction) depth 0 [] root
    (fun _ _ absent => absurd absent List.not_mem_nil) iri distance mem
  omega

theorem walked_nodup : (nodes (walked ctx arrange depth direction root)).Nodup := (descend_grows depth 0 [] root).nodup List.nodup_nil

/-- What is met in place is all there is within reach, if each node is read at one that is nearer. -/
theorem walked_complete (inPlace : InPlace (Away ctx.data direction root) (walked ctx arrange depth direction root))
    (read : ∀ iri distance, distance < depth → Away ctx.data direction root (distance + 1) iri →
      ∃ nearer, Away ctx.data direction root distance nearer ∧ iri ∈ linksOf ctx arrange direction nearer)
    {distance : Nat} {iri : String} (away : Away ctx.data direction root distance iri) (within : distance ≤ depth) :
    (iri, distance) ∈ walked ctx arrange depth direction root := by
  induction distance generalizing iri with
  | zero =>
    rw [eq_of_away_zero away]
    exact entry_mem List.not_mem_nil
  | succ distance ih =>
    obtain ⟨nearer, placed, linked⟩ := read iri distance within away
    have known := ih placed (by omega)
    have met : iri ∈ nodes (walked ctx arrange depth direction root) := by
      rcases descend_followed depth 0 [] root nearer distance known with absent | bound | followed
      · exact absurd absent List.not_mem_nil
      · omega
      · exact followed linked
    obtain ⟨place, mem⟩ := mem_nodes.1 met
    rw [away_unique away (inPlace iri place mem)]
    exact mem

theorem truncated_iff {met : List (String × Nat)} : (assembled ctx hashing arrange depth direction root met).truncated = true ↔
    ∃ iri distance, (iri, distance) ∈ met ∧ depth ≤ distance ∧ describeQuads ctx.data iri ≠ [] := by
  unfold assembled
  simp

/-- A lineage that is breadth first was walked in tiers. -/
theorem tiered_of_breadthFirst (schemed : Schemed ctx.platform) (arranged : ∀ rows, (arrange rows).Perm rows) {l : Lineage}
    (answers : Provenance.Answers ctx hashing arrange depth direction root l) (right : BreadthFirst ctx.data direction root depth l) :
    Tiered ctx arrange depth direction root := by
  obtain ⟨sound, same⟩ := answers_iff.1 answers
  rw [same] at right
  have placed (iri : String) (distance : Nat) : (iri, distance) ∈ walked ctx arrange depth direction root ↔
      Away ctx.data direction root distance iri ∧ distance ≤ depth := assembled_iff.symm.trans (right.nodes iri distance)
  have inPlace : InPlace (Away ctx.data direction root) (walked ctx arrange depth direction root) :=
    fun iri distance mem => ((placed iri distance).1 mem).1
  have valid : ∀ iri distance, distance ≤ depth → Away ctx.data direction root distance iri →
      ctx.platform.validIri iri = true :=
    fun iri distance within away => sound iri (mem_nodes.2 ⟨distance, (placed iri distance).2 ⟨away, within⟩⟩)
  constructor
  · exact valid
  · intro iri distance above away
    have mem := (placed iri (distance + 1)).2 ⟨away, above⟩
    rcases (descend_grows depth 0 [] root).parent (iri, distance + 1) mem with absent | isRoot | ⟨nearer, height, known, linked, step⟩
    · exact absurd absent List.not_mem_nil
    · cases isRoot
    · have level : height = distance := by
        dsimp only at step
        omega
      exact ⟨nearer, inPlace nearer distance (level ▸ known), linked⟩
  · exact (inPlace_iff_ordered away_start (fun _ _ _ first second => away_unique first second)
      (near_of_valid schemed arranged valid)).1 inPlace
  · intro described
    obtain ⟨iri, away, some_⟩ := described
    obtain ⟨far, distance, beyond, there⟩ := right.truncated
      (truncated_iff.2 ⟨iri, depth, (placed iri depth).2 ⟨away, Nat.le_refl _⟩, Nat.le_refl _, some_⟩)
    by_cases next : distance = depth + 1
    · exact ⟨far, next ▸ there⟩
    · obtain ⟨middle, passed, _⟩ := there.passes (by omega : depth + 1 < distance)
      exact ⟨middle, passed⟩

/-- And one that is walked in tiers is breadth first. -/
theorem breadthFirst_of_tiered (schemed : Schemed ctx.platform) (arranged : ∀ rows, (arrange rows).Perm rows)
    (hashing : Ctx.Hashing) (tiered : Tiered ctx arrange depth direction root) :
    ∃ l, Provenance.Answers ctx hashing arrange depth direction root l ∧ BreadthFirst ctx.data direction root depth l := by
  have inPlace : InPlace (Away ctx.data direction root) (walked ctx arrange depth direction root) :=
    (inPlace_iff_ordered away_start (fun _ _ _ first second => away_unique first second)
      (near_of_valid schemed arranged tiered.valid)).2 tiered.ordered
  have placed (iri : String) (distance : Nat) : (iri, distance) ∈ walked ctx arrange depth direction root ↔
      Away ctx.data direction root distance iri ∧ distance ≤ depth :=
    ⟨fun mem => ⟨inPlace iri distance mem, mem_walked_le mem⟩, fun both => walked_complete inPlace tiered.read both.1 both.2⟩
  have sound : Sound ctx (walked ctx arrange depth direction root) := by
    intro iri mem
    obtain ⟨distance, known⟩ := mem_nodes.1 mem
    exact tiered.valid iri distance (mem_walked_le known) (inPlace iri distance known)
  refine ⟨_, answers_iff.2 ⟨sound, rfl⟩, ?_⟩
  constructor
  · intro iri distance
    exact assembled_iff.trans (placed iri distance)
  · rw [assembled_nodes]
    exact walked_nodup
  · intro cut
    obtain ⟨iri, distance, mem, deep, some_⟩ := truncated_iff.1 cut
    have level : distance = depth := Nat.le_antisymm (mem_walked_le mem) deep
    obtain ⟨far, there⟩ := tiered.ends ⟨iri, level ▸ inPlace iri distance mem, some_⟩
    exact ⟨far, depth + 1, Nat.lt_succ_self _, there⟩

end Distances

/-- A lineage tells of the nodes within a depth, each at its distance, exactly when the walk comes along shortest ways. -/
theorem lineage_breadthFirst_iff (ctx : Ctx) (hashing : Ctx.Hashing) (arrange : List (String × String) → List (String × String))
    (depth : Nat) (direction : Direction) (root : String) (schemed : Schemed ctx.platform)
    (arranged : ∀ rows, (arrange rows).Perm rows) :
    (∃ l, Provenance.Answers ctx hashing arrange depth direction root l ∧ BreadthFirst ctx.data direction root depth l) ↔
      Tiered ctx arrange depth direction root := by
  constructor
  · intro right
    obtain ⟨l, answers, first⟩ := right
    exact tiered_of_breadthFirst schemed arranged answers first
  · exact breadthFirst_of_tiered schemed arranged hashing

section Specimen

open Specimen

def derived (child parent : String) : Quad := ⟨.named child, Ns.t Ns.prov "wasDerivedFrom", .named parent, Ns.gLocal⟩

/-- What a request reads of a store. -/
def viewOf (data : Dataset) : Ctx := (registry []).ctx { State.empty with data } (draw "a")

def asListed : Ctx.Hashing := ⟨id, fun _ => List.Perm.refl _⟩

def chain : Dataset := Dataset.empty.extend [derived "http://r" "http://x"]

/-- One step up a chain of two. -/
theorem chain_breadthFirst : ∃ l, Provenance.Answers (viewOf chain) asListed id 1 .up "http://r" l ∧
    BreadthFirst chain .up "http://r" 1 l := by
  have rings : ring (ways (viewOf chain).data .up) "http://r" 0 = ["http://r"] ∧
      ring (ways (viewOf chain).data .up) "http://r" 1 = ["http://x"] := by decide
  have evaluated : shortestFirst (viewOf chain) id 1 .up "http://r" = [("http://r", 0), ("http://x", 1)] ∧
      linksOf (viewOf chain) id .up "http://r" = ["http://x"] ∧ describeQuads chain "http://x" = [] ∧
        Away chain .up "http://r" 1 "http://x" := by decide
  refine (lineage_breadthFirst_iff (viewOf chain) asListed id 1 .up "http://r" schemed_platform
    (fun _ => List.Perm.refl _)).2 ?_
  constructor
  · intro iri distance within away
    have here := away.walked
    rcases Nat.le_one_iff_eq_zero_or_eq_one.1 within with none_ | one
    · rw [none_, rings.1, List.mem_singleton] at here
      rw [here]
      decide
    · rw [one, rings.2, List.mem_singleton] at here
      rw [here]
      decide
  · intro iri distance above away
    have none_ : distance = 0 := by omega
    have here := away.walked
    rw [none_, rings.2, List.mem_singleton] at here
    rw [none_, here]
    exact ⟨"http://r", away_start, by rw [evaluated.2.1]; exact List.mem_singleton_self _⟩
  · intro iri distance mem above child linked elsewhere
    rw [evaluated.1] at mem
    have none_ : distance = 0 := by omega
    rw [none_] at mem elsewhere
    have start : iri = "http://r" := by simpa using mem
    rw [start, evaluated.2.1] at linked
    rw [List.mem_singleton.1 linked] at elsewhere
    exact absurd evaluated.2.2.2 elsewhere
  · intro described
    obtain ⟨iri, away, some_⟩ := described
    have here := away.walked
    rw [rings.2, List.mem_singleton] at here
    rw [here] at some_
    exact absurd evaluated.2.2.1 some_

def diamond : Dataset :=
  Dataset.empty.extend [derived "http://r" "http://x", derived "http://r" "http://y", derived "http://y" "http://x"]

/-- What is derived directly and by way of another is met on the longer way. -/
theorem longer_way_first : ¬∃ l, Provenance.Answers (viewOf diamond) asListed id 2 .up "http://r" l ∧
    BreadthFirst diamond .up "http://r" 2 l := by
  intro right
  obtain ⟨l, answers, first⟩ := right
  have evaluated : ("http://x", 2) ∈ walked (viewOf diamond) id 2 .up "http://r" ∧
      ¬Away diamond .up "http://r" 2 "http://x" := by decide
  rw [(answers_iff.1 answers).2] at first
  exact evaluated.2 ((first.nodes "http://x" 2).1 (assembled_iff.2 evaluated.1)).1

end Specimen

end ToolArtifactRegistry.Laws
