import ToolArtifactRegistry.Laws.Tracing

/-! The edges of a lineage. Each is to have one form whichever way it was come along, and to be told of once. -/
namespace ToolArtifactRegistry.Laws

open Library.Rdf Library.Descent Model Store Rdf Domain Domain.Provenance

/-- Every edge is the form of something the store says, and none comes twice. -/
structure OneForm (data : Dataset) (l : Lineage) : Prop where
  form : ∀ edge ∈ l.edges, ∃ tie ∈ tiesOf data, edge = tie.edge
  once : l.edges.Nodup

/-- It is said in one graph only. -/
def SaidOnce (data : Dataset) (tie : Tie) : Prop :=
  ∀ predicate one other, (predicate, tie.relation) ∈ branches →
    ⟨.named tie.child, predicate, .named tie.parent, one⟩ ∈ data →
      ⟨.named tie.child, predicate, .named tie.parent, other⟩ ∈ data → one = other

section

variable (ctx : Ctx) (arrange : List (String × String) → List (String × String)) (direction : Direction) (root : String)

/-- What a walk of any depth comes to. -/
def Met (iri : String) : Prop := Relation.ReflTransGen (fun node next => next ∈ linksOf ctx arrange direction node) root iri

/-- What is found up from a node. -/
def upFrom (iri : String) : List Found := upward iri (Props.fromQuads iri (describeQuads ctx.data iri))

/-- Whatever the walk comes to can be looked up. Upward, what was derived or used is said in one graph only; downward,
whatever is said of it is, and who says to be generated by it is said to generate it in turn; and in both directions at
once, nothing that is come to says anything of its own origins. -/
structure OneWay : Prop where
  valid : ∀ iri, Met ctx arrange direction root iri → ctx.platform.validIri iri = true
  up : direction.ups = true → ∀ iri, Met ctx arrange direction root iri → ∀ parent, ∀ relation ∈ ["derivedFrom", "used"],
    SaidOnce ctx.data ⟨iri, parent, relation⟩
  down : direction.downs = true → ∀ iri, Met ctx arrange direction root iri → ∀ child relation,
    SaidOnce ctx.data ⟨child, iri, relation⟩
  returned : direction.downs = true → ∀ iri, Met ctx arrange direction root iri → ∀ child,
    ⟨child, iri, "generated"⟩ ∈ tiesOf ctx.data → ⟨iri, child, "generated"⟩ ∈ tiesOf ctx.data
  apart : direction = .both → ∀ iri, Met ctx arrange direction root iri → upFrom ctx iri = []

end

section Lists

variable {α β : Type}

/-- What is picked from a list without repetition has none exactly if nothing is picked twice. -/
theorem nodup_filterMap {pick : α → Option β} {items : List α} (distinct : items.Nodup) :
    (items.filterMap pick).Nodup ↔ ∀ one ∈ items, ∀ other ∈ items, ∀ value, pick one = some value → pick other = some value →
      one = other := by
  unfold List.Nodup
  rw [List.pairwise_filterMap]
  constructor
  · intro apart one inOne other inOther value first second
    by_contra differ
    have symm : Std.Symm (fun a a' : α => ∀ b, pick a = some b → ∀ b', pick a' = some b' → b ≠ b') :=
      ⟨fun _ _ away b here b' there same => away b' there b here same.symm⟩
    exact List.Pairwise.forall apart inOne inOther differ value first value second rfl
  · intro same
    refine distinct.pairwise_of_forall_ne ?_
    intro one inOne other inOther differ value first another second equal
    exact differ (same one inOne other inOther value first (equal ▸ second))

end Lists

section Reads

variable {ctx : Ctx} {arrange : List (String × String) → List (String × String)} {direction : Direction} {iri : String}

theorem nodup_iris (schemed : Schemed ctx.platform) (valid : ctx.platform.validIri iri = true) {ns localName relation : String}
    (only : ∀ predicate, (predicate, relation) ∈ branches ↔ predicate = Ns.t ns localName) :
    ((Props.fromQuads iri (describeQuads ctx.data iri)).iris ns localName).Nodup ↔
      ∀ parent, SaidOnce ctx.data ⟨iri, parent, relation⟩ := by
  have distinct : (ctx.data.matching (Store.about (.named iri))).Nodup := ctx.data.nodup.filter _
  unfold Props.iris Props.terms Props.ofPredicate
  rw [own_eq schemed valid, List.filterMap_map, nodup_filterMap (distinct.filter _)]
  simp only [List.mem_filter, Dataset.mem_matching, Store.about, decide_eq_true_eq, Function.comp_apply, namedIri_eq_some]
  constructor
  · intro same parent predicate one other listed first second
    rw [(only predicate).1 listed] at first second
    have equal := same _ ⟨⟨first, rfl⟩, rfl⟩ _ ⟨⟨second, rfl⟩, rfl⟩ parent rfl rfl
    exact congrArg Quad.graph equal
  · intro once one inOne other inOther parent first second
    obtain ⟨subject, predicate, object, graph⟩ := one
    obtain ⟨subject', predicate', object', graph'⟩ := other
    obtain ⟨⟨held, here⟩, named⟩ := inOne
    obtain ⟨⟨held', here'⟩, named'⟩ := inOther
    dsimp only at here named here' named' first second
    subst here named here' named' first second
    rw [once parent _ graph graph' ((only _).2 rfl) held held']

/-- The solutions of the query for what came from a node repeat nothing that is said once. -/
theorem nodup_childRows {data : Dataset} : (childRows data iri).Nodup ↔ ∀ child relation, SaidOnce data ⟨child, iri, relation⟩ := by
  have picked {branch : String × String} {quad : Quad} {row : String × String}
      (told : quad.subject.iri?.map (fun child => (child, branch.2)) = some row) : quad.subject = .named row.1 ∧ branch.2 = row.2 := by
    obtain ⟨child, subject, same⟩ := Option.map_eq_some_iff.1 told
    rw [iri?_eq_some] at subject
    rw [← same]
    exact ⟨subject, rfl⟩
  unfold childRows
  rw [List.nodup_flatMap]
  constructor
  · intro both child relation predicate one other listed first second
    have apart := (nodup_filterMap (data.nodup.filter _)).1 (both.1 (predicate, relation) listed)
    have found (graph : String) (held : ⟨.named child, predicate, .named iri, graph⟩ ∈ data) :
        (⟨.named child, predicate, .named iri, graph⟩ : Quad) ∈
          data.matching (fun quad => decide (quad.predicate = predicate ∧ quad.object = .named iri)) :=
      Dataset.mem_matching.2 ⟨held, by simp⟩
    exact congrArg Quad.graph (apart _ (found one first) _ (found other second) (child, relation) rfl rfl)
  · intro once
    constructor
    · intro branch listed
      refine (nodup_filterMap (data.nodup.filter _)).2 ?_
      intro one inOne other inOther row first second
      obtain ⟨subject, named⟩ := picked first
      obtain ⟨subject', _⟩ := picked second
      obtain ⟨held, pattern⟩ := Dataset.mem_matching.1 inOne
      obtain ⟨held', pattern'⟩ := Dataset.mem_matching.1 inOther
      obtain ⟨predicate, object⟩ := of_decide_eq_true pattern
      obtain ⟨predicate', object'⟩ := of_decide_eq_true pattern'
      obtain ⟨_, _, _, graph⟩ := one
      obtain ⟨_, _, _, graph'⟩ := other
      dsimp only at subject subject' predicate object predicate' object'
      subst subject subject' predicate object predicate' object'
      rw [once row.1 row.2 branch.1 graph graph' (named ▸ listed) held held']
    · have distinct : branches.Pairwise (fun left right => left.2 ≠ right.2) := by decide
      refine distinct.imp ?_
      intro left right differ row inLeft inRight
      obtain ⟨_, _, first⟩ := List.mem_filterMap.1 inLeft
      obtain ⟨_, _, second⟩ := List.mem_filterMap.1 inRight
      exact differ ((picked first).2.trans (picked second).2.symm)

theorem nodup_downward (arranged : ∀ rows, (arrange rows).Perm rows) : ((downward ctx arrange iri).map Prod.fst).Nodup ↔
    ∀ child relation, SaidOnce ctx.data ⟨child, iri, relation⟩ := by
  have pairs : Function.Injective (fun row : String × String => (⟨row.1, iri, row.2⟩ : LineageEdge)) := by
    intro left right same
    rw [LineageEdge.mk.injEq] at same
    exact Prod.ext same.1 same.2.2
  unfold downward
  rw [List.map_map, ← nodup_childRows, ← (arranged (childRows ctx.data iri)).nodup_iff]
  exact List.nodup_map_iff pairs

theorem nodup_upward (p : Props) : ((upward iri p).map Prod.fst).Nodup ↔
    (p.iris Ns.prov "wasDerivedFrom").Nodup ∧ (p.iris Ns.prov "used").Nodup := by
  have ends (relation : String) : Function.Injective (fun other : String => (⟨iri, other, relation⟩ : LineageEdge)) := by
    intro left right same
    rw [LineageEdge.mk.injEq] at same
    exact same.2.1
  unfold upward
  simp only [List.map_append, List.map_map]
  constructor
  · intro distinct
    rw [List.nodup_append', List.nodup_append', List.nodup_append'] at distinct
    exact ⟨(List.nodup_map_iff (ends "derivedFrom")).1 distinct.1.1.1, (List.nodup_map_iff (ends "used")).1 distinct.2.1⟩
  · intro both
    have one {pick : String → LineageEdge} (value : Option String) : (value.toList.map pick).Nodup := by
      cases value <;> simp
    refine (((((List.nodup_map_iff (ends "derivedFrom")).2 both.1).append (one _) ?_).append (one _) ?_).append
      ((List.nodup_map_iff (ends "used")).2 both.2) ?_)
    · intro edge left right
      simp only [List.mem_map, Function.comp_apply] at left right
      obtain ⟨_, _, first⟩ := left
      obtain ⟨_, _, second⟩ := right
      rw [← first] at second
      simp at second
    · intro edge left right
      simp only [List.mem_append, List.mem_map, Function.comp_apply] at left right
      obtain ⟨_, _, second⟩ := right
      rcases left with ⟨_, _, first⟩ | ⟨_, _, first⟩ <;> rw [← first] at second <;> simp at second
    · intro edge left right
      simp only [List.mem_append, List.mem_map, Function.comp_apply] at left right
      obtain ⟨_, _, second⟩ := right
      rcases left with (⟨_, _, first⟩ | ⟨_, _, first⟩) | ⟨_, _, first⟩ <;> rw [← first] at second <;> simp at second

end Reads

section Reach

variable {ctx : Ctx} {arrange : List (String × String) → List (String × String)} {direction : Direction} {root : String}

/-- The IRIs a store says anything of or with. -/
def knownIris (data : Dataset) : List String :=
  data.quads.filterMap (fun quad => quad.subject.iri?) ++ data.quads.filterMap (fun quad => Props.namedIri quad.object)

theorem object_named {data : Dataset} {quad : Quad} {iri : String} (held : quad ∈ data) (object : quad.object = .named iri) :
    iri ∈ knownIris data := List.mem_append_right _ (List.mem_filterMap.2 ⟨quad, held, namedIri_eq_some.2 object⟩)

theorem iris_named {iri other ns localName : String}
    (mem : other ∈ (Props.fromQuads iri (describeQuads ctx.data iri)).iris ns localName) : other ∈ knownIris ctx.data := by
  obtain ⟨term, said, here⟩ := List.mem_filterMap.1 mem
  obtain ⟨quad, own, object⟩ := List.mem_map.1 said
  have described := (List.mem_filter.1 (List.mem_filter.1 own).1).1
  exact object_named (describe_sound described).1 (object.trans (namedIri_eq_some.1 here))

theorem linksOf_named (arranged : ∀ rows, (arrange rows).Perm rows) {iri next : String}
    (linked : next ∈ linksOf ctx arrange direction iri) : next ∈ knownIris ctx.data := by
  have first {localName : String} (said : (Props.fromQuads iri (describeQuads ctx.data iri)).iri Ns.prov localName = some next) :
      next ∈ knownIris ctx.data := by
    obtain ⟨term, head, here⟩ := Option.bind_eq_some_iff.1 said
    exact iris_named (List.mem_filterMap.2 ⟨term, List.mem_of_head? head, here⟩)
  unfold linksOf foundAt found at linked
  rw [List.mem_reverse, List.mem_map] at linked
  obtain ⟨step, mem, same⟩ := linked
  rw [List.mem_append, List.mem_ite_nil_right, List.mem_ite_nil_right] at mem
  rcases mem with ⟨_, up⟩ | ⟨_, down⟩
  · unfold upward at up
    simp only [List.mem_append, List.mem_map, Option.mem_toList] at up
    rcases up with ((⟨_, said, here⟩ | ⟨_, said, here⟩) | ⟨_, said, here⟩) | ⟨_, said, here⟩ <;>
      rw [← here] at same <;> dsimp only at same <;> rw [same] at said
    · exact iris_named said
    · exact first said
    · exact first said
    · exact iris_named said
  · obtain ⟨relation, tied, _⟩ := (mem_downward arranged).1 down
    obtain ⟨predicate, graph, _, held⟩ := mem_tiesOf.1 tied
    rw [← same]
    exact List.mem_append_left _ (List.mem_filterMap.2 ⟨_, held, rfl⟩)

/-- Deep enough that a walk is never cut short. -/
def wholeDepth (data : Dataset) : Nat := (knownIris data).length + 1

theorem walked_met {depth : Nat} : ∀ iri d, (iri, d) ∈ walked ctx arrange depth direction root → Met ctx arrange direction root iri :=
  (descend_grows depth 0 [] root).all (fun _ iri => Met ctx arrange direction root iri) Relation.ReflTransGen.refl
    (fun _ _ _ _ came linked => came.tail linked) (fun _ _ absent => absurd absent List.not_mem_nil)

theorem walked_shallow (arranged : ∀ rows, (arrange rows).Perm rows) {iri : String} {d : Nat}
    (mem : (iri, d) ∈ walked ctx arrange (wholeDepth ctx.data) direction root) : d < wholeDepth ctx.data := by
  have grows := @descend_grows String _ (fun _ => linksOf ctx arrange direction) (wholeDepth ctx.data) 0 [] root
  have counted := grows.shallow (Nat.le_refl 0) (fun _ _ absent => absurd absent List.not_mem_nil) iri d mem
  have known : nodes (walked ctx arrange (wholeDepth ctx.data) direction root) ⊆ root :: knownIris ctx.data := by
    intro other met
    obtain ⟨place, entry⟩ := mem_nodes.1 met
    rcases grows.parent (other, place) entry with absent | isRoot | ⟨parent, _, _, linked, _⟩
    · exact absurd absent List.not_mem_nil
    · have start : other = root := congrArg Prod.fst isRoot
      rw [start]
      exact List.mem_cons_self
    · exact List.mem_cons_of_mem _ (linksOf_named arranged linked)
  have few := (walked_nodup.subperm known).length_le
  unfold nodes at few
  rw [List.length_map, List.length_cons] at few
  unfold wholeDepth at *
  exact Nat.lt_of_lt_of_le counted few

/-- A walk that deep meets all there is to come to. -/
theorem met_walked (arranged : ∀ rows, (arrange rows).Perm rows) {iri : String} (came : Met ctx arrange direction root iri) :
    iri ∈ nodes (walked ctx arrange (wholeDepth ctx.data) direction root) := by
  induction came with
  | refl => exact mem_descend (wholeDepth ctx.data) 0 [] root
  | tail _ linked ih =>
    obtain ⟨d, mem⟩ := mem_nodes.1 ih
    rcases descend_followed (wholeDepth ctx.data) 0 [] root _ d mem with absent | bound | followed
    · exact absurd absent List.not_mem_nil
    · have above := walked_shallow arranged mem
      omega
    · exact followed linked

end Reach

section Edges

variable {ctx : Ctx} {arrange : List (String × String) → List (String × String)} {direction : Direction} {root iri : String}
  {hashing : Ctx.Hashing} {depth : Nat}

/-- The edges told of at a node. -/
def edgesAt (ctx : Ctx) (arrange : List (String × String) → List (String × String)) (direction : Direction) (iri : String) :
    List LineageEdge := (foundAt ctx arrange direction iri).map Prod.fst

theorem edgesAt_eq : edgesAt ctx arrange direction iri =
    (if direction.ups then (upFrom ctx iri).map Prod.fst else []) ++
      if direction.downs then (downward ctx arrange iri).map Prod.fst else [] := by
  unfold edgesAt foundAt found upFrom
  cases direction.ups <;> cases direction.downs <;> simp

theorem mem_edgesTold {met : List (String × Nat)} {edge : LineageEdge} :
    edge ∈ (assembled ctx hashing arrange depth direction root met).edges ↔
      ∃ iri d, (iri, d) ∈ met ∧ d < depth ∧ edge ∈ edgesAt ctx arrange direction iri := by
  unfold assembled edgesAt
  dsimp only
  rw [List.mem_flatMap]
  constructor
  · intro told
    obtain ⟨entry, mem, here⟩ := told
    by_cases deep : depth ≤ entry.2
    · rw [if_pos deep] at here
      cases here
    · rw [if_neg deep] at here
      exact ⟨entry.1, entry.2, mem, Nat.lt_of_not_le deep, here⟩
  · intro told
    obtain ⟨iri, d, mem, above, here⟩ := told
    refine ⟨(iri, d), mem, ?_⟩
    rw [if_neg (Nat.not_le_of_lt above)]
    exact here

/-- The edges of nodes that are met once repeat nothing if none of the nodes repeats anything, of its own or of another. -/
theorem nodup_edges {met : List (String × Nat)} (distinct : (nodes met).Nodup) :
    (assembled ctx hashing arrange depth direction root met).edges.Nodup ↔
      (∀ iri d, (iri, d) ∈ met → d < depth → (edgesAt ctx arrange direction iri).Nodup) ∧
        ∀ one d other e, (one, d) ∈ met → (other, e) ∈ met → d < depth → e < depth → one ≠ other →
          List.Disjoint (edgesAt ctx arrange direction one) (edgesAt ctx arrange direction other) := by
  unfold assembled edgesAt
  dsimp only
  rw [List.nodup_flatMap]
  constructor
  · intro both
    constructor
    · intro iri d mem above
      have own := both.1 (iri, d) mem
      rw [if_neg (Nat.not_le_of_lt above)] at own
      exact own
    · intro one d other e inOne inOther above below differ edge left right
      have symm : Std.Symm (Function.onFun List.Disjoint (fun entry : String × Nat =>
          if depth ≤ entry.2 then [] else (foundAt ctx arrange direction entry.1).map Prod.fst)) :=
        ⟨fun _ _ apart => List.Disjoint.symm apart⟩
      have apart := List.Pairwise.forall both.2 inOne inOther (fun same => differ (congrArg Prod.fst same))
      unfold Function.onFun at apart
      dsimp only at apart
      rw [if_neg (Nat.not_le_of_lt above), if_neg (Nat.not_le_of_lt below)] at apart
      exact apart left right
  · intro both
    constructor
    · intro entry mem
      by_cases deep : depth ≤ entry.2
      · rw [if_pos deep]
        exact List.nodup_nil
      · rw [if_neg deep]
        exact both.1 entry.1 entry.2 mem (Nat.lt_of_not_le deep)
    · refine (List.pairwise_map.1 distinct).imp_of_mem ?_
      intro one other inOne inOther differ edge left right
      dsimp only at left right
      by_cases deep : depth ≤ one.2
      · rw [if_pos deep] at left
        cases left
      · by_cases deep' : depth ≤ other.2
        · rw [if_pos deep'] at right
          cases right
        · rw [if_neg deep] at left
          rw [if_neg deep'] at right
          exact both.2 one.1 one.2 other.1 other.2 inOne inOther (Nat.lt_of_not_le deep) (Nat.lt_of_not_le deep') differ left right

/-- What is found upward of a node leaves it, or is generated by what it leads to. -/
theorem upFrom_source (schemed : Schemed ctx.platform) (valid : ctx.platform.validIri iri = true) {edge : LineageEdge}
    (mem : edge ∈ (upFrom ctx iri).map Prod.fst) : (if edge.predicate = "generated" then edge.to_ else edge.from_) = iri := by
  obtain ⟨step, up, same⟩ := List.mem_map.1 mem
  obtain ⟨relation, _, shown⟩ := upward_tied schemed valid up
  rw [← same, shown]
  unfold Tie.edge
  dsimp only
  by_cases made : relation = "generated"
  · rw [if_pos made, if_pos made]
  · rw [if_neg made, if_neg made]

theorem downward_target {edge : LineageEdge} (mem : edge ∈ (downward ctx arrange iri).map Prod.fst) : edge.to_ = iri := by
  unfold downward at mem
  rw [List.map_map] at mem
  obtain ⟨row, _, same⟩ := List.mem_map.1 mem
  rw [← same]
  rfl

end Edges

section Law

variable {ctx : Ctx} {hashing : Ctx.Hashing} {arrange : List (String × String) → List (String × String)} {direction : Direction}
  {root : String}

theorem nodup_upFrom (schemed : Schemed ctx.platform) {iri : String} (valid : ctx.platform.validIri iri = true) :
    ((upFrom ctx iri).map Prod.fst).Nodup ↔
      ∀ parent, ∀ relation ∈ ["derivedFrom", "used"], SaidOnce ctx.data ⟨iri, parent, relation⟩ := by
  have derived_ : ∀ predicate, (predicate, "derivedFrom") ∈ branches ↔ predicate = Ns.t Ns.prov "wasDerivedFrom" := by
    simp [branches]
  have used : ∀ predicate, (predicate, "used") ∈ branches ↔ predicate = Ns.t Ns.prov "used" := by
    simp [branches]
  unfold upFrom
  rw [nodup_upward, nodup_iris schemed valid derived_, nodup_iris schemed valid used]
  simp only [List.forall_mem_cons, List.not_mem_nil, false_implies, implies_true, and_true, forall_and]

/-- Where every walk tells each edge in its one form and once, the store is as it has to be. -/
theorem oneWay_of_oneForm (schemed : Schemed ctx.platform) (arranged : ∀ rows, (arrange rows).Perm rows) {l : Lineage}
    (answers : Provenance.Answers ctx hashing arrange (wholeDepth ctx.data) direction root l) (right : OneForm ctx.data l) :
    OneWay ctx arrange direction root := by
  obtain ⟨sound, same⟩ := answers_iff.1 answers
  rw [same] at right
  obtain ⟨own, others⟩ := (nodup_edges walked_nodup).1 right.once
  have place (iri : String) (came : Met ctx arrange direction root iri) :
      ∃ d, (iri, d) ∈ walked ctx arrange (wholeDepth ctx.data) direction root ∧ d < wholeDepth ctx.data := by
    obtain ⟨d, mem⟩ := mem_nodes.1 (met_walked arranged came)
    exact ⟨d, mem, walked_shallow arranged mem⟩
  have valid (iri : String) (came : Met ctx arrange direction root iri) : ctx.platform.validIri iri = true :=
    sound iri (met_walked arranged came)
  have distinct (iri : String) (came : Met ctx arrange direction root iri) : (edgesAt ctx arrange direction iri).Nodup := by
    obtain ⟨d, mem, above⟩ := place iri came
    exact own iri d mem above
  have downEdge (iri : String) (downs : direction.downs = true) {child relation : String}
      (tied : ⟨child, iri, relation⟩ ∈ tiesOf ctx.data) :
      (⟨child, iri, relation⟩ : LineageEdge) ∈ (downward ctx arrange iri).map Prod.fst :=
    List.mem_map.2 ⟨(⟨child, iri, relation⟩, child), (mem_downward arranged).2 ⟨relation, tied, rfl⟩, rfl⟩
  have returned (downs : direction.downs = true) (iri : String) (came : Met ctx arrange direction root iri) (child : String)
      (tied : ⟨child, iri, "generated"⟩ ∈ tiesOf ctx.data) : ⟨iri, child, "generated"⟩ ∈ tiesOf ctx.data := by
    obtain ⟨d, mem, above⟩ := place iri came
    have told : (⟨child, iri, "generated"⟩ : LineageEdge) ∈ edgesAt ctx arrange direction iri := by
      rw [edgesAt_eq, if_pos downs]
      exact List.mem_append_right _ (downEdge iri downs tied)
    obtain ⟨⟨first, second, relation⟩, held, shown⟩ := right.form _ (mem_edgesTold.2 ⟨iri, d, mem, above, told⟩)
    unfold Tie.edge at shown
    dsimp only at shown
    by_cases made : relation = "generated"
    · rw [if_pos made, LineageEdge.mk.injEq] at shown
      rw [shown.1, shown.2.1, shown.2.2]
      exact held
    · rw [if_neg made, LineageEdge.mk.injEq] at shown
      exact absurd shown.2.2.symm made
  constructor
  · exact valid
  · intro ups iri came
    have mine := distinct iri came
    rw [edgesAt_eq, if_pos ups] at mine
    exact (nodup_upFrom schemed (valid iri came)).1 (List.Nodup.of_append_left mine)
  · intro downs iri came
    have mine := distinct iri came
    rw [edgesAt_eq, if_pos downs] at mine
    exact (nodup_downward arranged).1 (List.Nodup.of_append_right mine)
  · exact returned
  · intro both iri came
    have ups : direction.ups = true := by rw [both]; rfl
    have downs : direction.downs = true := by rw [both]; rfl
    rw [List.eq_nil_iff_forall_not_mem]
    intro step up
    obtain ⟨relation, tied, shown⟩ := upward_tied schemed (valid iri came) up
    have upEdge : step.1 ∈ (upFrom ctx iri).map Prod.fst := List.mem_map.2 ⟨step, up, rfl⟩
    have mine := distinct iri came
    rw [edgesAt_eq, if_pos ups, if_pos downs] at mine
    have separate := List.disjoint_of_nodup_append mine
    have linked : step.2 ∈ linksOf ctx arrange direction iri := by
      unfold linksOf foundAt found
      rw [List.mem_reverse, if_pos ups]
      exact List.mem_map.2 ⟨step, List.mem_append_left _ up, rfl⟩
    have next : Met ctx arrange direction root step.2 := came.tail linked
    by_cases made : relation = "generated"
    · -- the node it leads to says the same of it, so that the edge is told of twice here
      rw [made] at tied shown
      exact separate upEdge (shown ▸ downEdge iri downs (returned downs step.2 next iri tied))
    · have form : step.1 = ⟨iri, step.2, relation⟩ := by
        rw [shown]
        unfold Tie.edge
        rw [if_neg made]
      have there := downEdge step.2 downs tied
      by_cases self : step.2 = iri
      · rw [self] at there form
        exact separate upEdge (form ▸ there)
      · obtain ⟨d, mem, above⟩ := place iri came
        obtain ⟨e, mem', above'⟩ := place step.2 next
        refine others iri d step.2 e mem mem' above above' (fun same => self same.symm) (a := step.1) ?_ ?_
        · rw [edgesAt_eq, if_pos ups]
          exact List.mem_append_left _ upEdge
        · rw [edgesAt_eq, if_pos downs, form]
          exact List.mem_append_right _ there

/-- And where it is, every walk does. -/
theorem oneForm_of_oneWay (schemed : Schemed ctx.platform) (arranged : ∀ rows, (arrange rows).Perm rows)
    (oneWay : OneWay ctx arrange direction root) (hashing : Ctx.Hashing) (depth : Nat) :
    ∃ l, Provenance.Answers ctx hashing arrange depth direction root l ∧ OneForm ctx.data l := by
  have sound : Sound ctx (walked ctx arrange depth direction root) := by
    intro iri mem
    obtain ⟨d, known⟩ := mem_nodes.1 mem
    exact oneWay.valid iri (walked_met iri d known)
  refine ⟨_, answers_iff.2 ⟨sound, rfl⟩, ?_⟩
  constructor
  · intro edge told
    obtain ⟨iri, d, mem, _, here⟩ := mem_edgesTold.1 told
    have came := walked_met iri d mem
    rw [edgesAt_eq, List.mem_append, List.mem_ite_nil_right, List.mem_ite_nil_right] at here
    rcases here with ⟨_, up⟩ | ⟨downs, down⟩
    · obtain ⟨step, found_, same⟩ := List.mem_map.1 up
      obtain ⟨relation, tied, shown⟩ := upward_tied schemed (oneWay.valid iri came) found_
      exact ⟨_, tied, same ▸ shown⟩
    · obtain ⟨step, found_, same⟩ := List.mem_map.1 down
      obtain ⟨relation, tied, shown⟩ := (mem_downward arranged).1 found_
      rw [← same, shown]
      by_cases made : relation = "generated"
      · rw [made] at tied ⊢
        exact ⟨_, oneWay.returned downs iri came step.2 tied, rfl⟩
      · refine ⟨_, tied, ?_⟩
        unfold Tie.edge
        rw [if_neg made]
  · rw [nodup_edges walked_nodup]
    have silent (both : direction.ups = true ∧ direction.downs = true) (iri : String) (came : Met ctx arrange direction root iri) :
        upFrom ctx iri = [] := by
      apply oneWay.apart _ iri came
      cases direction with
      | both => rfl
      | up => cases both.2
      | down => cases both.1
    constructor
    · intro iri d mem _
      have came := walked_met iri d mem
      rw [edgesAt_eq]
      by_cases ups : direction.ups = true
      · by_cases downs : direction.downs = true
        · rw [silent ⟨ups, downs⟩ iri came, if_pos ups, if_pos downs]
          exact (nodup_downward arranged).2 (oneWay.down downs iri came)
        · rw [if_pos ups, if_neg downs, List.append_nil]
          exact (nodup_upFrom schemed (oneWay.valid iri came)).2 (oneWay.up ups iri came)
      · rw [if_neg ups, List.nil_append]
        by_cases downs : direction.downs = true
        · rw [if_pos downs]
          exact (nodup_downward arranged).2 (oneWay.down downs iri came)
        · rw [if_neg downs]
          exact List.nodup_nil
    · intro one d other e inOne inOther _ _ differ edge left right
      have came := walked_met one d inOne
      have came' := walked_met other e inOther
      rw [edgesAt_eq] at left right
      by_cases downs : direction.downs = true
      · have below (iri : String) (met : Met ctx arrange direction root iri)
            (here : edge ∈ (if direction.ups then (upFrom ctx iri).map Prod.fst else []) ++
              if direction.downs then (downward ctx arrange iri).map Prod.fst else []) : edge.to_ = iri := by
          rw [List.mem_append, List.mem_ite_nil_right, List.mem_ite_nil_right] at here
          rcases here with ⟨ups, up⟩ | ⟨_, down⟩
          · rw [silent ⟨ups, downs⟩ iri met] at up
            cases up
          · exact downward_target down
        exact differ ((below one came left).symm.trans (below other came' right))
      · rw [if_neg downs, List.append_nil, List.mem_ite_nil_right] at left right
        exact differ ((upFrom_source schemed (oneWay.valid one came) left.2).symm.trans
          (upFrom_source schemed (oneWay.valid other came') right.2))

end Law

/-- The lineages of a start in a direction tell every edge in its one form and once exactly when the store says what the
walk comes to in one graph and, but for what is said both ways, from one side. -/
theorem lineage_oneForm_iff (ctx : Ctx) (hashing : Ctx.Hashing) (arrange : List (String × String) → List (String × String))
    (direction : Direction) (root : String) (schemed : Schemed ctx.platform) (arranged : ∀ rows, (arrange rows).Perm rows) :
    (∀ depth, ∃ l, Provenance.Answers ctx hashing arrange depth direction root l ∧ OneForm ctx.data l) ↔
      OneWay ctx arrange direction root := by
  constructor
  · intro right
    obtain ⟨l, answers, form⟩ := right (wholeDepth ctx.data)
    exact oneWay_of_oneForm schemed arranged answers form
  · intro oneWay depth
    exact oneForm_of_oneWay schemed arranged oneWay hashing depth

section Specimen

open Specimen

/-- Up a chain, an edge is told of once and in its one form. -/
theorem chain_oneForm : ∃ l, Provenance.Answers (viewOf chain) asListed id 3 .up "http://r" l ∧ OneForm chain l := by
  have links : linksOf (viewOf chain) id .up "http://r" = ["http://x"] ∧ linksOf (viewOf chain) id .up "http://x" = [] := by
    decide
  have met : ∀ iri, Met (viewOf chain) id .up "http://r" iri → iri = "http://r" ∨ iri = "http://x" := by
    intro iri came
    induction came with
    | refl => exact Or.inl rfl
    | tail _ linked ih =>
      rcases ih with same | same
      · rw [same, links.1] at linked
        exact Or.inr (List.mem_singleton.1 linked)
      · rw [same, links.2] at linked
        cases linked
  have held : ∀ quad ∈ chain, quad.graph = Ns.gLocal := by decide
  refine (lineage_oneForm_iff (viewOf chain) asListed id .up "http://r" schemed_platform (fun _ => List.Perm.refl _)).2 ?_ 3
  constructor
  · intro iri came
    rcases met iri came with same | same <;> rw [same] <;> decide
  · intro _ iri _ parent relation _ predicate one other _ first second
    exact (held _ first).trans (held _ second).symm
  · intro downs
    cases downs
  · intro downs
    cases downs
  · intro both
    cases both

/-- An artifact that a run generated out of another one. -/
def generation : Dataset := Dataset.empty.extend
  [derived "http://a" "http://b", ⟨.named "http://a", Ns.t Ns.prov "wasGeneratedBy", .named "http://r", Ns.gLocal⟩]

/-- Around it, the run is told of as generating the artifact and as generated by it, and the derivation twice. -/
theorem generated_both_ways : ¬∀ depth, ∃ l, Provenance.Answers (viewOf generation) asListed id depth .both "http://a" l ∧ OneForm generation l := by
  intro right
  obtain ⟨l, answers, form⟩ := right 2
  have edges : (assembled (viewOf generation) asListed id 2 .both "http://a" (walked (viewOf generation) id 2 .both "http://a")).edges =
      [⟨"http://a", "http://b", "derivedFrom"⟩, ⟨"http://r", "http://a", "generated"⟩, ⟨"http://a", "http://r", "generated"⟩,
        ⟨"http://a", "http://b", "derivedFrom"⟩] := by decide
  rw [(answers_iff.1 answers).2] at form
  have once := form.once
  rw [edges] at once
  exact absurd once (by decide)

end Specimen

end ToolArtifactRegistry.Laws
