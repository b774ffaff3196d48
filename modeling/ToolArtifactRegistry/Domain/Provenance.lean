import ToolArtifactRegistry.Domain.Artifact
import ToolArtifactRegistry.Escalating
import ToolArtifactRegistry.Library.Descent

/-! Depth-limited lineage in both directions: where a node came from, and what came from it. -/
namespace ToolArtifactRegistry.Domain.Provenance

open Library.Rdf Library.Descent Model Store Rdf

structure LineageNode where
  iri : String
  entityType : String
  title : Option String
  origin : Origin
  depth : Nat
  unresolved : Bool

structure LineageEdge where
  from_ : String
  to_ : String
  predicate : String
  deriving DecidableEq

structure Lineage where
  root : String
  nodes : List LineageNode := []
  edges : List LineageEdge := []
  truncated : Bool := false

inductive Direction where
  | up
  | down
  | both
  deriving DecidableEq

def Direction.ups : Direction → Bool
  | .down => false
  | _ => true

def Direction.downs : Direction → Bool
  | .up => false
  | _ => true

/-- An edge, and the node it leads the walk to. -/
abbrev Found := LineageEdge × String

/-- What a record says of its origins. -/
def upward (iri : String) (p : Props) : List Found :=
  (p.iris Ns.prov "wasDerivedFrom").map (fun parent => (⟨iri, parent, "derivedFrom"⟩, parent)) ++
    (p.iri Ns.prov "wasRevisionOf").toList.map (fun rev => (⟨iri, rev, "revisionOf"⟩, rev)) ++
    (p.iri Ns.prov "wasGeneratedBy").toList.map (fun run => (⟨run, iri, "generated"⟩, run)) ++
    (p.iris Ns.prov "used").map (fun used => (⟨iri, used, "used"⟩, used))

/-- The four branches of the query for what came from a node. -/
def branches : List (String × String) :=
  [(Ns.t Ns.prov "wasDerivedFrom", "derivedFrom"), (Ns.t Ns.prov "used", "used"),
    (Ns.t Ns.prov "wasGeneratedBy", "generated"), (Ns.t Ns.prov "wasRevisionOf", "revisionOf")]

/-- Its solutions: a node and how it is related, once for each graph that says so. -/
def childRows (data : Dataset) (iri : String) : List (String × String) :=
  branches.flatMap (fun branch =>
    (data.matching (fun quad => decide (quad.predicate = branch.1 ∧ quad.object = .named iri))).filterMap (fun quad =>
      quad.subject.iri?.map (fun child => (child, branch.2))))

section

variable (ctx : Ctx) (hashing : Ctx.Hashing) (arrange : List (String × String) → List (String × String))
  (depth : Nat) (direction : Direction)

/-- The engine gives the solutions in an order of its own. -/
def downward (iri : String) : List Found :=
  (arrange (childRows ctx.data iri)).map (fun row => (⟨row.1, iri, row.2⟩, row.1))

def entityType (p : Props) : String :=
  if p.hasType Artifact.typeDataset then "artifact"
  else if p.hasType "http://www.w3.org/ns/prov#Activity" then "run"
  else "unknown"

def lineageNode (iri : String) (quads : List Quad) (d : Nat) : LineageNode where
  iri := iri
  entityType := entityType (Props.fromQuads iri quads)
  title := ((Props.fromQuads iri quads).str Ns.dct "title").or ((Props.fromQuads iri quads).str Ns.rdfs "label")
  origin := if quads.isEmpty then ctx.originOfIri hashing iri else ctx.origin (Props.fromQuads iri quads).graph
  depth := d
  unresolved := quads.isEmpty

def found (iri : String) (quads : List Quad) : List Found :=
  (if direction.ups then upward iri (Props.fromQuads iri quads) else []) ++
    if direction.downs then downward ctx arrange iri else []

/-- The frontier is a stack; a node popped a second time is passed over. -/
def lineageLoop : Nat → List (String × Nat) → Lineage → Option (AppResult Lineage)
  | _, [], l => some (.ok l)
  | 0, _ :: _, _ => none
  | fuel + 1, (iri, d) :: frontier, l =>
    if iri ∈ l.nodes.map LineageNode.iri then lineageLoop fuel frontier l
    else match describe ctx.platform ctx.data iri with
      | .error e => some (.error e)
      | .ok quads =>
        let nodes := l.nodes ++ [lineageNode ctx hashing iri quads d]
        if depth ≤ d then
          lineageLoop fuel frontier { l with nodes, truncated := l.truncated || !quads.isEmpty }
        else
          let out := found ctx arrange direction iri quads
          lineageLoop fuel ((out.map (fun edge => (edge.2, d + 1))).reverse ++ frontier)
            { l with nodes, edges := l.edges ++ out.map Prod.fst }

def lineage (root : String) (fuel : Nat) : Option (AppResult Lineage) :=
  lineageLoop ctx hashing arrange depth direction fuel [(root, 0)] { root }

/-- The walk ends with this lineage. -/
def Answers (root : String) (l : Lineage) : Prop :=
  ∃ fuel, lineage ctx hashing arrange depth direction root fuel = some (.ok l)

/-- What is found at a node, in the store as it stands. -/
def foundAt (iri : String) : List Found := found ctx arrange direction iri (describeQuads ctx.data iri)

/-- The nodes it leads to: the last one found is walked to first. -/
def linksOf (iri : String) : List String := ((foundAt ctx arrange direction iri).map Prod.snd).reverse

/-- The nodes that are met, with their depths. -/
def walked (root : String) : List (String × Nat) :=
  descend (fun _ => linksOf ctx arrange direction) depth 0 [] root

/-- The lineage that tells of the nodes met. -/
def assembled (root : String) (met : List (String × Nat)) : Lineage where
  root := root
  nodes := met.map (fun entry => lineageNode ctx hashing entry.1 (describeQuads ctx.data entry.1) entry.2)
  edges := met.flatMap (fun entry => if depth ≤ entry.2 then [] else (foundAt ctx arrange direction entry.1).map Prod.fst)
  truncated := met.any (fun entry => decide (depth ≤ entry.2) && !(describeQuads ctx.data entry.1).isEmpty)

end

section Walk

variable {ctx : Ctx} {hashing : Ctx.Hashing} {arrange : List (String × String) → List (String × String)}
  {depth : Nat} {direction : Direction} {root : String}

theorem assembled_nodes (met : List (String × Nat)) :
    (assembled ctx hashing arrange depth direction root met).nodes.map LineageNode.iri = nodes met := by
  unfold assembled nodes
  rw [List.map_map]
  rfl

/-- A node at the bound is told of, and not followed. -/
theorem assembled_deep {met : List (String × Nat)} {iri : String} {d : Nat} (deep : depth ≤ d) :
    assembled ctx hashing arrange depth direction root (met ++ [(iri, d)]) =
      { assembled ctx hashing arrange depth direction root met with
        nodes := (assembled ctx hashing arrange depth direction root met).nodes ++
          [lineageNode ctx hashing iri (describeQuads ctx.data iri) d]
        truncated := (assembled ctx hashing arrange depth direction root met).truncated ||
          !(describeQuads ctx.data iri).isEmpty } := by
  unfold assembled
  simp [deep]

theorem assembled_shallow {met : List (String × Nat)} {iri : String} {d : Nat} (shallow : ¬depth ≤ d) :
    assembled ctx hashing arrange depth direction root (met ++ [(iri, d)]) =
      { assembled ctx hashing arrange depth direction root met with
        nodes := (assembled ctx hashing arrange depth direction root met).nodes ++
          [lineageNode ctx hashing iri (describeQuads ctx.data iri) d]
        edges := (assembled ctx hashing arrange depth direction root met).edges ++
          (foundAt ctx arrange direction iri).map Prod.fst } := by
  unfold assembled
  simp [shallow]

/-- All these nodes have IRIs the store can look up. -/
def Sound (ctx : Ctx) (met : List (String × Nat)) : Prop := ∀ iri ∈ nodes met, ctx.platform.validIri iri = true

/-- Some turns of the loop take the frontier and the nodes met from one state to another, or fail on the way at a node
that the store cannot look up. -/
def Turns (ctx : Ctx) (hashing : Ctx.Hashing) (arrange : List (String × String) → List (String × String)) (depth : Nat)
    (direction : Direction) (root : String) (before after : List (String × Nat)) (met out : List (String × Nat)) : Prop :=
  ∃ turns, (Sound ctx out → ∀ fuel,
      lineageLoop ctx hashing arrange depth direction (fuel + turns) before (assembled ctx hashing arrange depth direction root met) =
        lineageLoop ctx hashing arrange depth direction fuel after (assembled ctx hashing arrange depth direction root out)) ∧
    (Sound ctx met → ¬Sound ctx out → ∃ e, ∀ fuel,
      lineageLoop ctx hashing arrange depth direction (fuel + turns) before (assembled ctx hashing arrange depth direction root met) =
        some (.error e))

theorem Turns.refl (frontier met : List (String × Nat)) : Turns ctx hashing arrange depth direction root frontier frontier met met :=
  ⟨0, fun _ _ => rfl, fun sound unsound => absurd sound unsound⟩

theorem Sound.subset {met out : List (String × Nat)} (sound : Sound ctx out) (subset : met ⊆ out) : Sound ctx met :=
  fun iri mem => sound iri (nodes_subset subset mem)

theorem Turns.trans {before middle after met out later : List (String × Nat)}
    (first : Turns ctx hashing arrange depth direction root before middle met out)
    (second : Turns ctx hashing arrange depth direction root middle after out later) (subset : out ⊆ later) :
    Turns ctx hashing arrange depth direction root before after met later := by
  obtain ⟨one, goes, fails⟩ := first
  obtain ⟨two, goesOn, failsLater⟩ := second
  refine ⟨two + one, ?_, ?_⟩
  · intro sound fuel
    rw [← Nat.add_assoc, goes (sound.subset subset), goesOn sound]
  · intro sound unsound
    by_cases halfway : Sound ctx out
    · obtain ⟨e, failed⟩ := failsLater halfway unsound
      refine ⟨e, fun fuel => ?_⟩
      rw [← Nat.add_assoc, goes halfway, failed]
    · obtain ⟨e, failed⟩ := fails sound halfway
      refine ⟨e, fun fuel => ?_⟩
      rw [← Nat.add_assoc, failed]

/-- A node that is met already is passed over. -/
theorem turns_known {frontier met : List (String × Nat)} {iri : String} {d : Nat} (known : iri ∈ nodes met) :
    Turns ctx hashing arrange depth direction root ((iri, d) :: frontier) frontier met met := by
  refine ⟨1, ?_, fun sound unsound => absurd sound unsound⟩
  intro _ fuel
  rw [lineageLoop, assembled_nodes, if_pos known]

/-- A new one is met, and what is found at it is put on the frontier unless it is as deep as the walk goes. -/
theorem turns_new {frontier met : List (String × Nat)} {iri : String} {d : Nat} (new : iri ∉ nodes met) :
    Turns ctx hashing arrange depth direction root ((iri, d) :: frontier)
      ((if depth ≤ d then [] else (linksOf ctx arrange direction iri).map (fun next => (next, d + 1))) ++ frontier)
      met (met ++ [(iri, d)]) := by
  refine ⟨1, ?_, ?_⟩
  · intro sound fuel
    have valid : ctx.platform.validIri iri = true := by
      apply sound
      rw [nodes_append]
      exact List.mem_append_right _ (List.mem_singleton_self _)
    rw [lineageLoop, assembled_nodes, if_neg new]
    unfold describe
    rw [if_pos valid]
    dsimp only
    by_cases deep : depth ≤ d
    · rw [if_pos deep, if_pos deep, assembled_deep deep]
      rfl
    · have pushed : ((found ctx arrange direction iri (describeQuads ctx.data iri)).map (fun edge => (edge.2, d + 1))).reverse =
          (linksOf ctx arrange direction iri).map (fun next => (next, d + 1)) := by
        unfold linksOf foundAt
        rw [List.map_reverse, List.map_map]
        rfl
      rw [if_neg deep, if_neg deep, assembled_shallow deep, pushed]
      rfl
  · intro sound unsound
    have invalid : ctx.platform.validIri iri ≠ true := by
      intro valid
      apply unsound
      intro other mem
      rw [nodes_append] at mem
      rcases List.mem_append.1 mem with old | same
      · exact sound other old
      · rw [List.mem_singleton.1 same]
        exact valid
    refine ⟨AppError.internal s!"bad IRI {iri}", fun fuel => ?_⟩
    rw [lineageLoop, assembled_nodes, if_neg new]
    unfold describe
    rw [if_neg invalid]

/-- The loop walks as the nodes are met going down before going on. -/
theorem turns_descend {room d : Nat} (bound : d + room = depth) (met frontier : List (String × Nat)) (iri : String) :
    Turns ctx hashing arrange depth direction root ((iri, d) :: frontier) frontier met
      (descend (fun _ => linksOf ctx arrange direction) room d met iri) := by
  induction room generalizing d met frontier iri with
  | zero =>
    by_cases known : iri ∈ nodes met
    · rw [descend_known known]
      exact turns_known known
    · have turn := @turns_new ctx hashing arrange depth direction root frontier met iri d known
      rw [if_pos (by omega), List.nil_append] at turn
      rw [descend_zero known]
      exact turn
  | succ room ih =>
    by_cases known : iri ∈ nodes met
    · rw [descend_known known]
      exact turns_known known
    · have turn := @turns_new ctx hashing arrange depth direction root frontier met iri d known
      rw [if_neg (by omega)] at turn
      rw [descend_succ known]
      refine turn.trans ?_ fold_subset
      generalize met ++ [(iri, d)] = begun
      generalize linksOf ctx arrange direction iri = children
      induction children generalizing begun with
      | nil => exact Turns.refl _ _
      | cons child rest inner =>
        have first := ih (d := d + 1) (by omega) begun (rest.map (fun next => (next, d + 1)) ++ frontier) child
        exact first.trans (inner _) fold_subset

/-- More fuel does not change how the loop ends. -/
theorem lineageLoop_more {fuel : Nat} {frontier : List (String × Nat)} {l : Lineage} {result : AppResult Lineage}
    (ended : lineageLoop ctx hashing arrange depth direction fuel frontier l = some result) (more : Nat) :
    lineageLoop ctx hashing arrange depth direction (fuel + more) frontier l = some result := by
  induction fuel generalizing frontier l with
  | zero =>
    cases frontier with
    | nil =>
      rw [lineageLoop] at ended ⊢
      exact ended
    | cons => cases ended
  | succ fuel ih =>
    cases frontier with
    | nil =>
      rw [lineageLoop] at ended ⊢
      exact ended
    | cons entry rest =>
      obtain ⟨iri, d⟩ := entry
      rw [Nat.succ_add, lineageLoop]
      rw [lineageLoop] at ended
      by_cases known : iri ∈ l.nodes.map LineageNode.iri
      · rw [if_pos known] at ended ⊢
        exact ih ended
      · rw [if_neg known] at ended ⊢
        cases looked : describe ctx.platform ctx.data iri with
        | error e =>
          rw [looked] at ended
          exact ended
        | ok quads =>
          rw [looked] at ended
          dsimp only at ended ⊢
          by_cases deep : depth ≤ d
          · rw [if_pos deep] at ended ⊢
            exact ih ended
          · rw [if_neg deep] at ended ⊢
            exact ih ended

/-- The walk answers exactly when every node it meets can be looked up, and then it tells of these nodes. -/
theorem answers_iff {l : Lineage} : Answers ctx hashing arrange depth direction root l ↔
    Sound ctx (walked ctx arrange depth direction root) ∧
      l = assembled ctx hashing arrange depth direction root (walked ctx arrange depth direction root) := by
  obtain ⟨turns, goes, fails⟩ := @turns_descend ctx hashing arrange depth direction root depth 0 (Nat.zero_add depth) [] [] root
  constructor
  · intro answers
    obtain ⟨fuel, ended⟩ := answers
    have enough := lineageLoop_more ended turns
    by_cases sound : Sound ctx (walked ctx arrange depth direction root)
    · have same := (goes sound fuel).symm.trans enough
      rw [lineageLoop] at same
      exact ⟨sound, (Except.ok.inj (Option.some.inj same)).symm⟩
    · obtain ⟨e, failed⟩ := fails (fun iri mem => absurd mem List.not_mem_nil) sound
      have clash := (failed fuel).symm.trans enough
      cases clash
  · intro both
    refine ⟨turns, ?_⟩
    have ended := goes both.1 0
    rw [Nat.zero_add, lineageLoop] at ended
    rw [both.2]
    exact ended

end Walk

/-- What one record says of another. -/
structure Tie where
  child : String
  parent : String
  relation : String
  deriving DecidableEq

/-- What the store says of the provenance of one IRI by another, graph by graph. -/
def tiesOf (data : Dataset) : List Tie :=
  branches.flatMap (fun branch => data.quads.filterMap (fun quad =>
    if quad.predicate = branch.1 then
      quad.subject.iri?.bind (fun child => (Props.namedIri quad.object).map (fun parent => ⟨child, parent, branch.2⟩))
    else none))

/-- The edge a tie is shown as: a run generates what says it was generated by the run. -/
def Tie.edge (tie : Tie) : LineageEdge :=
  if tie.relation = "generated" then ⟨tie.parent, tie.child, tie.relation⟩ else ⟨tie.child, tie.parent, tie.relation⟩

/-- The ways from node to node in a direction. -/
def ways (data : Dataset) (direction : Direction) : List (String × String) :=
  (if direction.ups then (tiesOf data).map (fun tie => (tie.child, tie.parent)) else []) ++
    if direction.downs then (tiesOf data).map (fun tie => (tie.parent, tie.child)) else []

section Ties

variable {data : Dataset}

theorem iri?_eq_some {node : Node} {iri : String} : node.iri? = some iri ↔ node = .named iri := by
  cases node <;> simp [Node.iri?]

theorem namedIri_eq_some {term : Term} {iri : String} : Props.namedIri term = some iri ↔ term = .named iri := by
  cases term <;> simp [Props.namedIri]

theorem mem_tiesOf {tie : Tie} : tie ∈ tiesOf data ↔ ∃ predicate graph, (predicate, tie.relation) ∈ branches ∧
    ⟨.named tie.child, predicate, .named tie.parent, graph⟩ ∈ data := by
  unfold tiesOf
  rw [List.mem_flatMap]
  constructor
  · intro found
    obtain ⟨branch, listed, mem⟩ := found
    obtain ⟨quad, held, told⟩ := List.mem_filterMap.1 mem
    by_cases here : quad.predicate = branch.1
    · rw [if_pos here] at told
      obtain ⟨child, subject, rest⟩ := Option.bind_eq_some_iff.1 told
      obtain ⟨parent, object, same⟩ := Option.map_eq_some_iff.1 rest
      rw [iri?_eq_some] at subject
      rw [namedIri_eq_some] at object
      rw [← same]
      refine ⟨branch.1, quad.graph, listed, ?_⟩
      dsimp only
      rw [← subject, ← object, ← here]
      exact held
    · rw [if_neg here] at told
      cases told
  · intro stated
    obtain ⟨predicate, graph, listed, held⟩ := stated
    refine ⟨(predicate, tie.relation), listed, List.mem_filterMap.2 ⟨_, held, ?_⟩⟩
    simp [Node.iri?, Props.namedIri]

theorem mem_ways {direction : Direction} {from_ to_ : String} : (from_, to_) ∈ ways data direction ↔
    (direction.ups = true ∧ ∃ relation, ⟨from_, to_, relation⟩ ∈ tiesOf data) ∨
      (direction.downs = true ∧ ∃ relation, ⟨to_, from_, relation⟩ ∈ tiesOf data) := by
  have mapped (pick : Tie → String × String) (back : String → Tie) (picks : ∀ tie, pick tie = (from_, to_) ↔ tie = back tie.relation)
      (related : ∀ relation, (back relation).relation = relation) :
      (from_, to_) ∈ (tiesOf data).map pick ↔ ∃ relation, back relation ∈ tiesOf data := by
    rw [List.mem_map]
    constructor
    · intro found
      obtain ⟨tie, mem, same⟩ := found
      exact ⟨tie.relation, (picks tie).1 same ▸ mem⟩
    · intro stated
      obtain ⟨relation, mem⟩ := stated
      exact ⟨back relation, mem, (picks _).2 (by rw [related])⟩
  unfold ways
  rw [List.mem_append, List.mem_ite_nil_right, List.mem_ite_nil_right,
    mapped (fun tie => (tie.child, tie.parent)) (fun relation => ⟨from_, to_, relation⟩)
      (fun tie => by cases tie; simp) (fun _ => rfl),
    mapped (fun tie => (tie.parent, tie.child)) (fun relation => ⟨to_, from_, relation⟩)
      (fun tie => by cases tie; simp [and_comm]) (fun _ => rfl)]

theorem mem_childRows {iri : String} {row : String × String} : row ∈ childRows data iri ↔ ⟨row.1, iri, row.2⟩ ∈ tiesOf data := by
  obtain ⟨child, relation⟩ := row
  unfold childRows
  rw [mem_tiesOf, List.mem_flatMap]
  constructor
  · intro found
    obtain ⟨branch, listed, mem⟩ := found
    obtain ⟨quad, held, told⟩ := List.mem_filterMap.1 mem
    obtain ⟨inData, pattern⟩ := Dataset.mem_matching.1 held
    obtain ⟨predicate, object⟩ := of_decide_eq_true pattern
    obtain ⟨named, subject, same⟩ := Option.map_eq_some_iff.1 told
    rw [iri?_eq_some] at subject
    rw [Prod.mk.injEq] at same
    refine ⟨branch.1, quad.graph, same.2 ▸ listed, ?_⟩
    dsimp only
    rw [← same.1, ← subject, ← object, ← predicate]
    exact inData
  · intro stated
    obtain ⟨predicate, graph, listed, held⟩ := stated
    refine ⟨(predicate, relation), listed, List.mem_filterMap.2 ⟨_, Dataset.mem_matching.2 ⟨held, ?_⟩, ?_⟩⟩
    · simp
    · simp [Node.iri?]

end Ties

section Reading

variable {ctx : Ctx} {arrange : List (String × String) → List (String × String)} {direction : Direction} {iri : String}

/-- What the description of an IRI holds of it is what the store does. -/
theorem own_eq (schemed : Schemed ctx.platform) (valid : ctx.platform.validIri iri = true) :
    (Props.fromQuads iri (describeQuads ctx.data iri)).own = ctx.data.matching (about (.named iri)) := by
  rw [← describe_about_self]
  unfold Props.fromQuads Props.keyed
  dsimp only
  apply List.filter_congr
  intro quad _
  unfold about
  apply decide_eq_decide.2
  cases quad.subject with
  | named other => simp [subjectKey]
  | blank label =>
    have apart : "_:" ++ label ≠ iri := by
      intro same
      rw [← same, schemed label] at valid
      cases valid
    simp [subjectKey, apart]

theorem mem_terms (schemed : Schemed ctx.platform) (valid : ctx.platform.validIri iri = true) {ns localName : String}
    {term : Term} : term ∈ (Props.fromQuads iri (describeQuads ctx.data iri)).terms ns localName ↔
      ∃ graph, ⟨.named iri, Ns.t ns localName, term, graph⟩ ∈ ctx.data := by
  unfold Props.terms Props.ofPredicate
  rw [own_eq schemed valid]
  simp only [List.mem_map, List.mem_filter, Dataset.mem_matching, about, decide_eq_true_eq]
  constructor
  · intro found
    obtain ⟨quad, ⟨⟨held, subject⟩, predicate⟩, object⟩ := found
    refine ⟨quad.graph, ?_⟩
    rw [← subject, ← predicate, ← object]
    exact held
  · intro held
    obtain ⟨graph, held⟩ := held
    exact ⟨_, ⟨⟨held, rfl⟩, rfl⟩, rfl⟩

theorem mem_iris (schemed : Schemed ctx.platform) (valid : ctx.platform.validIri iri = true) {ns localName other : String} :
    other ∈ (Props.fromQuads iri (describeQuads ctx.data iri)).iris ns localName ↔
      ∃ graph, ⟨.named iri, Ns.t ns localName, .named other, graph⟩ ∈ ctx.data := by
  unfold Props.iris
  rw [List.mem_filterMap]
  simp only [namedIri_eq_some, exists_eq_right, mem_terms schemed valid]

theorem iri_held (schemed : Schemed ctx.platform) (valid : ctx.platform.validIri iri = true) {ns localName other : String}
    (first : (Props.fromQuads iri (describeQuads ctx.data iri)).iri ns localName = some other) :
    ∃ graph, ⟨.named iri, Ns.t ns localName, .named other, graph⟩ ∈ ctx.data := by
  unfold Props.iri Props.one at first
  obtain ⟨term, head, named⟩ := Option.bind_eq_some_iff.1 first
  rw [namedIri_eq_some] at named
  rw [← mem_terms schemed valid, ← named]
  exact List.mem_of_head? head

/-- What is found upward of a node is what it says, shown as it should be. -/
theorem upward_tied (schemed : Schemed ctx.platform) (valid : ctx.platform.validIri iri = true) {step : Found}
    (mem : step ∈ upward iri (Props.fromQuads iri (describeQuads ctx.data iri))) :
    ∃ relation, ⟨iri, step.2, relation⟩ ∈ tiesOf ctx.data ∧ step.1 = Tie.edge ⟨iri, step.2, relation⟩ := by
  have tied {predicate other relation : String} (listed : (predicate, relation) ∈ branches)
      (held : ∃ graph, ⟨.named iri, predicate, .named other, graph⟩ ∈ ctx.data) : ⟨iri, other, relation⟩ ∈ tiesOf ctx.data := by
    obtain ⟨graph, held⟩ := held
    exact mem_tiesOf.2 ⟨predicate, graph, listed, held⟩
  unfold upward at mem
  simp only [List.mem_append, List.mem_map, Option.mem_toList] at mem
  rcases mem with ((⟨parent, said, same⟩ | ⟨rev, said, same⟩) | ⟨run, said, same⟩) | ⟨used, said, same⟩
  · rw [← same]
    exact ⟨"derivedFrom", tied (by decide) ((mem_iris schemed valid).1 said), rfl⟩
  · rw [← same]
    exact ⟨"revisionOf", tied (by decide) (iri_held schemed valid said), rfl⟩
  · rw [← same]
    exact ⟨"generated", tied (by decide) (iri_held schemed valid said), rfl⟩
  · rw [← same]
    exact ⟨"used", tied (by decide) ((mem_iris schemed valid).1 said), rfl⟩

/-- What is found downward is what is said of it, shown from the one who says it. -/
theorem mem_downward (arranged : ∀ rows, (arrange rows).Perm rows) {step : Found} : step ∈ downward ctx arrange iri ↔
    ∃ relation, ⟨step.2, iri, relation⟩ ∈ tiesOf ctx.data ∧ step.1 = ⟨step.2, iri, relation⟩ := by
  unfold downward
  rw [List.mem_map]
  constructor
  · intro found
    obtain ⟨row, mem, same⟩ := found
    rw [(arranged _).mem_iff, mem_childRows] at mem
    rw [← same]
    exact ⟨row.2, mem, rfl⟩
  · intro tied
    obtain ⟨relation, mem, same⟩ := tied
    refine ⟨(step.2, relation), ?_, ?_⟩
    · rw [(arranged _).mem_iff, mem_childRows]
      exact mem
    · rw [← same]

/-- The walk only goes ways there are. -/
theorem linksOf_way (schemed : Schemed ctx.platform) (arranged : ∀ rows, (arrange rows).Perm rows)
    (valid : ctx.platform.validIri iri = true) {next : String} (linked : next ∈ linksOf ctx arrange direction iri) :
    (iri, next) ∈ ways ctx.data direction := by
  unfold linksOf foundAt found at linked
  rw [List.mem_reverse, List.mem_map] at linked
  obtain ⟨step, mem, same⟩ := linked
  rw [List.mem_append, List.mem_ite_nil_right, List.mem_ite_nil_right] at mem
  rw [mem_ways, ← same]
  rcases mem with ⟨ups, up⟩ | ⟨downs, down⟩
  · obtain ⟨relation, tied, _⟩ := upward_tied schemed valid up
    exact Or.inl ⟨ups, relation, tied⟩
  · obtain ⟨relation, tied, _⟩ := (mem_downward arranged).1 down
    exact Or.inr ⟨downs, relation, tied⟩

end Reading

end ToolArtifactRegistry.Domain.Provenance
