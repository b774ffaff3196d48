import ToolArtifactRegistry.Library.Queries

/-! Which solutions a body has, in terms of the statements of the dataset, and the answers grouped by another
variable. -/
namespace ToolArtifactRegistry.Library.Queries

open Rdf Text

section Statements

/-- A graph states one of some predicates of a term. -/
def States (data : Dataset) (graph : String) (start : Term) (predicates : List String) (reached : Term) : Prop :=
  ∃ quad ∈ data.quads, quad.graph = graph ∧ quad.subject.term = start ∧ quad.predicate ∈ predicates ∧ quad.object = reached

instance (data : Dataset) (graph : String) (start : Term) (predicates : List String) (reached : Term) :
    Decidable (States data graph start predicates reached) := inferInstanceAs (Decidable (∃ _ ∈ _, _))

/-- A place that stands for one term. -/
def Place.Fixed (place : Place) (term : Term) : Prop :=
  ∀ value solution, place.meet value solution = if value = term then some solution else none

theorem iri_fixed (text : String) : (Place.iri text).Fixed (.named text) := fun _ _ => rfl

theorem yes_fixed : Place.yes.Fixed (.literal "true" xsdBoolean none) := fun _ _ => rfl

theorem literal_fixed {spelled value : String} (reads : unquote spelled = some value) :
    (Place.literal spelled).Fixed (.simple value) := by
  intro met solution
  simp only [Place.meet, reads, Option.map_some, Option.some.injEq, eq_comm]

variable {name : String} {value : Term} {solution result : Solution}

theorem meet_free (free : solution name = none) : (Place.var name).meet value solution = some (solution.bind name value) := by
  simp only [Place.meet, free]

theorem meet_bound {bound : Term} (held : solution name = some bound) :
    (Place.var name).meet value solution = if bound = value then some solution else none := by
  simp only [Place.meet, held]

/-- A place binds no other variable. -/
theorem meet_other {place : Place} (other : place ≠ .var name) (meets : place.meet value solution = some result) :
    result name = solution name := by
  cases place with
  | var here =>
    have apart : name ≠ here := fun same => other (by rw [same])
    cases bound : solution here with
    | none =>
      rw [meet_free bound, Option.some.injEq] at meets
      rw [← meets, Solution.bind, if_neg apart]
    | some there =>
      rw [meet_bound bound, Option.ite_none_right_eq_some, Option.some.injEq] at meets
      rw [meets.2]
  | iri | literal | yes =>
    simp only [Place.meet, Option.ite_none_right_eq_some, Option.some.injEq] at meets
    rw [meets.2]

variable {prologue : Prologue} {data : Dataset} {graph : String} {subject object : Place} {verbs : List Verb}

theorem mem_step {quads : List Quad} {predicates : List String} {start reached : Term} :
    reached ∈ stepTo quads predicates start ↔
      ∃ quad ∈ quads, quad.subject.term = start ∧ quad.predicate ∈ predicates ∧ quad.object = reached := by
  simp only [stepTo, List.mem_map, List.mem_filter, decide_eq_true_eq, and_assoc]

/-- A triple pattern binds what some statement of the graph offers. -/
theorem mem_triple : result ∈ Triple.solutions prologue (quadsOf data graph) ⟨subject, .either verbs, object⟩ solution ↔
    ∃ start reached here, States data graph start (verbs.map (Verb.iri prologue)) reached ∧
      subject.meet start solution = some here ∧ object.meet reached here = some result := by
  simp only [Triple.solutions, subjects, List.mem_flatMap, List.mem_dedup, List.mem_map, List.mem_filterMap, Option.mem_toList,
    Path.ends, mem_step, quadsOf, List.mem_filter, decide_eq_true_eq, States]
  constructor
  · rintro ⟨start, _, here, meets, reached, ⟨quad, ⟨held, inGraph⟩, same, among, ends⟩, met⟩
    exact ⟨start, reached, here, ⟨quad, held, inGraph, same, among, ends⟩, meets, met⟩
  · rintro ⟨start, reached, here, ⟨quad, held, inGraph, same, among, ends⟩, meets, met⟩
    exact ⟨start, ⟨quad, ⟨held, inGraph⟩, same⟩, here, meets, reached, ⟨quad, ⟨held, inGraph⟩, same, among, ends⟩, met⟩

/-- About a bound variable, with a fixed object, a pattern only asks. -/
theorem mem_triple_fixed {term : Term} (bound : solution name = some value) (fixed : object.Fixed term) :
    result ∈ Triple.solutions prologue (quadsOf data graph) ⟨.var name, .either verbs, object⟩ solution ↔
      result = solution ∧ States data graph value (verbs.map (Verb.iri prologue)) term := by
  rw [mem_triple]
  constructor
  · rintro ⟨start, reached, here, stated, meets, met⟩
    rw [meet_bound bound, Option.ite_none_right_eq_some, Option.some.injEq] at meets
    rw [fixed, Option.ite_none_right_eq_some, Option.some.injEq] at met
    obtain ⟨rfl, rfl⟩ := meets
    obtain ⟨rfl, rfl⟩ := met
    exact ⟨rfl, stated⟩
  · rintro ⟨rfl, stated⟩
    exact ⟨value, term, result, stated, by rw [meet_bound bound, if_pos rfl], by rw [fixed, if_pos rfl]⟩

end Statements

section Chains

variable {Step : Type} (results : Step → Solution → List Solution)

/-- The last solution comes from the first by the steps one after the other. -/
def Leads : List Step → Solution → Solution → Prop
  | [], start, last => last = start
  | step :: rest, start, last => ∃ next ∈ results step start, Leads rest next last

variable {results}

theorem mem_fold {steps : List Step} {found : List Solution} {result : Solution} :
    result ∈ steps.foldl (fun found step => found.flatMap (results step)) found ↔
      ∃ start ∈ found, Leads results steps start result := by
  induction steps generalizing found with
  | nil => simp [Leads]
  | cons step rest ih =>
    rw [List.foldl_cons, ih]
    constructor
    · rintro ⟨next, mem, leads⟩
      obtain ⟨start, held, here⟩ := List.mem_flatMap.1 mem
      exact ⟨start, held, next, here, leads⟩
    · rintro ⟨start, held, next, here, leads⟩
      exact ⟨next, List.mem_flatMap.2 ⟨start, held, here⟩, leads⟩

end Chains

section Blocks

variable {regex : String → String → Bool} {prologue : Prologue} {data : Dataset} {name : String}
  {solution result : Solution}

theorem mem_graphs {graph : String} {start reached : Term} {predicates : List String}
    (stated : States data graph start predicates reached) : graph ∈ graphs data := by
  obtain ⟨quad, held, rfl, _⟩ := stated
  exact List.mem_dedup.2 (List.mem_map_of_mem held)

theorem mem_item {subject : Place} {paths : List (Path × Place)} {quads : List Quad} :
    result ∈ Item.solutions prologue quads (.triples subject paths) solution ↔
      Leads (fun entry : Path × Place => Triple.solutions prologue quads ⟨subject, entry.1, entry.2⟩) paths solution result := by
  rw [Item.solutions, mem_fold]
  simp only [List.mem_singleton, exists_eq_left]

theorem mem_block {place : Place} {items : List Item} :
    result ∈ blockSolutions prologue data place items solution ↔
      ∃ graph ∈ graphs data, ∃ here, place.meet (.named graph) solution = some here ∧
        Leads (Item.solutions prologue (quadsOf data graph)) items here result := by
  simp only [blockSolutions, List.mem_flatMap, Option.mem_toList, mem_fold, List.mem_singleton, exists_eq_left]

theorem mem_solutions {body : Body} :
    result ∈ body.solutions regex prologue data ↔
      Leads (Element.solutions prologue data) body.reduceOption .unbound result ∧
        ∀ element ∈ body.reduceOption, element.passes regex prologue data result = true := by
  rw [Body.solutions, List.mem_filter, mem_fold, List.all_eq_true]
  simp only [List.mem_singleton, exists_eq_left]

/-- What need not be there leaves what is bound as it is, and always has a result. -/
theorem optional_keeps {triple : Triple} {quads : List Quad} {value : Term} (held : solution name = some value)
    (mem : result ∈ Item.solutions prologue quads (.optional triple) solution) : result name = some value := by
  unfold Item.solutions at mem
  dsimp only at mem
  split at mem
  · rw [List.mem_singleton.1 mem, held]
  · exact triple_keeps mem held

theorem optional_total (triple : Triple) (quads : List Quad) (solution : Solution) :
    Item.solutions prologue quads (.optional triple) solution ≠ [] := by
  unfold Item.solutions
  dsimp only
  split
  · exact List.cons_ne_nil _ _
  · rename_i some_
    exact fun none_ => some_ (by rw [none_]; rfl)

/-- A pattern leaves alone what it does not name. -/
theorem triple_other {triple : Triple} {quads : List Quad} (subject : triple.subject ≠ .var name)
    (object : triple.object ≠ .var name) (mem : result ∈ triple.solutions prologue quads solution) :
    result name = solution name := by
  obtain ⟨_, _, here, meets, _, ends⟩ := mem_triple_solutions mem
  rw [meet_other object ends, meet_other subject meets]

theorem optional_other {triple : Triple} {quads : List Quad} (subject : triple.subject ≠ .var name)
    (object : triple.object ≠ .var name) (mem : result ∈ Item.solutions prologue quads (.optional triple) solution) :
    result name = solution name := by
  unfold Item.solutions at mem
  dsimp only at mem
  split at mem
  · rw [List.mem_singleton.1 mem]
  · exact triple_other subject object mem

/-- One clause about a bound variable in a bound graph only asks. -/
theorem mem_clause {graphName : String} {verbs : List Verb} {object : Place} {graph : String} {value term : Term}
    (inGraph : solution graphName = some (.named graph)) (bound : solution name = some value) (fixed : object.Fixed term) :
    result ∈ Element.solutions prologue data (.graph (.var graphName) [.triples (.var name) [(.either verbs, object)]]) solution ↔
      result = solution ∧ States data graph value (verbs.map (Verb.iri prologue)) term := by
  rw [Element.solutions, mem_block]
  constructor
  · rintro ⟨other, _, here, meets, next, mem, rfl⟩
    rw [meet_bound inGraph, Option.ite_none_right_eq_some, Option.some.injEq, Term.named.injEq] at meets
    obtain ⟨rfl, rfl⟩ := meets
    obtain ⟨last, asked, rfl⟩ := mem_item.1 mem
    exact (mem_triple_fixed bound fixed).1 asked
  · rintro ⟨rfl, stated⟩
    refine ⟨graph, mem_graphs stated, result, by rw [meet_bound inGraph, if_pos rfl], result, mem_item.2 ⟨result, ?_, rfl⟩, rfl⟩
    exact (mem_triple_fixed bound fixed).2 ⟨rfl, stated⟩

/-- A clause that is to be absent from every graph. -/
theorem absent_passes {graphName : String} {verbs : List Verb} {object : Place} {value term : Term}
    (free : solution graphName = none) (bound : solution name = some value) (apart : name ≠ graphName) (fixed : object.Fixed term) :
    Element.passes regex prologue data (.absent (.var graphName) ⟨.var name, .either verbs, object⟩) solution = true ↔
      ∀ graph, ¬States data graph value (verbs.map (Verb.iri prologue)) term := by
  have kept (graph : Term) : (solution.bind graphName graph) name = some value := by
    rw [Solution.bind, if_neg apart, bound]
  rw [Element.passes, List.isEmpty_iff, List.eq_nil_iff_forall_not_mem]
  constructor
  · intro empty graph stated
    refine empty (solution.bind graphName (.named graph)) (mem_block.2 ⟨graph, mem_graphs stated, _, meet_free free, _, ?_, rfl⟩)
    exact mem_item.2 ⟨_, (mem_triple_fixed (kept _) fixed).2 ⟨rfl, stated⟩, rfl⟩
  · rintro none_ other mem
    obtain ⟨graph, _, here, meets, next, inItem, rfl⟩ := mem_block.1 mem
    rw [meet_free free, Option.some.injEq] at meets
    subst meets
    obtain ⟨last, asked, rfl⟩ := mem_item.1 inItem
    exact none_ graph ((mem_triple_fixed (kept _) fixed).1 asked).2

end Blocks

section Groups

variable (regex : String → String → Bool) (prologue : Prologue) (data : Dataset)

/-- The distinct values of a variable among the solutions that have this value for another. -/
def Body.within (body : Body) (counted grouped : String) (value : Term) : List Term :=
  (((body.solutions regex prologue data).filter (fun solution => decide (solution grouped = some value))).filterMap
    (fun solution => solution counted)).dedup

/-- Each value of a variable with how many values another has beside it. -/
def Body.groups (body : Body) (counted grouped : String) : List (Term × Nat) :=
  (body.answers regex prologue data grouped).map (fun value =>
    (value, (body.within regex prologue data counted grouped value).length))

variable {regex prologue data}

theorem mem_within {body : Body} {counted grouped : String} {value other : Term} :
    other ∈ body.within regex prologue data counted grouped value ↔
      ∃ solution ∈ body.solutions regex prologue data, solution grouped = some value ∧ solution counted = some other := by
  simp only [Body.within, List.mem_dedup, List.mem_filterMap, List.mem_filter, decide_eq_true_eq, and_assoc]

/-- A group is not empty where the counted variable is bound. -/
theorem within_pos {body : Body} {counted grouped : String} {value : Term}
    (bound : ∀ solution ∈ body.solutions regex prologue data, ∃ other, solution counted = some other)
    (mem : value ∈ body.answers regex prologue data grouped) :
    0 < (body.within regex prologue data counted grouped value).length := by
  obtain ⟨solution, held, here⟩ := mem_answers.1 mem
  obtain ⟨other, there⟩ := bound solution held
  exact List.length_pos_of_mem (mem_within.2 ⟨solution, held, here, there⟩)

end Groups

end ToolArtifactRegistry.Library.Queries
