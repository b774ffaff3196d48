import ToolArtifactRegistry.Library.Keyset
import ToolArtifactRegistry.Library.Rdf
import ToolArtifactRegistry.Library.Sparql
import ToolArtifactRegistry.Library.Text
import Mathlib.Data.List.ReduceOption

/-! Queries over a dataset that is read graph by graph: blocks of triple patterns inside named graphs and
filters on what they bind, how they are written, and what they select and count. -/
namespace ToolArtifactRegistry.Library.Queries

open Rdf Text

/-! Writing. -/

def braces (body : String) : String := "\x7b " ++ body ++ " \x7d"

def angle (iri : String) : String := "<" ++ iri ++ ">"

def inQuotes (spelled : String) : String := "\"" ++ spelled ++ "\""

/-- The value between two quotes, once its escapes are resolved. -/
def unquote (spelled : String) : Option String :=
  (Sparql.spanString '"' (Sparql.points (spelled.toList ++ ['"']))).map (fun span => String.ofList span.1)

/-- Abbreviations and the namespaces they stand for. -/
abbrev Prologue := List (String × String)

def Prologue.written (prologue : Prologue) : String :=
  join "" (prologue.map (fun entry => "PREFIX " ++ entry.1 ++ ": <" ++ entry.2 ++ ">\n"))

def rdfType : String := "http://www.w3.org/1999/02/22-rdf-syntax-ns#type"

inductive Verb where
  | a
  | name (abbreviation word : String)

def Verb.written (verb : Verb) : String :=
  match verb with
  | .a => "a"
  | .name abbreviation word => abbreviation ++ ":" ++ word

def Verb.iri (prologue : Prologue) (verb : Verb) : String :=
  match verb with
  | .a => rdfType
  | .name abbreviation word => ((prologue.find? (fun entry => entry.1 == abbreviation)).map Prod.snd).getD "" ++ word

/-- One of several predicates, or several one after the other. -/
inductive Path where
  | either (verbs : List Verb)
  | through (verbs : List Verb)

def Path.written (path : Path) : String :=
  match path with
  | .either verbs => join "|" (verbs.map Verb.written)
  | .through verbs => join "/" (verbs.map Verb.written)

/-- What stands in a place of a pattern; a literal as it is spelled between its quotes. -/
inductive Place where
  | var (name : String)
  | iri (text : String)
  | literal (spelled : String)
  | yes

def Place.written (place : Place) : String :=
  match place with
  | .var name => "?" ++ name
  | .iri text => angle text
  | .literal spelled => inQuotes spelled
  | .yes => "true"

structure Triple where
  subject : Place
  path : Path
  object : Place

/-- Some paths from one subject, or one that need not be there. -/
inductive Item where
  | triples (subject : Place) (paths : List (Path × Place))
  | optional (triple : Triple)

def Triple.written (triple : Triple) : String :=
  triple.subject.written ++ " " ++ triple.path.written ++ " " ++ triple.object.written

def Item.written (item : Item) : String :=
  match item with
  | .triples subject paths =>
    subject.written ++ " " ++ join " ; " (paths.map (fun entry => entry.1.written ++ " " ++ entry.2.written))
  | .optional triple => "OPTIONAL " ++ braces triple.written

/-- A dot stands behind triples. -/
def Item.separator (item : Item) : String :=
  match item with
  | .triples .. => " . "
  | .optional _ => " "

def writtenItems : List Item → String
  | [] => ""
  | [item] => item.written
  | item :: rest => item.written ++ item.separator ++ writtenItems rest

inductive Element where
  | graph (name : Place) (items : List Item)
  /-- In no graph is there such a triple. -/
  | absent (name : Place) (triple : Triple)
  | equals (name iri : String)
  /-- A regular expression found in the text of one of some variables. -/
  | found (spelled : String) (names : List String)
  /-- The text of a variable comes before another. -/
  | before (name spelled : String)
  | never

def textOf (name : String) : String := "STR(" ++ ("?" ++ name) ++ ")"

def Element.written (element : Element) : String :=
  match element with
  | .graph name items => "GRAPH " ++ name.written ++ " " ++ braces (writtenItems items)
  | .absent name triple => "FILTER NOT EXISTS " ++ braces ("GRAPH " ++ name.written ++ " " ++ braces triple.written)
  | .equals name iri => "FILTER(?" ++ name ++ " = " ++ angle iri ++ ")"
  | .found spelled names =>
    "FILTER(" ++ join " || " (names.map (fun name => "REGEX(" ++ textOf name ++ ", " ++ inQuotes spelled ++ ", \"i\")")) ++ ")"
  | .before name spelled => "FILTER(" ++ textOf name ++ " < " ++ inQuotes spelled ++ ")"
  | .never => "FILTER(false)"

/-- Elements on lines of their own, among them lines that are left empty. -/
abbrev Body := List (Option Element)

def Body.written (body : Body) : String := join "\n" (body.map (fun line => (line.map Element.written).getD ""))

/-! Reading a dataset. -/

/-- What the variables are bound to. -/
abbrev Solution := String → Option Term

def Solution.unbound : Solution := fun _ => none

def Solution.bind (solution : Solution) (name : String) (value : Term) : Solution :=
  fun other => if other = name then some value else solution other

/-- The text of what a variable is bound to; a blank node has none. -/
def Solution.text (solution : Solution) (name : String) : Option String :=
  match solution name with
  | some (.named iri) => some iri
  | some (.literal value _ _) => some value
  | some (.blank _) | none => none

def xsdBoolean : String := "http://www.w3.org/2001/XMLSchema#boolean"

def Place.meet (place : Place) (value : Term) (solution : Solution) : Option Solution :=
  match place with
  | .var name =>
    match solution name with
    | none => some (solution.bind name value)
    | some bound => if bound = value then some solution else none
  | .iri text => if value = .named text then some solution else none
  | .literal spelled => if (unquote spelled).map Term.simple = some value then some solution else none
  | .yes => if value = .literal "true" xsdBoolean none then some solution else none

section Reading

variable (prologue : Prologue) (quads : List Quad)

/-- Where a step over one of some predicates leads. -/
def stepTo (predicates : List String) (start : Term) : List Term :=
  (quads.filter (fun quad => decide (quad.subject.term = start ∧ quad.predicate ∈ predicates))).map Quad.object

def Path.ends (path : Path) (start : Term) : List Term :=
  match path with
  | .either verbs => stepTo quads (verbs.map (Verb.iri prologue)) start
  | .through verbs => verbs.foldl (fun reached verb => reached.flatMap (stepTo quads [verb.iri prologue])) [start]

def subjects : List Term := (quads.map (fun quad => quad.subject.term)).dedup

def Triple.solutions (triple : Triple) (solution : Solution) : List Solution :=
  (subjects quads).flatMap (fun start =>
    ((triple.subject.meet start solution).toList.flatMap (fun here =>
      (triple.path.ends prologue quads start).filterMap (fun reached => triple.object.meet reached here))))

def Item.solutions (item : Item) (solution : Solution) : List Solution :=
  match item with
  | .triples subject paths =>
    paths.foldl (fun found entry => found.flatMap (Triple.solutions prologue quads ⟨subject, entry.1, entry.2⟩)) [solution]
  | .optional triple =>
    let found := triple.solutions prologue quads solution
    if found.isEmpty then [solution] else found

end Reading

section Evaluating

variable (regex : String → String → Bool) (prologue : Prologue) (data : Dataset)

def graphs : List String := (data.quads.map Quad.graph).dedup

def quadsOf (graph : String) : List Quad := data.quads.filter (fun quad => decide (quad.graph = graph))

/-- What a block binds, under what the blocks before it bound. -/
def blockSolutions (name : Place) (items : List Item) (solution : Solution) : List Solution :=
  (graphs data).flatMap (fun graph =>
    (name.meet (.named graph) solution).toList.flatMap (fun here =>
      items.foldl (fun found item => found.flatMap (item.solutions prologue (quadsOf data graph))) [here]))

/-- Whether a solution passes the element; a test that has no value fails. -/
def Element.passes (element : Element) (solution : Solution) : Bool :=
  match element with
  | .graph .. => true
  | .absent name triple => (blockSolutions prologue data name [.triples triple.subject [(triple.path, triple.object)]] solution).isEmpty
  | .equals name iri => decide (solution name = some (.named iri))
  | .found spelled names => names.any (fun name => (solution.text name).any (fun text => (unquote spelled).any (regex · text)))
  | .before name spelled => (solution.text name).any (fun text => (unquote spelled).any (fun bound => decide (text < bound)))
  | .never => false

def Element.solutions (element : Element) (solution : Solution) : List Solution :=
  match element with
  | .graph name items => blockSolutions prologue data name items solution
  | _ => [solution]

/-- The blocks are joined, and the filters apply to what they bind together, wherever they stand. -/
def Body.solutions (body : Body) : List Solution :=
  (body.reduceOption.foldl (fun found element => found.flatMap (element.solutions prologue data)) [Solution.unbound]).filter
    (fun solution => body.reduceOption.all (fun element => element.passes regex prologue data solution))

/-- What a variable is bound to, each value once. -/
def Body.answers (body : Body) (name : String) : List Term :=
  ((body.solutions regex prologue data).filterMap (fun solution => solution name)).dedup

def Body.count (body : Body) (name : String) : Nat := (body.answers regex prologue data name).length

/-- What an answer is ordered by; what has no text comes below every text. -/
def orderText (value : Term) : Option String :=
  match value with
  | .named iri => some iri
  | .literal text _ _ => some text
  | .blank _ => none

def notBelow (left right : Term) : Bool :=
  match orderText left, orderText right with
  | some one, some other => decide (other ≤ one)
  | none, some _ => false
  | _, none => true

/-- The greatest answers. -/
def Body.top (body : Body) (name : String) (limit : Nat) : List Term :=
  ((body.answers regex prologue data name).mergeSort notBelow).take limit

end Evaluating

section Cutting

variable {regex : String → String → Bool} {prologue : Prologue} {data : Dataset} {body : Body} {name : String}

theorem mem_answers {value : Term} :
    value ∈ body.answers regex prologue data name ↔ ∃ solution ∈ body.solutions regex prologue data, solution name = some value := by
  simp only [Body.answers, List.mem_dedup, List.mem_filterMap]

/-- A filter on a line of its own keeps the solutions that pass it. -/
theorem solutions_filter {element : Element} (filters : ∀ solution, element.solutions prologue data solution = [solution]) :
    Body.solutions regex prologue data (body ++ [some element]) =
      (body.solutions regex prologue data).filter (element.passes regex prologue data) := by
  have joined (found : List Solution) : found.flatMap (element.solutions prologue data) = found := by
    induction found with
    | nil => rfl
    | cons solution rest ih => rw [List.flatMap_cons, filters, ih, List.singleton_append]
  have lines : List.reduceOption (body ++ [some element]) = body.reduceOption ++ [element] :=
    List.reduceOption_append body [some element]
  unfold Body.solutions
  rw [lines, List.foldl_append, List.foldl_cons, List.foldl_nil, joined, List.filter_filter]
  apply List.filter_congr
  intro solution _
  rw [List.all_append, Bool.and_comm, List.all_cons, List.all_nil, Bool.and_true]

theorem solutions_blank : Body.solutions regex prologue data (body ++ [none]) = body.solutions regex prologue data := by
  have lines : List.reduceOption (body ++ [none]) = body.reduceOption := by
    rw [List.reduceOption_append]
    exact List.append_nil _
  unfold Body.solutions
  rw [lines]

/-- Cutting at a text keeps the answers whose text comes before it. -/
theorem mem_answers_before {spelled bound : String} (reads : unquote spelled = some bound) {value : Term} :
    value ∈ Body.answers regex prologue data (body ++ [some (.before name spelled)]) name ↔
      value ∈ body.answers regex prologue data name ∧ ∃ text, orderText value = some text ∧ text < bound := by
  have text {solution : Solution} (bound : solution name = some value) : solution.text name = orderText value := by
    unfold Solution.text orderText
    rw [bound]
    cases value <;> rfl
  have passes {solution : Solution} (held : solution name = some value) :
      Element.passes regex prologue data (.before name spelled) solution = true ↔
        ∃ text, orderText value = some text ∧ text < bound := by
    simp only [Element.passes, text held, reads, Option.any_some]
    cases orderText value with
    | none => simp
    | some text => simp
  rw [mem_answers, mem_answers, solutions_filter (fun _ => rfl)]
  simp only [List.mem_filter]
  constructor
  · rintro ⟨solution, ⟨mem, passed⟩, held⟩
    exact ⟨⟨solution, mem, held⟩, (passes held).1 passed⟩
  · rintro ⟨⟨solution, mem, held⟩, below⟩
    exact ⟨solution, ⟨mem, (passes held).2 below⟩, held⟩

variable (regex prologue data body name) in
theorem answers_nodup : (body.answers regex prologue data name).Nodup := List.nodup_dedup _

end Cutting

section Ordering

def iriOf (value : Term) : Option String :=
  match value with
  | .named iri => some iri
  | .blank _ | .literal .. => none

/-- An IRI or a blank node. -/
def IsNode (value : Term) : Prop := ∃ node : Node, value = node.term

theorem notBelow_trans (one two three : Term) (first : notBelow one two = true) (second : notBelow two three = true) :
    notBelow one three = true := by
  unfold notBelow at first second ⊢
  cases left : orderText one <;> cases middle : orderText two <;> cases right : orderText three <;>
    simp only [left, middle, right, decide_eq_true_eq, Bool.false_eq_true] at first second ⊢
  exact le_trans second first

theorem notBelow_total (one other : Term) : (notBelow one other || notBelow other one) = true := by
  unfold notBelow
  cases left : orderText one <;> cases right : orderText other <;>
    simp only [Bool.or_false, Bool.or_true, Bool.or_eq_true, decide_eq_true_eq]
  exact le_total _ _

/-- Among nodes that go downwards the IRIs come first. -/
theorem take_iris {values : List Term} (nodes : ∀ value ∈ values, IsNode value)
    (sorted : values.Pairwise (fun one other => notBelow one other = true)) (limit : Nat) :
    (values.take limit).filterMap iriOf = (values.filterMap iriOf).take limit := by
  induction values generalizing limit with
  | nil => simp
  | cons value rest ih =>
    obtain ⟨ahead, ordered⟩ := List.pairwise_cons.1 sorted
    have others := fun other mem => nodes other (List.mem_cons_of_mem _ mem)
    cases limit with
    | zero => simp
    | succ limit =>
      obtain ⟨node, same⟩ := nodes value List.mem_cons_self
      cases node with
      | named iri =>
        subst same
        have read : iriOf (Node.named iri).term = some iri := rfl
        rw [List.take_succ_cons, List.filterMap_cons_some read, List.filterMap_cons_some read, List.take_succ_cons,
          ih others ordered]
      | blank label =>
        have none_ : ∀ other ∈ value :: rest, iriOf other = none := by
          intro other mem
          rcases List.mem_cons.1 mem with rfl | later
          · rw [same]
            rfl
          · have above := ahead other later
            obtain ⟨next, shape⟩ := others other later
            rw [same, shape] at above
            cases next with
            | named iri => cases above
            | blank other => rw [shape]; rfl
        rw [List.filterMap_eq_nil_iff.2 none_, List.filterMap_eq_nil_iff.2 (fun other mem => none_ other (List.mem_of_mem_take mem)),
          List.take_nil]

theorem mem_iris {values : List Term} {iri : String} : iri ∈ values.filterMap iriOf ↔ .named iri ∈ values := by
  rw [List.mem_filterMap]
  constructor
  · rintro ⟨value, mem, read⟩
    cases value with
    | named other =>
      cases read
      exact mem
    | blank | literal => cases read
  · exact fun mem => ⟨_, mem, rfl⟩

theorem nodup_iris {values : List Term} (nodup : values.Nodup) : (values.filterMap iriOf).Nodup := by
  apply nodup.filterMap
  intro one other iri first second
  cases one <;> cases other <;> cases first <;> cases second
  rfl

variable {regex : String → String → Bool} {prologue : Prologue} {data : Dataset} {body : Body} {name : String}

/-- The IRIs of the greatest answers are the greatest IRIs. -/
theorem top_iris (nodes : ∀ value ∈ body.answers regex prologue data name, IsNode value) (limit : Nat) :
    (body.top regex prologue data name limit).filterMap iriOf =
      (Keyset.descending ((body.answers regex prologue data name).filterMap iriOf)).take limit := by
  have sorted := List.pairwise_mergeSort notBelow_trans notBelow_total (body.answers regex prologue data name)
  have perm := List.mergeSort_perm (body.answers regex prologue data name) notBelow
  rw [Body.top, take_iris (fun value mem => nodes value (perm.mem_iff.1 mem)) sorted]
  congr 1
  have nodup := nodup_iris (answers_nodup regex prologue data body name)
  apply Keyset.sorted_unique _ (Keyset.descending_sorted nodup)
  · intro iri
    rw [Keyset.mem_descending]
    exact (perm.filterMap iriOf).mem_iff
  · have distinct := nodup_iris (perm.nodup_iff.2 (answers_nodup regex prologue data body name))
    have weakly : ((((body.answers regex prologue data name).mergeSort notBelow).filterMap iriOf)).Pairwise (fun one other => other ≤ one) := by
      rw [List.pairwise_filterMap]
      apply sorted.imp
      intro one other above left first right second
      cases one <;> cases other <;> cases first <;> cases second
      exact of_decide_eq_true above
    apply (weakly.and distinct).imp
    rintro one other ⟨le, ne⟩
    exact lt_of_le_of_ne le (Ne.symm ne)

end Ordering

section Binding

variable {prologue : Prologue} {name : String} {value : Term}

theorem fold_keeps {Step : Type} (results : Step → Solution → List Solution) (holds : Solution → Prop) {steps : List Step}
    (keep : ∀ step ∈ steps, ∀ solution, holds solution → ∀ result ∈ results step solution, holds result)
    {found : List Solution} (all : ∀ solution ∈ found, holds solution) :
    ∀ result ∈ steps.foldl (fun found step => found.flatMap (results step)) found, holds result := by
  induction steps generalizing found with
  | nil => exact all
  | cons step rest ih =>
    apply ih (fun other mem => keep other (List.mem_cons_of_mem _ mem))
    intro result mem
    obtain ⟨solution, held, here⟩ := List.mem_flatMap.1 mem
    exact keep step List.mem_cons_self solution (all solution held) result here

/-- What one of the steps brings about and the others keep holds at the end. -/
theorem fold_brings {Step : Type} (results : Step → Solution → List Solution) (holds : Solution → Prop) {steps : List Step}
    {step : Step} (mem : step ∈ steps) (brings : ∀ solution, ∀ result ∈ results step solution, holds result)
    (keep : ∀ step ∈ steps, ∀ solution, holds solution → ∀ result ∈ results step solution, holds result)
    (found : List Solution) :
    ∀ result ∈ steps.foldl (fun found step => found.flatMap (results step)) found, holds result := by
  obtain ⟨before, after, rfl⟩ := List.append_of_mem mem
  rw [List.foldl_append, List.foldl_cons]
  apply fold_keeps results holds (fun other there => keep other (List.mem_append_right _ (List.mem_cons_of_mem _ there)))
  intro result there
  obtain ⟨solution, _, here⟩ := List.mem_flatMap.1 there
  exact brings solution result here

theorem bind_keeps {solution : Solution} {other : String} {bound : Term} (free : solution other = none)
    (held : solution name = some value) : solution.bind other bound name = some value := by
  have apart : name ≠ other := by
    rintro rfl
    rw [free] at held
    cases held
  rw [Solution.bind, if_neg apart, held]

/-- A bound variable stays as it is. -/
theorem meet_keeps {place : Place} {met : Term} {solution result : Solution} (meets : place.meet met solution = some result)
    (held : solution name = some value) : result name = some value := by
  cases place with
  | var other =>
    cases bound : solution other with
    | none =>
      simp only [Place.meet, bound, Option.some.injEq] at meets
      rw [← meets]
      exact bind_keeps bound held
    | some there =>
      simp only [Place.meet, bound, Option.ite_none_right_eq_some, Option.some.injEq] at meets
      rw [← meets.2, held]
  | iri | literal | yes =>
    simp only [Place.meet, Option.ite_none_right_eq_some, Option.some.injEq] at meets
    rw [← meets.2, held]

theorem meet_binds {met : Term} {solution result : Solution} (meets : (Place.var name).meet met solution = some result) :
    result name = some met := by
  cases bound : solution name with
  | none =>
    simp only [Place.meet, bound, Option.some.injEq] at meets
    rw [← meets, Solution.bind, if_pos rfl]
  | some there =>
    simp only [Place.meet, bound, Option.ite_none_right_eq_some, Option.some.injEq] at meets
    rw [← meets.2, bound, meets.1]

variable {quads : List Quad}

theorem mem_triple_solutions {triple : Triple} {solution result : Solution}
    (mem : result ∈ triple.solutions prologue quads solution) :
    ∃ start ∈ subjects quads, ∃ here, triple.subject.meet start solution = some here ∧
      ∃ reached, triple.object.meet reached here = some result := by
  unfold Triple.solutions at mem
  obtain ⟨start, there, mem⟩ := List.mem_flatMap.1 mem
  obtain ⟨here, meets, mem⟩ := List.mem_flatMap.1 mem
  obtain ⟨reached, _, ends⟩ := List.mem_filterMap.1 mem
  exact ⟨start, there, here, Option.mem_toList.1 meets, reached, ends⟩

theorem triple_keeps {triple : Triple} {solution result : Solution}
    (mem : result ∈ triple.solutions prologue quads solution) (held : solution name = some value) :
    result name = some value := by
  obtain ⟨_, _, here, meets, _, ends⟩ := mem_triple_solutions mem
  exact meet_keeps ends (meet_keeps meets held)

/-- A variable in a subject's place is bound to a node. -/
theorem triple_binds {path : Path} {object : Place} {solution result : Solution}
    (mem : result ∈ Triple.solutions prologue quads ⟨.var name, path, object⟩ solution) :
    ∃ value, result name = some value ∧ IsNode value := by
  obtain ⟨start, there, here, meets, _, ends⟩ := mem_triple_solutions mem
  obtain ⟨quad, _, same⟩ := List.mem_map.1 (List.mem_dedup.1 there)
  exact ⟨start, meet_keeps ends (meet_binds meets), quad.subject, same.symm⟩

def BindsNode (name : String) (solution : Solution) : Prop := ∃ value, solution name = some value ∧ IsNode value

theorem item_keeps {item : Item} {solution result : Solution} (held : BindsNode name solution)
    (mem : result ∈ item.solutions prologue quads solution) : BindsNode name result := by
  obtain ⟨value, bound, node⟩ := held
  refine ⟨value, ?_, node⟩
  cases item with
  | triples subject paths =>
    apply fold_keeps _ (fun solution => solution name = some value) _ _ result mem
    · exact fun _ _ _ held _ there => triple_keeps there held
    · intro other here
      rw [List.mem_singleton.1 here, bound]
  | optional triple =>
    unfold Item.solutions at mem
    dsimp only at mem
    split at mem
    · rw [List.mem_singleton.1 mem, bound]
    · exact triple_keeps mem bound

theorem item_binds {paths : List (Path × Place)} (some_ : paths ≠ []) {solution result : Solution}
    (mem : result ∈ Item.solutions prologue quads (.triples (.var name) paths) solution) : BindsNode name result := by
  obtain ⟨entry, rest, rfl⟩ := List.exists_cons_of_ne_nil some_
  apply fold_brings _ (BindsNode name) List.mem_cons_self _ _ _ result mem
  · exact fun _ _ there => triple_binds there
  · intro _ _ _ held _ there
    obtain ⟨value, bound, node⟩ := held
    exact ⟨value, triple_keeps there bound, node⟩

variable {regex : String → String → Bool} {data : Dataset} {body : Body}

theorem mem_blockSolutions {place : Place} {items : List Item} {solution result : Solution}
    (mem : result ∈ blockSolutions prologue data place items solution) :
    ∃ graph here, place.meet (.named graph) solution = some here ∧
      result ∈ items.foldl (fun found item => found.flatMap (item.solutions prologue (quadsOf data graph))) [here] := by
  unfold blockSolutions at mem
  obtain ⟨graph, _, mem⟩ := List.mem_flatMap.1 mem
  obtain ⟨here, meets, mem⟩ := List.mem_flatMap.1 mem
  exact ⟨graph, here, Option.mem_toList.1 meets, mem⟩

theorem element_keeps {element : Element} {solution result : Solution} (held : BindsNode name solution)
    (mem : result ∈ element.solutions prologue data solution) : BindsNode name result := by
  cases element with
  | graph place items =>
    obtain ⟨graph, here, meets, mem⟩ := mem_blockSolutions mem
    apply fold_keeps _ (BindsNode name) (fun _ _ _ held _ there => item_keeps held there) _ result mem
    intro other there
    obtain ⟨value, bound, node⟩ := held
    rw [List.mem_singleton.1 there]
    exact ⟨value, meet_keeps meets bound, node⟩
  | absent | equals | found | before | never =>
    rw [List.mem_singleton.1 mem]
    exact held

/-- A variable that is the subject of some triples is bound to nodes only. -/
theorem answers_nodes {place : Place} {items : List Item} {paths : List (Path × Place)}
    (block : some (.graph place items) ∈ body) (item : .triples (.var name) paths ∈ items) (some_ : paths ≠ []) :
    ∀ value ∈ body.answers regex prologue data name, IsNode value := by
  intro value mem
  obtain ⟨solution, there, bound⟩ := mem_answers.1 mem
  have each : BindsNode name solution := by
    have among : .graph place items ∈ body.reduceOption := List.reduceOption_mem_iff.2 block
    apply fold_brings _ (BindsNode name) among _ _ _ solution (List.mem_filter.1 there).1
    · intro before result here
      obtain ⟨graph, from_, _, here⟩ := mem_blockSolutions here
      exact fold_brings _ (BindsNode name) item (fun _ _ there => item_binds some_ there) (fun _ _ _ held _ there => item_keeps held there) _ result here
    · exact fun _ _ _ held _ there => element_keeps held there
  obtain ⟨other, same, node⟩ := each
  rw [bound] at same
  cases same
  exact node

end Binding

theorem unquote_of_denotes {spelled value : String} (denotes : Sparql.Denotes spelled.toList value.toList) :
    unquote spelled = some value := by
  obtain ⟨resolved, resolves, reads, _⟩ := denotes.reads
  unfold unquote
  rw [resolves, show Sparql.points ['"'] = ['"'] from by decide, reads, Option.map_some, String.ofList_toList]

end ToolArtifactRegistry.Library.Queries
