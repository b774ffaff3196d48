import ToolArtifactRegistry.Api.Facets
import ToolArtifactRegistry.Laws.Paging

/-! A facet counts software by what it carries, the listing asks for more: a name in the same graph, no
tombstone, and a value of the kind its filter looks for. -/
namespace ToolArtifactRegistry.Laws

open Library.Rdf Library.Queries Ids Domain Api.Listing Api.Paging
open Api.Facets (Facet rowText reported Ordered)

section Counting

variable {regex : String → String → Bool} {data : Dataset}

/-- A graph gives a term the type of software. -/
def TypedIn (data : Dataset) (graph : String) (value : Term) : Prop :=
  States data graph value [rdfType] (.named Software.typeSoftware)

def NamedIn (data : Dataset) (graph : String) (value : Term) : Prop :=
  ∃ name, States data graph value [Ns.t Ns.schema "name"] name

def Retired (data : Dataset) (value : Term) : Prop :=
  ∃ graph, States data graph value [Ns.t Ns.tar "tombstoned"] (.literal "true" xsdBoolean none)

/-- The predicates of a facet. -/
def predicates (facet : Facet) : List String := facet.verbs.map (Verb.iri vocabulary)

/-- What a filter with this value looks for. -/
def sought (facet : Facet) (value : String) : Term :=
  match facet with
  | .kind => .simple value
  | .license | .topic => .named value

/-- The software counted for a term. -/
def carriers (regex : String → String → Bool) (data : Dataset) (facet : Facet) (term : Term) : List Term :=
  facet.body.within regex vocabulary data "s" "v" term

/-- The software listed with a filter set to a text. -/
def foundUnder (regex : String → String → Bool) (data : Dataset) (facet : Facet) (value : String) : List Term :=
  (softwareStem (facet.filter value)).answers regex vocabulary data "s"

/-- A first pattern, in a graph that is bound, gives the subject its type. -/
theorem typed_solutions {graph iri : String} {solution result : Solution} (free : solution "s" = none) :
    result ∈ Triple.solutions vocabulary (quadsOf data graph) ⟨s, .either [.a], .iri iri⟩ solution ↔
      ∃ value, States data graph value [rdfType] (.named iri) ∧ result = solution.bind "s" value := by
  rw [mem_triple]
  constructor
  · rintro ⟨value, reached, here, stated, meets, met⟩
    rw [s, meet_free free, Option.some.injEq] at meets
    rw [iri_fixed, Option.ite_none_right_eq_some, Option.some.injEq] at met
    obtain ⟨rfl, rfl⟩ := met
    exact ⟨value, stated, meets.symm⟩
  · rintro ⟨value, stated, rfl⟩
    exact ⟨value, .named iri, _, stated, meet_free free, by rw [iri_fixed, if_pos rfl]⟩

/-- And a second one binds a variable to something it has. -/
theorem mem_bound {graph name : String} {verbs : List Verb} {value : Term} {solution result : Solution}
    (bound : solution "s" = some value) (free : solution name = none) :
    result ∈ Triple.solutions vocabulary (quadsOf data graph) ⟨s, .either verbs, .var name⟩ solution ↔
      ∃ term, States data graph value (verbs.map (Verb.iri vocabulary)) term ∧ result = solution.bind name term := by
  rw [mem_triple]
  constructor
  · rintro ⟨start, reached, here, stated, meets, met⟩
    rw [s, meet_bound bound, Option.ite_none_right_eq_some, Option.some.injEq] at meets
    obtain ⟨rfl, rfl⟩ := meets
    rw [meet_free free, Option.some.injEq] at met
    exact ⟨reached, stated, met.symm⟩
  · rintro ⟨term, stated, rfl⟩
    exact ⟨value, term, solution, stated, by rw [s, meet_bound bound, if_pos rfl], meet_free free⟩

/-- What a solution of the facet's query binds. -/
theorem mem_facet {facet : Facet} {result : Solution} :
    result ∈ facet.body.solutions regex vocabulary data ↔
      ∃ graph value term, TypedIn data graph value ∧ States data graph value (predicates facet) term ∧
        result = ((Solution.unbound.bind "g" (.named graph)).bind "s" value).bind "v" term := by
  have block : List.reduceOption facet.body =
      [.graph (.var "g") [.triples s [Api.Paging.typed Software.typeSoftware, (.either facet.verbs, .var "v")]]] := rfl
  rw [mem_solutions, block]
  constructor
  · rintro ⟨⟨next, inBlock, rfl⟩, _⟩
    obtain ⟨graph, _, here, meets, last, inItem, rfl⟩ := mem_block.1 inBlock
    rw [meet_free rfl, Option.some.injEq] at meets
    subst meets
    obtain ⟨first, typed_, second, carried, rfl⟩ := mem_item.1 inItem
    obtain ⟨value, stated, rfl⟩ := (typed_solutions rfl).1 typed_
    obtain ⟨term, carries, rfl⟩ := (mem_bound rfl rfl).1 carried
    exact ⟨graph, value, term, stated, carries, rfl⟩
  · rintro ⟨graph, value, term, stated, carries, rfl⟩
    refine ⟨⟨_, mem_block.2 ⟨graph, mem_graphs stated, _, meet_free rfl, _, mem_item.2 ⟨_, (typed_solutions rfl).2 ⟨value, stated, rfl⟩, _,
      (mem_bound rfl rfl).2 ⟨term, carries, rfl⟩, rfl⟩, rfl⟩, rfl⟩, ?_⟩
    intro element mem
    rw [List.mem_singleton.1 mem]
    rfl

theorem mem_carriers {facet : Facet} {term value : Term} :
    value ∈ carriers regex data facet term ↔
      ∃ graph, TypedIn data graph value ∧ States data graph value (predicates facet) term := by
  rw [carriers, mem_within]
  constructor
  · rintro ⟨solution, mem, here, there⟩
    obtain ⟨graph, other, found, stated, carries, rfl⟩ := mem_facet.1 mem
    cases here
    cases there
    exact ⟨graph, stated, carries⟩
  · rintro ⟨graph, stated, carries⟩
    exact ⟨_, mem_facet.2 ⟨graph, value, term, stated, carries, rfl⟩, rfl, rfl⟩

theorem carriers_nodup (facet : Facet) (term : Term) : (carriers regex data facet term).Nodup := List.nodup_dedup _

/-- What the block all software listings begin with binds. -/
theorem softwareBlock_binds {result : Solution} (mem : result ∈ softwareBlock.solutions vocabulary data .unbound) :
    ∃ graph value, TypedIn data graph value ∧ NamedIn data graph value ∧
      result "g" = some (.named graph) ∧ result "s" = some value ∧ result "tg" = none := by
  obtain ⟨graph, _, here, meets, next, inItem, tagged, inTag, described, inDesc, rfl⟩ := mem_block.1 mem
  rw [meet_free rfl, Option.some.injEq] at meets
  subst meets
  obtain ⟨first, typed_, second, offered, rfl⟩ := mem_item.1 inItem
  obtain ⟨value, stated, rfl⟩ := (typed_solutions rfl).1 typed_
  obtain ⟨name, named_, rfl⟩ := (mem_bound rfl rfl).1 offered
  refine ⟨graph, value, stated, ⟨name, named_⟩, ?_, ?_, ?_⟩
  · exact optional_keeps (optional_keeps rfl inTag) inDesc
  · exact optional_keeps (optional_keeps rfl inTag) inDesc
  · rw [optional_other (by simp [s]) (by simp) inDesc, optional_other (by simp [s]) (by simp) inTag]
    rfl

/-- And there is such a solution for what has the type and a name in one graph. -/
theorem softwareBlock_total {graph : String} {value : Term} (stated : TypedIn data graph value) (named_ : NamedIn data graph value) :
    ∃ result ∈ softwareBlock.solutions vocabulary data .unbound,
      result "g" = some (.named graph) ∧ result "s" = some value ∧ result "tg" = none := by
  obtain ⟨name, named_⟩ := named_
  obtain ⟨tagged, inTag⟩ := List.exists_mem_of_ne_nil _ (optional_total ⟨s, .either [.name "dct" "abstract", .name "tar" "tagline"],
    .var "tagline"⟩ (quadsOf data graph) (((Solution.unbound.bind "g" (.named graph)).bind "s" value).bind "name" name))
  obtain ⟨result, inDesc⟩ := List.exists_mem_of_ne_nil _ (optional_total ⟨s, one "schema" "description", .var "desc"⟩
    (quadsOf data graph) tagged)
  refine ⟨result, mem_block.2 ⟨graph, mem_graphs stated, _, meet_free rfl, _, mem_item.2 ⟨_, (typed_solutions rfl).2 ⟨value, stated, rfl⟩, _,
    (mem_bound rfl rfl).2 ⟨name, named_, rfl⟩, rfl⟩, tagged, inTag, result, inDesc, rfl⟩, ?_, ?_, ?_⟩
  · exact optional_keeps (optional_keeps rfl inTag) inDesc
  · exact optional_keeps (optional_keeps rfl inTag) inDesc
  · rw [optional_other (by simp [s]) (by simp) inDesc, optional_other (by simp [s]) (by simp) inTag]
    rfl

theorem place_fixed (facet : Facet) (value : String) :
    ∃ place : Place, place.Fixed (sought facet value) ∧ (value ≠ "" →
      (softwareStem (facet.filter value)).reduceOption =
        [softwareBlock, .absent (.var "tg") ⟨s, one "tar" "tombstoned", .yes⟩, clause (.either facet.verbs) place]) := by
  have whole (some_ : value ≠ "") : (some value).filter (fun v => v != "") = some value := by simp [some_]
  cases facet with
  | license =>
    refine ⟨.iri value, iri_fixed value, fun some_ => ?_⟩
    unfold softwareStem Facet.filter line
    rw [whole some_]
    rfl
  | topic =>
    refine ⟨.iri value, iri_fixed value, fun some_ => ?_⟩
    unfold softwareStem Facet.filter line
    rw [whole some_]
    rfl
  | kind =>
    refine ⟨Api.Paging.literal value, literal_fixed (unquote_escape value), fun some_ => ?_⟩
    unfold softwareStem Facet.filter line
    rw [whole some_]
    rfl

/-- Listed with a filter is what has its type, a name and the value in one graph, and is not withdrawn. -/
theorem mem_found {facet : Facet} {text : String} (some_ : text ≠ "") {value : Term} :
    value ∈ foundUnder regex data facet text ↔
      (∃ graph, TypedIn data graph value ∧ NamedIn data graph value ∧
        States data graph value (predicates facet) (sought facet text)) ∧ ¬Retired data value := by
  obtain ⟨place, fixed, stem⟩ := place_fixed facet text
  have asks (result : Solution) : result ∈ (softwareStem (facet.filter text)).solutions regex vocabulary data ↔
      result ∈ softwareBlock.solutions vocabulary data .unbound ∧
        result ∈ (clause (.either facet.verbs) place).solutions vocabulary data result ∧
        Element.passes regex vocabulary data (.absent (.var "tg") ⟨s, one "tar" "tombstoned", .yes⟩) result = true := by
    rw [mem_solutions, stem some_]
    constructor
    · rintro ⟨⟨first, inBlock, second, same, third, asked, rfl⟩, passes⟩
      rw [List.mem_singleton.1 same] at asked
      obtain ⟨graph, value, _, _, inGraph, bound, _⟩ := softwareBlock_binds inBlock
      obtain ⟨rfl, _⟩ := (mem_clause inGraph bound fixed).1 asked
      exact ⟨inBlock, asked, passes _ (by simp)⟩
    · rintro ⟨inBlock, asked, passes⟩
      refine ⟨⟨result, inBlock, result, List.mem_singleton.2 rfl, result, asked, rfl⟩, fun element mem => ?_⟩
      rcases List.mem_cons.1 mem with rfl | later
      · rfl
      · rcases List.mem_cons.1 later with rfl | last
        · exact passes
        · rw [List.mem_singleton.1 last]
          rfl
  rw [foundUnder, mem_answers]
  constructor
  · rintro ⟨result, mem, here⟩
    obtain ⟨inBlock, asked, passes⟩ := (asks result).1 mem
    obtain ⟨graph, other, stated, named_, inGraph, bound, free⟩ := softwareBlock_binds inBlock
    rw [here, Option.some.injEq] at bound
    subst bound
    refine ⟨⟨graph, stated, named_, ((mem_clause inGraph here fixed).1 asked).2⟩, ?_⟩
    rintro ⟨elsewhere, tombstone⟩
    exact (absent_passes free here (by simp) yes_fixed).1 passes elsewhere tombstone
  · rintro ⟨⟨graph, stated, named_, carries⟩, standing⟩
    obtain ⟨result, inBlock, inGraph, bound, free⟩ := softwareBlock_total stated named_
    refine ⟨result, (asks result).2 ⟨inBlock, (mem_clause inGraph bound fixed).2 ⟨rfl, carries⟩, ?_⟩, bound⟩
    exact (absent_passes free bound (by simp) yes_fixed).2 (fun elsewhere tombstone => standing ⟨elsewhere, tombstone⟩)

theorem found_nodup (facet : Facet) (text : String) : (foundUnder regex data facet text).Nodup := answers_nodup _ _ _ _ _

/-- A list among another is as long just when the other is among it. -/
theorem length_eq_iff {few many : List Term} (nodup : few.Nodup) (distinct : many.Nodup) (among : few ⊆ many) :
    few.length = many.length ↔ ∀ value ∈ many, value ∈ few := by
  constructor
  · intro same
    have perm := (nodup.subperm among).perm_of_length_le (Nat.le_of_eq same.symm)
    exact fun value mem => perm.mem_iff.2 mem
  · intro all
    exact Nat.le_antisymm (nodup.subperm among).length_le (distinct.subperm all).length_le

theorem total_found {platform : Platform} {base : String} {facet : Facet} {pasted : String → Option Nat} {text : String}
    (spells : facet.spells platform text = true) :
    facet.total platform regex data base pasted text = some (foundUnder regex data facet text).length := by
  rw [Facet.total, if_pos spells]
  exact congrArg some (@first_total regex data platform base (.software (facet.filter text)) none)

end Counting

section Totals

variable (regex : String → String → Bool) (data : Dataset) (platform : Platform) (base : String) (facet : Facet)

/-- The value is what its text makes the filter look for, and all that carries it is listed; a value of another kind
counts right where as much is found under its text by chance. -/
def CountsRight (term : Term) : Prop :=
  if rowText term ≠ "" ∧ term = sought facet (rowText term) then
    ∀ value ∈ carriers regex data facet term,
      (∃ graph, TypedIn data graph value ∧ NamedIn data graph value ∧ States data graph value (predicates facet) term) ∧
        ¬Retired data value
  else
    facet.spells platform (rowText term) = true ∧
      (foundUnder regex data facet (rowText term)).length = (carriers regex data facet term).length

/-- A text that stays inside the brackets it is pasted between. -/
def Bracketed (text : String) : Prop := '>' ∉ text.toList ∧ '\\' ∉ text.toList

variable {regex data platform base facet}

theorem row_count {rows : List (Term × Nat)} (ordered : Ordered regex data facet rows) {row : Term × Nat}
    (mem : row ∈ reported rows) :
    row.1 ∈ facet.body.answers regex vocabulary data "v" ∧ row.2 = (carriers regex data facet row.1).length := by
  have held := ordered.all.mem_iff.1 (List.mem_of_mem_take mem)
  obtain ⟨term, answer, rfl⟩ := List.mem_map.1 held
  exact ⟨answer, rfl⟩

theorem answer_carried {term : Term} (answer : term ∈ facet.body.answers regex vocabulary data "v") :
    0 < (carriers regex data facet term).length ∧ ∃ quad ∈ data.quads, quad.object = term := by
  constructor
  · apply within_pos (fun solution mem => ?_) answer
    obtain ⟨graph, value, other, _, _, rfl⟩ := mem_facet.1 mem
    exact ⟨value, rfl⟩
  · obtain ⟨solution, mem, here⟩ := mem_answers.1 answer
    obtain ⟨graph, value, other, _, ⟨quad, held, _, _, _, ends⟩, rfl⟩ := mem_facet.1 mem
    cases here
    exact ⟨quad, held, ends⟩

theorem sought_spells {term : Term} (valid : ∀ quad ∈ data.quads, (iriOf quad.object).all platform.validIri = true)
    (held : ∃ quad ∈ data.quads, quad.object = term) (same : term = sought facet (rowText term)) :
    facet.spells platform (rowText term) = true := by
  obtain ⟨quad, mem, ends⟩ := held
  cases facet with
  | kind => rfl
  | license | topic =>
    have parses := valid quad mem
    rw [ends, same] at parses
    have parses : platform.validIri (rowText term) = true := parses
    simp [Facet.spells, parses]

/-- A reported count is the total of the listing it is a filter of exactly when the value counts right. -/
theorem facet_total_iff (regex : String → String → Bool) (data : Dataset) (platform : Platform) (base : String) (facet : Facet)
    (valid : ∀ quad ∈ data.quads, (iriOf quad.object).all platform.validIri = true)
    (pasted : String → Option Nat)
    (refused : ∀ text, Bracketed text → platform.validIri text = false → ∀ n, pasted text = some n → n = 0)
    (rows : List (Term × Nat)) (ordered : Ordered regex data facet rows) :
    ∀ row ∈ reported rows,
      (CountsRight regex data platform facet row.1 → facet.total platform regex data base pasted (rowText row.1) = some row.2) ∧
      (facet.spells platform (rowText row.1) = true ∨ Bracketed (rowText row.1) →
        facet.total platform regex data base pasted (rowText row.1) = some row.2 → CountsRight regex data platform facet row.1) := by
  intro row mem
  obtain ⟨answer, count⟩ := row_count ordered mem
  obtain ⟨positive, held⟩ := answer_carried answer
  rw [count]
  unfold CountsRight
  by_cases looked : rowText row.1 ≠ "" ∧ row.1 = sought facet (rowText row.1)
  · rw [if_pos looked, total_found (sought_spells valid held looked.2), Option.some.injEq]
    have found {value : Term} := @mem_found regex data facet (rowText row.1) looked.1 value
    rw [← looked.2] at found
    have among : foundUnder regex data facet (rowText row.1) ⊆ carriers regex data facet row.1 := by
      intro value inFound
      obtain ⟨⟨graph, stated, _, carries⟩, _⟩ := found.1 inFound
      exact mem_carriers.2 ⟨graph, stated, carries⟩
    rw [length_eq_iff (found_nodup _ _) (carriers_nodup _ _) among]
    exact ⟨fun right value inCarriers => found.2 (right value inCarriers),
      fun _ all value inCarriers => found.1 (all value inCarriers)⟩
  · rw [if_neg looked]
    constructor
    · rintro ⟨spells, same⟩
      rw [total_found spells, same]
    · intro readable right
      cases spells : facet.spells platform (rowText row.1) with
      | true =>
        rw [total_found spells, Option.some.injEq] at right
        exact ⟨rfl, right⟩
      | false =>
        have enclosed : Bracketed (rowText row.1) := by
          rcases readable with spelled | enclosed
          · rw [spells] at spelled
            cases spelled
          · exact enclosed
        have invalid : platform.validIri (rowText row.1) = false := by
          cases facet <;> simp_all [Facet.spells]
        rw [Facet.total, spells, if_neg Bool.false_ne_true] at right
        have none_ := refused (rowText row.1) enclosed invalid _ right
        omega

end Totals

section Specimen

open Specimen

def licensed (name : String) : List Quad :=
  [⟨.named name, Ns.rdfType, .named Software.typeSoftware, Ns.gLocal⟩,
    ⟨.named name, Ns.t Ns.schema "name", .simple "Tool", Ns.gLocal⟩,
    ⟨.named name, Ns.t Ns.dct "license", .named "http://mit", Ns.gLocal⟩]

def oneLicensed : Dataset where
  quads := licensed "http://reg.example/software/one"
  nodup := by decide

/-- The second of two is withdrawn. -/
def oneWithdrawn : Dataset where
  quads := licensed "http://reg.example/software/one" ++ licensed "http://reg.example/software/two" ++
    [⟨.named "http://reg.example/software/two", Ns.t Ns.tar "tombstoned", .literal "true" xsdBoolean none, Ns.gLocal⟩]
  nodup := by decide

theorem one_licensed_total :
    Facet.license.total (platform []) (fun _ _ => false) oneLicensed "http://reg.example" (fun _ => none) "http://mit" = some 1 := by
  have rows : Facet.license.body.groups (fun _ _ => false) vocabulary oneLicensed "s" "v" = [(.named "http://mit", 1)] := by
    decide
  have ordered : Ordered (fun _ _ => false) oneLicensed .license [(.named "http://mit", 1)] :=
    ⟨by rw [rows], List.pairwise_singleton _ _⟩
  have listed : ∀ value ∈ carriers (fun _ _ => false) oneLicensed .license (.named "http://mit"),
      value ∈ foundUnder (fun _ _ => false) oneLicensed .license "http://mit" := by
    decide
  have right : CountsRight (fun _ _ => false) oneLicensed (platform []) .license (.named "http://mit") := by
    rw [CountsRight, if_pos (by decide)]
    exact fun value mem => (mem_found (by decide)).1 (listed value mem)
  have refused : ∀ text, Bracketed text → (platform []).validIri text = false → ∀ n, (none : Option Nat) = some n → n = 0 := by
    intro _ _ _ _ none_
    cases none_
  exact (facet_total_iff (fun _ _ => false) oneLicensed (platform []) "http://reg.example" .license (by decide)
    (fun _ => none) refused _ ordered _ (List.mem_singleton.2 rfl)).1 right

theorem withdrawn_counted :
    Facet.license.body.groups (fun _ _ => false) vocabulary oneWithdrawn "s" "v" = [(.named "http://mit", 2)] ∧
      Facet.license.total (platform []) (fun _ _ => false) oneWithdrawn "http://reg.example" (fun _ => none) "http://mit" = some 1 := by
  decide

end Specimen

end ToolArtifactRegistry.Laws
