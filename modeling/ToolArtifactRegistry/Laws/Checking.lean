import ToolArtifactRegistry.Domain.Digest
import ToolArtifactRegistry.Domain.Footprint
import ToolArtifactRegistry.Laws.Identifying
import ToolArtifactRegistry.Laws.Specimen

/-! Digests are judged on the quads a write is made of. The algorithm goes there as the end of an IRI and is read back
from it, and what does not get that far is not judged. -/
namespace ToolArtifactRegistry.Laws

open Library.Rdf Library.Text Ids Model Store Rdf Build Domain Domain.Digest
open Domain.Content (Algorithm algorithms algorithm normalise)

namespace Checking

/-- The IRI the text of an algorithm is pasted into. -/
def algorithmIri (name : String) : String := Ns.spdx ++ "checksumAlgorithm_" ++ name

/-- What is read back from it. -/
def readBack (name : String) : String :=
  Artifact.trimPrefix "checksumAlgorithm_" (algorithmIri name).length (iriTail (algorithmIri name))

/-- A value that is a digest of the algorithm named. -/
def SoundDigest (name value : String) : Prop := ∃ alg bytes, Denotes name value alg bytes

/-- A value that is not one, of an algorithm that is recognised. -/
def Malformed (name value : String) : Prop := (algorithm name).isSome = true ∧ ¬SoundDigest name value

/-- Which texts are IRIs, as far as spellings of algorithms go. -/
structure IriSyntax (platform : Platform) : Prop where
  word : ∀ name : String, (∀ c ∈ name.toList, c.isAlphanum = true ∨ c = '-' ∨ c = '_') →
    platform.validIri (algorithmIri name) = true
  space : ∀ iri : String, ' ' ∈ iri.toList → platform.validIri iri = false

section Spellings

def lowerAlnum : List Char := "abcdefghijklmnopqrstuvwxyz0123456789".toList

theorem lower_separator {c sep : Char} (among : sep ∈ ['-', '_', ' ']) (same : asciiLower c = sep) : c = sep := by
  unfold asciiLower at same
  split at same
  · rename_i letter
    have low : 65 ≤ c.toNat := letter.1
    have high : c.toNat ≤ 90 := letter.2
    have all : ∀ n < 26, ∀ sep ∈ ['-', '_', ' '], Char.ofNat (65 + n + 32) ≠ sep := by decide
    have absurd_ := all (c.toNat - 65) (by omega) sep among
    rw [show 65 + (c.toNat - 65) + 32 = c.toNat + 32 by omega] at absurd_
    exact absurd same absurd_
  · exact same

theorem isAlphanum_of_lower {c : Char} (known : asciiLower c ∈ lowerAlnum) : c.isAlphanum = true := by
  unfold asciiLower at known
  split at known
  · rename_i letter
    have upper : c.isUpper = true := by
      unfold Char.isUpper
      simp only [decide_eq_true_eq]
      exact ⟨letter.1, letter.2⟩
    show (c.isUpper || c.isLower || c.isDigit) = true
    rw [upper]
    rfl
  · have all : ∀ c ∈ lowerAlnum, c.isAlphanum = true := by decide
    exact all c known

theorem algorithm_normal {name : String} {alg : Algorithm} (found : algorithm name = some alg) :
    normalise alg.name = normalise name ∨ normalise name ∈ alg.aliases := by
  unfold algorithm at found
  have kept := List.find?_some found
  simpa only [decide_eq_true_eq] using kept

/-- A spelling that is recognised is made of letters, digits and what is passed over. -/
theorem spelling_chars {name : String} (known : (algorithm name).isSome = true) :
    ∀ c ∈ name.toList, c.isAlphanum = true ∨ c = '-' ∨ c = '_' ∨ c = ' ' := by
  intro c mem
  obtain ⟨alg, found⟩ := Option.isSome_iff_exists.1 known
  have normal := algorithm_normal found
  have spelled : ∀ alg ∈ algorithms, (∀ c ∈ (normalise alg.name).toList, c ∈ lowerAlnum) ∧
      ∀ other ∈ alg.aliases, ∀ c ∈ other.toList, c ∈ lowerAlnum := by decide
  have plain : ∀ c ∈ (normalise name).toList, c ∈ lowerAlnum := by
    rcases normal with same | listed
    · rw [← same]
      exact (spelled alg (algorithm_mem found)).1
    · exact (spelled alg (algorithm_mem found)).2 _ listed
  by_cases passed : asciiLower c = '-' ∨ asciiLower c = '_' ∨ asciiLower c = ' '
  · rcases passed with dash | low | blank
    · exact Or.inr (Or.inl (lower_separator (by decide) dash))
    · exact Or.inr (Or.inr (Or.inl (lower_separator (by decide) low)))
    · exact Or.inr (Or.inr (Or.inr (lower_separator (by decide) blank)))
  · left
    apply isAlphanum_of_lower
    apply plain
    rw [normalise, String.toList_ofList, List.mem_filter, toList_lower]
    refine ⟨List.mem_map_of_mem mem, ?_⟩
    simp only [not_or] at passed
    simp [passed]

/-- No spelling that is recognised begins like the end of the IRI it is pasted into. -/
theorem spelling_begins {name rest : String} (known : (algorithm name).isSome = true) : name ≠ "checksumAlgorithm_" ++ rest := by
  intro same
  obtain ⟨alg, found⟩ := Option.isSome_iff_exists.1 known
  have normal := algorithm_normal found
  have begins : (normalise name).toList.head? = some 'c' := by
    rw [same, normalise, String.toList_ofList, toList_lower, String.toList_append, List.map_append, List.filter_append]
    have first : ("checksumAlgorithm_".toList.map asciiLower).filter (fun c => c != '-' && c != '_' && c != ' ') =
        'c' :: "hecksumalgorithm".toList := by decide
    rw [first]
    rfl
  have others : ∀ alg ∈ algorithms, (normalise alg.name).toList.head? ≠ some 'c' ∧
      ∀ other ∈ alg.aliases, other.toList.head? ≠ some 'c' := by decide
  rcases normal with alike | listed
  · rw [← alike] at begins
    exact (others alg (algorithm_mem found)).1 begins
  · exact (others alg (algorithm_mem found)).2 _ listed begins

/-- A spelling that is recognised is read back as it was given. -/
theorem readBack_spelling {name : String} (known : (algorithm name).isSome = true) : readBack name = name := by
  have clean : ∀ c ∈ ("checksumAlgorithm_" ++ name).toList, (c == '#' || c == '/') = false := by
    intro c mem
    rw [String.toList_append, List.mem_append] at mem
    rcases mem with fixed | given
    · have all : ∀ c ∈ "checksumAlgorithm_".toList, (c == '#' || c == '/') = false := by decide
      exact all c fixed
    · rcases spelling_chars known c given with word | rfl | rfl | rfl
      · by_contra sep
        simp only [Bool.not_eq_false, Bool.or_eq_true, beq_iff_eq] at sep
        rcases sep with rfl | rfl
        · revert word
          decide
        · revert word
          decide
      · decide
      · decide
      · decide
  have tail : iriTail (algorithmIri name) = "checksumAlgorithm_" ++ name := by
    have letters : (algorithmIri name).toList =
        "http://spdx.org/rdf/terms".toList ++ '#' :: ("checksumAlgorithm_" ++ name).toList := by
      unfold algorithmIri Ns.spdx
      simp only [String.toList_append, List.append_assoc]
      rfl
    unfold iriTail split
    rw [letters, piecesOn_append_sep _ _ _ '#' (by decide), piecesOn_of_forall _ _ clean, List.map_append,
      List.reverse_append]
    have some_ : ("checksumAlgorithm_" ++ name != "") = true := by
      rw [bne_iff_ne]
      intro none_
      have letters := congrArg String.toList none_
      rw [String.toList_append] at letters
      cases letters
    rw [List.map_singleton, String.ofList_toList, List.reverse_singleton, List.singleton_append, List.find?_cons, some_]
    rfl
  have kept (fuel : Nat) : Artifact.trimPrefix "checksumAlgorithm_" fuel name = name := by
    cases fuel with
    | zero => rfl
    | succ fuel =>
      have stays : stripPrefix name "checksumAlgorithm_" = none := by
        rw [Option.eq_none_iff_forall_ne_some]
        intro rest stripped
        exact spelling_begins known (stripPrefix_eq_some.1 stripped)
      rw [Artifact.trimPrefix, stays]
  have long : (algorithmIri name).length = ((algorithmIri name).length - 1) + 1 := by
    have letters : (algorithmIri name).length = Ns.spdx.length + 18 + name.length := by
      unfold algorithmIri
      rw [String.length_append, String.length_append]
      rfl
    omega
  unfold readBack
  rw [tail, long, Artifact.trimPrefix, stripPrefix_append]
  exact kept _

/-- The IRI of a spelling that is recognised parses just when there is no space in it. -/
theorem validIri_spelling {platform : Platform} (syntax_ : IriSyntax platform) {name : String}
    (known : (algorithm name).isSome = true) : platform.validIri (algorithmIri name) = true ↔ ' ' ∉ name.toList := by
  constructor
  · intro valid blank
    have refused := syntax_.space (algorithmIri name)
      (by rw [algorithmIri, String.toList_append]; exact List.mem_append_right _ blank)
    rw [refused] at valid
    cases valid
  · intro spaceless
    apply syntax_.word
    intro c mem
    rcases spelling_chars known c mem with word | dash | low | blank
    · exact Or.inl word
    · exact Or.inr (Or.inl dash)
    · exact Or.inr (Or.inr low)
    · exact absurd (blank ▸ mem) spaceless

end Spellings

section Silent

/-- The predicates a digest is read from. -/
def readFrom : List String := [Ns.spdx ++ "algorithm", Ns.spdx ++ "checksumValue"]

/-- Nothing a digest is read from. -/
def Digestless (quads : List Quad) : Prop := ∀ quad ∈ quads, quad.predicate ∉ readFrom

theorem digestless_nil : Digestless [] := by
  intro _ absent
  cases absent

theorem digestless_append {left right : List Quad} (one : Digestless left) (other : Digestless right) : Digestless (left ++ right) := by
  intro quad mem
  rcases List.mem_append.1 mem with first | second
  · exact one quad first
  · exact other quad second

theorem digestless_finish {subject : Node} {graph : String} {vocabulary : List String} {statements : List Statement}
    (speaks : Speaks vocabulary statements) (free : ∀ predicate ∈ vocabulary, predicate ∉ readFrom) :
    Digestless (finish subject graph statements) :=
  fun _ mem => free _ (speaks _ (mem_finish.1 mem).2.2)

variable {platform : Platform} {base : String}

theorem digestless_agent {draw : Draw} {agent : AgentIn} : Digestless (agentQuads platform base draw agent).2 := by
  unfold agentQuads
  split
  · exact digestless_nil
  · exact digestless_finish (Footprint.agent_speaks platform agent) (by decide)
  · exact digestless_nil

theorem digestless_optAgent {draw : Draw} {agent : Option AgentIn} : Digestless (optAgent platform base draw agent).2 := by
  cases agent with
  | none => exact digestless_nil
  | some agent => exact digestless_agent

theorem digestless_agentList {draw : Draw} {agents : List AgentIn} :
    Digestless ((Artifact.agentList platform base draw agents).flatMap Prod.snd) := by
  intro quad mem
  obtain ⟨written, listed, inside⟩ := List.mem_flatMap.1 mem
  obtain ⟨place, bound, rfl⟩ := List.mem_mapIdx.1 listed
  exact digestless_agent quad inside

theorem digestless_qualified {iri role : String} {draw : Draw} {agent : Option AgentIn} :
    Digestless (Artifact.qualified platform iri role (optAgent platform base draw agent)).2 := by
  unfold Artifact.qualified
  split
  · exact digestless_append digestless_optAgent (digestless_finish (Footprint.qualified_speaks platform _ role) (by decide))
  · exact digestless_nil

theorem digestless_delegation {system user : Option String} : Digestless (Artifact.delegationQuads platform system user) := by
  unfold Artifact.delegationQuads
  split
  · rename_i _ person
    have speaks : Speaks [Ns.t Ns.prov "actedOnBehalfOf"] (link platform Ns.prov "actedOnBehalfOf" person) :=
      speaks_link platform _ (List.mem_singleton_self _)
    exact digestless_finish speaks (by decide)
  · exact digestless_nil

theorem digestless_content {checksum : Option ChecksumIn} : Digestless (Artifact.contentQuads platform checksum) := by
  unfold Artifact.contentQuads
  split
  · have speaks : Speaks [Ns.rdfType] (a Artifact.typeEntity) := speaks_a _ (List.mem_singleton_self _)
    exact digestless_finish speaks (by decide)
  · exact digestless_nil

/-- The distribution of an input at this place has this checksum. -/
def Carries (input : ArtifactIn) (place : Nat) (checksum : ChecksumIn) : Prop :=
  input.distributions[place]?.bind DistributionIn.checksum = some checksum

/-- The node of the checksum at a place. -/
def nodeAt (draw : Draw) (place : Nat) : Node := Artifact.checksumNode ((draw.site 7).site place)

/-- Of the quads an artifact is written with, those a digest is read from are about its checksums. -/
theorem mem_readFrom {iri actor : String} {draw : Draw} {input : ArtifactIn} {runIri : Option String} {quad : Quad}
    (read : quad.predicate ∈ readFrom) :
    quad ∈ Artifact.artifactQuads platform base iri draw input actor runIri ↔
      ∃ place checksum, Carries input place checksum ∧
        quad ∈ finish (nodeAt draw place) Ns.gLocal (Artifact.checksumStatements platform checksum) := by
  constructor
  · intro mem
    unfold Artifact.artifactQuads at mem
    simp only [List.mem_append] at mem
    rcases mem with ((((((((system | user) | delegation) | series) | publisher) | creators) | contributors) | contact) |
      distributions) | own
    · exact absurd read (digestless_qualified quad system)
    · exact absurd read (digestless_qualified quad user)
    · exact absurd read (digestless_delegation quad delegation)
    · exact absurd read (digestless_finish (Footprint.series_speaks input) (by decide) quad series)
    · exact absurd read (digestless_optAgent quad publisher)
    · exact absurd read (digestless_agentList quad creators)
    · exact absurd read (digestless_agentList quad contributors)
    · exact absurd read (digestless_optAgent quad contact)
    · obtain ⟨entry, minted, inside⟩ := List.mem_flatMap.1 distributions
      obtain ⟨place, bound, rfl⟩ := List.mem_mapIdx.1 minted
      unfold Artifact.distributionQuads at inside
      simp only [List.mem_append] at inside
      rcases inside with (described | checksum) | content
      · exact absurd read (digestless_finish (Footprint.distribution_speaks platform _ _) (by decide) quad described)
      · unfold Artifact.checksumQuads at checksum
        split at checksum
        · rename_i given held
          refine ⟨place, given, ?_, checksum⟩
          rw [Carries, List.getElem?_eq_getElem bound, Option.bind_some]
          exact held
        · cases checksum
      · exact absurd read (digestless_content quad content)
    · exact absurd read (digestless_finish (Footprint.artifact_speaks platform base iri draw input actor runIri)
        (by decide +kernel) quad own)
  · intro carried
    obtain ⟨place, checksum, carries, mem⟩ := carried
    obtain ⟨d, found, held⟩ := Option.bind_eq_some_iff.1 carries
    obtain ⟨bound, same⟩ := List.getElem?_eq_some_iff.1 found
    unfold Artifact.artifactQuads
    apply List.mem_append_left
    apply List.mem_append_right
    refine List.mem_flatMap.2 ⟨_, List.mem_mapIdx.2 ⟨place, bound, rfl⟩, ?_⟩
    unfold Artifact.distributionQuads
    apply List.mem_append_left
    apply List.mem_append_right
    rw [same, held]
    exact mem

end Silent

section Reading

/-- A key that was inserted with one value only has that value. -/
theorem lastOf_iff {α : Type} {pairs : List (String × α)} {key : String}
    (one : ∀ first second, (key, first) ∈ pairs → (key, second) ∈ pairs → first = second) (value : α) :
    lastOf pairs key = some value ↔ (key, value) ∈ pairs := by
  unfold lastOf
  rw [Option.map_eq_some_iff]
  constructor
  · intro held
    obtain ⟨pair, found, same⟩ := held
    have named : pair.1 = key := by simpa using List.find?_some found
    rw [← same, ← named]
    exact List.mem_reverse.1 (List.mem_of_find?_eq_some found)
  · intro mem
    cases found : pairs.reverse.find? (fun pair => pair.1 == key) with
    | none =>
      have missed := List.find?_eq_none.1 found (key, value) (List.mem_reverse.2 mem)
      simp at missed
    | some pair =>
      have named : pair.1 = key := by simpa using List.find?_some found
      have listed := List.mem_reverse.1 (List.mem_of_find?_eq_some found)
      refine ⟨pair, rfl, one _ _ ?_ mem⟩
      rw [← named]
      exact listed

theorem mem_checksumsIn {quads : List Quad} {key name value : String} :
    (key, name, value) ∈ checksumsIn quads ↔
      lastOf (valuesIn quads) key = some value ∧ lastOf (algorithmsIn quads) key = some name := by
  unfold checksumsIn
  rw [List.mem_mergeSort, List.mem_filterMap]
  constructor
  · intro listed
    obtain ⟨subject, _, built⟩ := listed
    obtain ⟨held, valued, rest⟩ := Option.bind_eq_some_iff.1 built
    obtain ⟨named, algorithmic, same⟩ := Option.bind_eq_some_iff.1 rest
    have parts := Option.some.inj same
    rw [Prod.mk.injEq, Prod.mk.injEq] at parts
    rw [← parts.1, ← parts.2.1, ← parts.2.2]
    exact ⟨valued, algorithmic⟩
  · intro both
    refine ⟨key, ?_, ?_⟩
    · obtain ⟨pair, found, same⟩ := Option.map_eq_some_iff.1 both.1
      have named : pair.1 = key := by simpa using List.find?_some found
      rw [List.mem_eraseDups, ← named]
      exact List.mem_map_of_mem (List.mem_reverse.1 (List.mem_of_find?_eq_some found))
    · rw [both.1, both.2]
      rfl

variable {platform : Platform} {base iri actor : String} {draw : Draw} {input : ArtifactIn} {runIri : Option String}

/-- The key of the checksum at a place. -/
def keyAt (draw : Draw) (place : Nat) : String := subjectKey (nodeAt draw place)

theorem keyAt_inj (apart : Function.Injective draw.blank) {place other : Nat} (same : keyAt draw place = keyAt draw other) :
    place = other := by
  have labels : "_:" ++ draw.blank [7, place] = "_:" ++ draw.blank [7, other] := same
  rw [String.append_right_inj] at labels
  have paths := apart labels
  simpa using paths

theorem mem_algorithm {checksum : ChecksumIn} {object : Term} :
    (Ns.spdx ++ "algorithm", object) ∈ Artifact.checksumStatements platform checksum ↔
      object = if platform.validIri (algorithmIri checksum.algorithm) = true then .named (algorithmIri checksum.algorithm)
        else .simple (algorithmIri checksum.algorithm) := by
  have some_ : algorithmIri checksum.algorithm ≠ "" := by
    intro none_
    have letters := congrArg String.toList none_
    unfold algorithmIri Ns.spdx at letters
    rw [String.toList_append, String.toList_append] at letters
    cases letters
  have typed : Ns.spdx ++ "algorithm" ≠ Ns.rdfType := by decide
  have other : Ns.spdx ++ "algorithm" ≠ Ns.spdx ++ "checksumValue" := by decide
  unfold Artifact.checksumStatements link text
  rw [← algorithmIri, if_neg some_]
  split <;> split <;> simp [a, Ns.t, typed, other]

theorem mem_checksumValue {checksum : ChecksumIn} {object : Term} :
    (Ns.spdx ++ "checksumValue", object) ∈ Artifact.checksumStatements platform checksum ↔
      checksum.value ≠ "" ∧ object = .simple checksum.value := by
  have typed : Ns.spdx ++ "checksumValue" ≠ Ns.rdfType := by decide
  have other : Ns.spdx ++ "checksumValue" ≠ Ns.spdx ++ "algorithm" := by decide
  unfold Artifact.checksumStatements
  rw [List.mem_append, List.mem_append]
  have linked : (Ns.spdx ++ "checksumValue", object) ∉ link platform Ns.spdx "algorithm"
      (Ns.spdx ++ "checksumAlgorithm_" ++ checksum.algorithm) := by
    unfold link
    split
    · exact List.not_mem_nil
    · split <;> simp [Ns.t, other]
  unfold text
  by_cases blank : checksum.value = ""
  · simp [a, typed, linked, blank]
  · simp [a, typed, linked, blank, Ns.t]

theorem mem_algorithmsIn {key name : String} :
    (key, name) ∈ algorithmsIn (Artifact.artifactQuads platform base iri draw input actor runIri) ↔
      ∃ place checksum, Carries input place checksum ∧ platform.validIri (algorithmIri checksum.algorithm) = true ∧
        key = keyAt draw place ∧ name = readBack checksum.algorithm := by
  unfold algorithmsIn
  rw [List.mem_filterMap]
  constructor
  · intro listed
    obtain ⟨quad, mem, built⟩ := listed
    by_cases about : quad.predicate = Ns.spdx ++ "algorithm"
    · rw [if_pos about] at built
      have among : quad.predicate ∈ readFrom := by
        rw [about]
        exact List.mem_cons_self
      obtain ⟨place, checksum, carries, inside⟩ := (mem_readFrom among).1 mem
      obtain ⟨subject, _, said⟩ := mem_finish.1 inside
      rw [about, mem_algorithm] at said
      by_cases valid : platform.validIri (algorithmIri checksum.algorithm) = true
      · rw [if_pos valid] at said
        rw [said, subject] at built
        have parts := Option.some.inj built
        rw [Prod.mk.injEq] at parts
        exact ⟨place, checksum, carries, valid, parts.1.symm, parts.2.symm⟩
      · rw [if_neg valid] at said
        rw [said] at built
        cases built
    · rw [if_neg about] at built
      cases built
  · intro carried
    obtain ⟨place, checksum, carries, valid, keyed, named⟩ := carried
    refine ⟨⟨nodeAt draw place, Ns.spdx ++ "algorithm", .named (algorithmIri checksum.algorithm), Ns.gLocal⟩, ?_, ?_⟩
    · refine (mem_readFrom List.mem_cons_self).2 ⟨place, checksum, carries, mem_finish.2 ⟨rfl, rfl, ?_⟩⟩
      rw [mem_algorithm, if_pos valid]
    · rw [if_pos rfl, keyed, named]
      rfl

theorem mem_valuesIn {key value : String} :
    (key, value) ∈ valuesIn (Artifact.artifactQuads platform base iri draw input actor runIri) ↔
      ∃ place checksum, Carries input place checksum ∧ checksum.value ≠ "" ∧ key = keyAt draw place ∧
        value = checksum.value := by
  unfold valuesIn
  rw [List.mem_filterMap]
  constructor
  · intro listed
    obtain ⟨quad, mem, built⟩ := listed
    by_cases about : quad.predicate = Ns.spdx ++ "checksumValue"
    · rw [if_pos about] at built
      have among : quad.predicate ∈ readFrom := by
        rw [about]
        exact List.mem_cons_of_mem _ (List.mem_singleton_self _)
      obtain ⟨place, checksum, carries, inside⟩ := (mem_readFrom among).1 mem
      obtain ⟨subject, _, said⟩ := mem_finish.1 inside
      rw [about, mem_checksumValue] at said
      rw [said.2, subject] at built
      have parts := Option.some.inj built
      rw [Prod.mk.injEq] at parts
      exact ⟨place, checksum, carries, said.1, parts.1.symm, parts.2.symm⟩
    · rw [if_neg about] at built
      cases built
  · intro carried
    obtain ⟨place, checksum, carries, some_, keyed, valued⟩ := carried
    refine ⟨⟨nodeAt draw place, Ns.spdx ++ "checksumValue", .simple checksum.value, Ns.gLocal⟩, ?_, ?_⟩
    · refine (mem_readFrom (List.mem_cons_of_mem _ (List.mem_singleton_self _))).2
        ⟨place, checksum, carries, mem_finish.2 ⟨rfl, rfl, ?_⟩⟩
      rw [mem_checksumValue]
      exact ⟨some_, rfl⟩
    · rw [if_pos rfl, keyed, valued]
      rfl

/-- What is judged: the checksums with a value, whose algorithm became an IRI. -/
theorem mem_judged (apart : Function.Injective draw.blank) {key name value : String} :
    (key, name, value) ∈ checksumsIn (Artifact.artifactQuads platform base iri draw input actor runIri) ↔
      ∃ place checksum, Carries input place checksum ∧ checksum.value ≠ "" ∧
        platform.validIri (algorithmIri checksum.algorithm) = true ∧ key = keyAt draw place ∧
          name = readBack checksum.algorithm ∧ value = checksum.value := by
  have same {place other : Nat} {one two : ChecksumIn} (here : Carries input place one) (there : Carries input other two)
      (keys : keyAt draw place = keyAt draw other) : one = two := by
    rw [keyAt_inj apart keys] at here
    exact Option.some.inj (here.symm.trans there)
  rw [mem_checksumsIn, lastOf_iff, lastOf_iff, mem_valuesIn, mem_algorithmsIn]
  · constructor
    · intro both
      obtain ⟨⟨place, checksum, carries, some_, keyed, valued⟩, other, twin, carried, valid, keys, named⟩ := both
      have alike := same carries carried (keyed.symm.trans keys)
      rw [← alike] at valid named
      exact ⟨place, checksum, carries, some_, valid, keyed, named, valued⟩
    · intro judged
      obtain ⟨place, checksum, carries, some_, valid, keyed, named, valued⟩ := judged
      exact ⟨⟨place, checksum, carries, some_, keyed, valued⟩, place, checksum, carries, valid, keyed, named⟩
  · intro first second one two
    obtain ⟨place, checksum, carries, _, keyed, named⟩ := mem_algorithmsIn.1 one
    obtain ⟨other, twin, carried, _, keys, again⟩ := mem_algorithmsIn.1 two
    rw [named, again, same carries carried (keyed.symm.trans keys)]
  · intro first second one two
    obtain ⟨place, checksum, carries, _, keyed, valued⟩ := mem_valuesIn.1 one
    obtain ⟨other, twin, carried, _, keys, again⟩ := mem_valuesIn.1 two
    rw [valued, again, same carries carried (keyed.symm.trans keys)]

end Reading

section Findings

variable {codecs : Codecs}

theorem check_unknown {name value : String} (found : algorithm name = none) :
    check codecs name value = .error .unknownAlgorithm := by
  unfold check identify
  rw [found]

theorem check_undecoded {name value : String} {alg : Algorithm} (found : algorithm name = some alg)
    (decoded : decodeDigest codecs value alg.bytes = none) :
    check codecs name value = .error (.malformedDigest (alg.bytes * 2)) := by
  unfold check identify
  rw [found]
  dsimp only
  rw [decoded]

theorem check_decoded {name value : String} {alg : Algorithm} {raw : List UInt8} (found : algorithm name = some alg)
    (decoded : decodeDigest codecs value alg.bytes = some raw) : check codecs name value = .ok () := by
  unfold check identify
  rw [found]
  dsimp only
  rw [decoded]
  cases alg.derives <;> rfl

/-- A check speaks of a violation just when the algorithm is recognised and the value no digest of it. -/
theorem check_violation (conform : codecs.Conform) {name value : String} :
    (∃ problem, check codecs name value = .error problem ∧ severityOf problem = .violation) ↔ Malformed name value := by
  unfold Malformed
  cases found : algorithm name with
  | none =>
    rw [check_unknown found]
    constructor
    · intro spoken
      obtain ⟨problem, same, severe⟩ := spoken
      rw [← Except.error.inj same] at severe
      cases severe
    · exact fun both => absurd both.1 Bool.false_ne_true
  | some alg =>
    have long := bytes_long alg (algorithm_mem found)
    cases decoded : decodeDigest codecs value alg.bytes with
    | none =>
      rw [check_undecoded found decoded]
      constructor
      · intro _
        refine ⟨rfl, fun well => ?_⟩
        obtain ⟨other, bytes, denotes⟩ := well
        have same : alg = other := Option.some.inj (found.symm.trans denotes.algorithm)
        rw [← same] at denotes
        rw [(decodeDigest_iff conform long).2 ⟨denotes.spelled, denotes.length⟩] at decoded
        cases decoded
      · exact fun _ => ⟨_, rfl, rfl⟩
    | some raw =>
      obtain ⟨spelled, length⟩ := (decodeDigest_iff conform long).1 decoded
      rw [check_decoded found decoded]
      constructor
      · intro spoken
        obtain ⟨problem, same, _⟩ := spoken
        cases same
      · exact fun both => absurd ⟨alg, raw, found, spelled, length⟩ both.2

theorem mem_findings {quads : List Quad} {finding : Finding} : finding ∈ findings codecs quads →
    ∃ key name value problem, (key, name, value) ∈ checksumsIn quads ∧ check codecs name value = .error problem ∧
      finding.severity = severityOf problem := by
  intro mem
  unfold findings at mem
  obtain ⟨entry, listed, built⟩ := List.mem_filterMap.1 mem
  cases checked : check codecs entry.2.1 entry.2.2 with
  | ok _ =>
    rw [checked] at built
    cases built
  | error problem =>
    rw [checked] at built
    rw [← Option.some.inj built]
    exact ⟨entry.1, entry.2.1, entry.2.2, problem, listed, checked, rfl⟩

/-- Something is a violation just when something judged is malformed. -/
theorem violation_iff (conform : codecs.Conform) {quads : List Quad} :
    (∃ finding ∈ findings codecs quads, finding.severity = .violation) ↔
      ∃ key name value, (key, name, value) ∈ checksumsIn quads ∧ Malformed name value := by
  constructor
  · intro found
    obtain ⟨finding, mem, severe⟩ := found
    obtain ⟨key, name, value, problem, listed, checked, same⟩ := mem_findings mem
    exact ⟨key, name, value, listed, (check_violation conform).1 ⟨problem, checked, same ▸ severe⟩⟩
  · intro malformed
    obtain ⟨key, name, value, listed, wrong⟩ := malformed
    obtain ⟨problem, checked, severe⟩ := (check_violation conform).2 wrong
    have told : (⟨severityOf problem, key, Ns.spdx ++ "checksumValue", "PatternConstraintComponent", problem.message name,
        (lastOf (fieldHints quads) key).getD "distributions.checksum.value", some value⟩ : Finding) ∈ findings codecs quads := by
      unfold findings
      refine List.mem_filterMap.2 ⟨_, listed, ?_⟩
      dsimp only
      rw [checked]
    exact ⟨_, told, severe⟩

end Findings

/-- The checksums of an input. -/
def checksums (input : ArtifactIn) : List ChecksumIn := input.distributions.filterMap DistributionIn.checksum

theorem mem_checksums {input : ArtifactIn} {checksum : ChecksumIn} :
    checksum ∈ checksums input ↔ ∃ place, Carries input place checksum := by
  unfold checksums Carries
  rw [List.mem_filterMap]
  constructor
  · intro held
    obtain ⟨d, mem, same⟩ := held
    obtain ⟨place, bound, found⟩ := List.mem_iff_getElem.1 mem
    exact ⟨place, by rw [List.getElem?_eq_getElem bound, found, Option.bind_some, same]⟩
  · intro held
    obtain ⟨place, carries⟩ := held
    obtain ⟨d, found, same⟩ := Option.bind_eq_some_iff.1 carries
    exact ⟨d, List.mem_of_getElem? found, same⟩

/-- What is found when the quads of an input are judged: a violation where a digest is malformed, and none where all
are well formed. -/
structure Judges (findings : List Finding) (input : ArtifactIn) : Prop where
  refused : (∃ checksum ∈ checksums input, Malformed checksum.algorithm checksum.value) →
    ∃ finding ∈ findings, finding.severity = .violation
  passed : (∀ checksum ∈ checksums input, SoundDigest checksum.algorithm checksum.value) →
    ∀ finding ∈ findings, finding.severity ≠ .violation

/-- A malformed digest that is judged as one: it has a value, and its algorithm is spelled without a space, or else is
not recognised as it stands but makes an IRI from which one that is recognised is read back. -/
structure Noticed (platform : Platform) (checksum : ChecksumIn) : Prop where
  value : checksum.value ≠ ""
  spelled : (Malformed checksum.algorithm checksum.value ∧ ' ' ∉ checksum.algorithm.toList) ∨
    (algorithm checksum.algorithm = none ∧ platform.validIri (algorithmIri checksum.algorithm) = true ∧
      Malformed (readBack checksum.algorithm) checksum.value)

section Artifacts

variable {platform : Platform} {base iri actor : String} {draw : Draw} {input : ArtifactIn} {runIri : Option String}
  {codecs : Codecs}

theorem noticed_iff (syntax_ : IriSyntax platform) {checksum : ChecksumIn} : Noticed platform checksum ↔ checksum.value ≠ "" ∧
    platform.validIri (algorithmIri checksum.algorithm) = true ∧ Malformed (readBack checksum.algorithm) checksum.value := by
  cases found : algorithm checksum.algorithm with
  | none =>
    constructor
    · intro told
      rcases told.spelled with ⟨malformed, _⟩ | ⟨_, valid, wrong⟩
      · have known := malformed.1
        rw [found] at known
        cases known
      · exact ⟨told.value, valid, wrong⟩
    · exact fun all => ⟨all.1, Or.inr ⟨found, all.2⟩⟩
  | some alg =>
    have known : (algorithm checksum.algorithm).isSome = true := by rw [found]; rfl
    rw [readBack_spelling known, validIri_spelling syntax_ known]
    constructor
    · intro told
      rcases told.spelled with ⟨malformed, spaceless⟩ | ⟨unknown, _⟩
      · exact ⟨told.value, spaceless, malformed⟩
      · rw [found] at unknown
        cases unknown
    · exact fun all => ⟨all.1, Or.inl ⟨all.2.2, all.2.1⟩⟩

/-- There is a violation just when a malformed digest is told of. -/
theorem violation_iff_noticed (conform : codecs.Conform) (syntax_ : IriSyntax platform) (apart : Function.Injective draw.blank) :
    (∃ finding ∈ findings codecs (Artifact.artifactQuads platform base iri draw input actor runIri),
      finding.severity = .violation) ↔ ∃ checksum ∈ checksums input, Noticed platform checksum := by
  rw [violation_iff conform]
  constructor
  · intro judged
    obtain ⟨key, name, value, listed, wrong⟩ := judged
    obtain ⟨place, checksum, carries, some_, valid, _, rfl, rfl⟩ := (mem_judged apart).1 listed
    exact ⟨checksum, mem_checksums.2 ⟨place, carries⟩, (noticed_iff syntax_).2 ⟨some_, valid, wrong⟩⟩
  · intro told
    obtain ⟨checksum, mem, tells⟩ := told
    obtain ⟨place, carries⟩ := mem_checksums.1 mem
    obtain ⟨some_, valid, wrong⟩ := (noticed_iff syntax_).1 tells
    exact ⟨keyAt draw place, _, _, (mem_judged apart).2 ⟨place, checksum, carries, some_, valid, rfl, rfl, rfl⟩, wrong⟩

/-- Well-formed digests are passed. -/
theorem sound_passed (conform : codecs.Conform) (syntax_ : IriSyntax platform) (apart : Function.Injective draw.blank)
    (all : ∀ checksum ∈ checksums input, SoundDigest checksum.algorithm checksum.value) :
    ∀ finding ∈ findings codecs (Artifact.artifactQuads platform base iri draw input actor runIri),
      finding.severity ≠ .violation := by
  intro finding mem severe
  obtain ⟨checksum, held, told⟩ := (violation_iff_noticed conform syntax_ apart).1 ⟨finding, mem, severe⟩
  have well := all checksum held
  rcases told.spelled with ⟨malformed, _⟩ | ⟨unknown, _⟩
  · exact malformed.2 well
  · obtain ⟨alg, bytes, denotes⟩ := well
    have known := denotes.algorithm
    rw [unknown] at known
    cases known

end Artifacts

end Checking

open Checking

/-- Malformed digests are refused, and well-formed ones are not, exactly when among the malformed digests of an input
there is one that is told of. -/
theorem malformed_refused_iff {platform : Platform} {codecs : Codecs} {draw : Draw} (conform : codecs.Conform)
    (syntax_ : IriSyntax platform) (apart : Function.Injective draw.blank) (base iri actor : String) (input : ArtifactIn)
    (runIri : Option String) :
    Judges (findings codecs (Artifact.artifactQuads platform base iri draw input actor runIri)) input ↔
      ((∃ checksum ∈ checksums input, Malformed checksum.algorithm checksum.value) →
        ∃ checksum ∈ checksums input, Noticed platform checksum) := by
  constructor
  · exact fun judges malformed => (violation_iff_noticed conform syntax_ apart).1 (judges.refused malformed)
  · exact fun told => ⟨fun malformed => (violation_iff_noticed conform syntax_ apart).2 (told malformed),
      sound_passed conform syntax_ apart⟩

/-- A platform on which no text with a space is an IRI. -/
def strict : Platform := { Specimen.platform [] with validIri := fun iri => startsWith iri "http" && decide (' ' ∉ iri.toList) }

theorem strict_syntax : IriSyntax strict where
  word := by
    intro name plain
    have begins : startsWith (algorithmIri name) "http" = true := by
      rw [startsWith_iff]
      exact ⟨"://spdx.org/rdf/terms#checksumAlgorithm_" ++ name, by rw [← String.append_assoc]; rfl⟩
    have spaceless : ' ' ∉ (algorithmIri name).toList := by
      rw [algorithmIri, String.toList_append, List.mem_append]
      intro blank
      rcases blank with fixed | given
      · revert fixed
        decide
      · rcases plain ' ' given with word | dash | low
        · revert word
          decide
        · revert dash
          decide
        · revert low
          decide
    show (startsWith (algorithmIri name) "http" && decide (' ' ∉ (algorithmIri name).toList)) = true
    rw [begins, decide_eq_true spaceless]
    rfl
  space := by
    intro iri blank
    show (startsWith iri "http" && decide (' ' ∉ iri.toList)) = false
    rw [decide_eq_false (fun clear => clear blank), Bool.and_false]

theorem serial_blank_inj : Function.Injective (Specimen.serial 0).blank := fun _ _ same => (Specimen.serial_id_inj same).2

/-- An artifact with one file, whose digest is far too short. -/
def shortDigest (spelling : String) : ArtifactIn := { distributions := [{ checksum := some ⟨spelling, "00"⟩ }] }

theorem short_malformed {spelling : String} (found : algorithm spelling = some sha256) : Malformed spelling "00" :=
  (check_violation specified_conform).1 ⟨_, check_undecoded found (by decide +kernel), rfl⟩

/-- Spelled without a space it is refused. -/
theorem short_refused : Judges (findings specified (Artifact.artifactQuads strict "https://reg.example" "https://reg.example/a"
    (Specimen.serial 0) (shortDigest "SHA-256") "root" none)) (shortDigest "SHA-256") := by
  have known : algorithm "SHA-256" = some sha256 := algorithm_spelled sha256_known (by decide +kernel)
  refine (malformed_refused_iff specified_conform strict_syntax serial_blank_inj _ _ _ _ _).2 (fun _ => ?_)
  exact ⟨_, List.mem_singleton_self _, by decide, Or.inl ⟨short_malformed known, by decide⟩⟩

/-- Spelled with one it is not. -/
theorem spaced_spelling_passes : ¬Judges (findings specified (Artifact.artifactQuads strict "https://reg.example"
    "https://reg.example/a" (Specimen.serial 0) (shortDigest "SHA 256") "root" none)) (shortDigest "SHA 256") := by
  have known : algorithm "SHA 256" = some sha256 := algorithm_spelled sha256_known (by decide +kernel)
  intro judges
  obtain ⟨checksum, mem, told⟩ := (violation_iff_noticed specified_conform strict_syntax serial_blank_inj).1
    (judges.refused ⟨_, List.mem_singleton_self _, short_malformed known⟩)
  have same : checksum = ⟨"SHA 256", "00"⟩ := List.mem_singleton.1 mem
  rw [same] at told
  rcases told.spelled with ⟨_, spaceless⟩ | ⟨unknown, _⟩
  · exact spaceless (by decide)
  · rw [known] at unknown
    cases unknown

end ToolArtifactRegistry.Laws
