import ToolArtifactRegistry.Api.Finding
import ToolArtifactRegistry.Laws.Specimen

/-! Whether a keyword finds what was advertised with it, in the list and by a subscription. -/
namespace ToolArtifactRegistry.Laws

open Library.Rdf Library.Text Library.Results Ids Model Store Rdf Build Domain Subscriptions Api.Subscriptions Api.Finding
open Api.Listing (lastSegment)

def keywordTerms : List String := [Ns.rdfType, Ns.t Ns.dcat "keyword", Ns.t Ns.dcat "theme", Ns.t Ns.tar "tombstoned"]

/-- What is said of the type, the keywords and the end of an artifact is what it was written with, keywords
included. -/
def AdvertisedWith (platform : Platform) (base : String) (data : Dataset) (iri : String) (given : List String) : Prop :=
  ∃ draw input actor runIri, input.keywords = given ∧ ∀ quad : Quad, quad.subject = .named iri →
    quad.predicate ∈ keywordTerms →
      (quad ∈ data ↔ quad ∈ Artifact.artifactQuads platform base iri draw input actor runIri)

section Advertised

variable {platform : Platform} {base iri : String} {data : Dataset} {given : List String}

/-- A new artifact stands as it was written. -/
theorem advertised_of_new {draw : Draw} {input : ArtifactIn} {actor : String} {runIri : Option String} {more : List Quad}
    (new : ∀ quad ∈ data, quad.subject ≠ .named iri)
    (other : ∀ quad ∈ more, quad.subject = .named iri → quad.predicate ∉ keywordTerms) :
    AdvertisedWith platform base
      (effect data { insert := Artifact.artifactQuads platform base iri draw input actor runIri ++ more }) iri
      input.keywords := by
  refine ⟨draw, input, actor, runIri, rfl, fun quad subject about => ?_⟩
  show quad ∈ data.extend _ ↔ _
  rw [Dataset.mem_extend, List.mem_append]
  constructor
  · intro held
    rcases held with old | written | rest
    · exact absurd subject (new quad old)
    · exact written
    · exact absurd about (other quad rest subject)
  · intro written
    exact Or.inr (Or.inl written)

/-- Of the quads a new artifact is written with, those about its keywords are statements of its own. -/
theorem mem_own {draw : Draw} {input : ArtifactIn} {actor : String} {runIri : Option String} {predicate graph : String}
    {term : Term} (own : predicate ∉ Footprint.supportVocabulary) :
    (⟨.named iri, predicate, term, graph⟩ : Quad) ∈ Artifact.artifactQuads platform base iri draw input actor runIri ↔
      graph = Ns.gLocal ∧ (predicate, term) ∈ Artifact.artifactStatements platform base iri draw input actor runIri := by
  constructor
  · intro mem
    rcases Footprint.mem_artifactQuads platform base mem with written | supports
    · exact ⟨(mem_finish.mp written).2.1, (mem_finish.mp written).2.2⟩
    · exact absurd supports.predicate own
  · intro said
    unfold Artifact.artifactQuads
    exact List.mem_append_right _ (mem_finish.mpr ⟨rfl, said.1, said.2⟩)

theorem keyword_held (advertised : AdvertisedWith platform base data iri given) {term : Term} {graph : String} :
    (⟨.named iri, Ns.t Ns.dcat "keyword", term, graph⟩ : Quad) ∈ data ↔
      graph = Ns.gLocal ∧ ∃ raw ∈ given, trim raw ≠ "" ∧ term = .simple (kept platform raw) := by
  obtain ⟨draw, input, actor, runIri, same, stands⟩ := advertised
  rw [stands _ rfl (by decide : Ns.t Ns.dcat "keyword" ∈ keywordTerms), mem_own (by decide),
    mem_keywordStatements, same]

theorem theme_held (advertised : AdvertisedWith platform base data iri given) {term : Term} {graph : String} :
    (⟨.named iri, Ns.t Ns.dcat "theme", term, graph⟩ : Quad) ∈ data ↔
      graph = Ns.gLocal ∧ ∃ raw ∈ given, trim raw ≠ "" ∧ ∃ entry, Keywords.lookup platform (trim raw) = some entry ∧
        term = if platform.validIri (Keywords.iri base entry.slug) = true then .named (Keywords.iri base entry.slug)
          else .simple (Keywords.iri base entry.slug) := by
  obtain ⟨draw, input, actor, runIri, same, stands⟩ := advertised
  rw [stands _ rfl (by decide : Ns.t Ns.dcat "theme" ∈ keywordTerms), mem_own (by decide),
    mem_themeStatements, same]

theorem type_held (advertised : AdvertisedWith platform base data iri given) :
    (⟨.named iri, Ns.rdfType, .named Artifact.typeDataset, Ns.gLocal⟩ : Quad) ∈ data := by
  obtain ⟨draw, input, actor, runIri, _, stands⟩ := advertised
  rw [stands _ rfl (by decide : Ns.rdfType ∈ keywordTerms)]
  unfold Artifact.artifactQuads
  apply List.mem_append_right
  rw [describeLocal, mem_finish]
  refine ⟨rfl, rfl, ?_⟩
  unfold Artifact.artifactStatements
  simp [a]

theorem not_tombstoned (advertised : AdvertisedWith platform base data iri given) (graph : String) :
    tombstone iri graph ∉ data := by
  obtain ⟨draw, input, actor, runIri, _, stands⟩ := advertised
  rw [stands (tombstone iri graph) rfl (by decide : Ns.t Ns.tar "tombstoned" ∈ keywordTerms)]
  intro mem
  rcases Footprint.mem_artifactQuads platform base mem with written | supports
  · have said := (mem_finish.mp written).2.2
    exact absurd (Footprint.artifact_speaks platform base iri draw input actor runIri _ said)
      (by decide : Ns.t Ns.tar "tombstoned" ∉ Footprint.artifactVocabulary)
  · exact absurd supports.predicate (by decide : Ns.t Ns.tar "tombstoned" ∉ Footprint.supportVocabulary)

end Advertised

section Reads

variable {server : Server} {state : State} {draw : Draw} {iri : String} {given : List String}

/-- A named node has its own key when its IRI is no blank node's. -/
theorem subjectKey_eq (http : isHttp iri = true) {node : Node} : subjectKey node = iri ↔ node = .named iri := by
  cases node with
  | named other => simp [subjectKey]
  | blank label =>
    have apart : "_:" ++ label ≠ iri := by
      intro same
      rw [← same] at http
      unfold isHttp startsWith at http
      simp [String.toList_append] at http
    simp [subjectKey, apart]

theorem mem_strs (http : isHttp iri = true) {data : Dataset} {ns localName value : String} :
    value ∈ (Props.fromQuads iri (describeQuads data iri)).strs ns localName ↔
      ∃ term graph, (⟨.named iri, Ns.t ns localName, term, graph⟩ : Quad) ∈ data ∧ Props.termValue term = value := by
  have own (quad : Quad) : quad ∈ describeQuads data iri ∧ quad.subject = .named iri ↔
      quad ∈ data ∧ quad.subject = .named iri := by
    have same := describe_about_self data iri
    have mem : quad ∈ (describeQuads data iri).filter (about (.named iri)) ↔ quad ∈ data.matching (about (.named iri)) := by
      rw [same]
    simpa only [List.mem_filter, Dataset.mem_matching, about, decide_eq_true_eq] using mem
  unfold Props.strs Props.terms Props.ofPredicate Props.fromQuads Props.keyed
  simp only [List.mem_map, List.mem_filter, decide_eq_true_eq, subjectKey_eq http, own]
  constructor
  · intro found
    obtain ⟨term, ⟨quad, ⟨⟨held, subject⟩, predicate⟩, object⟩, same⟩ := found
    refine ⟨quad.object, quad.graph, ?_, by rw [object]; exact same⟩
    rw [← subject, ← predicate]
    exact held
  · intro found
    obtain ⟨term, graph, held, same⟩ := found
    exact ⟨term, ⟨_, ⟨⟨held, rfl⟩, rfl⟩, rfl⟩, same⟩

/-- An artifact about which something is held is read with the keywords held. -/
theorem loadArtifact_keywords {ctx : Ctx} (valid : ctx.platform.validIri iri = true)
    (some_ : (describeQuads ctx.data iri).isEmpty = false) : ∃ artifact, Artifact.loadArtifact ctx iri = .ok artifact ∧
      artifact.keywords = (Props.fromQuads iri (describeQuads ctx.data iri)).strs Ns.dcat "keyword" := by
  unfold Artifact.loadArtifact describe
  rw [if_pos valid]
  show ∃ artifact, (if (describeQuads ctx.data iri).isEmpty = true then _ else _) = _ ∧ _
  rw [some_]
  exact ⟨_, rfl, rfl⟩

theorem termValue_text (text : String) : Props.termValue (.simple text) = text := rfl

/-- The matcher sees the keywords as they are kept. -/
theorem mem_candidate_keywords (valid : server.platform.validIri iri = true) (http : isHttp iri = true)
    (advertised : AdvertisedWith server.platform server.base state.data iri given) {notice : Notice} {value : String} :
    value ∈ (candidateIn server state draw notice iri).keywords ↔
      ∃ raw ∈ given, trim raw ≠ "" ∧ value = kept server.platform raw := by
  have some_ : (describeQuads state.data iri).isEmpty = false := by
    have typed := type_held advertised
    have mem : (⟨.named iri, Ns.rdfType, .named Artifact.typeDataset, Ns.gLocal⟩ : Quad) ∈
        (describeQuads state.data iri).filter (about (.named iri)) := by
      rw [describe_about_self, Dataset.mem_matching]
      exact ⟨typed, decide_eq_true rfl⟩
    rw [List.isEmpty_eq_false_iff]
    exact List.ne_nil_of_mem (List.mem_filter.mp mem).1
  obtain ⟨artifact, loaded, keywords⟩ := @loadArtifact_keywords iri (server.ctx state draw) valid some_
  have seen : (candidateIn server state draw notice iri).keywords = artifact.keywords := by
    unfold candidateIn candidate
    rw [loaded]
    rfl
  rw [seen, keywords, mem_strs http]
  show (∃ term graph, (⟨.named iri, Ns.t Ns.dcat "keyword", term, graph⟩ : Quad) ∈ state.data ∧ _) ↔ _
  constructor
  · intro found
    obtain ⟨term, graph, held, spelled⟩ := found
    obtain ⟨_, raw, mem, some_, same⟩ := (keyword_held advertised).mp held
    rw [same, termValue_text] at spelled
    exact ⟨raw, mem, some_, spelled.symm⟩
  · intro found
    obtain ⟨raw, mem, some_, same⟩ := found
    exact ⟨_, _, (keyword_held advertised).mpr ⟨rfl, raw, mem, some_, rfl⟩, by rw [termValue_text, same]⟩

end Reads

/-- A subscription to a keyword, and to nothing else, is told of the artifact when another deployment produces it. -/
def Told (server : Server) (state : State) (iri k : String) : Prop :=
  ∀ lower owner draw (notice : Notice), notice.role = roleProduced → notice.instanceIri ≠ some owner →
    matches_ lower { keywords := [k] } owner (candidateIn server state draw notice iri) = true

/-- Every artifact that is advertised at an IRI with the keyword is found by it. -/
def FindsAll (server : Server) (iri k : String) : Prop :=
  ∀ (state : State) given, AdvertisedWith server.platform server.base state.data iri given → k ∈ given →
    Listed server.platform server.base k state.data iri ∧ Told server state iri k

/-- The filter looks a keyword up as its registration did; an entry of the list has the keyword for its label, but
for case and surrounding blanks, and a concept that is an IRI; a text that is not on the list has no blanks around it. -/
structure Recognised (platform : Platform) (base k : String) : Prop where
  looked : entryFor platform k = Keywords.lookup platform (trim k)
  label : ∀ entry, Keywords.lookup platform (trim k) = some entry →
    toAsciiLowercase entry.label = toAsciiLowercase (trim k) ∧ platform.validIri (Keywords.iri base entry.slug) = true
  free : Keywords.lookup platform (trim k) = none → trim k = k

section Finding

variable {server : Server} {state : State} {iri k : String} {given : List String}

theorem told_iff (valid : server.platform.validIri iri = true) (http : isHttp iri = true)
    (advertised : AdvertisedWith server.platform server.base state.data iri given) : Told server state iri k ↔
      ∃ raw ∈ given, trim raw ≠ "" ∧ toAsciiLowercase (trim (kept server.platform raw)) = toAsciiLowercase (trim k) := by
  have keyword (lower : String → String) (owner : String) (draw : Draw) (notice : Notice) (role : notice.role = roleProduced)
      (apart : notice.instanceIri ≠ some owner) :
      matches_ lower { keywords := [k] } owner (candidateIn server state draw notice iri) = true ↔
        ∃ raw ∈ given, trim raw ≠ "" ∧ toAsciiLowercase (trim (kept server.platform raw)) = toAsciiLowercase (trim k) := by
    have open_ : matches_ lower { keywords := [k] } owner (candidateIn server state draw notice iri) =
        keywordsMatch [k] (candidateIn server state draw notice iri).keywords := by
      have named : (candidateIn server state draw notice iri).role = roleProduced := role
      have by_ : (candidateIn server state draw notice iri).instanceIri = notice.instanceIri := rfl
      unfold matches_
      simp [named, by_, apart, anyOf, Filter.effectiveRoles, textMatches]
    rw [open_]
    unfold keywordsMatch Subscriptions.eqIgnoreAsciiCase
    simp only [List.isEmpty_cons, Bool.false_or, List.any_cons, List.any_nil, Bool.or_false, List.any_eq_true,
      decide_eq_true_eq]
    constructor
    · intro found
      obtain ⟨value, mem, same⟩ := found
      obtain ⟨raw, has, some_, is_⟩ := (mem_candidate_keywords valid http advertised).mp mem
      rw [is_] at same
      exact ⟨raw, has, some_, same⟩
    · intro found
      obtain ⟨raw, has, some_, same⟩ := found
      exact ⟨_, (mem_candidate_keywords valid http advertised).mpr ⟨raw, has, some_, rfl⟩, same⟩
  constructor
  · intro told
    have notice : ∃ notice : Notice, notice.role = roleProduced ∧ notice.instanceIri ≠ some "" :=
      ⟨⟨none, none, [], roleProduced⟩, rfl, by simp⟩
    obtain ⟨notice, role, apart⟩ := notice
    exact (keyword id "" (Specimen.draw "") notice role apart).mp (told id "" (Specimen.draw "") notice role apart)
  · intro held lower owner draw notice role apart
    exact (keyword lower owner draw notice role apart).mpr held

theorem kept_listed {entry : Keywords.Keyword} (found : Keywords.lookup server.platform (trim k) = some entry) :
    kept server.platform k = entry.label := by
  unfold kept
  rw [found]

theorem kept_free (missed : Keywords.lookup server.platform (trim k) = none) : kept server.platform k = trim k := by
  unfold kept
  rw [missed]

/-- A keyword that is recognised finds every artifact advertised with it. -/
theorem finds_of_recognised (valid : server.platform.validIri iri = true) (http : isHttp iri = true)
    (some_ : trim k ≠ "") (known : Recognised server.platform server.base k) : FindsAll server iri k := by
  intro state given advertised mem
  have typed := type_held advertised
  have alive := not_tombstoned advertised
  cases found : Keywords.lookup server.platform (trim k) with
  | some entry =>
    obtain ⟨label, concept⟩ := known.label entry found
    have asks : wanted server.platform server.base k = .concept (Keywords.iri server.base entry.slug) := by
      unfold wanted
      rw [known.looked, found]
    constructor
    · refine ⟨Ns.gLocal, typed, ?_, alive⟩
      rw [asks]
      exact (theme_held advertised).mpr ⟨rfl, k, mem, some_, entry, found, (if_pos concept).symm⟩
    · rw [told_iff valid http advertised]
      refine ⟨k, mem, some_, ?_⟩
      rw [kept_listed found, (label_plain entry (lookup_mem server.platform found)).2, label]
  | none =>
    have asks : wanted server.platform server.base k = .freeText k := by
      unfold wanted
      rw [known.looked, found]
    have plain := known.free found
    constructor
    · refine ⟨Ns.gLocal, typed, ?_, alive⟩
      rw [asks]
      refine (keyword_held advertised).mpr ⟨rfl, k, mem, some_, ?_⟩
      rw [kept_free found, plain]
      rfl
    · rw [told_iff valid http advertised]
      refine ⟨k, mem, some_, ?_⟩
      rw [kept_free found, plain, plain]

def keywordOnly (k : String) : ArtifactIn := { keywords := [k] }

def onlyKeyword (server : Server) (iri k : String) : Dataset :=
  effect Dataset.empty
    { insert := Artifact.artifactQuads server.platform server.base iri (Specimen.draw "") (keywordOnly k) "" none ++ [] }

/-- A registry that holds one artifact, advertised with one keyword. -/
def alone (server : Server) (iri k : String) : State := ⟨onlyKeyword server iri k, {}⟩

theorem alone_advertised (server : Server) (iri k : String) :
    AdvertisedWith server.platform server.base (alone server iri k).data iri [k] := by
  have given : (keywordOnly k).keywords = [k] := rfl
  rw [← given]
  unfold alone
  dsimp only
  unfold onlyKeyword
  exact advertised_of_new (fun quad mem => absurd mem (Dataset.not_mem_empty quad))
    (fun quad mem => absurd mem List.not_mem_nil)

/-- A keyword that finds every artifact advertised with it is recognised. -/
theorem recognised_of_finds (valid : server.platform.validIri iri = true) (http : isHttp iri = true)
    (finds : FindsAll server iri k) : Recognised server.platform server.base k := by
  have advertised := alone_advertised server iri k
  obtain ⟨⟨graph, _, asked, _⟩, told⟩ := finds (alone server iri k) [k] advertised List.mem_cons_self
  obtain ⟨raw, only, some_, same⟩ := (told_iff valid http advertised).mp told
  rw [List.mem_singleton.mp only] at some_ same
  cases found : Keywords.lookup server.platform (trim k) with
  | some entry =>
    have listed := lookup_mem server.platform found
    rw [kept_listed found, (label_plain entry listed).2] at same
    -- what the filter asks for is held, so it is the concept of the keyword's own entry
    have own : entryFor server.platform k = some entry ∧ server.platform.validIri (Keywords.iri server.base entry.slug) = true := by
      unfold wanted at asked
      cases looked : entryFor server.platform k with
      | some other =>
        rw [looked] at asked
        obtain ⟨_, raw, only, _, here, again, theme⟩ := (theme_held advertised).mp asked
        rw [List.mem_singleton.mp only, found] at again
        rw [← Option.some.inj again] at theme
        by_cases concept : server.platform.validIri (Keywords.iri server.base entry.slug) = true
        · rw [if_pos concept] at theme
          have slugs : other.slug = entry.slug := iri_inj server.base (Term.named.inj theme)
          have other_listed : other ∈ Keywords.keywords := by
            unfold entryFor at looked
            rcases Option.or_eq_some_iff.mp looked with first | ⟨_, second⟩
            · exact lookup_mem server.platform first
            · exact lookup_mem server.platform second
          exact ⟨congrArg some (slug_inj other_listed listed slugs), concept⟩
        · rw [if_neg concept] at theme
          cases theme
      | none =>
        rw [looked] at asked
        obtain ⟨_, raw, only, _, text⟩ := (keyword_held advertised).mp asked
        rw [List.mem_singleton.mp only, kept_listed found] at text
        have label : k = entry.label := (Term.literal.inj text).1
        have plain : trim k = k := by
          rw [label]
          exact (label_plain entry listed).2
        rw [plain] at found
        unfold entryFor at looked
        rw [found] at looked
        exact absurd looked (by simp)
    exact
      { looked := own.1.trans found.symm
        label := by
          intro other again
          rw [found] at again
          rw [← Option.some.inj again]
          exact ⟨same, own.2⟩
        free := fun missed => absurd (found.symm.trans missed) (Option.some_ne_none entry) }
  | none =>
    have free : entryFor server.platform k = none ∧ trim k = k := by
      unfold wanted at asked
      cases looked : entryFor server.platform k with
      | some other =>
        rw [looked] at asked
        obtain ⟨_, raw, only, _, entry, again, _⟩ := (theme_held advertised).mp asked
        rw [List.mem_singleton.mp only, found] at again
        cases again
      | none =>
        rw [looked] at asked
        obtain ⟨_, raw, only, _, text⟩ := (keyword_held advertised).mp asked
        rw [List.mem_singleton.mp only, kept_free found] at text
        exact ⟨rfl, (Term.literal.inj text).1.symm⟩
    exact
      { looked := free.1.trans found.symm
        label := fun entry again => absurd (found.symm.trans again) (Option.some_ne_none entry).symm
        free := fun _ => free.2 }

end Finding

/-- A keyword that is not blank finds every artifact advertised with it, in the list and by a subscription, exactly
when it is recognised. -/
theorem keyword_finds_iff (server : Server) (iri k : String) (valid : server.platform.validIri iri = true)
    (http : isHttp iri = true) (some_ : trim k ≠ "") :
    FindsAll server iri k ↔ Recognised server.platform server.base k :=
  ⟨recognised_of_finds valid http, finds_of_recognised valid http some_⟩

section Specimen

open Specimen

theorem shacl_finds : FindsAll (registry []) "https://reg.example/artifact/a" "SHACL" := by
  have evaluated : (Keywords.lookup (platform []) "SHACL").map (fun entry => (entry.slug, entry.label)) =
      some ("shacl", "SHACL") ∧ lastSegment "SHACL" = "SHACL" ∧ trim "SHACL" = "SHACL" := by decide
  obtain ⟨known, segment, plain⟩ := evaluated
  have looked : entryFor (platform []) "SHACL" = Keywords.lookup (platform []) (trim "SHACL") := by
    unfold entryFor
    rw [segment, plain, Option.or_self]
  refine (keyword_finds_iff (registry []) "https://reg.example/artifact/a" "SHACL" (by decide) (by decide)
    (by rw [plain]; decide)).mpr ⟨looked, fun entry found => ?_, fun _ => plain⟩
  rw [show Keywords.lookup (platform []) "SHACL" = some entry by rw [← plain]; exact found, Option.map_some,
    Option.some.injEq, Prod.mk.injEq] at known
  rw [known.1, known.2, plain]
  decide

/-- An alias is kept as the label of its entry, which a subscription to the alias does not match. -/
theorem alias_untold : AdvertisedWith (platform []) "https://reg.example"
      (alone (registry []) "https://reg.example/artifact/a" "rdf").data "https://reg.example/artifact/a" ["rdf"] ∧
    ¬ Told (registry []) (alone (registry []) "https://reg.example/artifact/a" "rdf") "https://reg.example/artifact/a" "rdf" := by
  have advertised := alone_advertised (registry []) "https://reg.example/artifact/a" "rdf"
  refine ⟨advertised, fun told => ?_⟩
  obtain ⟨raw, only, _, same⟩ := (told_iff (by decide) (by decide) advertised).mp told
  rw [List.mem_singleton.mp only] at same
  have evaluated : toAsciiLowercase (trim (kept (platform []) "rdf")) ≠ toAsciiLowercase (trim "rdf") := by decide
  exact evaluated same

end Specimen

end ToolArtifactRegistry.Laws
