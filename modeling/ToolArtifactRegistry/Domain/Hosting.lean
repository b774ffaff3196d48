import ToolArtifactRegistry.Domain.Fields
import ToolArtifactRegistry.Domain.Footprint

/-! What decides whether a software may be hosted and where it is: the mark on its record, and the records that
name it and carry an endpoint. Each write of a record speaks of these about one record only. -/
namespace ToolArtifactRegistry.Domain.Hosting

open Library.Rdf Ids Model Store Rdf Build Footprint Fields

/-- The mark of a software that cannot be hosted. -/
def unhostable (software : String) : Quad :=
  ⟨.named software, Ns.t Ns.tar "deployable", .literal "false" (Ns.xsd ++ "boolean") none, Ns.gLocal⟩

/-- A record that names the software and carries an endpoint. -/
def Serves (said : Quad → Prop) (software : String) : Prop :=
  ∃ node endpoint, said ⟨node, Ns.t Ns.tar "instanceOf", .named software, Ns.gLocal⟩ ∧
    said ⟨node, Ns.t Ns.dcat "endpointURL", endpoint, Ns.gLocal⟩

/-- No software of this registry that is marked so is served. -/
def Hosted (base : String) (data : Dataset) : Prop :=
  ∀ software, isLocal base software = true → unhostable software ∈ data → ¬ Serves (· ∈ data) software

/-- Whether its software can be hosted is said by the registry alone. -/
def Stated (base : String) (data : Dataset) : Prop :=
  ∀ quad ∈ data, quad.predicate = Ns.t Ns.tar "deployable" → isLocal base (subjectKey quad.subject) = true →
    ∃ software, quad = unhostable software

def hostingTerms : List String := [Ns.t Ns.tar "deployable", Ns.t Ns.tar "instanceOf", Ns.t Ns.dcat "endpointURL"]

section Transactions

/-- A transaction that speaks of hosting about one record, either by writing it whole or by adding it. -/
structure Writes (tx : GraphTx) (iri : String) : Prop where
  own : ∀ quad ∈ tx.insert, quad.predicate ∈ hostingTerms → quad.subject = .named iri
  marks : ∀ quad ∈ tx.insert, quad.predicate = Ns.t Ns.tar "deployable" → quad = unhostable iri
  apart : ∀ quad ∈ tx.insert, quad.predicate = Ns.t Ns.tar "instanceOf" → unhostable iri ∉ tx.insert
  whole : tx.deleteSubjects = [(iri, Ns.gLocal)] ∨ tx.deleteSubjects = []
  graphs : tx.clearGraphs = []

/-- A record that is added, not rewritten, is one that nothing was said about. -/
def Anew (tx : GraphTx) (data : Dataset) : Prop :=
  tx.deleteSubjects = [] → ∀ quad ∈ tx.insert, quad.predicate ∈ hostingTerms →
    ∀ held ∈ data, held.subject = quad.subject → held.predicate ∉ hostingTerms

instance (tx : GraphTx) (data : Dataset) : Decidable (Anew tx data) :=
  inferInstanceAs (Decidable (_ → ∀ quad ∈ tx.insert, _ → ∀ held ∈ data, _ → _))

variable {base iri : String} {data : Dataset} {tx : GraphTx}

/-- What is held of the record that is written is what the transaction says of it. -/
theorem written_of_held (writes : Writes tx iri) (anew : Anew tx data) {said quad : Quad} (mem : said ∈ tx.insert)
    (term : said.predicate ∈ hostingTerms) (about_ : quad.subject = said.subject) (graph : quad.graph = Ns.gLocal)
    (spoken : quad.predicate ∈ hostingTerms) (held : quad ∈ effect data tx) : quad ∈ tx.insert := by
  rcases writes.whole with replaced | added
  · refine gone_of_deleted writes.graphs replaced graph ?_ held
    rw [about_, writes.own said mem term]
    exact Relation.ReflTransGen.refl
  · rcases mem_effect_cases held with before | inserted
    · exact absurd spoken (anew added said mem term quad before about_)
    · exact inserted

theorem stated_effect (stated : Stated base data) (writes : Writes tx iri) : Stated base (effect data tx) := by
  intro quad mem marks here
  rcases mem_effect_cases mem with held | inserted
  · exact stated quad held marks here
  · exact ⟨iri, writes.marks quad inserted marks⟩

/-- A write leaves no marked software served that was not, when it serves none that is marked and marks none
that is served. -/
theorem hosted_effect (hosted : Hosted base data) (writes : Writes tx iri) (anew : Anew tx data)
    (serves : ∀ software, isLocal base software = true → Serves (· ∈ tx.insert) software → unhostable software ∉ data)
    (marks : ∀ software, isLocal base software = true → unhostable software ∈ tx.insert → ¬ Serves (· ∈ data) software) :
    Hosted base (effect data tx) := by
  intro software here marked served
  obtain ⟨node, endpoint, names, carries⟩ := served
  have about_ : ∀ quad ∈ tx.insert, quad.predicate ∈ hostingTerms → quad.subject = node →
      ⟨node, Ns.t Ns.tar "instanceOf", .named software, Ns.gLocal⟩ ∈ tx.insert ∧
      ⟨node, Ns.t Ns.dcat "endpointURL", endpoint, Ns.gLocal⟩ ∈ tx.insert := by
    intro quad mem term same
    exact ⟨written_of_held writes anew mem term same.symm rfl (by simp [hostingTerms]) names,
      written_of_held writes anew mem term same.symm rfl (by simp [hostingTerms]) carries⟩
  by_cases inserted : unhostable software ∈ tx.insert
  · have itself : software = iri := Node.named.inj (writes.own _ inserted (by simp [unhostable, hostingTerms]))
    refine marks software here inserted ⟨node, endpoint, ?_, ?_⟩
    · rcases mem_effect_cases names with held | said
      · exact held
      · exact absurd (itself ▸ inserted) (writes.apart _ said rfl)
    · rcases mem_effect_cases carries with held | said
      · exact held
      · have names := (about_ _ said (by simp [hostingTerms]) rfl).1
        exact absurd (itself ▸ inserted) (writes.apart _ names rfl)
  · have held : unhostable software ∈ data := (mem_effect_cases marked).resolve_right inserted
    by_cases touched : ∃ quad ∈ tx.insert, quad.predicate ∈ hostingTerms ∧ quad.subject = node
    · obtain ⟨quad, mem, term, same⟩ := touched
      obtain ⟨names, carries⟩ := about_ quad mem term same
      exact serves software here ⟨node, endpoint, names, carries⟩ held
    · refine hosted software here held ⟨node, endpoint, ?_, ?_⟩
      · exact (mem_effect_cases names).resolve_right (fun said => touched ⟨_, said, by simp [hostingTerms], rfl⟩)
      · exact (mem_effect_cases carries).resolve_right (fun said => touched ⟨_, said, by simp [hostingTerms], rfl⟩)

end Transactions

section Records

variable {platform : Platform} {base iri actor : String} {draw : Draw}

theorem support_unspoken {predicate : String} (known : predicate ∈ supportVocabulary) : predicate ∉ hostingTerms := by
  revert predicate
  decide

/-- What is written beside a record speaks of hosting nowhere. -/
theorem own_of_written {statements : List Statement} {nodes : List Node} {quad : Quad}
    (written : Written iri statements nodes quad) (spoken : quad.predicate ∈ hostingTerms) :
    quad ∈ describeLocal iri statements := by
  rcases written with own | supports
  · exact own
  · exact absurd spoken (support_unspoken supports.predicate)

section Instances

variable {input : InstanceIn} {software : Option String}

/-- The quads of a deployment speak of hosting about the deployment, and mark nothing. -/
theorem instance_own {quad : Quad} (mem : quad ∈ Instance.instanceQuads platform base iri draw input actor software)
    (spoken : quad.predicate ∈ hostingTerms) :
    quad.subject = .named iri ∧ quad.predicate ≠ Ns.t Ns.tar "deployable" ∧
      (quad.predicate, quad.object) ∈ Instance.instanceStatements platform base draw input actor software := by
  have own := own_of_written (mem_instanceQuads platform base mem) spoken
  obtain ⟨subject, _, said⟩ := mem_finish.1 own
  refine ⟨subject, fun marks => ?_, said⟩
  have unknown : Ns.t Ns.tar "deployable" ∉ instanceVocabulary := by decide
  exact unknown (marks ▸ instance_speaks platform base draw input actor software _ said)

theorem link_named {ns localName target named : String}
    (said : (Term.named named) ∈ (link platform ns localName target).map Prod.snd) : target = named ∧ target ≠ "" := by
  unfold link at said
  by_cases empty : target = ""
  · rw [if_pos empty] at said
    cases said
  · rw [if_neg empty] at said
    refine ⟨?_, empty⟩
    split at said
    · exact (Term.named.inj (List.mem_singleton.1 said)).symm
    · exact nomatch List.mem_singleton.1 said

theorem optLink_present {ns localName : String} {target : Option String} {object : Term}
    (said : object ∈ (optLink platform ns localName target).map Prod.snd) : ∃ given, nonEmpty target = some given := by
  cases target with
  | none => cases said
  | some given =>
    by_cases empty : given = ""
    · simp [optLink, link, empty] at said
    · exact ⟨given, by simp [nonEmpty, empty, Option.filter]⟩

/-- A record that is written to serve a software has been given an endpoint and names that software. -/
theorem serves_instance {named : String}
    (serves : Serves (· ∈ Instance.instanceQuads platform base iri draw input actor software) named) :
    software.or input.software = some named ∧ named ≠ "" ∧ ∃ endpoint, nonEmpty input.endpointUrl = some endpoint := by
  obtain ⟨node, endpoint, names, carries⟩ := serves
  have of_ : (Ns.t Ns.tar "instanceOf", Term.named named) ∈
      Instance.instanceStatements platform base draw input actor software :=
    (instance_own names (by simp [hostingTerms])).2.2
  have at_ : (Ns.t Ns.dcat "endpointURL", endpoint) ∈ Instance.instanceStatements platform base draw input actor software :=
    (instance_own carries (by simp [hostingTerms])).2.2
  have named_ : (Ns.t Ns.tar "instanceOf", optLink platform Ns.tar "instanceOf" (software.or input.software)) ∈
      instanceFields platform base draw input actor software := by simp [instanceFields]
  have given_ : (Ns.t Ns.dcat "endpointURL", optLink platform Ns.dcat "endpointURL" input.endpointUrl) ∈
      instanceFields platform base draw input actor software := by simp [instanceFields]
  rw [← mem_said, instance_said platform base draw input actor software named_] at of_
  rw [← mem_said, instance_said platform base draw input actor software given_] at at_
  refine ⟨?_, ?_, optLink_present at_⟩
  all_goals
    cases given : software.or input.software with
    | none =>
      rw [given] at of_
      cases of_
    | some target =>
      rw [given] at of_
      obtain ⟨rfl, present⟩ := link_named of_
      first | rfl | exact present

/-- The transaction of a deployment, however it comes about and whatever it says beside. -/
theorem writes_instance {tx : GraphTx}
    (inserts : ∀ quad ∈ tx.insert, quad.predicate ∈ hostingTerms →
      quad ∈ Instance.instanceQuads platform base iri draw input actor software)
    (whole : tx.deleteSubjects = [(iri, Ns.gLocal)] ∨ tx.deleteSubjects = []) (graphs : tx.clearGraphs = []) :
    Writes tx iri where
  own quad mem spoken := (instance_own (inserts quad mem spoken) spoken).1
  marks quad mem marks := by
    have spoken : quad.predicate ∈ hostingTerms := by simp [hostingTerms, marks]
    exact absurd marks (instance_own (inserts quad mem spoken) spoken).2.1
  apart quad mem _ marked := by
    have spoken : (unhostable iri).predicate ∈ hostingTerms := by simp [hostingTerms, unhostable]
    exact absurd rfl (instance_own (inserts _ marked spoken) spoken).2.1
  whole := whole
  graphs := graphs

end Instances

section Softwares

variable {input : SoftwareIn} {created : Option String}

/-- Nothing but the mark is said of whether a software can be hosted. -/
def Marks (statements : List Statement) : Prop :=
  ∀ statement ∈ statements, statement.1 = Ns.t Ns.tar "deployable" →
    statement.2 = .literal "false" (Ns.xsd ++ "boolean") none

theorem marks_append {left right : List Statement} : Marks (left ++ right) ↔ Marks left ∧ Marks right := by
  simp [Marks, or_imp, forall_and]

theorem marks_of_only {predicate : String} {statements : List Statement} (only : Only predicate statements)
    (other : predicate ≠ Ns.t Ns.tar "deployable") : Marks statements := by
  intro statement mem marks
  exact absurd (only statement mem ▸ marks) other

theorem marks_deployable (given : Option Bool) : Marks (Software.deployableStatements given) := by
  unfold Software.deployableStatements
  split
  · intro statement mem _
    rw [List.mem_singleton.1 mem]
    rfl
  · intro statement mem _
    exact absurd mem List.not_mem_nil

theorem software_marks : Marks (Software.softwareStatements platform base iri draw input actor created) := by
  have docs : Marks (Software.apiDocLinks input.apiDocs) := by
    have only : Only (Ns.t Ns.dcat "endpointDescription") (Software.apiDocLinks input.apiDocs) := by
      intro statement mem
      obtain ⟨doc, _, rfl⟩ := List.mem_map.1 mem
      rfl
    exact marks_of_only only (by decide)
  have registration : Marks (Software.registrationStatements input.registrationClients input.registrationIssuer) := by
    unfold Software.registrationStatements
    refine marks_append.2 ⟨marks_of_only (only_texts _ _ _) (by decide), ?_⟩
    split
    · intro statement mem _
      exact absurd mem List.not_mem_nil
    · exact marks_of_only (only_optText _ _ _) (by decide)
  have sync : Marks (Software.syncLink iri input.sync) := by
    have only : Only (Ns.t Ns.tar "sync") (Software.syncLink iri input.sync) := by
      cases input.sync <;> simp [Only, Software.syncLink]
    exact marks_of_only only (by decide)
  have stamp : Marks (attribution platform draw actor) :=
    marks_append.2 ⟨marks_of_only (only_link _ _ _ _) (by decide), marks_of_only (only_datetime _ _ _ _) (by decide)⟩
  have capability : Marks (Software.mintedCapability platform base (draw.site 2) input.capability).1 := by
    cases input.capability with
    | none =>
      intro statement mem _
      exact absurd mem List.not_mem_nil
    | some cap => exact marks_of_only (only_link _ _ _ _) (by decide)
  unfold Software.softwareStatements
  simp only [marks_append]
  and_intros
  all_goals with_reducible first
    | exact docs
    | exact registration
    | exact sync
    | exact stamp
    | exact capability
    | exact marks_deployable _
    | exact marks_of_only (only_a _) (by decide)
    | exact marks_of_only (only_text _ _ _) (by decide)
    | exact marks_of_only (only_optText _ _ _) (by decide)
    | exact marks_of_only (only_texts _ _ _) (by decide)
    | exact marks_of_only (only_optLink _ _ _ _) (by decide)
    | exact marks_of_only (only_links _ _ _ _) (by decide)
    | exact marks_of_only (only_datetime _ _ _ _) (by decide)

/-- The quads of a software speak of hosting about the software, and only by its mark. -/
theorem software_own {quad : Quad} (mem : quad ∈ Software.softwareQuads platform base iri draw input actor created)
    (spoken : quad.predicate ∈ hostingTerms) : quad = unhostable iri := by
  have own := own_of_written (mem_softwareQuads platform base mem) spoken
  obtain ⟨subject, graph, said⟩ := mem_finish.1 own
  have known := software_speaks platform base iri draw input actor created _ said
  have marks : quad.predicate = Ns.t Ns.tar "deployable" := by
    have only : ∀ term ∈ hostingTerms, term ∈ softwareVocabulary → term = Ns.t Ns.tar "deployable" := by decide
    exact only _ spoken known
  have object := software_marks (quad.predicate, quad.object) said marks
  cases quad
  simp_all [unhostable]

theorem writes_software {tx : GraphTx}
    (inserts : ∀ quad ∈ tx.insert, quad ∈ Software.softwareQuads platform base iri draw input actor created)
    (whole : tx.deleteSubjects = [(iri, Ns.gLocal)] ∨ tx.deleteSubjects = []) (graphs : tx.clearGraphs = []) :
    Writes tx iri where
  own quad mem spoken := by rw [software_own (inserts quad mem) spoken, unhostable]
  marks quad mem marks := software_own (inserts quad mem) (by simp [hostingTerms, marks])
  apart quad mem names := by
    have marks := software_own (inserts quad mem) (by simp [hostingTerms, names])
    have other : Ns.t Ns.tar "deployable" ≠ Ns.t Ns.tar "instanceOf" := by decide
    rw [marks] at names
    exact absurd names other
  whole := whole
  graphs := graphs

end Softwares

/-- A transaction that speaks of hosting nowhere. -/
theorem writes_silent {tx : GraphTx} (silent : ∀ quad ∈ tx.insert, quad.predicate ∉ hostingTerms)
    (whole : tx.deleteSubjects = []) (graphs : tx.clearGraphs = []) : Writes tx iri where
  own quad mem spoken := absurd spoken (silent quad mem)
  marks quad mem marks := absurd (by simp [hostingTerms, marks]) (silent quad mem)
  apart quad mem names := absurd (by simp [hostingTerms, names]) (silent quad mem)
  whole := .inr whole
  graphs := graphs

theorem release_silent {softwareIri : String} {input : ReleaseIn} {quad : Quad}
    (mem : quad ∈ Software.releaseQuads platform base iri softwareIri draw input actor) :
    quad.predicate ∉ hostingTerms := by
  intro spoken
  have own := own_of_written (mem_releaseQuads platform base mem) spoken
  have known := release_speaks platform base softwareIri draw input actor _ (mem_finish.1 own).2.2
  have apart : ∀ term ∈ hostingTerms, term ∉ releaseVocabulary := by decide
  exact apart _ spoken known

end Records

end ToolArtifactRegistry.Domain.Hosting
