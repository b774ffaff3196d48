import ToolArtifactRegistry.Laws.Confinement

/-! A self-registered record answers to one credential at one issuer exactly as long as the lookup
an announcement makes agrees with the one that authenticated it: the first reads no issuer. -/
namespace ToolArtifactRegistry.Laws

open Library.Rdf Library.Runs Library.Serde Ids Model Store Rdf Build Auth Domain Api Registry

def IsInstance (data : Dataset) (iri : String) : Prop := typed iri Instance.typeTarInstance ∈ data

instance (data : Dataset) (iri : String) : Decidable (IsInstance data iri) :=
  inferInstanceAs (Decidable (typed iri Instance.typeTarInstance ∈ data))

theorem IsInstance.isRecord {data : Dataset} {iri : String} (there : IsInstance data iri) : IsRecord data iri :=
  ⟨_, by simp [recordTypes], there⟩

/-- The issuer of a credential is the one its record was registered at. -/
def SameIssuer (p : Principal) (data : Dataset) (iri : String) : Prop :=
  Jwt.localValues data (.named iri) (Ns.t Ns.tar "selfRegisteredIssuer") = p.issuer.toList.map Term.simple

def RegisteredBy (p : Principal) (data : Dataset) (iri : String) : Prop :=
  ⟨.named iri, Ns.t Ns.tar "selfRegisteredBy", .simple p.subject, Ns.gLocal⟩ ∈ data

/-- The record a credential is bound to, or registered at its own issuer. -/
def Answers (p : Principal) (data : Dataset) (iri : String) : Prop :=
  p.instanceIri = some iri ∨ (RegisteredBy p data iri ∧ SameIssuer p data iri)

instance (p : Principal) (data : Dataset) (iri : String) : Decidable (SameIssuer p data iri) :=
  inferInstanceAs (Decidable (_ = _))

instance (p : Principal) (data : Dataset) (iri : String) : Decidable (RegisteredBy p data iri) :=
  inferInstanceAs (Decidable (_ ∈ data))

instance (p : Principal) (data : Dataset) (iri : String) : Decidable (Answers p data iri) :=
  inferInstanceAs (Decidable (_ ∨ _))

section

variable (server : Server)

/-- An announcement leaves alone every Instance that does not answer to its credential. -/
def OwnOnly (state : State) : Event → Prop
  | .request credential draw (.announceSelf input) => ∀ p, principalOf server state draw.now credential = .ok p →
      ∀ iri, IsInstance state.data iri → ¬Answers p state.data iri →
        Same state.data (step server state (.request credential draw (.announceSelf input))).data iri
  | _ => True

/-- The only Instance an announcement touches is the one it is about. -/
def Alone (state : State) (draw : Draw) (p : Principal) (input : SelfAnnounceIn) : Prop :=
  ∀ iri, IsInstance state.data iri → Touches (Instances.announcePrint server state draw p input) state.data iri →
    Instances.existingRecord state.data p input = some iri

instance (state : State) (draw : Draw) (p : Principal) (input : SelfAnnounceIn) :
    Decidable (Alone server state draw p input) :=
  decidable_of_iff (∀ iri ∈ subjects state.data, IsInstance state.data iri →
      Touches (Instances.announcePrint server state draw p input) state.data iri →
        Instances.existingRecord state.data p input = some iri)
    ⟨fun holds iri there => holds iri there.isRecord.subject there, fun holds iri _ => holds iri⟩

def announcement : Event → Option (Option String × Draw × SelfAnnounceIn)
  | .request credential draw (.announceSelf input) => some (credential, draw, input)
  | _ => none

/-- The record an announcement finds by subject and key was registered at the issuer of its
credential, and it is the only Instance the write touches. -/
def Vouched (state : State) (event : Event) : Prop :=
  ∀ a, announcement event = some a → ∀ p, principalOf server state a.2.1.now a.1 = .ok p →
    (∀ iri, Instances.existingRecord state.data p a.2.2 = some iri →
      p.instanceIri = some iri ∨ SameIssuer p state.data iri) ∧
    Alone server state a.2.1 p a.2.2

instance (state : State) (event : Event) : Decidable (Vouched server state event) :=
  inferInstanceAs (Decidable (∀ a, announcement event = some a → ∀ p, principalOf server state a.2.1.now a.1 = .ok p →
    _ ∧ _))

end

/-- What the lookup by subject and key finds was registered by the subject. -/
theorem findSelfRegistered_registered {data : Dataset} {p : Principal} {key iri : String}
    (found : Instances.findSelfRegistered data p.subject key = some iri) : RegisteredBy p data iri := by
  unfold Instances.findSelfRegistered at found
  obtain ⟨quad, first, named⟩ := Option.bind_eq_some_iff.1 found
  obtain ⟨held, _⟩ := List.mem_filter.1 (List.mem_of_head? first)
  obtain ⟨inData, said⟩ := Dataset.mem_matching.1 held
  obtain ⟨predicate, object, graph⟩ := of_decide_eq_true said
  have subject : quad.subject = .named iri := by
    cases node : quad.subject with
    | named other =>
      rw [node] at named
      exact congrArg Node.named (Option.some.inj named)
    | blank label =>
      rw [node] at named
      cases named
  unfold RegisteredBy
  rw [← subject, ← predicate, ← object, ← graph]
  exact inData

/-- The record an announcement is about is the one its credential is bound to, or one it registered. -/
theorem existingRecord_cases {data : Dataset} {p : Principal} {input : SelfAnnounceIn} {iri : String}
    (found : Instances.existingRecord data p input = some iri) :
    p.instanceIri = some iri ∨ RegisteredBy p data iri := by
  unfold Instances.existingRecord at found
  simp only [] at found
  split at found
  · rcases Option.or_eq_some_iff.1 found with registered | ⟨_, bound⟩
    · exact Or.inr (findSelfRegistered_registered registered)
    · exact Or.inl (Option.filter_eq_some_iff.1 bound).1
  · rcases Option.or_eq_some_iff.1 found with bound | ⟨_, registered⟩
    · exact Or.inl bound
    · exact Or.inr (findSelfRegistered_registered registered)

variable {server : Server}

theorem vouched_own {state : State} {event : Event} (vouched : Vouched server state event) :
    OwnOnly server state event := by
  cases event with
  | request credential draw action =>
    cases action with
    | announceSelf input =>
      intro p accepted iri there foreign
      obtain ⟨vouches, only⟩ := vouched _ rfl p accepted
      apply step_same
      intro touches
      simp only [print, accepted, actionPrint] at touches
      have found := only iri there touches
      refine foreign ?_
      rcases existingRecord_cases found with bound | registered
      · exact Or.inl bound
      · exact (vouches iri found).imp_right (fun issuer => ⟨registered, issuer⟩)
    | _ => trivial
  | _ => trivial

/-- In a run whose announcements are vouched for, each changes only what answers to its credential. -/
theorem announcements_own {start : State} {events : List Event}
    (vouched : Meets (step server) (Vouched server) start events) :
    Meets (step server) (OwnOnly server) start events :=
  meets_mono (step server) (fun _ _ vouched => vouched_own vouched) vouched

section Specimen

open Specimen

/-- A token of the client `app` at one issuer. -/
def appToken (issuer : String) : Json := .object [("iss", .string issuer), ("azp", .string "app")]

def twoClusters : Server :=
  registry [("h.one.s", appToken "https://one.example"), ("h.two.s", appToken "https://two.example")]

/-- A software that lets a client of this issuer register its deployments. -/
def admits (name issuer : String) : Action :=
  .createSoftware { name := name, registrationClients := ["app"], registrationIssuer := some issuer }

def announces (token label : String) : Event :=
  .request (some token) (draw label) (.announceSelf { label := some label, instanceKey := some "main" })

def admitted : List Event :=
  [byRoot "a" (admits "one" "https://one.example"), byRoot "b" (admits "two" "https://two.example"),
    announces "h.one.s" "i"]

/-- The client that registered the deployment announces it again. -/
theorem second_announcement_own :
    Meets (step twoClusters) (OwnOnly twoClusters) State.empty (admitted ++ [announces "h.one.s" "j"]) :=
  announcements_own (by decide +kernel)

def appAtTwo : Principal :=
  { credential := .oidcWorkload, instanceIri := none, softwareIri := some "https://reg.example/software/ba",
    subject := "app", displayName := none, scopes := ∅, roles := ∅, issuer := some "https://two.example" }

def givenLabel : Quad := ⟨.named "https://reg.example/instance/ia", Ns.t Ns.rdfs "label", .simple "i", Ns.gLocal⟩

/-- The client of that name at the other issuer renames the deployment. -/
theorem other_issuer_renames :
    ¬Meets (step twoClusters) (OwnOnly twoClusters) State.empty (admitted ++ [announces "h.two.s" "j"]) := by
  intro meets
  obtain ⟨_, own, _⟩ := (meets_append (step twoClusters)).1 meets
  have evaluated : (principalOf twoClusters (run (step twoClusters) State.empty admitted) (draw "j").now (some "h.two.s")).toOption =
        some appAtTwo ∧
      IsInstance (run (step twoClusters) State.empty admitted).data "https://reg.example/instance/ia" ∧
      ¬Answers appAtTwo (run (step twoClusters) State.empty admitted).data "https://reg.example/instance/ia" ∧
      ¬(givenLabel ∈ (step twoClusters (run (step twoClusters) State.empty admitted) (announces "h.two.s" "j")).data ↔
        givenLabel ∈ (run (step twoClusters) State.empty admitted).data) := by
    decide +kernel
  obtain ⟨accepted, found, others, changed⟩ := evaluated
  unfold announces at changed
  have same := own appAtTwo (ok_of_toOption accepted) "https://reg.example/instance/ia" found others
  exact changed (same givenLabel rfl rfl)

end Specimen

end ToolArtifactRegistry.Laws
