import ToolArtifactRegistry.Auth.Ordering
import ToolArtifactRegistry.Laws.Specimen

/-! Whether what a token is bound to hangs on the order of rows. The first row that admits the token's
issuer binds it, so several records that name one of its candidates leave the choice to the engine. -/
namespace ToolArtifactRegistry.Laws

open Library.Rdf Library.Text Library.Serde Library.Orders Library.Results Rdf Domain Auth Auth.Jwt Auth.Ordering

/-- What a token is bound to, by name. -/
inductive Target where
  | declared (iri : String)
  | registered (iri : String)
  | software (iri : String)
  deriving DecidableEq

def target : Bound → Option Target
  | .declared binding => some (.declared binding.instanceIri)
  | .registered binding => some (.registered binding.instanceIri)
  | .software iri => some (.software iri)
  | .nothing => none

section Declared

variable (cfg : OidcConfig) (data : Dataset) (issuer : String)

/-- An issuer a record pins under a predicate, or that it pins none, admits the token. -/
def AdmittedAt (record : Node) (predicate : String) : Prop :=
  ∃ pinned ∈ Jwt.optional (localValues data record predicate), issuerAdmits cfg (pinned.map Props.termValue) issuer = true

/-- An Instance declares a client id, at this issuer. -/
def DeclaresClient (candidate iri : String) : Prop :=
  Node.named iri ∈ recordsWith data (Ns.t Ns.tar "oidcClientId") [candidate] ∧
    AdmittedAt cfg data issuer (.named iri) (Ns.t Ns.tar "oidcIssuer")

/-- A credential registered an Instance that is not withdrawn, at this issuer. -/
def DeployedBy (candidate iri : String) : Prop :=
  Node.named iri ∈ recordsWith data (Ns.t Ns.tar "selfRegisteredBy") [candidate] ∧
    isTombstoned data (.named iri) = false ∧ AdmittedAt cfg data issuer (.named iri) (Ns.t Ns.tar "selfRegisteredIssuer")

/-- A Software names a client that may register its deployments, at this issuer. -/
def NamesClient (candidate iri : String) : Prop :=
  Node.named iri ∈ recordsWith data (Ns.t Ns.tar "registrationClient") [candidate] ∧
    AdmittedAt cfg data issuer (.named iri) (Ns.t Ns.tar "registrationIssuer")

/-- The registered deployments come to one row, and that has an IRI. -/
def OnlyRegistered (candidates : List String) (iri : String) : Prop :=
  ∃ row, (selfRegisteredRows data candidates).filter (Auth.Ordering.admitted cfg issuer) = [row] ∧ rowIri row = some iri

end Declared

def Named (declares : String → String → Prop) (candidates : List String) (iri : String) : Prop :=
  ∃ candidate ∈ candidates, declares candidate iri

/-- The record is declared for the first candidate that any record is declared for. -/
def MostSpecific (declares : String → String → Prop) (candidates : List String) (iri : String) : Prop :=
  ∃ before candidate after, candidates = before ++ candidate :: after ∧ declares candidate iri ∧
    ∀ earlier ∈ before, ∀ other, ¬ declares earlier other

def AtMostOne (P : String → Prop) : Prop := ∀ first second, P first → P second → first = second

section Claims

variable (cfg : OidcConfig) (issuer : String) (claims : Json) (data : Dataset)

def Rightful : Target → Prop
  | .declared iri => MostSpecific (DeclaresClient cfg data issuer) (candidates cfg issuer claims) iri
  | .registered iri => MostSpecific (DeployedBy cfg data issuer) (candidates cfg issuer claims) iri
  | .software iri => MostSpecific (NamesClient cfg data issuer) (candidates cfg issuer claims) iri

/-- Whatever order the rows come in, the token is bound to one and the same record, and that one is declared
for the most specific candidate any record of its kind is declared for. -/
def Bindable : Prop := ∃ outcome, (∀ order, (boundBy cfg issuer claims data order).map target = outcome) ∧
  ∀ record, outcome = .ok (some record) → Rightful cfg issuer claims data record

/-- One Instance at most declares any of the candidates; and where none does, and none was registered by the
token of no person, one Software at most names any of them. -/
def Unambiguous : Prop := (candidates cfg issuer claims).all quotable = true →
  AtMostOne (Named (DeclaresClient cfg data issuer) (candidates cfg issuer claims)) ∧
    ((∀ iri, ¬ Named (DeclaresClient cfg data issuer) (candidates cfg issuer claims) iri) →
      (∀ iri, ¬ OnlyRegistered cfg data issuer (candidates cfg issuer claims) iri) →
        isPerson cfg issuer claims = false →
          AtMostOne (Named (NamesClient cfg data issuer) (candidates cfg issuer claims)))

end Claims

theorem mostSpecific_of_named {declares : String → String → Prop} {candidates : List String} {iri : String}
    (one : AtMostOne (Named declares candidates)) (named : Named declares candidates iri) :
    MostSpecific declares candidates iri := by
  induction candidates with
  | nil =>
    obtain ⟨candidate, mem, -⟩ := named
    cases mem
  | cons candidate rest ih =>
    by_cases first : ∃ other, declares candidate other
    · obtain ⟨other, declared⟩ := first
      have same : other = iri := one other iri ⟨candidate, List.mem_cons_self, declared⟩ named
      exact ⟨[], candidate, rest, rfl, same ▸ declared, fun _ mem => nomatch mem⟩
    · have later : Named declares rest iri := by
        obtain ⟨found, mem, declared⟩ := named
        rcases List.mem_cons.1 mem with rfl | tail
        · exact absurd ⟨iri, declared⟩ first
        · exact ⟨found, tail, declared⟩
      have rest_ : AtMostOne (Named declares rest) := fun a b left right => by
        obtain ⟨c, inA, declaredA⟩ := left
        obtain ⟨d, inB, declaredB⟩ := right
        exact one a b ⟨c, List.mem_cons_of_mem _ inA, declaredA⟩ ⟨d, List.mem_cons_of_mem _ inB, declaredB⟩
      obtain ⟨before, found, after, whole, declared, none_⟩ := ih rest_ later
      refine ⟨candidate :: before, found, after, by rw [whole]; rfl, declared, fun earlier mem other declares_ => ?_⟩
      rcases List.mem_cons.1 mem with rfl | tail
      · exact first ⟨other, declares_⟩
      · exact none_ earlier tail other declares_

theorem optional_inhabited (values : List Term) : ∃ value, value ∈ Jwt.optional values := by
  unfold Jwt.optional
  cases values with
  | nil => exact ⟨none, List.mem_singleton_self _⟩
  | cons head tail => exact ⟨some head, by simp⟩

theorem mem_recordsWith_iff {data : Dataset} {predicate : String} {candidates : List String} {record : Node} :
    record ∈ recordsWith data predicate candidates ↔ ∃ candidate ∈ candidates, record ∈ recordsWith data predicate [candidate] := by
  simp only [Binding.mem_recordsWith, List.mem_singleton, exists_eq_left]

section Lookups

variable {cfg : OidcConfig} {data : Dataset} {issuer : String} {candidates : List String}

/-- The Instances the client lookup can bind are those that declare a candidate. -/
theorem declared_iff {iri : String} : (∃ row ∈ clientRows data candidates, ∃ binding,
    declaredBinding cfg issuer row = some binding ∧ binding.instanceIri = iri) ↔
      Named (DeclaresClient cfg data issuer) candidates iri := by
  constructor
  · rintro ⟨row, mem, binding, bound, rfl⟩
    obtain ⟨admits, some_⟩ := Option.ite_none_right_eq_some.1 bound
    obtain ⟨iri, named, rfl⟩ := Option.map_eq_some_iff.1 some_
    obtain ⟨client, -, pinned⟩ := Binding.mem_clientRows mem
    rw [Binding.rowIri_eq named] at client pinned
    obtain ⟨candidate, listed, declared⟩ := mem_recordsWith_iff.1 client
    exact ⟨candidate, listed, declared, row.issuer, pinned, admits⟩
  · rintro ⟨candidate, listed, declared, pinned, held, admits⟩
    obtain ⟨label, labelled⟩ := optional_inhabited (localValues data (.named iri) (Ns.t Ns.rdfs "label"))
    refine ⟨⟨.named iri, label, pinned, none, groupConcat (localValues data (.named iri) (Ns.t Ns.tar "allowedScope"))⟩, ?_,
      _, if_pos admits, rfl⟩
    simp only [clientRows, List.mem_flatMap, List.mem_map]
    exact ⟨_, mem_recordsWith_iff.2 ⟨candidate, listed, declared⟩, label, labelled, pinned, held, rfl⟩

theorem software_iff {iri : String} :
    (∃ row ∈ softwareRows data candidates, declaredSoftware cfg issuer row = some iri) ↔
      Named (NamesClient cfg data issuer) candidates iri := by
  constructor
  · rintro ⟨row, mem, answered⟩
    obtain ⟨admits, named⟩ := declaredSoftware_some.1 answered
    obtain ⟨listed, held⟩ := mem_softwareRows.1 mem
    rw [named] at listed held
    obtain ⟨candidate, among, declared⟩ := mem_recordsWith_iff.1 listed
    exact ⟨candidate, among, declared, row.2, held, admits⟩
  · rintro ⟨candidate, among, declared, pinned, held, admits⟩
    refine ⟨(.named iri, pinned), mem_softwareRows.2 ⟨mem_recordsWith_iff.2 ⟨candidate, among, declared⟩, held⟩, ?_⟩
    exact declaredSoftware_some.2 ⟨admits, rfl⟩

/-- A deployment that was registered at this issuer has an admitted row. -/
theorem registered_row {iri : String} (named : Named (DeployedBy cfg data issuer) candidates iri) :
    ∃ row ∈ (selfRegisteredRows data candidates).filter (Auth.Ordering.admitted cfg issuer), row.record = .named iri := by
  obtain ⟨candidate, listed, subject, live, pinned, held, admits⟩ := named
  obtain ⟨label, labelled⟩ := optional_inhabited (localValues data (.named iri) (Ns.t Ns.rdfs "label"))
  obtain ⟨software, deployed⟩ := optional_inhabited (localValues data (.named iri) (Ns.t Ns.tar "instanceOf"))
  refine ⟨⟨.named iri, label, pinned, software, groupConcat (localValues data (.named iri) (Ns.t Ns.tar "allowedScope"))⟩,
    List.mem_filter.2 ⟨?_, admits⟩, rfl⟩
  simp only [selfRegisteredRows, List.mem_flatMap, List.mem_map, List.mem_filter, Bool.not_eq_true']
  exact ⟨_, ⟨mem_recordsWith_iff.2 ⟨candidate, listed, subject⟩, live⟩, label, labelled, software, deployed, pinned, held, rfl⟩

/-- A row on its own is that of the one deployment the candidates registered. -/
theorem mostSpecific_of_only {iri : String} (only : OnlyRegistered cfg data issuer candidates iri) :
    MostSpecific (DeployedBy cfg data issuer) candidates iri := by
  obtain ⟨row, rows, named⟩ := only
  have alone (other : String) (registered : Named (DeployedBy cfg data issuer) candidates other) : other = iri := by
    obtain ⟨found, mem, record⟩ := registered_row registered
    rw [rows, List.mem_singleton] at mem
    rw [mem, Binding.rowIri_eq named] at record
    exact (Node.named.inj record).symm
  have kept : row ∈ (selfRegisteredRows data candidates).filter (Auth.Ordering.admitted cfg issuer) := by simp [rows]
  obtain ⟨mem, admits⟩ := List.mem_filter.1 kept
  obtain ⟨subject, live, -, pinned⟩ := Binding.mem_selfRegisteredRows mem
  rw [Binding.rowIri_eq named] at subject live pinned
  obtain ⟨candidate, listed, registered⟩ := mem_recordsWith_iff.1 subject
  refine mostSpecific_of_named (fun first second left right => ?_)
    ⟨candidate, listed, registered, live, row.issuer, pinned, admits⟩
  rw [alone first left, alone second right]

variable {order : RowOrder}

/-- In any order the client lookup binds an Instance that declares a candidate, if there is one. -/
theorem clients_ok (quoted : candidates.all quotable = true) : ∃ found,
    findInstanceForClientBy cfg data order issuer candidates = .ok found ∧
      match found with
      | some binding => Named (DeclaresClient cfg data issuer) candidates binding.instanceIri
      | none => ∀ iri, ¬ Named (DeclaresClient cfg data issuer) candidates iri := by
  unfold findInstanceForClientBy
  split
  · rename_i empty
    refine ⟨none, rfl, fun iri named => ?_⟩
    obtain ⟨candidate, mem, -⟩ := named
    rw [List.isEmpty_iff.1 empty] at mem
    cases mem
  · refine ⟨_, rfl, ?_⟩
    split
    · rename_i binding found
      obtain ⟨row, mem, bound⟩ := Order.first_some found
      exact declared_iff.1 ⟨row, mem, binding, bound, rfl⟩
    · rename_i missed
      intro iri named
      obtain ⟨row, mem, binding, bound, -⟩ := declared_iff.2 named
      rw [Order.first_none_iff.1 missed row mem] at bound
      cases bound

/-- Each Instance that declares a candidate is bound in some order. -/
theorem clients_any (quoted : candidates.all quotable = true) {iri : String}
    (named : Named (DeclaresClient cfg data issuer) candidates iri) : ∃ order : RowOrder, ∃ binding,
      findInstanceForClientBy cfg data order issuer candidates = .ok (some binding) ∧ binding.instanceIri = iri := by
  obtain ⟨row, mem, binding, bound, same⟩ := declared_iff.2 named
  refine ⟨⟨Order.leading (fun other => decide (other = row)), Order.asStored, Order.asStored⟩, binding, ?_, same⟩
  obtain ⟨candidate, listed, -⟩ := named
  unfold findInstanceForClientBy
  rw [if_neg (by simpa using List.ne_nil_of_mem listed), if_pos quoted, Order.first_leading mem bound]

theorem registered_ok (quoted : candidates.all quotable = true) : ∃ found,
    findSelfRegisteredInstanceBy cfg data order issuer candidates = .ok found ∧
      match found with
      | some binding => OnlyRegistered cfg data issuer candidates binding.instanceIri
      | none => ∀ iri, ¬ OnlyRegistered cfg data issuer candidates iri := by
  have rearranged := ((order.registered.perm (selfRegisteredRows data candidates)).filter (Auth.Ordering.admitted cfg issuer))
  unfold findSelfRegisteredInstanceBy
  split
  · rename_i empty
    refine ⟨none, rfl, fun iri only => ?_⟩
    obtain ⟨before, candidate, after, whole, -⟩ := mostSpecific_of_only only
    rw [List.isEmpty_iff.1 empty] at whole
    simp at whole
  · split
    · rename_i row rows
      rw [rows] at rearranged
      have one := List.singleton_perm.1 rearranged
      refine ⟨_, rfl, ?_⟩
      cases named : rowIri row with
      | some iri => exact ⟨row, one.symm, named⟩
      | none =>
        intro iri only
        obtain ⟨other, alone, named_⟩ := only
        rw [← one, List.singleton_inj] at alone
        rw [alone, named_] at named
        cases named
    · rename_i several
      refine ⟨none, rfl, fun iri only => ?_⟩
      obtain ⟨row, alone, -⟩ := only
      rw [alone] at rearranged
      exact several row (List.perm_singleton.1 rearranged)

theorem software_ok (quoted : candidates.all quotable = true) : ∃ found,
    findSoftwareForClientBy cfg data order issuer candidates = .ok found ∧
      match found with
      | some iri => Named (NamesClient cfg data issuer) candidates iri
      | none => ∀ iri, ¬ Named (NamesClient cfg data issuer) candidates iri := by
  unfold findSoftwareForClientBy
  split
  · rename_i empty
    refine ⟨none, rfl, fun iri named => ?_⟩
    obtain ⟨candidate, mem, -⟩ := named
    rw [List.isEmpty_iff.1 empty] at mem
    cases mem
  · refine ⟨_, rfl, ?_⟩
    split
    · rename_i iri found
      exact software_iff.1 (Order.first_some found)
    · rename_i missed
      intro iri named
      obtain ⟨row, mem, answered⟩ := software_iff.2 named
      rw [Order.first_none_iff.1 missed row mem] at answered
      cases answered

theorem software_any (quoted : candidates.all quotable = true) {iri : String}
    (named : Named (NamesClient cfg data issuer) candidates iri) : ∃ order : RowOrder,
      findSoftwareForClientBy cfg data order issuer candidates = .ok (some iri) := by
  obtain ⟨row, mem, answered⟩ := software_iff.2 named
  refine ⟨⟨Order.asStored, Order.asStored, Order.leading (fun other => decide (other = row))⟩, ?_⟩
  obtain ⟨candidate, listed, -⟩ := named
  unfold findSoftwareForClientBy
  rw [if_neg (by simpa using List.ne_nil_of_mem listed), if_pos quoted, Order.first_leading mem answered]

theorem onlyRegistered_unique : AtMostOne (OnlyRegistered cfg data issuer candidates) := by
  intro first second left right
  obtain ⟨row, rows, named⟩ := left
  obtain ⟨other, same, also⟩ := right
  rw [rows, List.singleton_inj] at same
  rw [same, also] at named
  exact (Option.some.inj named).symm

end Lookups

section Bound

variable {cfg : OidcConfig} {issuer : String} {claims : Json} {data : Dataset}

/-- What is bound says which records there are. -/
def Explained (cfg : OidcConfig) (issuer : String) (claims : Json) (data : Dataset) : Option Target → Prop
  | some (.declared iri) => Named (DeclaresClient cfg data issuer) (candidates cfg issuer claims) iri
  | some (.registered iri) => (∀ iri, ¬ Named (DeclaresClient cfg data issuer) (candidates cfg issuer claims) iri) ∧
      OnlyRegistered cfg data issuer (candidates cfg issuer claims) iri
  | some (.software iri) => (∀ iri, ¬ Named (DeclaresClient cfg data issuer) (candidates cfg issuer claims) iri) ∧
      (∀ iri, ¬ OnlyRegistered cfg data issuer (candidates cfg issuer claims) iri) ∧ isPerson cfg issuer claims = false ∧
      Named (NamesClient cfg data issuer) (candidates cfg issuer claims) iri
  | none => (∀ iri, ¬ Named (DeclaresClient cfg data issuer) (candidates cfg issuer claims) iri) ∧
      (∀ iri, ¬ OnlyRegistered cfg data issuer (candidates cfg issuer claims) iri) ∧
      (isPerson cfg issuer claims = false → ∀ iri, ¬ Named (NamesClient cfg data issuer) (candidates cfg issuer claims) iri)

theorem boundBy_ok (quoted : (candidates cfg issuer claims).all quotable = true) (order : RowOrder) :
    ∃ bound, boundBy cfg issuer claims data order = .ok bound ∧ Explained cfg issuer claims data (target bound) := by
  obtain ⟨declared, client, instances⟩ := @clients_ok cfg data issuer _ order quoted
  unfold boundBy
  rw [client]
  cases declared with
  | some binding => exact ⟨_, rfl, instances⟩
  | none =>
    obtain ⟨registered, own, only⟩ := @registered_ok cfg data issuer _ order quoted
    simp only [bind, Except.bind, pure, Except.pure, own]
    cases registered with
    | some binding => exact ⟨_, rfl, instances, only⟩
    | none =>
      simp only []
      cases person : isPerson cfg issuer claims with
      | true => exact ⟨_, rfl, instances, only, fun no => by rw [person] at no; cases no⟩
      | false =>
        obtain ⟨named, software, some_⟩ := @software_ok cfg data issuer _ order quoted
        rw [software]
        cases named with
        | some iri => exact ⟨_, rfl, instances, only, person, some_⟩
        | none => exact ⟨_, rfl, instances, only, fun _ => some_⟩

/-- A candidate that cannot be quoted is refused in every order. -/
theorem boundBy_refused (unquoted : (candidates cfg issuer claims).all quotable ≠ true) (order : RowOrder) :
    boundBy cfg issuer claims data order = .error queryError := by
  have some_ : (candidates cfg issuer claims).isEmpty ≠ true := by
    intro empty
    rw [List.isEmpty_iff.1 empty] at unquoted
    exact unquoted rfl
  unfold boundBy findInstanceForClientBy
  rw [if_neg some_, if_neg unquoted]
  rfl

/-- Two explanations of what is bound name one record. -/
theorem explained_unique (clear : AtMostOne (Named (DeclaresClient cfg data issuer) (candidates cfg issuer claims)))
    (software : (∀ iri, ¬ Named (DeclaresClient cfg data issuer) (candidates cfg issuer claims) iri) →
      (∀ iri, ¬ OnlyRegistered cfg data issuer (candidates cfg issuer claims) iri) → isPerson cfg issuer claims = false →
        AtMostOne (Named (NamesClient cfg data issuer) (candidates cfg issuer claims)))
    {first second : Option Target} (left : Explained cfg issuer claims data first)
    (right : Explained cfg issuer claims data second) : first = second := by
  rcases first with _ | (iri | iri | iri) <;> rcases second with _ | (other | other | other)
  · rfl
  · exact absurd right (left.1 other)
  · exact absurd right.2 (left.2.1 other)
  · exact absurd right.2.2.2 (left.2.2 right.2.2.1 other)
  · exact absurd left (right.1 iri)
  · rw [clear iri other left right]
  · exact absurd left (right.1 iri)
  · exact absurd left (right.1 iri)
  · exact absurd left.2 (right.2.1 iri)
  · exact absurd right (left.1 other)
  · rw [onlyRegistered_unique iri other left.2 right.2]
  · exact absurd left.2 (right.2.1 iri)
  · exact absurd left.2.2.2 (right.2.2 left.2.2.1 iri)
  · exact absurd right (left.1 other)
  · exact absurd right.2 (left.2.1 other)
  · rw [software left.1 left.2.1 left.2.2.1 iri other left.2.2.2 right.2.2.2]

theorem bindable_of_unambiguous (clear : Unambiguous cfg issuer claims data) : Bindable cfg issuer claims data := by
  by_cases quoted : (candidates cfg issuer claims).all quotable = true
  · obtain ⟨clients, software⟩ := clear quoted
    obtain ⟨bound, found, explained⟩ := boundBy_ok quoted ⟨Order.asStored, Order.asStored, Order.asStored⟩
    refine ⟨.ok (target bound), fun order => ?_, fun record same => ?_⟩
    · obtain ⟨other, ordered, also⟩ := @boundBy_ok cfg issuer claims data quoted order
      rw [ordered, explained_unique clients software explained also]
      rfl
    · rw [Except.ok.inj same] at explained
      cases record with
      | declared iri => exact mostSpecific_of_named clients explained
      | registered iri => exact mostSpecific_of_only explained.2
      | software iri =>
        exact mostSpecific_of_named (software explained.1 explained.2.1 explained.2.2.1) explained.2.2.2
  · refine ⟨.error queryError, fun order => ?_, fun record same => nomatch same⟩
    rw [boundBy_refused quoted order]
    rfl

theorem unambiguous_of_bindable (settled : Bindable cfg issuer claims data) : Unambiguous cfg issuer claims data := by
  intro quoted
  obtain ⟨outcome, fixed, -⟩ := settled
  constructor
  · intro first second left right
    obtain ⟨order, binding, found, rfl⟩ := clients_any quoted left
    obtain ⟨order', binding', found', rfl⟩ := clients_any quoted right
    have here := fixed order
    have there := fixed order'
    unfold boundBy at here there
    rw [found] at here
    rw [found', ← here] at there
    exact (Target.declared.inj (Option.some.inj (Except.ok.inj there))).symm
  · intro clients only person first second left right
    have none_ (order : RowOrder) : findInstanceForClientBy cfg data order issuer (candidates cfg issuer claims) = .ok none := by
      obtain ⟨found, client, some_⟩ := @clients_ok cfg data issuer _ order quoted
      cases found with
      | none => exact client
      | some binding => exact absurd some_ (clients _)
    have unregistered (order : RowOrder) :
        findSelfRegisteredInstanceBy cfg data order issuer (candidates cfg issuer claims) = .ok none := by
      obtain ⟨found, own, some_⟩ := @registered_ok cfg data issuer _ order quoted
      cases found with
      | none => exact own
      | some binding => exact absurd some_ (only _)
    obtain ⟨order, found⟩ := software_any quoted left
    obtain ⟨order', found'⟩ := software_any quoted right
    have here := fixed order
    have there := fixed order'
    unfold boundBy at here there
    simp only [bind, Except.bind, none_, unregistered, person, found, found'] at here there
    rw [← here] at there
    exact (Target.software.inj (Option.some.inj (Except.ok.inj there))).symm

end Bound

/-- A token is bound to one record in every order of the rows, the one declared for its most specific
candidate, just when the records it could be bound to are one. -/
theorem bindable_iff_unambiguous (cfg : OidcConfig) (issuer : String) (claims : Json) (data : Dataset) :
    Bindable cfg issuer claims data ↔ Unambiguous cfg issuer claims data :=
  ⟨unambiguous_of_bindable, bindable_of_unambiguous⟩

section Specimen

open Specimen

/-- Two Instances, one under the client id of the token and one under its subject. -/
def twoInstances : Dataset where
  quads := [⟨.named "https://reg.example/instance/a", Ns.t Ns.tar "oidcClientId", .simple "app", Ns.gLocal⟩,
    ⟨.named "https://reg.example/instance/b", Ns.t Ns.tar "oidcClientId", .simple "me", Ns.gLocal⟩]
  nodup := by decide

def oneIssuer : OidcConfig := { issuer := some "https://one.example" }

def azpAndSub : Json := .object [("azp", .string "app"), ("sub", .string "me")]

/-- The store may return the Instance of the subject first, and the token is bound to that. -/
theorem subject_before_client : ¬ Bindable oneIssuer "https://one.example" azpAndSub twoInstances := by
  intro settled
  have one := (unambiguous_of_bindable settled (by decide)).1
  have same := one "https://reg.example/instance/a" "https://reg.example/instance/b"
    ⟨"app", by decide, by decide, none, by decide, by decide⟩
    ⟨"me", by decide, by decide, none, by decide, by decide⟩
  exact absurd same (by decide)

end Specimen

end ToolArtifactRegistry.Laws
