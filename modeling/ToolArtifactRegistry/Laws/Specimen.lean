import ToolArtifactRegistry.Dispatch
import ToolArtifactRegistry.RegistryPrints

/-! A small registry: the inputs at which the laws below are evaluated. -/
namespace ToolArtifactRegistry.Laws.Specimen

open Library.Rdf Library.Text Library.Serde Ids Model Auth Registry

/-- Every write conforms, a token's text is its own hash, and a JWT's claims are read off a table. -/
def platform (tokens : List (String × Json)) : Platform where
  validIri iri := startsWith iri "http" || startsWith iri "urn:"
  rfc3339 text := some text
  violations _ _ := none
  unknownTerms _ _ := none
  printJson _ := "json"
  turtle _ _ := .ok []
  decodeMessage _ := "decode"
  jwtPayload token := findEntry tokens token
  jwtClaims _ _ token := match findEntry tokens token with
    | some claims => .ok claims
    | none => .error "unknown"
  verifySecret presented hash := presented == hash
  hashSecret text := text
  expired _ _ := false
  later now _ := some now
  digest16 texts := join "" texts
  decodeDigest text _ := some text
  alphanumeric c := c.isAlphanum
  lowercase c := [c.toLower]
  uppercase c := [c.toUpper]
  quoted text := text

/-- A registry that trusts two clusters, with these tokens in circulation. -/
def registry (tokens : List (String × Json)) : Server where
  platform := platform tokens
  config :=
    { baseIri := "https://reg.example", http := Or.inr (by decide), rootToken := some "root"
      oidc := { workloadIssuers := ["https://one.example", "https://two.example"] } }
  calendar := { atOrAfter := fun _ _ => true, latest := fun _ => none, duration := fun _ _ => none }
  reference := Dataset.empty

/-- Draws named by a label and their site. -/
def draw (label : String) : Draw where
  id path := label ++ String.ofList (path.map (fun place => Char.ofNat (97 + place)))
  blank path := label ++ String.ofList (path.map (fun place => Char.ofNat (97 + place)))
  random path := label ++ String.ofList (path.map (fun place => Char.ofNat (97 + place)))
  now := "2026-01-01T00:00:00Z"
  since := "2025-12-02T00:00:00Z"

/-- A path in unary, so that no two are written alike. -/
def unary (path : List Nat) : List Char := path.flatMap (fun place => List.replicate place 'x' ++ ['.'])

theorem unary_inj : Function.Injective unary := by
  have first (n : Nat) (rest : List Char) : (List.replicate n 'x' ++ '.' :: rest).takeWhile (· == 'x') =
      List.replicate n 'x' := by
    induction n with
    | zero => rfl
    | succ n ih => rw [List.replicate_succ, List.cons_append, List.takeWhile_cons_of_pos rfl, ih]
  intro left
  induction left with
  | nil =>
    intro right same
    cases right with
    | nil => rfl
    | cons place rest => simp [unary] at same
  | cons place rest ih =>
    intro right same
    cases right with
    | nil => simp [unary] at same
    | cons other more =>
      simp only [unary, List.flatMap_cons, List.append_assoc, List.singleton_append] at same
      have runs := congrArg (List.takeWhile (· == 'x')) same
      rw [first, first] at runs
      have places : place = other := by
        have lengths := congrArg List.length runs
        rwa [List.length_replicate, List.length_replicate] at lengths
      rw [places, List.append_cancel_left_eq, List.cons.injEq] at same
      rw [places, ih same.2]

/-- Numbered draws, none of which repeats another. -/
def serial (number : Nat) : Draw where
  id path := String.ofList (unary (number :: path))
  blank path := String.ofList (unary (number :: path))
  random path := String.ofList (unary (number :: path))
  now := "2026-01-01T00:00:00Z"
  since := "2025-12-02T00:00:00Z"

theorem serial_id_inj {first second : Nat} {p q : List Nat} (same : (serial first).id p = (serial second).id q) :
    first = second ∧ p = q := by
  have paths := unary_inj (String.ofList_injective same)
  exact List.cons.injEq _ _ _ _ ▸ paths

theorem marked_ne_empty (text : String) : "#" ++ text ≠ "" := by
  intro same
  have chars := congrArg String.toList same
  rw [String.toList_append] at chars
  exact absurd chars (List.cons_ne_nil _ _)

theorem marked_inj {mark left right : String} (same : mark ++ left = mark ++ right) : left = right := by
  have chars := congrArg String.toList same
  rw [String.toList_append, String.toList_append] at chars
  exact String.toList_inj.mp (List.append_cancel_left chars)

def byRoot (label : String) (action : Action) : Event := .request (some "root") (draw label) action

/-- A numbered request. -/
def numbered (credential : String) (number : Nat) (action : Action) : Event := .request (some credential) (serial number) action

/-- Texts are their own lower case, no clock moves on, and every address may be called. -/
def courier : Api.Subscriptions.Courier where
  lower text := text
  later now _ := now
  webhookUrl url := .ok url
  recordJson _ := .null

/-- A request whose matches are numbered without gaps. -/
def served (label : String) (action : Action) : Dispatch.Event := .registry (byRoot label action) (fun _ _ => 0)

end ToolArtifactRegistry.Laws.Specimen
