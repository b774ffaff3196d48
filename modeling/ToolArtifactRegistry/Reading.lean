import Mathlib.Data.List.Find
import Mathlib.Data.List.Sort
import ToolArtifactRegistry.Renaming

/-! What the running registry looks up in its tables and its graph, and what it is to find each answer again
under the new base. -/
namespace ToolArtifactRegistry.Rebase

open Library.Rdf Library.Text Library.Replace Ids Store

/-- A column that is never NULL. -/
def Row.text (row : Row) (column : String) : String := (row column).getD ""

def tokenOf (row : Row) : TokenRow where
  id := row.text "id"
  pre := row.text "prefix"
  hash := row.text "hash"
  instanceIri := row "instance_iri"
  softwareIri := row "software_iri"
  scopes := row.text "scopes"
  label := row "label"
  createdBy := row "created_by"
  expiresAt := row "expires_at"
  revokedAt := row "revoked_at"

structure RepositoryStats where
  repo : String
  stars : Option String
  forks : Option String
  lastCommitAt : Option String
  fetchedAt : Option String
  checkedAt : String
  lastError : Option String
  deriving DecidableEq

def statsOf (row : Row) : RepositoryStats where
  repo := row.text "repo"
  stars := row "stars"
  forks := row "forks"
  lastCommitAt := row "last_commit_at"
  fetchedAt := row "fetched_at"
  checkedAt := row.text "checked_at"
  lastError := row "last_error"

/-- Newest first by the time of creation. -/
def newestFirst (left right : Row) : Prop := le (right.text "created_at") (left.text "created_at") = true

instance : DecidableRel newestFirst := fun _ _ => inferInstanceAs (Decidable (_ = true))

def seqOf (row : Row) : Int := ((row "seq").bind parseI64).getD 0

def seqLe (left right : Row) : Prop := seqOf left ≤ seqOf right

instance : DecidableRel seqLe := fun left right => inferInstanceAs (Decidable (seqOf left ≤ seqOf right))

namespace Database

variable (db : Database)

/-- The tables a rebase renames, as the registry reads them. -/
def ops : Ops where
  tokens := (db.rows "api_tokens").map tokenOf
  runKeys := (db.rows "run_keys").map (fun row => ((row.text "external_key", row.text "instance_iri"), row.text "run_iri"))
  artifactKeys := (db.rows "artifact_keys").map (fun row => (row.text "external_key", row.text "artifact_iri"))
  advertised := (db.rows "advertise_idem").map (fun row => row.text "idem_key")

/-- Whether this run, artifact and role are in already. -/
def recognised (runIri artifactIri role : String) : Bool := !(db.ops.claimAdvertisement runIri artifactIri role).1

def listTokens (subject : String) : List Row :=
  ((db.rows "api_tokens").filter (fun row => row "instance_iri" == some subject || row "software_iri" == some subject)).insertionSort
    newestFirst

def tokenByPrefix (pre : String) : Option Row := (db.rows "api_tokens").find? (fun row => row "prefix" == some pre)

def subscription (id : String) : Option Row := (db.rows "subscriptions").find? (fun row => row "id" == some id)

def subscriptionsOf (instanceIri : String) : List Row :=
  ((db.rows "subscriptions").filter (fun row => row "instance_iri" == some instanceIri)).insertionSort newestFirst

def deliveriesSince (subscriptionId : String) (cursor : Int) (limit : Nat) : List Row :=
  (((db.rows "subscription_deliveries").filter
    (fun row => row "subscription_id" == some subscriptionId && decide (cursor < seqOf row))).insertionSort seqLe).take limit

def repositoryStats (softwareIri : String) : Option RepositoryStats :=
  ((db.rows "repository_stats").find? (fun row => row "software_iri" == some softwareIri)).map statsOf

end Database

/-- Where a scan of a JSON text stands. -/
inductive Place where
  | outside
  | inside
  | escaped
  deriving DecidableEq

def Place.next : Place → Char → Place
  | .outside, c => if c = '"' then .inside else .outside
  | .inside, c => if c = '"' then .outside else if c = '\\' then .escaped else .inside
  | .escaped, _ => .inside

/-- A pattern is replaced where it begins a string of the text; the number counts what is left of one. -/
def renameFrom (pattern with_ : List Char) : Place → Nat → List Char → List Char
  | _, _, [] => []
  | place, skip + 1, c :: rest => renameFrom pattern with_ (place.next c) skip rest
  | place, 0, c :: rest =>
    if place = .outside ∧ pattern <+: c :: rest then with_ ++ renameFrom pattern with_ (place.next c) (pattern.length - 1) rest
    else c :: renameFrom pattern with_ (place.next c) 0 rest

/-- The strings of a JSON text that start with the old base, renamed. -/
def renameStrings (old new text : String) : String :=
  String.ofList (renameFrom (Holds.json.spelling old).toList (Holds.json.spelling new).toList .outside 0 text.toList)

/-- Already the new base, or under it. -/
def Taken (new iri : String) : Prop := iri = new ∨ ∃ rest, iri = new ++ "/" ++ rest

/-- The columns of a row that name an IRI of a registry, and those that hold JSON. -/
def iriColumns : List (String × String) :=
  [("api_tokens", "instance_iri"), ("api_tokens", "software_iri"), ("api_tokens", "created_by"),
    ("subscriptions", "instance_iri"), ("subscriptions", "created_by"),
    ("subscription_deliveries", "artifact_iri"), ("subscription_deliveries", "run_iri"),
    ("run_keys", "instance_iri"), ("run_keys", "run_iri"), ("artifact_keys", "artifact_iri")]

def jsonColumns : List (String × String) := [("subscriptions", "filter"), ("subscription_deliveries", "payload")]

/-- A row as it should be found after the move. -/
def movedRow (old new table : String) (row : Row) : Row := fun column =>
  (row column).map (fun value =>
    if (table, column) ∈ iriColumns then moved old new value
    else if (table, column) ∈ jsonColumns then renameStrings old new value
    else value)

/-- Every lookup finds under the new names what it found under the old ones. -/
structure Moved (old new : String) (before after : Holdings) : Prop where
  run : ∀ key inst, ¬Taken new inst →
    after.db.ops.runForKey key (moved old new inst) = (before.db.ops.runForKey key inst).map (moved old new)
  artifact : ∀ key, after.db.ops.artifactForKey key = (before.db.ops.artifactForKey key).map (moved old new)
  advertised : ∀ run artifact role, ¬Taken new run → ¬Taken new artifact →
    '|' ∉ run.toList → '|' ∉ artifact.toList → '|' ∉ role.toList →
    after.db.recognised (moved old new run) (moved old new artifact) role = before.db.recognised run artifact role
  tokens : ∀ subject, ¬Taken new subject →
    after.db.listTokens (moved old new subject) = (before.db.listTokens subject).map (movedRow old new "api_tokens")
  token : ∀ pre, after.db.tokenByPrefix pre = (before.db.tokenByPrefix pre).map (movedRow old new "api_tokens")
  subscription : ∀ id, after.db.subscription id = (before.db.subscription id).map (movedRow old new "subscriptions")
  subscriptions : ∀ inst, ¬Taken new inst →
    after.db.subscriptionsOf (moved old new inst) = (before.db.subscriptionsOf inst).map (movedRow old new "subscriptions")
  deliveries : ∀ id cursor limit, after.db.deliveriesSince id cursor limit =
    (before.db.deliveriesSince id cursor limit).map (movedRow old new "subscription_deliveries")
  stats : ∀ software, ¬Taken new software →
    after.db.repositoryStats (moved old new software) = before.db.repositoryStats software
  described : ∀ subject, ¬Taken new subject → ∀ quad, quad ∈ describeQuads after.data (moved old new subject) ↔
    ∃ source ∈ describeQuads before.data subject, quad = mapQuad (moved old new) source

end ToolArtifactRegistry.Rebase
