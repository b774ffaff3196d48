import ToolArtifactRegistry.Library.Text

/-! Identifier minting and parsing. -/
namespace ToolArtifactRegistry.Ids

open Library.Text

inductive Kind where
  | software
  | release
  | instance_
  | artifact
  | artifactSeries
  | run
  | type
  | distribution
  | capability
  | agent
  | peer
  deriving DecidableEq, Repr

def Kind.segment : Kind → String
  | .software => "software"
  | .release => "release"
  | .instance_ => "instance"
  | .artifact => "artifact"
  | .artifactSeries => "artifact-series"
  | .run => "run"
  | .type => "type"
  | .distribution => "distribution"
  | .capability => "capability"
  | .agent => "agent"
  | .peer => "peer"

def Kind.fromSegment : String → Option Kind
  | "software" => some .software
  | "release" => some .release
  | "instance" => some .instance_
  | "instances" => some .instance_
  | "artifact" => some .artifact
  | "artifacts" => some .artifact
  | "artifact-series" => some .artifactSeries
  | "run" => some .run
  | "runs" => some .run
  | "type" => some .type
  | "types" => some .type
  | "distribution" => some .distribution
  | "capability" => some .capability
  | "agent" => some .agent
  | "peer" => some .peer
  | "peers" => some .peer
  | _ => none

/-- What a request draws from outside: an identifier, a blank node label and a random text for
every call site of `new_id`, `BlankNode::default` and `OsRng`, and the clock with the time thirty
days before it. A site is a path through the calls, so two sites never share a draw. -/
structure Draw where
  id : List Nat → String
  blank : List Nat → String
  random : List Nat → String
  now : String
  since : String

/-- The draws left to a call made at this site. -/
def Draw.site (draw : Draw) (place : Nat) : Draw where
  id path := draw.id (place :: path)
  blank path := draw.blank (place :: path)
  random path := draw.random (place :: path)
  now := draw.now
  since := draw.since

def trimSlash (text : String) : String := trimEndMatches text (fun c => c == '/')

def iriOf (base : String) (kind : Kind) (id : String) : String :=
  trimSlash base ++ "/" ++ kind.segment ++ "/" ++ id

def mint (base : String) (kind : Kind) (draw : Draw) : String := iriOf base kind (draw.id [])

def isHttp (id : String) : Bool := startsWith id "http://" || startsWith id "https://"

/-- Rebuild an IRI from a local id; a full IRI in a path position stands for itself. -/
def iriFor (base : String) (kind : Kind) (id : String) : String :=
  if isHttp id then id else iriOf base kind id

def localId (base iri : String) : Option (Kind × String) := do
  let rest ← stripPrefix iri (trimSlash base)
  let rest ← stripPrefix rest "/"
  let (segment, id) ← splitOnce rest '/'
  let kind ← Kind.fromSegment segment
  if id = "" ∨ '/' ∈ id.toList then none else some (kind, id)

def isLocal (base iri : String) : Bool := (localId base iri).isSome

/-- The last non-empty piece after a `#` or a `/`. -/
def iriTail (iri : String) : String :=
  ((split iri (fun c => c == '#' || c == '/')).reverse.find? (fun piece => piece != "")).getD iri

theorem iriFor_of_isHttp {base id : String} {kind : Kind} (http : isHttp id = true) :
    iriFor base kind id = id := by simp [iriFor, http]

example : localId "https://reg.example.org" (iriOf "https://reg.example.org/" .software "01a") =
    some (.software, "01a") := by decide

end ToolArtifactRegistry.Ids
