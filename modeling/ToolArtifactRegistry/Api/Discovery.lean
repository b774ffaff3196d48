import ToolArtifactRegistry.Auth.Authenticate
import ToolArtifactRegistry.Library.Looking
import ToolArtifactRegistry.PeerTable

/-! How peers are found: adding one, the peers it knows, and what announces itself. Each request runs
statement by statement on the peers table, and others may come between. -/
namespace ToolArtifactRegistry.Api.Discovery

open Library.Programs Ids Auth PeerTable

inductive Call where
  | getPeer (key : String)
  | upsertPeer (row : PeerRow)
  | deletePeer (id : String)

def Call.Reply : Call → Type
  | .getPeer _ => Option PeerRow
  | .upsertPeer _ => Except String Unit
  | .deletePeer _ => Unit

def perform : (call : Call) → Peers → call.Reply × Peers
  | .getPeer key, peers => (peers.get key, peers)
  | .upsertPeer row, peers => peers.upsert row
  | .deletePeer id, peers => ((), peers.delete id)

abbrev table : System where
  State := Peers
  Call := Call
  Reply := Call.Reply
  perform := perform

structure AddPeer where
  baseUrl : String
  preview : Bool := false

structure PeerStub where
  baseIri : String
  title : Option String := none

/-- What a registry says about itself. -/
structure WellKnown where
  title : Option String := none
  operator : Option String := none
  baseIri : Option String := none
  softwareVersion : Option String := none
  peers : List PeerStub := []

structure Announce where
  baseUrl : String
  title : Option String := none

inductive Answer where
  | preview (baseIri : String) (title operator softwareVersion : Option String) (peersOfPeer : List String)
  | added (record : PeerRow)
  | refused (reason : String)
  | accepted (state note : String)
  | removed

abbrev Handler := Program table (AppResult Answer)

/-- A row nobody has confirmed, never seen and not yet known to resolve. -/
def suggestion (id now base : String) (title : Option String) (suggestedBy : String) : PeerRow where
  id := id
  baseIri := base
  title := title
  operator := none
  addedAt := now
  lastSeenAt := none
  resolveStatus := "unknown"
  lastError := none
  recordCount := 0
  state := "suggested"
  suggestedBy := some suggestedBy

/-- The peer that was looked at, as it is kept from now on; an id, a date and a count it has stand. -/
def recordOf (id now base : String) (known : WellKnown) (existing : Option PeerRow) : PeerRow where
  id := (existing.map PeerRow.id).getD id
  baseIri := base
  title := known.title
  operator := known.operator
  addedAt := (existing.map PeerRow.addedAt).getD now
  lastSeenAt := some now
  resolveStatus := "ok"
  lastError := none
  recordCount := (existing.map PeerRow.recordCount).getD 0
  state := "active"
  suggestedBy := none

section

-- the base IRI of this registry
variable (own : String)

/-- Peers of a peer become suggestions unless they are known, or this registry itself. -/
def suggestPeers (draw : Draw) (source : String) : List (PeerStub × Nat) → Program table Unit
  | [] => pure ()
  | (stub, place) :: rest =>
    if trimSlash stub.baseIri = own then suggestPeers draw source rest
    else do
      match ← Program.ask (S := table) (.getPeer (trimSlash stub.baseIri)) with
      | some _ => suggestPeers draw source rest
      | none =>
        let _ ← Program.ask (S := table) (.upsertPeer
          (suggestion ((draw.site (place + 1)).id []) draw.now (trimSlash stub.baseIri) stub.title source))
        suggestPeers draw source rest

def mismatch (advertised given : String) : AppError :=
  AppError.conflict ("peer advertises base IRI " ++ advertised ++ ", which is not the URL given (" ++ given ++
    "); cross-links would not resolve")

/-- The base an administrator gave, and the document found there; the two must name one base. -/
def checked (principal : Principal) (input : AddPeer) (wellKnown : AppResult WellKnown) :
    AppResult (String × WellKnown) := do
  principal.requireAdmin
  let base := trimSlash input.baseUrl
  if base = own then .error (AppError.badRequest "that is this registry")
  let known ← wellKnown
  match known.baseIri with
  | some advertised => if trimSlash advertised ≠ base then .error (mismatch advertised base) else return (base, known)
  | none => return (base, known)

/-- Keep a peer whose self-description has been fetched, and suggest its peers. -/
def add (draw : Draw) (principal : Principal) (input : AddPeer) (wellKnown : AppResult WellKnown) : Handler :=
  match checked own principal input wellKnown with
  | .error e => pure (.error e)
  | .ok (base, known) =>
    if input.preview then
      pure (.ok (.preview base known.title known.operator known.softwareVersion (known.peers.map PeerStub.baseIri)))
    else do
      let existing ← Program.ask (S := table) (.getPeer base)
      let record := recordOf ((draw.site 0).id []) draw.now base known existing
      match ← Program.ask (S := table) (.upsertPeer record) with
      | .error e => pure (.error (AppError.internal e))
      | .ok _ => do
        suggestPeers own draw base known.peers.zipIdx
        pure (.ok (.added record))

/-- What announces itself is suggested, unless it is known. -/
def announce (draw : Draw) (input : Announce) : Handler :=
  let base := trimSlash input.baseUrl
  if base = own then pure (.ok (.refused "that is this registry"))
  else do
    match ← Program.ask (S := table) (.getPeer base) with
    | some existing => pure (.ok (.accepted existing.state "already known"))
    | none =>
      match ← Program.ask (S := table) (.upsertPeer (suggestion (draw.id []) draw.now base input.title "announce")) with
      | .error e => pure (.error (AppError.internal e))
      | .ok _ => pure (.ok (.accepted "suggested" "queued for admin review"))

end

/-- A peer goes with its graph; dropping the graph comes first and may fail. -/
def remove (principal : Principal) (id : String) (dropped : AppResult Unit) : Handler :=
  match principal.requireAdmin with
  | .error e => pure (.error e)
  | .ok _ => do
    match ← Program.ask (S := table) (.getPeer id) with
    | none => pure (.error (AppError.notFound ("no peer " ++ id)))
    | some peer =>
      match dropped with
      | .error e => pure (.error e)
      | .ok _ => do
        let _ ← Program.ask (S := table) (.deletePeer peer.id)
        pure (.ok .removed)

inductive Request where
  | announce (draw : Draw) (input : Announce)
  | add (draw : Draw) (principal : Principal) (input : AddPeer) (wellKnown : AppResult WellKnown)
  | remove (principal : Principal) (id : String) (dropped : AppResult Unit)

def handle (own : String) : Request → Handler
  | .announce draw input => announce own draw input
  | .add draw principal input wellKnown => add own draw principal input wellKnown
  | .remove principal id dropped => remove principal id dropped

/-- A suggestion rests on its base not being known. -/
def restsOn : Call → Peers → Prop
  | .upsertPeer row, peers => row.state = "suggested" → peers.Unknown row.baseIri
  | _, _ => True

end ToolArtifactRegistry.Api.Discovery
