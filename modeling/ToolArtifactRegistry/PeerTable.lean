import ToolArtifactRegistry.Library.Tables
import ToolArtifactRegistry.Domain.Context

/-! The peers table: one row for a base IRI, written by an insert that turns into an update where the
base is held. -/
namespace ToolArtifactRegistry.PeerTable

open Library.Tables Library.Text Domain

structure PeerRow where
  id : String
  baseIri : String
  title : Option String
  operator : Option String
  addedAt : String
  lastSeenAt : Option String
  resolveStatus : String
  lastError : Option String
  recordCount : Nat
  state : String
  suggestedBy : Option String
  deriving DecidableEq

/-- The table with its primary key and its unique column. -/
structure Peers where
  rows : List PeerRow
  ids : Keyed PeerRow.id rows
  bases : Keyed PeerRow.baseIri rows

def Peers.empty : Peers := ⟨[], List.nodup_nil, List.nodup_nil⟩

/-- What a second insert of a base puts over the row that is held. -/
def PeerRow.overwrite (held excluded : PeerRow) : PeerRow :=
  { held with
    title := excluded.title
    operator := excluded.operator
    lastSeenAt := excluded.lastSeenAt
    resolveStatus := excluded.resolveStatus
    lastError := excluded.lastError
    state := excluded.state }

namespace Peers

variable (peers : Peers)

/-- The row under an id or a base IRI. -/
def get (key : String) : Option PeerRow := peers.rows.find? (fun row => decide (row.id = key ∨ row.baseIri = key))

def overwriteWhere (row : PeerRow) : Peers where
  rows := updateWhere (fun held => held.baseIri == row.baseIri) (fun held => held.overwrite row) peers.rows
  ids := peers.ids.updateWhere (fun _ => rfl)
  bases := peers.bases.updateWhere (fun _ => rfl)

def insert (row : PeerRow) (newId : ∀ held ∈ peers.rows, held.id ≠ row.id)
    (newBase : ∀ held ∈ peers.rows, held.baseIri ≠ row.baseIri) : Peers where
  rows := peers.rows ++ [row]
  ids := peers.ids.append newId
  bases := peers.bases.append newBase

/-- Insert, or on a conflict of the base update; an id that another base has is refused. -/
def upsert (row : PeerRow) : Except String Unit × Peers :=
  if newBase : ∀ held ∈ peers.rows, held.baseIri ≠ row.baseIri then
    if newId : ∀ held ∈ peers.rows, held.id ≠ row.id then (.ok (), peers.insert row newId newBase)
    else (.error "UNIQUE constraint failed: peers.id", peers)
  else (.ok (), peers.overwriteWhere row)

def delete (id : String) : Peers where
  rows := deleteWhere (fun row => row.id == id) peers.rows
  ids := peers.ids.deleteWhere
  bases := peers.bases.deleteWhere

/-- No row has this base. -/
def Unknown (base : String) : Prop := ∀ row ∈ peers.rows, row.baseIri ≠ base

theorem unknown_of_get {key : String} (missed : peers.get key = none) : peers.Unknown key := by
  intro row mem same
  have other := List.find?_eq_none.1 missed row mem
  simp [same] at other

theorem unknown_delete {id base : String} (unknown : peers.Unknown base) : (peers.delete id).Unknown base :=
  forall_deleteWhere unknown

/-- A write of one base leaves what is not known of the others unknown. -/
theorem unknown_upsert {row : PeerRow} {base : String} (unknown : peers.Unknown base) (other : row.baseIri ≠ base) :
    (peers.upsert row).2.Unknown base := by
  unfold upsert
  split
  · split
    · exact forall_append unknown other
    · exact unknown
  · exact forall_updateWhere unknown (fun held _ _ elsewhere => elsewhere)

/-- Where the base is not known, the rows that are held stay as they are. -/
theorem mem_upsert_of_unknown {row held : PeerRow} (unknown : peers.Unknown row.baseIri) (mem : held ∈ peers.rows) :
    held ∈ (peers.upsert row).2.rows := by
  unfold upsert
  split
  · split
    · exact List.mem_append_left _ mem
    · exact mem
  · rename_i known
    exact absurd unknown known

end Peers

/-- How the table is listed: the newest rows first, those of one time in an order of the engine's own; and
whether a row was last heard from too long ago, by the clock. -/
structure Reading where
  newestFirst : List PeerRow → List PeerRow
  perm : ∀ rows, (newestFirst rows).Perm rows
  sorted : ∀ rows, (newestFirst rows).Pairwise (fun above below => le below.addedAt above.addedAt = true)
  stale : PeerRow → Bool

def PeerRow.record (row : PeerRow) (stale : PeerRow → Bool) : PeerRecord where
  id := row.id
  baseIri := row.baseIri
  title := row.title
  lastSeenAt := row.lastSeenAt
  resolveStatus := row.resolveStatus
  recordCount := row.recordCount
  stale := stale row

@[simp] theorem PeerRow.record_id (row : PeerRow) (stale : PeerRow → Bool) : (row.record stale).id = row.id := rfl

@[simp] theorem PeerRow.record_baseIri (row : PeerRow) (stale : PeerRow → Bool) :
    (row.record stale).baseIri = row.baseIri := rfl

def Peers.list (peers : Peers) (reading : Reading) : List PeerRecord :=
  (reading.newestFirst peers.rows).map (fun row => row.record reading.stale)

theorem Peers.mem_list {peers : Peers} {reading : Reading} {record : PeerRecord} :
    record ∈ peers.list reading ↔ ∃ row ∈ peers.rows, row.record reading.stale = record := by
  unfold Peers.list
  rw [List.mem_map]
  simp only [(reading.perm peers.rows).mem_iff]

end ToolArtifactRegistry.PeerTable
