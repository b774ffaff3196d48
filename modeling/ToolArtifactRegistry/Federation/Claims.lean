import Mathlib.Data.List.Perm.Subperm
import ToolArtifactRegistry.Library.Tables
import ToolArtifactRegistry.Library.Text

/-! The ids of federated queries a registry has handled: a claim inserts a row, sweeps what has
expired and cuts the table to a cap. Times are counted in nanoseconds and stored as texts. -/
namespace ToolArtifactRegistry.Federation

open Library.Tables Library.Text

structure SeenQuery where
  queryId : String
  firstSeenAt : String
  expiresAt : String
  origin : Option String
  receivedFrom : Option String
  repeatCount : Nat
  deriving DecidableEq

/-- What the claims rest on: the text of a time, ordered as the times are, and the order in which the
engine returns rows newest first; how it places rows of one time is its own choice. -/
structure Engine where
  stamp : Nat → String
  ordered : ∀ earlier later, le (stamp earlier) (stamp later) = decide (earlier ≤ later)
  newestFirst : List SeenQuery → List SeenQuery
  perm : ∀ rows, (newestFirst rows).Perm rows
  sorted : ∀ rows, (newestFirst rows).Pairwise (fun above below => le below.firstSeenAt above.firstSeenAt = true)

inductive Claim where
  | fresh
  | alreadyHandled (firstSeenAt : String) (repeatCount : Nat)
  deriving DecidableEq

def Claim.isFresh : Claim → Bool
  | .fresh => true
  | .alreadyHandled .. => false

/-- The longest duration the calendar takes, in nanoseconds; a longer one becomes ten minutes. -/
def longest : Nat := (2 ^ 63 - 1) * 1000000

def fromStd (ttl : Nat) : Nat := if ttl ≤ longest then ttl else 600000000000

/-- A row for the id is held. -/
def holds (rows : List SeenQuery) (queryId : String) : Bool := rows.any (fun row => row.queryId == queryId)

/-- The insert that decides a race: a row whose id is taken is ignored. -/
def insertOrIgnore (rows : List SeenQuery) (row : SeenQuery) : List SeenQuery × Bool :=
  if holds rows row.queryId then (rows, false) else (rows ++ [row], true)

/-- The rows whose expiry lies before now are deleted. -/
def sweep (now : String) (rows : List SeenQuery) : List SeenQuery :=
  deleteWhere (fun row => !le now row.expiresAt) rows

/-- The ids of the rows after the newest `maxRows`; a negative offset counts as none. -/
def overflow (engine : Engine) (maxRows : Int) (rows : List SeenQuery) : List String :=
  ((engine.newestFirst rows).drop maxRows.toNat).map SeenQuery.queryId

def cap (engine : Engine) (maxRows : Int) (rows : List SeenQuery) : List SeenQuery :=
  deleteWhere (fun row => (overflow engine maxRows rows).contains row.queryId) rows

def countRepeat (queryId : String) (rows : List SeenQuery) : List SeenQuery :=
  updateWhere (fun row => row.queryId == queryId) (fun row => { row with repeatCount := row.repeatCount + 1 }) rows

def seenQuery (rows : List SeenQuery) (queryId : String) : Option SeenQuery :=
  rows.find? (fun row => row.queryId == queryId)

def newRow (engine : Engine) (now ttl : Nat) (queryId : String) (origin receivedFrom : Option String) : SeenQuery where
  queryId := queryId
  firstSeenAt := engine.stamp now
  expiresAt := engine.stamp (now + fromStd ttl)
  origin := origin
  receivedFrom := receivedFrom
  repeatCount := 0

/-- What a claim that lost the insert reads: a row that has gone in between counts as fresh. -/
def answer (rows : List SeenQuery) (queryId : String) : Claim :=
  match seenQuery rows queryId with
  | some row => .alreadyHandled row.firstSeenAt row.repeatCount
  | none => .fresh

/-- One claim from its insert to its answer, with no other statement in between. -/
def claimQuery (engine : Engine) (now ttl : Nat) (maxRows : Int) (rows : List SeenQuery) (queryId : String)
    (origin receivedFrom : Option String) : List SeenQuery × Claim :=
  match insertOrIgnore rows (newRow engine now ttl queryId origin receivedFrom) with
  | (rows, true) => (cap engine maxRows (sweep (engine.stamp now) rows), .fresh)
  | (rows, false) => (countRepeat queryId rows, answer (countRepeat queryId rows) queryId)

theorem holds_iff {rows : List SeenQuery} {queryId : String} :
    holds rows queryId = true ↔ ∃ row ∈ rows, row.queryId = queryId := by simp [holds]

theorem insertOrIgnore_taken {rows : List SeenQuery} {row : SeenQuery} (taken : holds rows row.queryId = true) :
    insertOrIgnore rows row = (rows, false) := by
  unfold insertOrIgnore
  rw [if_pos taken]

theorem insertOrIgnore_free {rows : List SeenQuery} {row : SeenQuery} (free : holds rows row.queryId = false) :
    insertOrIgnore rows row = (rows ++ [row], true) := by
  unfold insertOrIgnore
  rw [if_neg (by rw [free]; decide)]

theorem mem_sweep {now : String} {rows : List SeenQuery} {row : SeenQuery} :
    row ∈ sweep now rows ↔ row ∈ rows ∧ le now row.expiresAt = true := by
  unfold sweep
  rw [mem_deleteWhere, Bool.not_eq_false']

theorem mem_cap {engine : Engine} {maxRows : Int} {rows : List SeenQuery} {row : SeenQuery} :
    row ∈ cap engine maxRows rows ↔ row ∈ rows ∧ row.queryId ∉ overflow engine maxRows rows := by
  unfold cap
  rw [mem_deleteWhere, ← Bool.not_eq_true, List.contains_iff_mem]

theorem keyed_append {rows : List SeenQuery} {row : SeenQuery} (keyed : Keyed SeenQuery.queryId rows)
    (free : holds rows row.queryId = false) : Keyed SeenQuery.queryId (rows ++ [row]) := by
  apply keyed.append
  intro held mem same
  rw [holds_iff.mpr ⟨held, mem, same⟩] at free
  cases free

theorem holds_countRepeat (rows : List SeenQuery) (counted queryId : String) :
    holds (countRepeat counted rows) queryId = holds rows queryId := by
  have column : (countRepeat counted rows).map SeenQuery.queryId = rows.map SeenQuery.queryId :=
    map_updateWhere rows (fun _ => rfl)
  have read (table : List SeenQuery) : holds table queryId = (table.map SeenQuery.queryId).any (fun id => id == queryId) := by
    rw [List.any_map]
    rfl
  rw [read, read, column]

/-- A lost insert is answered with a refusal as long as the row that blocked it is there to be read. -/
theorem answer_isFresh (rows : List SeenQuery) (queryId : String) : (answer rows queryId).isFresh = !holds rows queryId := by
  unfold answer seenQuery
  cases found : rows.find? (fun row => row.queryId == queryId) with
  | some row =>
    have named : row.queryId = queryId := by simpa using List.find?_some found
    have held := holds_iff.mpr ⟨row, List.mem_of_find?_eq_some found, named⟩
    rw [held]
    rfl
  | none =>
    have free : holds rows queryId = false := by
      unfold holds
      rw [List.any_eq_false]
      exact List.find?_eq_none.mp found
    rw [free]
    rfl

/-- A claim is fresh exactly when no row holds its id. -/
theorem claimQuery_isFresh (engine : Engine) (now ttl : Nat) (maxRows : Int) (rows : List SeenQuery)
    (queryId : String) (origin receivedFrom : Option String) :
    (claimQuery engine now ttl maxRows rows queryId origin receivedFrom).2.isFresh = !holds rows queryId := by
  unfold claimQuery
  cases taken : holds rows queryId with
  | true =>
    rw [@insertOrIgnore_taken _ (newRow engine now ttl queryId origin receivedFrom) taken]
    simp only [answer_isFresh, holds_countRepeat, taken]
  | false =>
    rw [@insertOrIgnore_free _ (newRow engine now ttl queryId origin receivedFrom) taken]
    rfl

/-- What is kept at the cap stands above the cut, what goes stands below it. -/
theorem cut_at_cap {engine : Engine} {maxRows : Int} {rows : List SeenQuery} (keyed : Keyed SeenQuery.queryId rows)
    {row : SeenQuery} (mem : row ∈ rows) :
    (row ∈ cap engine maxRows rows → row ∈ (engine.newestFirst rows).take maxRows.toNat) ∧
      (row ∉ cap engine maxRows rows → row ∈ (engine.newestFirst rows).drop maxRows.toNat) := by
  constructor
  · intro kept
    have anywhere : row ∈ engine.newestFirst rows := (engine.perm rows).mem_iff.mpr mem
    rw [← List.take_append_drop maxRows.toNat (engine.newestFirst rows), List.mem_append] at anywhere
    rcases anywhere with above | below
    · exact above
    · exact absurd (List.mem_map_of_mem below) (mem_cap.mp kept).2
  · intro gone
    have listed : row.queryId ∈ overflow engine maxRows rows := by
      by_contra clear
      exact gone (mem_cap.mpr ⟨mem, clear⟩)
    obtain ⟨other, below, same⟩ := List.mem_map.mp listed
    have held : other ∈ rows := (engine.perm rows).mem_iff.mp (List.mem_of_mem_drop below)
    rw [← keyed.eq held mem same]
    exact below

/-- The table never outgrows the cap. -/
theorem length_cap {engine : Engine} {maxRows : Int} {rows : List SeenQuery} (keyed : Keyed SeenQuery.queryId rows) :
    (cap engine maxRows rows).length ≤ maxRows.toNat := by
  have inside : cap engine maxRows rows ⊆ (engine.newestFirst rows).take maxRows.toNat := by
    intro row kept
    exact (cut_at_cap keyed (mem_cap.mp kept).1).1 kept
  have apart : (cap engine maxRows rows).Nodup := List.Nodup.of_map SeenQuery.queryId keyed.deleteWhere
  exact (List.subperm_of_subset apart inside).length_le.trans (List.length_take_le _ _)

end ToolArtifactRegistry.Federation
