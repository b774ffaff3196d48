import Mathlib.Data.List.Dedup
import Mathlib.Data.List.Sort
import ToolArtifactRegistry.Federation.Claims
import ToolArtifactRegistry.Library.Runs

/-! How long a query id stays claimed. A row outlives its expiry until some other id is claimed, and
an id that comes back before that is still refused. -/
namespace ToolArtifactRegistry.Laws

open Library.Runs Library.Tables Library.Text Federation

structure Call where
  now : Nat
  queryId : String
  origin : Option String
  receivedFrom : Option String

/-- A claim that was made, and whether it was fresh. -/
structure Entry where
  now : Nat
  queryId : String
  fresh : Bool
  deriving DecidableEq

/-- The table, and the claims so far with the latest first. -/
structure Ledger where
  rows : List SeenQuery := []
  past : List Entry := []

section Claims

variable (engine : Engine) (ttl : Nat) (maxRows : Int)

def Ledger.claim (ledger : Ledger) (call : Call) : List SeenQuery × Claim :=
  claimQuery engine call.now ttl maxRows ledger.rows call.queryId call.origin call.receivedFrom

def Ledger.step (ledger : Ledger) (call : Call) : Ledger where
  rows := (ledger.claim engine ttl maxRows call).1
  past := ⟨call.now, call.queryId, (ledger.claim engine ttl maxRows call).2.isFresh⟩ :: ledger.past

/-- How many other ids were claimed in some entries. -/
def others (entries : List Entry) (queryId : String) : Nat :=
  ((entries.filter (fun entry => entry.fresh && entry.queryId != queryId)).map Entry.queryId).dedup.length

/-- The id was claimed no longer ago than its lifetime, and fewer other ids than the cap since. -/
def Held (past : List Entry) (queryId : String) (now : Nat) : Prop :=
  ∃ after entry before, past = after ++ entry :: before ∧ entry.queryId = queryId ∧ entry.fresh = true ∧
    now ≤ entry.now + ttl ∧ (others after queryId : Int) < maxRows

/-- A row of the id is held although it has expired. -/
def Lingers (rows : List SeenQuery) (queryId : String) (now : Nat) : Prop :=
  ∃ row ∈ rows, row.queryId = queryId ∧ le (engine.stamp now) row.expiresAt = false

/-- The table as it stands when a fresh claim comes to cut it. -/
def Ledger.swept (ledger : Ledger) (call : Call) : List SeenQuery :=
  sweep (engine.stamp call.now)
    (ledger.rows ++ [newRow engine call.now ttl call.queryId call.origin call.receivedFrom])

/-- No row above the cut was inserted at the same time as one below it. -/
def Untied (ledger : Ledger) (call : Call) : Prop :=
  ∀ above ∈ (engine.newestFirst (ledger.swept engine ttl call)).take maxRows.toNat,
    ∀ below ∈ (engine.newestFirst (ledger.swept engine ttl call)).drop maxRows.toNat,
      above.firstSeenAt ≠ below.firstSeenAt

/-- The clock has not gone back since the claims before, and the cut, if there is one, divides no time. -/
def Clear (ledger : Ledger) (call : Call) : Prop :=
  (∀ entry ∈ ledger.past, entry.now ≤ call.now) ∧ Untied engine ttl maxRows ledger call

instance (ledger : Ledger) (call : Call) : Decidable (Clear engine ttl maxRows ledger call) :=
  inferInstanceAs (Decidable ((∀ entry ∈ ledger.past, entry.now ≤ call.now) ∧
    ∀ above ∈ (engine.newestFirst (ledger.swept engine ttl call)).take maxRows.toNat,
      ∀ below ∈ (engine.newestFirst (ledger.swept engine ttl call)).drop maxRows.toNat,
        above.firstSeenAt ≠ below.firstSeenAt))

/-- The row an entry left, with no fresh claim of its id after it. -/
structure Records (row : SeenQuery) (after : List Entry) (entry : Entry) : Prop where
  fresh : entry.fresh = true
  named : entry.queryId = row.queryId
  seen : row.firstSeenAt = engine.stamp entry.now
  expires : row.expiresAt = engine.stamp (entry.now + ttl)
  latest : ∀ later ∈ after, later.fresh = true → later.queryId ≠ row.queryId

/-- Some entry after this one was made past its lifetime. -/
def Expired (after : List Entry) (entry : Entry) : Prop := ∃ later ∈ after, entry.now + ttl < later.now

/-- What the table says of the claims that were made. -/
structure Accounts (ledger : Ledger) : Prop where
  keyed : Keyed SeenQuery.queryId ledger.rows
  bounded : ledger.rows.length ≤ maxRows.toNat
  ordered : ledger.past.Pairwise (fun newer older => older.now ≤ newer.now)
  named : ∀ row ∈ ledger.rows, ∃ after entry before, ledger.past = after ++ entry :: before ∧
    Records engine ttl row after entry
  kept : ∀ after entry before, ledger.past = after ++ entry :: before → entry.fresh = true →
    (∃ row ∈ ledger.rows, Records engine ttl row after entry) ∨ Expired ttl after entry ∨
      maxRows ≤ others after entry.queryId
  newer : ∀ row ∈ ledger.rows, ∀ after entry before, ledger.past = after ++ entry :: before →
    Records engine ttl row after entry → ∀ front later back, after = front ++ later :: back → later.fresh = true →
      (∃ other ∈ ledger.rows, Records engine ttl other front later) ∨ Expired ttl front later

variable {engine ttl maxRows}

/-- An entry is the latest one, or one of those before it. -/
theorem split_cons {new entry : Entry} {past after before : List Entry} (split : new :: past = after ++ entry :: before) :
    (after = [] ∧ new = entry ∧ past = before) ∨ ∃ rest, after = new :: rest ∧ past = rest ++ entry :: before := by
  cases after with
  | nil =>
    rw [List.nil_append, List.cons.injEq] at split
    exact Or.inl ⟨rfl, split.1, split.2⟩
  | cons head rest =>
    rw [List.cons_append, List.cons.injEq] at split
    exact Or.inr ⟨rest, by rw [split.1], split.2⟩

theorem Records.later {row : SeenQuery} {after : List Entry} {entry new : Entry}
    (records : Records engine ttl row after entry) (other : new.fresh = true → new.queryId ≠ row.queryId) :
    Records engine ttl row (new :: after) entry := by
  refine { records with latest := fun later mem fresh => ?_ }
  rcases List.mem_cons.mp mem with first | old
  · rw [first] at fresh ⊢
    exact other fresh
  · exact records.latest later old fresh

theorem Records.earlier {row : SeenQuery} {after : List Entry} {entry new : Entry}
    (records : Records engine ttl row (new :: after) entry) : Records engine ttl row after entry :=
  { records with latest := fun later mem fresh => records.latest later (List.mem_cons_of_mem _ mem) fresh }

theorem Expired.later {after : List Entry} {entry : Entry} (new : Entry) (expired : Expired ttl after entry) :
    Expired ttl (new :: after) entry := by
  obtain ⟨later, mem, past⟩ := expired
  exact ⟨later, List.mem_cons_of_mem _ mem, past⟩

theorem others_mono (new : Entry) (after : List Entry) (queryId : String) :
    others after queryId ≤ others (new :: after) queryId := by
  unfold others
  apply List.Subperm.length_le
  apply List.subperm_of_subset (List.nodup_dedup _)
  intro id mem
  rw [List.mem_dedup] at mem ⊢
  obtain ⟨entry, kept, named⟩ := List.mem_map.mp mem
  rw [List.mem_filter] at kept
  exact List.mem_map.mpr ⟨entry, List.mem_filter.mpr ⟨List.mem_cons_of_mem _ kept.1, kept.2⟩, named⟩

/-- Ids claimed in some entries, each other than the one asked about, are among those counted. -/
theorem length_le_others {entries : List Entry} {queryId : String} {rows : List SeenQuery}
    (keyed : Keyed SeenQuery.queryId rows)
    (each : ∀ row ∈ rows, ∃ entry ∈ entries, entry.fresh = true ∧ entry.queryId = row.queryId ∧ row.queryId ≠ queryId) :
    rows.length ≤ others entries queryId := by
  unfold others
  rw [← List.length_map SeenQuery.queryId]
  apply List.Subperm.length_le
  apply List.subperm_of_subset keyed
  intro id mem
  obtain ⟨row, held, named⟩ := List.mem_map.mp mem
  obtain ⟨entry, made, fresh, same, different⟩ := each row held
  rw [List.mem_dedup, ← named, ← same]
  refine List.mem_map_of_mem (List.mem_filter.mpr ⟨made, ?_⟩)
  rw [fresh, Bool.true_and, bne_iff_ne, same]
  exact different

theorem stamp_le {engine : Engine} {earlier later : Nat} :
    le (engine.stamp earlier) (engine.stamp later) = true ↔ earlier ≤ later := by
  rw [engine.ordered, decide_eq_true_eq]

/-- A row above the cut was inserted after every row below it. -/
theorem newer_than_cut {ledger : Ledger} {call : Call} (untied : Untied engine ttl maxRows ledger call)
    {above below : SeenQuery} {earlier later : Nat}
    (top : above ∈ (engine.newestFirst (ledger.swept engine ttl call)).take maxRows.toNat)
    (bottom : below ∈ (engine.newestFirst (ledger.swept engine ttl call)).drop maxRows.toNat)
    (seen : above.firstSeenAt = engine.stamp later) (seen' : below.firstSeenAt = engine.stamp earlier) :
    earlier < later := by
  have sorted := engine.sorted (ledger.swept engine ttl call)
  rw [← List.take_append_drop maxRows.toNat (engine.newestFirst (ledger.swept engine ttl call)),
    List.pairwise_append] at sorted
  have at_most := sorted.2.2 above top below bottom
  have different := untied above top below bottom
  rw [seen, seen', stamp_le] at at_most
  rw [seen, seen'] at different
  by_contra not_less
  have same : earlier = later := by omega
  exact different (by rw [same])

/-- The entry a fresh claim leaves. -/
def Call.entry (call : Call) : Entry := ⟨call.now, call.queryId, true⟩

theorem ordered_cons {ledger : Ledger} {call : Call} (accounts : Accounts engine ttl maxRows ledger)
    (order : ∀ entry ∈ ledger.past, entry.now ≤ call.now) (fresh : Bool) :
    (⟨call.now, call.queryId, fresh⟩ :: ledger.past).Pairwise (fun newer older : Entry => older.now ≤ newer.now) :=
  List.pairwise_cons.mpr ⟨order, accounts.ordered⟩

theorem keyed_swept {ledger : Ledger} {call : Call} (accounts : Accounts engine ttl maxRows ledger)
    (free : holds ledger.rows call.queryId = false) : Keyed SeenQuery.queryId (ledger.swept engine ttl call) :=
  (keyed_append accounts.keyed free).deleteWhere

/-- A row left after the sweep is one of the old ones or the new one. -/
theorem swept_row {ledger : Ledger} {call : Call} {row : SeenQuery} (mem : row ∈ ledger.swept engine ttl call) :
    row ∈ ledger.rows ∨ row = newRow engine call.now ttl call.queryId call.origin call.receivedFrom := by
  have held := (mem_sweep.mp mem).1
  rw [List.mem_append, List.mem_singleton] at held
  exact held

theorem records_new {call : Call} (fits : fromStd ttl = ttl) :
    Records engine ttl (newRow engine call.now ttl call.queryId call.origin call.receivedFrom) [] call.entry where
  fresh := rfl
  named := rfl
  seen := rfl
  expires := by rw [newRow, fits, Call.entry]
  latest := by simp

theorem name_ne_of_free {ledger : Ledger} {call : Call} {row : SeenQuery}
    (free : holds ledger.rows call.queryId = false) (mem : row ∈ ledger.rows) : call.queryId ≠ row.queryId := by
  intro same
  rw [holds_iff.mpr ⟨row, mem, same.symm⟩] at free
  cases free

theorem swept_named {ledger : Ledger} {call : Call} (fits : fromStd ttl = ttl)
    (accounts : Accounts engine ttl maxRows ledger) (free : holds ledger.rows call.queryId = false) {row : SeenQuery}
    (mem : row ∈ ledger.swept engine ttl call) : ∃ after entry before,
      call.entry :: ledger.past = after ++ entry :: before ∧ Records engine ttl row after entry := by
  rcases swept_row mem with old | new
  · obtain ⟨after, entry, before, split, records⟩ := accounts.named row old
    refine ⟨call.entry :: after, entry, before, by rw [split]; rfl, records.later ?_⟩
    exact fun _ => name_ne_of_free free old
  · refine ⟨[], call.entry, ledger.past, rfl, ?_⟩
    rw [new]
    exact records_new fits

/-- An entry made later than another stands before it. -/
theorem mem_after_of_lt {past after before : List Entry} {entry later : Entry}
    (ordered : past.Pairwise (fun newer older => older.now ≤ newer.now)) (split : past = after ++ entry :: before)
    (mem : later ∈ past) (less : entry.now < later.now) : later ∈ after := by
  rw [split, List.pairwise_append, List.pairwise_cons] at ordered
  rw [split, List.mem_append, List.mem_cons] at mem
  rcases mem with newer | same | older
  · exact newer
  · rw [same] at less
    omega
  · have at_most := ordered.2.1.1 later older
    omega

/-- A row that falls to the cap falls behind as many other ids as the cap. -/
theorem evicted {ledger : Ledger} {call : Call} (fits : fromStd ttl = ttl) (accounts : Accounts engine ttl maxRows ledger)
    (clear : Clear engine ttl maxRows ledger call) (free : holds ledger.rows call.queryId = false)
    {row : SeenQuery} (mem : row ∈ ledger.swept engine ttl call)
    (gone : row ∉ cap engine maxRows (ledger.swept engine ttl call)) {after before : List Entry} {entry : Entry}
    (split : call.entry :: ledger.past = after ++ entry :: before) (records : Records engine ttl row after entry) :
    maxRows ≤ others after entry.queryId := by
  have keyed := keyed_swept accounts free
  have below := (cut_at_cap keyed mem).2 gone
  have long : maxRows.toNat ≤ (engine.newestFirst (ledger.swept engine ttl call)).length := by
    have some_ := List.length_pos_of_mem below
    rw [List.length_drop] at some_
    omega
  have top : Keyed SeenQuery.queryId ((engine.newestFirst (ledger.swept engine ttl call)).take maxRows.toNat) := by
    have whole : Keyed SeenQuery.queryId (engine.newestFirst (ledger.swept engine ttl call)) :=
      ((engine.perm _).map SeenQuery.queryId).nodup_iff.mpr keyed
    exact List.Nodup.sublist ((List.take_sublist _ _).map SeenQuery.queryId) whole
  have counted := @length_le_others after entry.queryId _ top (by
    intro above taken
    have held : above ∈ ledger.swept engine ttl call := (engine.perm _).mem_iff.mp (List.mem_of_mem_take taken)
    obtain ⟨after', entry', before', split', records'⟩ := swept_named fits accounts free held
    have less := newer_than_cut clear.2 taken below records'.seen records.seen
    have inPast : entry' ∈ call.entry :: ledger.past := by rw [split']; simp
    refine ⟨entry', mem_after_of_lt (ordered_cons accounts clear.1 true) split inPast less, records'.fresh, records'.named, ?_⟩
    intro same
    have one : above = row := keyed.eq held mem (same.trans records.named)
    have times := records'.seen
    rw [one, records.seen] at times
    have back := stamp_le.mp (show le (engine.stamp entry'.now) (engine.stamp entry.now) = true by
      rw [times, engine.ordered]
      simp)
    omega)
  rw [List.length_take_of_le long] at counted
  have least := Int.self_le_toNat maxRows
  omega

/-- A row is not cut while an older one stays. -/
theorem stays_with_older {ledger : Ledger} {call : Call} (accounts : Accounts engine ttl maxRows ledger)
    (clear : Clear engine ttl maxRows ledger call) (free : holds ledger.rows call.queryId = false)
    {old row : SeenQuery} (stays : old ∈ cap engine maxRows (ledger.swept engine ttl call))
    (mem : row ∈ ledger.swept engine ttl call) {front back before : List Entry} {entry later : Entry}
    (split : call.entry :: ledger.past = (front ++ later :: back) ++ entry :: before)
    (seen : old.firstSeenAt = engine.stamp entry.now) (seen' : row.firstSeenAt = engine.stamp later.now) :
    row ∈ cap engine maxRows (ledger.swept engine ttl call) := by
  by_contra gone
  have keyed := keyed_swept accounts free
  have top := (cut_at_cap keyed (mem_cap.mp stays).1).1 stays
  have less := newer_than_cut clear.2 top ((cut_at_cap keyed mem).2 gone) seen seen'
  have ordered := ordered_cons accounts clear.1 true
  rw [show (⟨call.now, call.queryId, true⟩ : Entry) = call.entry from rfl, split, List.pairwise_append] at ordered
  have at_most := ordered.2.2 later (by simp) entry List.mem_cons_self
  omega

/-- A row that is swept belongs to an expired entry. -/
theorem swept_or_expired {ledger : Ledger} {call : Call} {row : SeenQuery} {after : List Entry} {entry : Entry}
    (mem : row ∈ ledger.rows) (records : Records engine ttl row after entry) :
    row ∈ ledger.swept engine ttl call ∨ entry.now + ttl < call.now := by
  by_cases lives : call.now ≤ entry.now + ttl
  · left
    refine mem_sweep.mpr ⟨List.mem_append_left _ mem, ?_⟩
    rw [records.expires]
    exact stamp_le.mpr lives
  · right
    omega

theorem step_fresh {ledger : Ledger} {call : Call} (free : holds ledger.rows call.queryId = false) :
    ledger.step engine ttl maxRows call =
      ⟨cap engine maxRows (ledger.swept engine ttl call), call.entry :: ledger.past⟩ := by
  have inserted := @insertOrIgnore_free _ (newRow engine call.now ttl call.queryId call.origin call.receivedFrom) free
  unfold Ledger.step Ledger.claim claimQuery
  rw [inserted]
  rfl

theorem accounts_fresh {ledger : Ledger} {call : Call} (fits : fromStd ttl = ttl)
    (accounts : Accounts engine ttl maxRows ledger) (clear : Clear engine ttl maxRows ledger call)
    (free : holds ledger.rows call.queryId = false) :
    Accounts engine ttl maxRows (ledger.step engine ttl maxRows call) := by
  have keyed := keyed_swept accounts free
  have renamed {row : SeenQuery} {after : List Entry} {entry : Entry} (mem : row ∈ ledger.rows)
      (records : Records engine ttl row after entry) : Records engine ttl row (call.entry :: after) entry :=
    records.later (fun _ => name_ne_of_free free mem)
  rw [step_fresh free]
  constructor
  case keyed => exact keyed.deleteWhere
  case bounded => exact length_cap keyed
  case ordered => exact ordered_cons accounts clear.1 true
  case named => exact fun row mem => swept_named fits accounts free (mem_cap.mp mem).1
  case kept =>
    -- a row on record stays, has expired, or falls to the cap behind enough other ids
    intro after entry before split fresh
    have stays_or_falls {row : SeenQuery} (mem : row ∈ ledger.swept engine ttl call)
        (records : Records engine ttl row after entry) :
        (∃ row ∈ cap engine maxRows (ledger.swept engine ttl call), Records engine ttl row after entry) ∨
          Expired ttl after entry ∨ maxRows ≤ others after entry.queryId := by
      by_cases stays : row ∈ cap engine maxRows (ledger.swept engine ttl call)
      · exact Or.inl ⟨row, stays, records⟩
      · exact Or.inr (Or.inr (evicted fits accounts clear free mem stays split records))
    rcases split_cons split with ⟨rfl, rfl, _⟩ | ⟨rest, rfl, split'⟩
    · have new : newRow engine call.now ttl call.queryId call.origin call.receivedFrom ∈ ledger.swept engine ttl call := by
        refine mem_sweep.mpr ⟨by simp, ?_⟩
        exact stamp_le.mpr (Nat.le_add_right _ _)
      exact stays_or_falls new (records_new fits)
    · rcases accounts.kept rest entry before split' fresh with ⟨row, mem, records⟩ | expired | many
      · rcases @swept_or_expired _ _ _ call _ _ _ mem records with lives | ended
        · exact stays_or_falls lives (renamed mem records)
        · exact Or.inr (Or.inl ⟨call.entry, List.mem_cons_self, ended⟩)
      · exact Or.inr (Or.inl (expired.later call.entry))
      · have more := others_mono call.entry rest entry.queryId
        exact Or.inr (Or.inr (by omega))
  case newer =>
    intro old stays after entry before split records front later back parts fresh
    subst parts
    have parts : call.entry :: ledger.past = front ++ later :: (back ++ entry :: before) := by
      rw [← List.cons_append, ← List.append_assoc]
      exact split
    have kept {row : SeenQuery} (mem : row ∈ ledger.swept engine ttl call) (theirs : Records engine ttl row front later) :
        ∃ other ∈ cap engine maxRows (ledger.swept engine ttl call), Records engine ttl other front later :=
      ⟨row, stays_with_older accounts clear free stays mem split records.seen theirs.seen, theirs⟩
    rcases split_cons parts with ⟨rfl, rfl, _⟩ | ⟨rest, rfl, split'⟩
    · -- the later entry is the new one
      have new : newRow engine call.now ttl call.queryId call.origin call.receivedFrom ∈ ledger.swept engine ttl call := by
        refine mem_sweep.mpr ⟨by simp, ?_⟩
        exact stamp_le.mpr (Nat.le_add_right _ _)
      exact Or.inl (kept new (records_new fits))
    · rcases swept_row (mem_cap.mp stays).1 with before_ | new
      · have earlier := accounts.newer old before_ (rest ++ later :: back) entry before
          (by rw [split', List.append_assoc, List.cons_append]) records.earlier rest later back rfl fresh
        rcases earlier with ⟨row, mem, recorded⟩ | expired
        · rcases @swept_or_expired _ _ _ call _ _ _ mem recorded with lives | ended
          · exact Or.inl (kept lives (renamed mem recorded))
          · exact Or.inr ⟨call.entry, List.mem_cons_self, ended⟩
        · exact Or.inr (expired.later call.entry)
      · -- the row of the new entry has nothing after it
        have clash := records.latest call.entry (by simp) rfl
        rw [new] at clash
        exact absurd rfl clash

theorem mem_countRepeat {rows : List SeenQuery} {queryId : String} {row : SeenQuery}
    (mem : row ∈ countRepeat queryId rows) : ∃ old ∈ rows, ∃ count, row = { old with repeatCount := count } := by
  obtain ⟨old, held, same⟩ := mem_updateWhere.mp mem
  by_cases here : (old.queryId == queryId) = true
  · exact ⟨old, held, _, by rw [same, if_pos here]⟩
  · exact ⟨old, held, old.repeatCount, by rw [same, if_neg here]⟩

theorem counted_of_mem {rows : List SeenQuery} {queryId : String} {old : SeenQuery} (held : old ∈ rows) :
    ∃ count, { old with repeatCount := count } ∈ countRepeat queryId rows := by
  by_cases here : (old.queryId == queryId) = true
  · exact ⟨old.repeatCount + 1, mem_updateWhere.mpr ⟨old, held, by rw [if_pos here]⟩⟩
  · exact ⟨old.repeatCount, mem_updateWhere.mpr ⟨old, held, by rw [if_neg here]⟩⟩

theorem Records.counted {row : SeenQuery} {after : List Entry} {entry : Entry} (count : Nat) :
    Records engine ttl { row with repeatCount := count } after entry ↔ Records engine ttl row after entry :=
  ⟨fun records => ⟨records.fresh, records.named, records.seen, records.expires, records.latest⟩,
    fun records => ⟨records.fresh, records.named, records.seen, records.expires, records.latest⟩⟩

/-- A row on record stays on record when a repeat is counted. -/
theorem counted_records {rows : List SeenQuery} {queryId : String} {after : List Entry} {entry : Entry} (now : Nat)
    (found : ∃ row ∈ rows, Records engine ttl row after entry) :
    ∃ row ∈ countRepeat queryId rows, Records engine ttl row (⟨now, queryId, false⟩ :: after) entry := by
  obtain ⟨row, mem, records⟩ := found
  obtain ⟨count, held⟩ := @counted_of_mem _ queryId _ mem
  exact ⟨_, held, ((Records.counted count).mpr records).later (by simp)⟩

theorem others_refused (now : Nat) (queryId other : String) (after : List Entry) :
    others (⟨now, queryId, false⟩ :: after) other = others after other := by
  unfold others
  rw [List.filter_cons_of_neg (by simp)]

theorem step_refused {ledger : Ledger} {call : Call} (taken : holds ledger.rows call.queryId = true) :
    ledger.step engine ttl maxRows call =
      ⟨countRepeat call.queryId ledger.rows, ⟨call.now, call.queryId, false⟩ :: ledger.past⟩ := by
  have refused := claimQuery_isFresh engine call.now ttl maxRows ledger.rows call.queryId call.origin call.receivedFrom
  rw [taken] at refused
  have ignored := @insertOrIgnore_taken _ (newRow engine call.now ttl call.queryId call.origin call.receivedFrom) taken
  have rows : (ledger.claim engine ttl maxRows call).1 = countRepeat call.queryId ledger.rows := by
    unfold Ledger.claim claimQuery
    rw [ignored]
  unfold Ledger.step
  rw [rows]
  unfold Ledger.claim
  rw [refused]
  rfl

theorem accounts_refused {ledger : Ledger} {call : Call} (accounts : Accounts engine ttl maxRows ledger)
    (clear : Clear engine ttl maxRows ledger call) (taken : holds ledger.rows call.queryId = true) :
    Accounts engine ttl maxRows (ledger.step engine ttl maxRows call) := by
  rw [step_refused taken]
  constructor
  case keyed => exact accounts.keyed.updateWhere (fun _ => rfl)
  case bounded =>
    show (countRepeat call.queryId ledger.rows).length ≤ maxRows.toNat
    unfold countRepeat updateWhere
    rw [List.length_map]
    exact accounts.bounded
  case ordered => exact ordered_cons accounts clear.1 false
  case named =>
    intro row mem
    obtain ⟨old, held, count, same⟩ := mem_countRepeat mem
    obtain ⟨after, entry, before, split, records⟩ := accounts.named old held
    refine ⟨⟨call.now, call.queryId, false⟩ :: after, entry, before, by simp [split], ?_⟩
    rw [same]
    exact ((Records.counted count).mpr records).later (by simp)
  case kept =>
    intro after entry before split fresh
    rcases split_cons split with ⟨rfl, rfl, _⟩ | ⟨rest, rfl, split'⟩
    · cases fresh
    · rw [others_refused]
      rcases accounts.kept rest entry before split' fresh with found | expired | many
      · exact Or.inl (counted_records call.now found)
      · exact Or.inr (Or.inl (expired.later _))
      · exact Or.inr (Or.inr many)
  case newer =>
    intro row mem after entry before split records front later back parts fresh
    subst parts
    have parts : (⟨call.now, call.queryId, false⟩ : Entry) :: ledger.past =
        front ++ later :: (back ++ entry :: before) := by
      rw [← List.cons_append, ← List.append_assoc]
      exact split
    obtain ⟨old, held, count, same⟩ := mem_countRepeat mem
    rw [same] at records
    rcases split_cons parts with ⟨rfl, rfl, _⟩ | ⟨rest, rfl, split'⟩
    · cases fresh
    · have earlier := accounts.newer old held (rest ++ later :: back) entry before
        (by rw [split', List.append_assoc, List.cons_append]) ((Records.counted count).mp records).earlier rest later back
        rfl fresh
      rcases earlier with found | expired
      · exact Or.inl (counted_records call.now found)
      · exact Or.inr (expired.later _)

theorem accounts_empty : Accounts engine ttl maxRows {} where
  keyed := List.nodup_nil
  bounded := Nat.zero_le _
  ordered := List.Pairwise.nil
  named := by simp
  kept := by simp
  newer := by simp

theorem accounts_run {calls : List Call} (fits : fromStd ttl = ttl)
    (clear : Meets (Ledger.step engine ttl maxRows) (Clear engine ttl maxRows) {} calls) :
    Accounts engine ttl maxRows (run (Ledger.step engine ttl maxRows) {} calls) := by
  refine run_invariant _ (Accounts engine ttl maxRows) accounts_empty ?_ clear
  intro ledger call accounts here
  cases taken : holds ledger.rows call.queryId with
  | true => exact accounts_refused accounts here taken
  | false => exact accounts_fresh fits accounts here taken

/-- A row of the id that has not expired is held exactly while the id should stay claimed. -/
theorem held_iff {ledger : Ledger} (accounts : Accounts engine ttl maxRows ledger) (queryId : String) {now : Nat}
    (order : ∀ entry ∈ ledger.past, entry.now ≤ now) : Held ttl maxRows ledger.past queryId now ↔
      ∃ row ∈ ledger.rows, row.queryId = queryId ∧ le (engine.stamp now) row.expiresAt = true := by
  constructor
  · intro held
    obtain ⟨after, entry, before, split, named, fresh, lives, few⟩ := held
    rcases accounts.kept after entry before split fresh with ⟨row, mem, records⟩ | ⟨later, mem, ended⟩ | many
    · refine ⟨row, mem, records.named.symm.trans named, ?_⟩
      rw [records.expires]
      exact stamp_le.mpr lives
    · have at_most := order later (by rw [split]; exact List.mem_append_left _ mem)
      omega
    · rw [named] at many
      omega
  · intro found
    obtain ⟨row, mem, named, lives⟩ := found
    obtain ⟨after, entry, before, split, records⟩ := accounts.named row mem
    rw [records.expires, stamp_le] at lives
    refine ⟨after, entry, before, split, records.named.trans named, records.fresh, lives, ?_⟩
    -- every other id claimed since still has its row, beside the row of this id
    have rowOf (id : String) (mem' : id ∈ ((after.filter (fun entry => entry.fresh && entry.queryId != queryId)).map
        Entry.queryId).dedup) : id ∈ (ledger.rows.map SeenQuery.queryId).erase queryId := by
      rw [List.mem_dedup] at mem'
      obtain ⟨later, made, same⟩ := List.mem_map.mp mem'
      rw [List.mem_filter, Bool.and_eq_true, bne_iff_ne] at made
      obtain ⟨front, back, parts⟩ := List.append_of_mem made.1
      rcases accounts.newer row mem after entry before split records front later back parts made.2.1 with
        ⟨other, held, theirs⟩ | ⟨last, inFront, ended⟩
      · rw [List.mem_erase_of_ne (by rw [← same]; exact made.2.2), ← same, theirs.named]
        exact List.mem_map_of_mem held
      · have at_most := order last (by rw [split, parts]; simp [inFront])
        have ordered := accounts.ordered
        rw [split, List.pairwise_append] at ordered
        have since := ordered.2.2 later made.1 entry List.mem_cons_self
        omega
    have counted : others after queryId ≤ ((ledger.rows.map SeenQuery.queryId).erase queryId).length :=
      (List.subperm_of_subset (List.nodup_dedup _) rowOf).length_le
    have mine : queryId ∈ ledger.rows.map SeenQuery.queryId := by
      rw [← named]
      exact List.mem_map_of_mem mem
    rw [List.length_erase_of_mem mine, List.length_map] at counted
    have some_ := List.length_pos_of_mem mem
    have bound := accounts.bounded
    omega

end Claims

/-- The order of rows from the newest. -/
def Newer (above below : SeenQuery) : Prop := le below.firstSeenAt above.firstSeenAt = true

instance : DecidableRel Newer := fun above below =>
  inferInstanceAs (Decidable (le below.firstSeenAt above.firstSeenAt = true))

instance : Std.Total Newer where
  total above below := charsLe_total below.firstSeenAt.toList above.firstSeenAt.toList

instance : IsTrans SeenQuery Newer where
  trans _ _ _ first second := charsLe_trans second first

theorem charsLe_replicate (c : Char) (left right : Nat) :
    charsLe (List.replicate left c) (List.replicate right c) = decide (left ≤ right) := by
  induction left generalizing right with
  | zero => simp [charsLe]
  | succ left ih =>
    cases right with
    | zero => simp [charsLe, List.replicate_succ]
    | succ right => simp [charsLe, List.replicate_succ, ih]

/-- Times written in unary, and rows of one time left in the order of insertion. -/
def unaryEngine : Engine where
  stamp time := String.ofList (List.replicate time 'x')
  ordered earlier later := by
    unfold le
    rw [String.toList_ofList, String.toList_ofList, charsLe_replicate]
  newestFirst := List.insertionSort Newer
  perm := List.perm_insertionSort Newer
  sorted := List.pairwise_insertionSort Newer

end ToolArtifactRegistry.Laws
