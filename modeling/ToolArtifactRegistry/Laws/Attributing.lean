import ToolArtifactRegistry.Api.Discovery
import ToolArtifactRegistry.Api.Peers
import ToolArtifactRegistry.Laws.Specimen
import ToolArtifactRegistry.PeerTable

/-! Which peer a foreign IRI is attributed to. Both attributions take the first peer whose base the IRI
begins with, one by date and one in the order of a hash map, and neither asks where the base ends in it. -/
namespace ToolArtifactRegistry.Laws

open Library.Text Library.Tables Ids Domain PeerTable

/-- The IRI is the base itself or lies below it. -/
def Below (base iri : String) : Prop := iri = base ∨ startsWith iri (base ++ "/") = true

instance (base iri : String) : Decidable (Below base iri) := inferInstanceAs (Decidable (_ ∨ _))

/-- The peer named has the longest of the bases the IRI lies below; no peer is named when there is none. -/
def Rightly (rows : List PeerRow) (iri : String) : Option String → Prop
  | some id => ∃ row ∈ rows, row.id = id ∧ Below row.baseIri iri ∧
      ∀ other ∈ rows, Below other.baseIri iri → other.baseIri.length ≤ row.baseIri.length
  | none => ∀ row ∈ rows, ¬ Below row.baseIri iri

def owner (peers : Peers) (reading : PeerTable.Reading) (iri : String) : Option String :=
  (Api.Peers.owningPeer { peers := peers.list reading } iri).map PeerRecord.id

/-- The context of a request that has read the peers table. -/
def reads (ctx : Ctx) (peers : Peers) (reading : PeerTable.Reading) : Ctx := { ctx with peers := peers.list reading }

/-- The two attributions agree on the right peer, in whatever order the map gives the peers. -/
def Attributed (ctx : Ctx) (peers : Peers) (reading : PeerTable.Reading) (iri : String) : Prop :=
  ∀ hashing : Ctx.Hashing, Rightly peers.rows iri (owner peers reading iri) ∧
    ((reads ctx peers reading).originOfIri hashing iri).peerId = owner peers reading iri

/-- The IRI begins with no peer's base, or it is foreign and begins with one only, which it lies below. -/
def Unmistakable (base : String) (peers : Peers) (iri : String) : Prop :=
  ∀ row ∈ peers.rows, startsWith iri row.baseIri = true →
    isLocal base iri = false ∧ Below row.baseIri iri ∧
      ∀ other ∈ peers.rows, startsWith iri other.baseIri = true → other = row

instance (base : String) (peers : Peers) (iri : String) : Decidable (Unmistakable base peers iri) :=
  inferInstanceAs (Decidable (∀ row ∈ peers.rows, _))

theorem startsWith_of_below {base iri : String} (below : Below base iri) : startsWith iri base = true := by
  rw [startsWith_iff]
  rcases below with same | under
  · exact ⟨"", by rw [same, String.append_empty]⟩
  · obtain ⟨rest, whole⟩ := startsWith_iff.1 under
    exact ⟨"/" ++ rest, by rw [whole, String.append_assoc]⟩

/-- A list in which one value comes first. -/
def leading (id : String) : Ctx.Hashing where
  values peers := peers.filter (fun peer => peer.id == id) ++ peers.filter (fun peer => !(peer.id == id))
  perm peers := List.filter_append_perm _ peers

section

variable {ctx : Ctx} {peers : Peers} {reading : PeerTable.Reading} {iri : String}

theorem owner_some {id : String} (named : owner peers reading iri = some id) :
    ∃ row ∈ peers.rows, row.id = id ∧ startsWith iri row.baseIri = true := by
  obtain ⟨record, found, rfl⟩ := Option.map_eq_some_iff.1 named
  have begins : startsWith iri record.baseIri = true := by simpa using List.find?_some found
  obtain ⟨row, mem, rfl⟩ := Peers.mem_list.1 (List.mem_of_find?_eq_some found)
  exact ⟨row, mem, rfl, begins⟩

theorem owner_none (named : owner peers reading iri = none) {row : PeerRow} (mem : row ∈ peers.rows) :
    startsWith iri row.baseIri = false := by
  have missed := List.find?_eq_none.1 (Option.map_eq_none_iff.1 named) _ (Peers.mem_list.2 ⟨row, mem, rfl⟩)
  simpa only [PeerRow.record_baseIri, Bool.not_eq_true] using missed

/-- A foreign IRI is looked up in the map. -/
theorem origin_foreign {hashing : Ctx.Hashing} (foreign : isLocal ctx.base iri = false) :
    ((reads ctx peers reading).originOfIri hashing iri).peerId =
      ((hashing.values (peers.list reading)).find? (fun peer => startsWith iri peer.baseIri)).map PeerRecord.id := by
  have base : (reads ctx peers reading).base = ctx.base := rfl
  have rows : (reads ctx peers reading).peers = peers.list reading := rfl
  unfold Ctx.originOfIri
  rw [base, rows, if_neg (Bool.eq_false_iff.1 foreign)]
  cases (hashing.values (peers.list reading)).find? (fun peer => startsWith iri peer.baseIri) <;> rfl

/-- Where a peer is named by the map, it is one whose base the IRI begins with. -/
theorem origin_some {hashing : Ctx.Hashing} {id : String}
    (named : ((reads ctx peers reading).originOfIri hashing iri).peerId = some id) :
    isLocal ctx.base iri = false ∧ ∃ row ∈ peers.rows, row.id = id ∧ startsWith iri row.baseIri = true := by
  unfold Ctx.originOfIri at named
  split at named
  · cases named
  · rename_i foreign
    split at named
    · rename_i record found
      have begins : startsWith iri record.baseIri = true := by simpa using List.find?_some found
      have listed := (hashing.perm _).mem_iff.1 (List.mem_of_find?_eq_some found)
      obtain ⟨row, mem, rfl⟩ := Peers.mem_list.1 listed
      exact ⟨Bool.not_eq_true _ ▸ foreign, row, mem, Option.some.inj named, begins⟩
    · cases named

theorem origin_none {hashing : Ctx.Hashing} (foreign : isLocal ctx.base iri = false)
    (named : ((reads ctx peers reading).originOfIri hashing iri).peerId = none) {row : PeerRow}
    (mem : row ∈ peers.rows) : startsWith iri row.baseIri = false := by
  rw [origin_foreign foreign, Option.map_eq_none_iff] at named
  have listed : row.record reading.stale ∈ hashing.values (peers.list reading) :=
    (hashing.perm _).mem_iff.2 (Peers.mem_list.2 ⟨row, mem, rfl⟩)
  simpa only [PeerRow.record_baseIri, Bool.not_eq_true] using List.find?_eq_none.1 named _ listed

/-- The map may give any peer whose base the IRI begins with before the others. -/
theorem origin_ahead (foreign : isLocal ctx.base iri = false) {row : PeerRow} (mem : row ∈ peers.rows)
    (begins : startsWith iri row.baseIri = true) :
    ((reads ctx peers reading).originOfIri (leading row.id) iri).peerId = some row.id := by
  have listed : row.record reading.stale ∈ (peers.list reading).filter (fun peer => peer.id == row.id) :=
    List.mem_filter.2 ⟨Peers.mem_list.2 ⟨row, mem, rfl⟩, beq_self_eq_true _⟩
  have some_ : (((peers.list reading).filter (fun peer => peer.id == row.id)).find?
      (fun peer => startsWith iri peer.baseIri)).isSome = true := List.find?_isSome.2 ⟨_, listed, begins⟩
  obtain ⟨record, found⟩ := Option.isSome_iff_exists.1 some_
  have same : record.id = row.id := beq_iff_eq.1 (List.mem_filter.1 (List.mem_of_find?_eq_some found)).2
  have first : ((leading row.id).values (peers.list reading)).find? (fun peer => startsWith iri peer.baseIri) =
      some record := by
    unfold leading
    rw [List.find?_append, found]
    rfl
  rw [origin_foreign foreign, first, ← same]
  rfl

theorem rightly_of_unmistakable (clear : Unmistakable ctx.base peers iri) :
    Rightly peers.rows iri (owner peers reading iri) := by
  cases named : owner peers reading iri with
  | some id =>
    obtain ⟨row, mem, same, begins⟩ := owner_some named
    obtain ⟨-, below, only⟩ := clear row mem begins
    refine ⟨row, mem, same, below, fun other held under => ?_⟩
    rw [only other held (startsWith_of_below under)]
  | none =>
    intro row mem below
    have begins := startsWith_of_below below
    rw [owner_none named mem] at begins
    cases begins

theorem agree_of_unmistakable (clear : Unmistakable ctx.base peers iri) (hashing : Ctx.Hashing) :
    ((reads ctx peers reading).originOfIri hashing iri).peerId = owner peers reading iri := by
  cases named : owner peers reading iri with
  | some id =>
    obtain ⟨row, mem, rfl, begins⟩ := owner_some named
    obtain ⟨foreign, -, only⟩ := clear row mem begins
    cases told : ((reads ctx peers reading).originOfIri hashing iri).peerId with
    | some other =>
      obtain ⟨-, found, held, rfl, also⟩ := origin_some told
      rw [only found held also]
    | none =>
      rw [origin_none foreign told mem] at begins
      cases begins
  | none =>
    cases told : ((reads ctx peers reading).originOfIri hashing iri).peerId with
    | some other =>
      obtain ⟨-, found, held, -, also⟩ := origin_some told
      rw [owner_none named held] at also
      cases also
    | none => rfl

theorem unmistakable_of_attributed (right : Attributed ctx peers reading iri) : Unmistakable ctx.base peers iri := by
  intro row mem begins
  cases named : owner peers reading iri with
  | none =>
    rw [owner_none named mem] at begins
    cases begins
  | some id =>
    have foreign : isLocal ctx.base iri = false := (origin_some (((right (leading row.id)).2).trans named)).1
    -- whichever peer the map gives first is the one the table names
    have only (other : PeerRow) (held : other ∈ peers.rows) (also : startsWith iri other.baseIri = true) :
        other.id = id := by
      have told := (right (leading other.id)).2
      rw [origin_ahead foreign held also, named] at told
      exact Option.some.inj told
    have rightly := (right (leading row.id)).1
    rw [named] at rightly
    obtain ⟨best, chosen, bestId, below, -⟩ := rightly
    have here : best = row := peers.ids.eq chosen mem (bestId.trans (only row mem begins).symm)
    refine ⟨foreign, here ▸ below, fun other held also => ?_⟩
    exact peers.ids.eq held mem ((only other held also).trans (only row mem begins).symm)

end



/-- Both attributions name the peer with the longest base the IRI lies below, or none, just when no other
peer's base begins the IRI. -/
theorem attributed_iff_unmistakable (ctx : Ctx) (peers : PeerTable.Peers) (reading : PeerTable.Reading) (iri : String) :
    Attributed ctx peers reading iri ↔ Unmistakable ctx.base peers iri :=
  ⟨unmistakable_of_attributed, fun clear hashing => ⟨rightly_of_unmistakable clear, agree_of_unmistakable clear hashing⟩⟩

section Specimen

open Specimen

/-- The engine's listing, by a stable sort. -/
def newestFirst : PeerTable.Reading where
  newestFirst rows := rows.mergeSort (fun above below => le below.addedAt above.addedAt)
  perm rows := rows.mergeSort_perm _
  sorted rows := by
    apply List.pairwise_mergeSort
    · intro first second third above below
      exact charsLe_trans below above
    · intro first second
      rcases charsLe_total first.addedAt.toList second.addedAt.toList with earlier | later
      · exact Bool.or_eq_true _ _ ▸ Or.inr earlier
      · exact Bool.or_eq_true _ _ ▸ Or.inl later
  stale _ := false

/-- An active peer that has answered. -/
def peerRow (id base : String) : PeerRow where
  id := id
  baseIri := base
  title := none
  operator := none
  addedAt := "2026-01-01T00:00:00Z"
  lastSeenAt := some "2026-01-01T00:00:00Z"
  resolveStatus := "ok"
  lastError := none
  recordCount := 0
  state := "active"
  suggestedBy := none

def onePeer : Peers where
  rows := [peerRow "one" "https://example.org"]
  ids := List.nodup_singleton _
  bases := List.nodup_singleton _

/-- A host that only begins like the peer's is taken for the peer. -/
theorem other_host_attributed :
    ¬ Attributed ((registry []).ctx ⟨Library.Rdf.Dataset.empty, {}⟩ (draw "a")) onePeer newestFirst "https://example.org.evil/artifact/1" := by
  intro right
  exact absurd (unmistakable_of_attributed right) (by decide)

end Specimen

end ToolArtifactRegistry.Laws

/-! Suggestions and the peers that are known. Whoever suggests a peer looks it up first and writes it in a
statement of its own, which overwrites whatever has been written in between. -/
namespace ToolArtifactRegistry.Laws

open Library.Runs Library.Programs Ids Auth PeerTable Api.Discovery

/-- What begins is a request about peers. -/
def BeginsDiscovery (own : String) (_ : Pool table (AppResult Answer)) : Turn table (AppResult Answer) → Prop
  | .start p => ∃ request, p = handle own request
  | .next _ => True

/-- The row of a base is not written while another request has looked that base up in vain and is about to
suggest it. -/
def Undisturbed (pool : Pool table (AppResult Answer)) : Turn table (AppResult Answer) → Prop
  | .start _ => True
  | .next place => ∀ row, pool.Calls place (.upsertPeer row) → ∀ (other : Nat) pending, other ≠ place →
      pool.Calls other (.upsertPeer pending) → pending.state = "suggested" → row.baseIri ≠ pending.baseIri

/-- What a suggestion must not touch. -/
def SameStanding (kept held : PeerRow) : Prop :=
  kept.id = held.id ∧ kept.state = held.state ∧ kept.title = held.title ∧ kept.lastSeenAt = held.lastSeenAt ∧
    kept.resolveStatus = held.resolveStatus

instance (kept held : PeerRow) : Decidable (SameStanding kept held) := inferInstanceAs (Decidable (_ ∧ _))

/-- A write of a suggestion leaves every row that exists in its standing. -/
def LeavesKnown (pool : Pool table (AppResult Answer)) : Turn table (AppResult Answer) → Prop
  | .start _ => True
  | .next place => ∀ row, pool.Calls place (.upsertPeer row) → row.state = "suggested" →
      ∀ held ∈ pool.state.rows, ∃ kept ∈ (pool.step (.next place)).state.rows, SameStanding kept held

/-- A suggestion rests on what the lookup before it found. -/
def footing : Footing table := .bare restsOn

section Looking

variable {own : String}

theorem performed_getPeer (key : String) (peers : Peers) :
    table.perform (.getPeer key) peers = (peers.get key, peers) := rfl

/-- A suggestion right after its base was looked up in vain. -/
theorem found_unknown {α : Type} {peers : Peers} {key : String} (missed : peers.get key = none) {row : PeerRow}
    (base : row.baseIri = key) {rest : Except String Unit → Program table α}
    (after : ∀ reply, (rest reply).Careful footing) :
    (Program.call (S := table) (.upsertPeer row) rest).Ready footing peers ∧
      (Program.call (S := table) (.upsertPeer row) rest).Looks footing :=
  ⟨Program.ready_call.2 (fun _ => base ▸ peers.unknown_of_get missed), Program.Looks.of_careful after⟩

theorem careful_suggestPeers {α : Type} (draw : Draw) (source : String) (stubs : List (PeerStub × Nat))
    (after : Program table α) (careful : after.Careful footing) :
    (suggestPeers own draw source stubs >>= fun _ => after).Careful footing := by
  induction stubs with
  | nil => exact careful
  | cons entry rest ih =>
    obtain ⟨stub, place⟩ := entry
    unfold suggestPeers
    split
    · exact ih
    · rw [Program.ask_bind, Program.bind_call]
      refine Program.careful_call (fun _ => trivial) (fun peers _ _ => ?_)
      rw [performed_getPeer]
      cases missed : peers.get (trimSlash stub.baseIri) with
      | some known => exact ih.anywhere peers
      | none => exact found_unknown missed rfl (fun _ => ih)

theorem careful_add (draw : Draw) (principal : Principal) (input : AddPeer) (wellKnown : AppResult WellKnown) :
    (add own draw principal input wellKnown).Careful footing := by
  unfold add
  split
  · exact Program.careful_done _
  · split
    · exact Program.careful_done _
    · refine Program.careful_call (fun _ => trivial) (fun peers _ _ => ?_)
      rw [performed_getPeer]
      -- the peer that was looked at is written as active, which rests on nothing
      refine ⟨Program.ready_call.2 (fun suggested => absurd suggested (by simp [recordOf])),
        Program.Looks.of_careful (fun reply => ?_)⟩
      cases reply with
      | error e => exact Program.careful_done _
      | ok _ => exact careful_suggestPeers _ _ _ _ (Program.careful_done _)

theorem careful_announce (draw : Draw) (input : Announce) : (announce own draw input).Careful footing := by
  unfold announce
  simp only []
  split
  · exact Program.careful_done _
  · refine Program.careful_call (fun _ => trivial) (fun peers _ _ => ?_)
    rw [performed_getPeer]
    cases missed : peers.get (trimSlash input.baseUrl) with
    | some known => exact (Program.careful_done _).anywhere _
    | none =>
      refine found_unknown missed rfl (fun reply => ?_)
      cases reply with
      | error e => exact Program.careful_done _
      | ok _ => exact Program.careful_done _

theorem careful_remove (principal : Principal) (id : String) (dropped : AppResult Unit) :
    (remove principal id dropped).Careful footing := by
  unfold remove
  split
  · exact Program.careful_done _
  · refine Program.careful_call (fun _ => trivial) (fun peers _ _ => ?_)
    rw [performed_getPeer]
    cases peers.get id with
    | none => exact (Program.careful_done _).anywhere _
    | some peer =>
      cases dropped with
      | error e => exact (Program.careful_done _).anywhere _
      | ok _ => exact (Program.careful_call (fun _ => trivial) (fun _ _ _ => (Program.careful_done _).anywhere _)).anywhere _

theorem careful_handle (request : Request) : (handle own request).Careful footing := by
  cases request with
  | announce draw input => exact careful_announce draw input
  | add draw principal input wellKnown => exact careful_add draw principal input wellKnown
  | remove principal id dropped => exact careful_remove principal id dropped

end Looking

section Writing

variable {own : String} {pool : Pool table (AppResult Answer)}

/-- A call that does not write the base of a suggestion leaves it unknown. -/
theorem spares_of_undisturbed {place : Nat} (undisturbed : Undisturbed pool (.next place)) {c : Api.Discovery.Call}
    (calls : pool.Calls place c) : pool.Spares footing place c := by
  intro other pending elsewhere about found
  cases pending with
  | getPeer key => exact trivial
  | deletePeer id => exact trivial
  | upsertPeer row =>
    intro suggested
    cases c with
    | getPeer key => exact found suggested
    | deletePeer id => exact pool.state.unknown_delete (found suggested)
    | upsertPeer written =>
      exact pool.state.unknown_upsert (found suggested) (undisturbed written calls other row elsewhere about suggested)

theorem heedful_of_undisturbed {turn : Turn table (AppResult Answer)} (begins : BeginsDiscovery own pool turn)
    (undisturbed : Undisturbed pool turn) : pool.Heedful footing turn := by
  cases turn with
  | start p =>
    obtain ⟨request, rfl⟩ := begins
    exact careful_handle request
  | next place => exact fun c calls _ _ => ⟨trivial, trivial, spares_of_undisturbed undisturbed calls⟩

theorem leavesKnown_of_founded {turn : Turn table (AppResult Answer)} (founded : pool.Founded footing turn) :
    LeavesKnown pool turn := by
  cases turn with
  | start p => trivial
  | next place =>
    intro row calls suggested held mem
    have unknown : pool.state.Unknown row.baseIri := founded _ calls suggested
    obtain ⟨p, found, next⟩ := calls
    refine ⟨held, ?_, rfl, rfl, rfl, rfl, rfl⟩
    rw [Pool.step_next found]
    cases p with
    | done answer => cases next
    | call c rest =>
      obtain rfl := Option.some.inj next
      exact pool.state.mem_upsert_of_unknown unknown mem

end Writing

/-- As long as no row is written under a pending suggestion, no suggestion touches a row that exists. -/
theorem suggestions_leave_known (own : String) (peers : Peers) (turns : List (Turn table (AppResult Answer)))
    (heeded : Meets Pool.step (fun pool turn => BeginsDiscovery own pool turn ∧ Undisturbed pool turn) ⟨peers, []⟩ turns) :
    Meets Pool.step LeavesKnown ⟨peers, []⟩ turns := by
  have heedful : Meets Pool.step (Pool.Heedful footing) ⟨peers, []⟩ turns :=
    meets_mono Pool.step (fun _ _ both => heedful_of_undisturbed both.1 both.2) heeded
  exact meets_mono Pool.step (fun _ _ founded => leavesKnown_of_founded founded)
    (Pool.meets_founded (@Pool.sound_empty table _ footing peers trivial) heedful)

theorem undisturbed_of_alone {pool : Pool table (AppResult Answer)} {place : Nat} (others : pool.alone place = true) :
    Undisturbed pool (.next place) :=
  fun _ _ _ _ elsewhere about => absurd about (Pool.not_calls_of_alone others elsewhere _)

section Specimen

open Specimen

def reg : String := "https://reg.example"

def stranger : Handler := handle reg (.announce (draw "a") ⟨"https://b.example", some "mallory"⟩)

def adding : Handler :=
  handle reg (.add (draw "b") rootPrincipal { baseUrl := "https://b.example" } (.ok { title := some "b" }))

/-- An announcement has looked and found nothing, and the peer is added before it writes. -/
def overtaken : List (Turn table (AppResult Answer)) :=
  [.start stranger, .next 0, .start adding, .next 1, .next 1]

/-- The suggestion makes a stranger of the peer that has just been added. -/
theorem announcement_demotes : ¬ ∀ (own : String) (peers : Peers) (turns : List (Turn table (AppResult Answer))),
    Meets Pool.step (BeginsDiscovery own) ⟨peers, []⟩ turns → Meets Pool.step LeavesKnown ⟨peers, []⟩ turns := by
  intro all
  have begins : Meets Pool.step (BeginsDiscovery reg) ⟨Peers.empty, []⟩ (overtaken ++ [.next 0]) :=
    ⟨⟨_, rfl⟩, trivial, ⟨_, rfl⟩, trivial, trivial, trivial, trivial⟩
  have last := ((meets_append Pool.step).1 (all reg Peers.empty _ begins)).2.1
  have pending : (run Pool.step ⟨Peers.empty, []⟩ overtaken).Calls 0
      (.upsertPeer (suggestion ((draw "a").id []) (draw "a").now "https://b.example" (some "mallory") "announce")) :=
    ⟨_, rfl, rfl⟩
  have kept := last _ pending rfl (recordOf (((draw "b").site 0).id []) (draw "b").now "https://b.example"
    { title := some "b" } none) (by decide)
  exact absurd kept (by decide)

/-- An announcement on its own, after which the peer is added. -/
theorem suggestions_leave_known_added :
    Meets Pool.step LeavesKnown ⟨Peers.empty, []⟩
      [.start stranger, .next 0, .next 0, .start adding, .next 1, .next 1] :=
  suggestions_leave_known reg Peers.empty _
    ⟨⟨⟨_, rfl⟩, trivial⟩, ⟨trivial, undisturbed_of_alone rfl⟩, ⟨trivial, undisturbed_of_alone rfl⟩,
      ⟨⟨_, rfl⟩, trivial⟩, ⟨trivial, undisturbed_of_alone rfl⟩, ⟨trivial, undisturbed_of_alone rfl⟩, trivial⟩

end Specimen

end ToolArtifactRegistry.Laws
