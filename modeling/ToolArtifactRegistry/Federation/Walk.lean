import ToolArtifactRegistry.Api.Search
import ToolArtifactRegistry.Library.Runs

/-! A federated search as it travels: registries that run the search statement by statement, the legs
they send each other, and the claims that decide who handles a query. A leg that was sent may arrive
any number of times, in any order, or never. -/
namespace ToolArtifactRegistry.Federation

open Library.Text Domain Api.Search

/-- The registries of a network, and which of them answers at an address. -/
structure Net (R : Type) where
  host : R → Host
  engine : R → Engine
  route : String → Option R

/-- Where a request comes from: the registry its walk began at, the forwarding edges since, and what
the registry that sent it was granted. -/
structure Course (R : Type) where
  root : R
  depth : Nat
  sentWith : Option Nat

structure Leg (R : Type) where
  dest : String
  sq : SearchQuery
  course : Course R

/-- How far a claim has come: the statement it executes next, or a walk it may begin. -/
inductive Phase where
  | arrived
  | inserted
  | swept
  | ignored
  | counted
  | fresh
  deriving DecidableEq

structure Visit (R : Type) where
  host : R
  sq : SearchQuery
  queryId : String
  now : Nat
  course : Course R
  phase : Phase

structure Handled (R : Type) where
  host : R
  queryId : String
  granted : Nat
  course : Course R

structure World (R : Type) where
  tables : R → List SeenQuery
  legs : List (Leg R) := []
  visits : List (Visit R) := []
  handled : List (Handled R) := []

inductive Event (R : Type) where
  /-- A request from outside. -/
  | ask (host : R) (sq : SearchQuery) (newId : String) (now : Nat)
  | deliver (leg : Nat) (newId : String) (now : Nat)
  /-- The next statement of a claim, or the fan-out to the peers that are active then. -/
  | proceed (visit : Nat) (peers : List PeerRecord)

variable {R : Type} (net : Net R)

/-- A request that takes part in a walk begins by claiming its id. -/
def begin (world : World R) (host : R) (sq : SearchQuery) (newId : String) (now : Nat) (course : Course R) : World R :=
  match opening sq newId with
  | .claims queryId => { world with visits := world.visits ++ [⟨host, sq, queryId, now, course, .arrived⟩] }
  | _ => world

def setTable [DecidableEq R] (world : World R) (host : R) (rows : List SeenQuery) : R → List SeenQuery :=
  Function.update world.tables host rows

def moveTo (visit : Visit R) (phase : Phase) : Visit R := { visit with phase := phase }

def rowOf (visit : Visit R) : SeenQuery :=
  newRow (net.engine visit.host) visit.now (net.host visit.host).fed.idTtl visit.queryId (originIri visit.sq)
    (incomingPath (net.host visit.host) visit.sq).getLast?

/-- The legs a handled request sends. -/
def forward (visit : Visit R) (peers : List PeerRecord) : List (Leg R) :=
  (asked (net.host visit.host) visit.sq peers).map (fun peer =>
    { dest := peer.baseIri
      sq := legFor (net.host visit.host) visit.sq visit.queryId
      course := ⟨visit.course.root, visit.course.depth + 1, some (hopsGranted (net.host visit.host) visit.sq)⟩ })

def proceedVisit [DecidableEq R] (world : World R) (place : Nat) (visit : Visit R) (peers : List PeerRecord) : World R :=
  let rows := world.tables visit.host
  let goOn (rows : List SeenQuery) (phase : Phase) : World R :=
    { world with tables := setTable world visit.host rows, visits := world.visits.set place (moveTo visit phase) }
  match visit.phase with
  | .arrived =>
    let (rows, won) := insertOrIgnore rows (rowOf net visit)
    goOn rows (if won then .inserted else .ignored)
  | .inserted => goOn (sweep ((net.engine visit.host).stamp visit.now) rows) .swept
  | .swept => goOn (cap (net.engine visit.host) (net.host visit.host).fed.maxSeenRows rows) .fresh
  | .ignored => goOn (countRepeat visit.queryId rows) .counted
  | .counted =>
    if (answer rows visit.queryId).isFresh then goOn rows .fresh
    else { world with visits := world.visits.eraseIdx place }
  | .fresh =>
    { world with
      visits := world.visits.eraseIdx place
      legs := world.legs ++ forward net visit peers
      handled := world.handled ++
        [⟨visit.host, visit.queryId, hopsGranted (net.host visit.host) visit.sq, visit.course⟩] }

def step [DecidableEq R] (world : World R) : Event R → World R
  | .ask host sq newId now => begin world host sq newId now ⟨host, 0, none⟩
  | .deliver place newId now =>
    match world.legs[place]? with
    | none => world
    | some leg =>
      match net.route leg.dest with
      | none => world
      | some host => begin world host leg.sq newId now leg.course
  | .proceed place peers =>
    match world.visits[place]? with
    | none => world
    | some visit => proceedVisit net world place visit peers

/-- A place of a list holds what is there, between what comes before and after. -/
theorem parts_at {α : Type} {items : List α} {place : Nat} {item : α} (found : items[place]? = some item) :
    ∃ front back, items = front ++ item :: back ∧ (∀ new, items.set place new = front ++ new :: back) ∧
      items.eraseIdx place = front ++ back := by
  obtain ⟨inside, same⟩ := List.getElem?_eq_some_iff.mp found
  refine ⟨items.take place, items.drop (place + 1), ?_, ?_, ?_⟩
  · rw [← same, List.getElem_cons_drop, List.take_append_drop]
  · intro new
    rw [List.set_eq_take_append_cons_drop, if_pos inside]
  · exact List.eraseIdx_eq_take_drop_succ items place

/-- What stands in for an item is counted in its stead. -/
theorem countP_set {α : Type} {p : α → Bool} {items : List α} {place : Nat} {item : α}
    (found : items[place]? = some item) (new : α) :
    (items.set place new).countP p + (if p item then 1 else 0) = items.countP p + (if p new then 1 else 0) := by
  obtain ⟨front, back, whole, replaced, _⟩ := parts_at found
  rw [replaced, whole]
  simp only [List.countP_append, List.countP_cons]
  omega

theorem countP_eraseIdx {α : Type} {p : α → Bool} {items : List α} {place : Nat} {item : α}
    (found : items[place]? = some item) :
    (items.eraseIdx place).countP p + (if p item then 1 else 0) = items.countP p := by
  obtain ⟨front, back, whole, _, erased⟩ := parts_at found
  rw [erased, whole]
  simp only [List.countP_append, List.countP_cons]
  omega

/-- The statement a claim executes, or the fan-out: what a step does to the visit it is taken for. -/
theorem proceedVisit_visits [DecidableEq R] (world : World R) {place : Nat} {visit : Visit R} (peers : List PeerRecord)
    (found : world.visits[place]? = some visit) :
    ∀ other ∈ (proceedVisit net world place visit peers).visits,
      other ∈ world.visits ∨ ∃ phase, other = moveTo visit phase := by
  obtain ⟨front, back, whole, replaced, erased⟩ := parts_at found
  have set_ (phase : Phase) : ∀ other ∈ world.visits.set place (moveTo visit phase),
      other ∈ world.visits ∨ ∃ phase, other = moveTo visit phase := by
    intro other mem
    rw [replaced, List.mem_append, List.mem_cons] at mem
    rcases mem with first | same | last
    · exact Or.inl (by rw [whole]; simp [first])
    · exact Or.inr ⟨phase, same⟩
    · exact Or.inl (by rw [whole]; simp [last])
  have gone : ∀ other ∈ world.visits.eraseIdx place, other ∈ world.visits ∨ ∃ phase, other = moveTo visit phase :=
    fun other mem => Or.inl (List.mem_of_mem_eraseIdx mem)
  unfold proceedVisit
  cases visit.phase with
  | arrived => exact set_ _
  | inserted => exact set_ _
  | swept => exact set_ _
  | ignored => exact set_ _
  | counted =>
    dsimp only
    split
    · exact set_ _
    · exact gone
  | fresh => exact gone

end ToolArtifactRegistry.Federation
