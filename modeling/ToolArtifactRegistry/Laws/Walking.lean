import ToolArtifactRegistry.Federation.Walk
import ToolArtifactRegistry.Laws.Claiming

/-! How far a federated search can go. The claim on the id admits one handling at each registry, and the
hop grant, cut at every registry to its own ceiling, falls along every edge. -/
namespace ToolArtifactRegistry.Laws

open Library.Runs Library.Tables Library.Text Domain Federation Api.Search

section Walking

variable {R : Type} (net : Net R)

/-- A grant fits the course it came by: what the root allows is not used up, and less is left than the
sender had. -/
def Within (granted : Nat) (course : Course R) : Prop :=
  granted + course.depth ≤ (net.host course.root).fed.maxHops ∧
    ∀ sent, course.sentWith = some sent → granted < sent

structure Budgeted (world : World R) : Prop where
  legs : ∀ leg ∈ world.legs, ∃ granted, leg.sq.fedHops = some granted ∧ Within net granted leg.course
  visits : ∀ visit ∈ world.visits, Within net (hopsGranted (net.host visit.host) visit.sq) visit.course
  handled : ∀ handling ∈ world.handled, Within net handling.granted handling.course

variable {net}

theorem Within.mono {granted less : Nat} {course : Course R} (within : Within net granted course)
    (at_most : less ≤ granted) : Within net less course := by
  refine ⟨?_, fun sent came => ?_⟩
  · have bound := within.1
    omega
  · have before := within.2 sent came
    omega

/-- What is forwarded fits the edge it is forwarded along. -/
theorem within_forward {visit : Visit R} {peers : List PeerRecord} {leg : Leg R}
    (within : Within net (hopsGranted (net.host visit.host) visit.sq) visit.course) (mem : leg ∈ forward net visit peers) :
    ∃ granted, leg.sq.fedHops = some granted ∧ Within net granted leg.course := by
  obtain ⟨peer, asks, same⟩ := List.mem_map.mp mem
  have left := granted_of_asked asks
  have less := hopsForwarded_le (net.host visit.host) visit.sq
  have bound := within.1
  refine ⟨hopsForwarded (net.host visit.host) visit.sq, by rw [← same]; rfl, ?_⟩
  rw [← same]
  refine ⟨?_, fun sent came => ?_⟩
  · show _ + (visit.course.depth + 1) ≤ (net.host visit.course.root).fed.maxHops
    omega
  · rw [← Option.some.inj came]
    omega

theorem budgeted_begin {world : World R} (budgeted : Budgeted net world) {host : R} {sq : SearchQuery}
    {newId : String} {now : Nat} {course : Course R} (within : Within net (hopsGranted (net.host host) sq) course) :
    Budgeted net (begin world host sq newId now course) := by
  unfold begin
  split
  · refine { budgeted with visits := fun visit mem => ?_ }
    rcases List.mem_append.mp mem with old | new
    · exact budgeted.visits visit old
    · rw [List.mem_singleton.mp new]
      exact within
  · exact budgeted

theorem budgeted_proceed [DecidableEq R] {world : World R} (budgeted : Budgeted net world) {place : Nat} {visit : Visit R}
    (found : world.visits[place]? = some visit) (peers : List PeerRecord) :
    Budgeted net (proceedVisit net world place visit peers) := by
  have mine := budgeted.visits visit (List.mem_of_getElem? found)
  have visits : ∀ other ∈ (proceedVisit net world place visit peers).visits,
      Within net (hopsGranted (net.host other.host) other.sq) other.course := by
    intro other mem
    rcases proceedVisit_visits net world peers found other mem with old | ⟨phase, same⟩
    · exact budgeted.visits other old
    · rw [same]
      exact mine
  refine ⟨?_, visits, ?_⟩
  · unfold proceedVisit
    cases visit.phase with
    | fresh =>
      intro leg mem
      rcases List.mem_append.mp mem with old | new
      · exact budgeted.legs leg old
      · exact within_forward mine new
    | counted =>
      dsimp only
      split <;> exact budgeted.legs
    | arrived => exact budgeted.legs
    | inserted => exact budgeted.legs
    | swept => exact budgeted.legs
    | ignored => exact budgeted.legs
  · unfold proceedVisit
    cases visit.phase with
    | fresh =>
      intro handling mem
      rcases List.mem_append.mp mem with old | new
      · exact budgeted.handled handling old
      · rw [List.mem_singleton.mp new]
        exact mine
    | counted =>
      dsimp only
      split <;> exact budgeted.handled
    | arrived => exact budgeted.handled
    | inserted => exact budgeted.handled
    | swept => exact budgeted.handled
    | ignored => exact budgeted.handled

theorem budgeted_step [DecidableEq R] {world : World R} (budgeted : Budgeted net world) (event : Event R) :
    Budgeted net (step net world event) := by
  cases event with
  | ask host sq newId now =>
    apply budgeted_begin budgeted
    exact ⟨hopsGranted_le_own _ _, fun sent came => by cases came⟩
  | deliver place newId now =>
    simp only [step]
    split
    · exact budgeted
    · next leg found =>
      split
      · exact budgeted
      · obtain ⟨granted, asks, within⟩ := budgeted.legs leg (List.mem_of_getElem? found)
        exact budgeted_begin budgeted (within.mono (hopsGranted_le_asked asks))
  | proceed place peers =>
    simp only [step]
    split
    · exact budgeted
    · next visit found => exact budgeted_proceed budgeted found peers

theorem budgeted_run [DecidableEq R] {start : World R} (budgeted : Budgeted net start) (events : List (Event R)) :
    Budgeted net (run (step net) start events) := by
  induction events generalizing start with
  | nil => exact budgeted
  | cons event rest ih => exact ih (budgeted_step budgeted event)

end Walking

section Once

variable {R : Type} [DecidableEq R] (net : Net R) (host : R) (queryId : String)

/-- The insert was won, and the walk has not begun. -/
def wins : Phase → Bool
  | .inserted | .swept | .fresh => true
  | .arrived | .ignored | .counted => false

/-- A claim that won the id, whatever is left of it to do. -/
def won (visit : Visit R) : Bool := decide (visit.host = host ∧ visit.queryId = queryId) && wins visit.phase

def handles (handling : Handled R) : Bool := decide (handling.host = host ∧ handling.queryId = queryId)

/-- How often the id was handled at the registry. -/
def handlings (world : World R) : Nat := world.handled.countP (handles host queryId)

/-- How often the id was handled or is about to be. -/
def claims (world : World R) : Nat := handlings host queryId world + world.visits.countP (won host queryId)

/-- Whether a claim of the id has executed its insert. -/
def underway (visit : Visit R) : Prop := visit.host = host ∧ visit.queryId = queryId ∧ visit.phase ≠ .arrived

/-- No claim of the id is between its insert and its answer. -/
def Quiet (world : World R) : Prop := ∀ visit ∈ world.visits, ¬ underway host queryId visit

/-- The id's lifetime goes on: no sweep at the registry reads a clock past the expiry of its row, and no
cut at the cap takes the row. -/
def Lasting (world : World R) : Event R → Prop
  | .proceed place _ => ∀ visit, world.visits[place]? = some visit → visit.host = host →
      (visit.phase = .inserted → ∀ row ∈ world.tables host, row.queryId = queryId →
        le ((net.engine host).stamp visit.now) row.expiresAt = true) ∧
      (visit.phase = .swept → ∀ row ∈ world.tables host, row.queryId = queryId →
        row ∈ cap (net.engine host) (net.host host).fed.maxSeenRows (world.tables host))
  | _ => True

/-- Since a moment with so many claims there was at most one more, and while there is one its row is held. -/
structure Single (base : Nat) (world : World R) : Prop where
  few : claims host queryId world ≤ base + 1
  held : base < claims host queryId world → holds (world.tables host) queryId = true
  blocked : ∀ visit ∈ world.visits, underway host queryId visit → holds (world.tables host) queryId = true

variable {net host queryId}

theorem won_moveTo (visit : Visit R) (phase : Phase) : won host queryId (moveTo visit phase) =
    (decide (visit.host = host ∧ visit.queryId = queryId) && wins phase) := rfl

theorem won_of_phase {visit : Visit R} {phase : Phase} (at_ : visit.phase = phase) :
    won host queryId visit = (decide (visit.host = host ∧ visit.queryId = queryId) && wins phase) := by
  rw [won, at_]

/-- A step that claims nothing new, and after which the row is held wherever it was, keeps the invariant. -/
theorem Single.carry {base : Nat} {world next : World R} (single : Single host queryId base world)
    (same : claims host queryId next = claims host queryId world)
    (keeps : holds (world.tables host) queryId = true → holds (next.tables host) queryId = true)
    (visits : ∀ visit ∈ next.visits, underway host queryId visit →
      (∃ old ∈ world.visits, underway host queryId old) ∨ holds (next.tables host) queryId = true) :
    Single host queryId base next := by
  refine ⟨by rw [same]; exact single.few, fun more => keeps (single.held (by rw [← same]; exact more)), ?_⟩
  intro visit mem going
  rcases visits visit mem going with ⟨old, mem', going'⟩ | held
  · exact keeps (single.blocked old mem' going')
  · exact held

theorem single_begin {base : Nat} {world : World R} (single : Single host queryId base world) (at_ : R) (sq : SearchQuery)
    (newId : String) (now : Nat) (course : Course R) : Single host queryId base (begin world at_ sq newId now course) := by
  unfold begin
  split
  · next id _ =>
    refine single.carry ?_ (fun held => held) ?_
    · have idle : won host queryId ⟨at_, sq, id, now, course, .arrived⟩ = false := by
        unfold won
        rw [Bool.and_eq_false_iff]
        exact Or.inr rfl
      simp [claims, handlings, List.countP_append, idle]
    · intro visit mem going
      rcases List.mem_append.mp mem with old | new
      · exact Or.inl ⟨visit, old, going⟩
      · rw [List.mem_singleton.mp new] at going
        exact absurd rfl going.2.2
  · exact single

theorem table_of_setTable {world : World R} {at_ : R} {rows : List SeenQuery} :
    setTable world at_ rows host = if host = at_ then rows else world.tables host := by
  unfold setTable
  rw [Function.update_apply]

/-- A statement that wins nothing and leaves the row where it is held. -/
theorem single_goOn {base : Nat} {world : World R} (single : Single host queryId base world) {place : Nat}
    {visit : Visit R} (found : world.visits[place]? = some visit) {rows : List SeenQuery} {phase : Phase}
    (same : won host queryId (moveTo visit phase) = won host queryId visit)
    (keeps : visit.host = host → holds (world.tables host) queryId = true → holds rows queryId = true)
    (executed : visit.host = host → visit.queryId = queryId → visit.phase ≠ .arrived ∨ holds rows queryId = true) :
    Single host queryId base
      { world with tables := setTable world visit.host rows, visits := world.visits.set place (moveTo visit phase) } := by
  refine single.carry ?_ ?_ ?_
  · have counted := countP_set (p := won host queryId) found (moveTo visit phase)
    rw [same] at counted
    unfold claims handlings
    dsimp only
    omega
  · intro held
    show holds (setTable world visit.host rows host) queryId = true
    rw [table_of_setTable]
    split
    · next here => exact keeps here.symm held
    · exact held
  · intro other mem going
    obtain ⟨front, back, whole, replaced, _⟩ := parts_at found
    have mem' : other ∈ world.visits.set place (moveTo visit phase) := mem
    rw [replaced, List.mem_append, List.mem_cons] at mem'
    rcases mem' with first | moved | last
    · exact Or.inl ⟨other, by rw [whole]; simp [first], going⟩
    · rw [moved] at going
      rcases executed going.1 going.2.1 with past | held
      · exact Or.inl ⟨visit, List.mem_of_getElem? found, going.1, going.2.1, past⟩
      · right
        show holds (setTable world visit.host rows host) queryId = true
        have here : host = visit.host := going.1.symm
        rw [table_of_setTable, if_pos here]
        exact held
    · exact Or.inl ⟨other, by rw [whole]; simp [last], going⟩

theorem holds_append {rows : List SeenQuery} {row : SeenQuery} (held : holds rows queryId = true) :
    holds (rows ++ [row]) queryId = true := by
  obtain ⟨old, mem, same⟩ := holds_iff.mp held
  exact holds_iff.mpr ⟨old, List.mem_append_left _ mem, same⟩

/-- A won insert is the one claim more there may be, and its row is held. -/
theorem single_insert {base : Nat} {world : World R} (single : Single host queryId base world) {place : Nat}
    {visit : Visit R} (found : world.visits[place]? = some visit) (arrived : visit.phase = .arrived)
    (free : holds (world.tables visit.host) visit.queryId = false) {row : SeenQuery} (named : row.queryId = visit.queryId) :
    Single host queryId base
      { world with
        tables := setTable world visit.host (world.tables visit.host ++ [row])
        visits := world.visits.set place (moveTo visit .inserted) } := by
  by_cases mine : visit.host = host ∧ visit.queryId = queryId
  · have counted := countP_set (p := won host queryId) found (moveTo visit .inserted)
    have before : won host queryId visit = false := by rw [won_of_phase arrived, wins, Bool.and_false]
    have after : won host queryId (moveTo visit .inserted) = true := by
      rw [won_moveTo, decide_eq_true mine]
      rfl
    rw [before, after] at counted
    have held : holds (setTable world visit.host (world.tables visit.host ++ [row]) host) queryId = true := by
      rw [table_of_setTable, if_pos mine.1.symm]
      exact holds_iff.mpr ⟨row, by simp, named.trans mine.2⟩
    have least : ¬ base < claims host queryId world := by
      intro more
      have taken := single.held more
      rw [← mine.1, ← mine.2, free] at taken
      cases taken
    refine ⟨?_, fun _ => held, fun _ _ _ => held⟩
    unfold claims handlings at least ⊢
    simp only [Bool.false_eq_true, if_false, if_true] at counted
    dsimp only
    omega
  · refine single_goOn single found ?_ ?_ ?_
    · rw [won_moveTo]
      unfold won
      rw [decide_eq_false mine]
      rfl
    · intro here held
      rw [here]
      exact holds_append held
    · exact fun here same => absurd ⟨here, same⟩ mine

/-- A visit that leaves without an answer that counts. -/
theorem single_erase {base : Nat} {world : World R} (single : Single host queryId base world) {place : Nat}
    {visit : Visit R} (found : world.visits[place]? = some visit) {legs : List (Leg R)} {handled : List (Handled R)}
    (same : handled.countP (handles host queryId) =
      world.handled.countP (handles host queryId) + if won host queryId visit then 1 else 0) :
    Single host queryId base
      { world with visits := world.visits.eraseIdx place, legs := legs, handled := handled } := by
  refine single.carry ?_ (fun held => held) ?_
  · have counted := countP_eraseIdx (p := won host queryId) found
    unfold claims handlings
    dsimp only
    omega
  · intro other mem going
    exact Or.inl ⟨other, List.mem_of_mem_eraseIdx mem, going⟩

theorem single_proceed {base : Nat} {world : World R} (single : Single host queryId base world) {place : Nat}
    {visit : Visit R} (found : world.visits[place]? = some visit) (peers : List PeerRecord)
    (lasting : Lasting net host queryId world (.proceed place peers)) :
    Single host queryId base (proceedVisit net world place visit peers) := by
  have blocked := single.blocked visit (List.mem_of_getElem? found)
  have same_of_not {phase : Phase} (not_ : ¬ (visit.host = host ∧ visit.queryId = queryId)) :
      won host queryId (moveTo visit phase) = won host queryId visit := by
    rw [won_moveTo]
    unfold won
    rw [decide_eq_false not_]
    rfl
  unfold proceedVisit
  cases at_ : visit.phase with
  | arrived =>
    dsimp only
    cases taken : holds (world.tables visit.host) visit.queryId with
    | true =>
      rw [@insertOrIgnore_taken _ (rowOf net visit) taken]
      refine single_goOn single found ?_ ?_ ?_
      · rw [won_moveTo, won_of_phase at_]
        rfl
      · exact fun here held => by rw [here]; exact held
      · exact fun here same => Or.inr (by rw [← same]; exact taken)
    | false =>
      rw [@insertOrIgnore_free _ (rowOf net visit) taken]
      exact single_insert single found at_ taken rfl
  | inserted =>
    refine single_goOn single found ?_ ?_ ?_
    · rw [won_moveTo, won_of_phase at_]
      rfl
    · intro here held
      obtain ⟨row, mem, named⟩ := holds_iff.mp held
      have lives := (lasting visit found here).1 at_ row mem named
      refine holds_iff.mpr ⟨row, mem_sweep.mpr ⟨by rw [here]; exact mem, ?_⟩, named⟩
      rw [here]
      exact lives
    · exact fun _ _ => Or.inl (by rw [at_]; decide)
  | swept =>
    refine single_goOn single found ?_ ?_ ?_
    · rw [won_moveTo, won_of_phase at_]
      rfl
    · intro here held
      obtain ⟨row, mem, named⟩ := holds_iff.mp held
      have stays := (lasting visit found here).2 at_ row mem named
      exact holds_iff.mpr ⟨row, by rw [here]; exact stays, named⟩
    · exact fun _ _ => Or.inl (by rw [at_]; decide)
  | ignored =>
    refine single_goOn single found ?_ ?_ ?_
    · rw [won_moveTo, won_of_phase at_]
      rfl
    · intro here held
      rw [holds_countRepeat, here]
      exact held
    · exact fun _ _ => Or.inl (by rw [at_]; decide)
  | counted =>
    dsimp only
    rw [answer_isFresh]
    cases held : holds (world.tables visit.host) visit.queryId with
    | true =>
      have idle : won host queryId visit = false := by rw [won_of_phase at_, wins, Bool.and_false]
      simp only [Bool.not_true, Bool.false_eq_true, if_false]
      exact single_erase single found (by rw [idle]; rfl)
    | false =>
      have other : ¬ (visit.host = host ∧ visit.queryId = queryId) := by
        intro mine
        have there := blocked ⟨mine.1, mine.2, by rw [at_]; decide⟩
        rw [← mine.1, ← mine.2, held] at there
        cases there
      simp only [Bool.not_false, if_true]
      refine single_goOn single found (same_of_not other) ?_ ?_
      · exact fun here there => by rw [here]; exact there
      · exact fun here same => absurd ⟨here, same⟩ other
  | fresh =>
    refine single_erase single found ?_
    rw [List.countP_append, won_of_phase at_, wins, Bool.and_true]
    simp [handles]

theorem single_step {base : Nat} {world : World R} (single : Single host queryId base world) (event : Event R)
    (lasting : Lasting net host queryId world event) : Single host queryId base (step net world event) := by
  cases event with
  | ask at_ sq newId now => exact single_begin single at_ sq newId now _
  | deliver place newId now =>
    simp only [step]
    split
    · exact single
    · split
      · exact single
      · exact single_begin single _ _ _ _ _
  | proceed place peers =>
    simp only [step]
    split
    · exact single
    · next visit found => exact single_proceed single found peers lasting

/-- While an id lasts, a registry handles it at most once more than it had. -/
theorem handled_once {world : World R} (quiet : Quiet host queryId world) {events : List (Event R)}
    (lasting : Meets (step net) (Lasting net host queryId) world events) :
    handlings host queryId (run (step net) world events) ≤ handlings host queryId world + 1 := by
  have idle : world.visits.countP (won host queryId) = 0 := by
    rw [List.countP_eq_zero]
    intro visit mem winner
    unfold won at winner
    rw [Bool.and_eq_true, decide_eq_true_eq] at winner
    refine quiet visit mem ⟨winner.1.1, winner.1.2, fun arrived => ?_⟩
    rw [arrived, wins] at winner
    cases winner.2
  have first : Single host queryId (handlings host queryId world) world := by
    refine ⟨by unfold claims; omega, fun more => ?_, fun visit mem going => absurd going (quiet visit mem)⟩
    unfold claims at more
    omega
  have last := run_invariant (step net) (Single host queryId (handlings host queryId world)) first
    (fun world event single here => single_step single event here) lasting
  have bound := last.few
  unfold claims at bound
  omega

end Once

/-- A federated search is bounded. Over any run of the network from a moment when nothing is in flight,
with any peers, limits, order and repetition of legs: while its id lasts each registry handles a query
at most once, the grant falls along every edge, nobody is handled deeper than the root allows, and a
grant above a registry's ceiling forwards what the ceiling would. -/
theorem walk_is_bounded {R : Type} [DecidableEq R] (net : Net R) (tables : R → List SeenQuery) (events : List (Event R)) :
    (∀ host queryId (earlier later : List (Event R)), events = earlier ++ later →
      Quiet host queryId (run (step net) ⟨tables, [], [], []⟩ earlier) →
      Meets (step net) (Lasting net host queryId) (run (step net) ⟨tables, [], [], []⟩ earlier) later →
      handlings host queryId (run (step net) ⟨tables, [], [], []⟩ events) ≤
        handlings host queryId (run (step net) ⟨tables, [], [], []⟩ earlier) + 1) ∧
    (∀ leg ∈ (run (step net) ⟨tables, [], [], []⟩ events).legs, ∀ sent, leg.course.sentWith = some sent →
      ∃ granted, leg.sq.fedHops = some granted ∧ granted < sent) ∧
    (∀ handling ∈ (run (step net) ⟨tables, [], [], []⟩ events).handled,
      (∀ sent, handling.course.sentWith = some sent → handling.granted < sent) ∧
      handling.course.depth ≤ (net.host handling.course.root).fed.maxHops) ∧
    ∀ host (sq : SearchQuery) granted, (net.host host).fed.maxHops ≤ granted →
      hopsForwarded (net.host host) { sq with fedHops := some granted } =
        hopsForwarded (net.host host) { sq with fedHops := some (net.host host).fed.maxHops } := by
  have start : Budgeted net ⟨tables, [], [], []⟩ := ⟨by simp, by simp, by simp⟩
  have budgeted := budgeted_run start events
  refine ⟨?_, ?_, ?_, fun host sq granted above => hopsForwarded_of_le sq above⟩
  · intro host queryId earlier later whole quiet lasting
    rw [whole, run_append]
    exact handled_once quiet lasting
  · intro leg mem sent came
    obtain ⟨granted, asks, within⟩ := budgeted.legs leg mem
    exact ⟨granted, asks, within.2 sent came⟩
  · intro handling mem
    have within := budgeted.handled handling mem
    have bound := within.1
    exact ⟨within.2, by omega⟩

instance {R : Type} [DecidableEq R] (net : Net R) (host : R) (queryId : String) (world : World R) :
    (event : Event R) → Decidable (Lasting net host queryId world event)
  | .ask .. => isTrue trivial
  | .deliver .. => isTrue trivial
  | .proceed place peers =>
    match found : world.visits[place]? with
    | none => isTrue (fun visit same => by rw [found] at same; cases same)
    | some visit => decidable_of_iff (visit.host = host →
        (visit.phase = .inserted → ∀ row ∈ world.tables host, row.queryId = queryId →
          le ((net.engine host).stamp visit.now) row.expiresAt = true) ∧
        (visit.phase = .swept → ∀ row ∈ world.tables host, row.queryId = queryId →
          row ∈ cap (net.engine host) (net.host host).fed.maxSeenRows (world.tables host)))
        ⟨fun here other same => by rw [found] at same; cases same; exact here, fun all => all visit found⟩

/-- Two registries that name each other as peers, one hop apart. -/
def pair : Net Bool where
  host side :=
    { base := if side then "https://b.example" else "https://a.example"
      fed := { maxHops := if side then 5 else 2, totalTimeout := milliseconds 3000, hopMargin := milliseconds 600
               maxPeers := 12, maxPeerBytes := 1000, maxPeerHits := 100, maxPeerStatuses := 32, maxTotalHits := 500
               idTtl := 10, maxSeenRows := 100 }
      federatedSearchTimeout := milliseconds 3000 }
  engine _ := unaryEngine
  route base :=
    if base = "https://a.example" then some false
    else if base = "https://b.example" then some true
    else none

def peerAt (base : String) : PeerRecord := ⟨base, base, none, none, "ok", 0, false⟩

/-- A search at one of them; its leg arrives at the other twice, and both claims run at once. -/
def doubled : List (Event Bool) :=
  [.ask false { q := some "fair", federated := true } "q" 0,
    .proceed 0 [], .proceed 0 [], .proceed 0 [], .proceed 0 [peerAt "https://b.example"],
    .deliver 0 "" 1, .deliver 0 "" 2,
    .proceed 1 [], .proceed 0 [], .proceed 1 [], .proceed 0 [], .proceed 1 [], .proceed 0 [],
    .proceed 0 [peerAt "https://a.example"]]

/-- The doubled leg is handled, and handled once. -/
theorem walk_is_bounded_doubled :
    handlings true "q" (run (step pair) ⟨fun _ => [], [], [], []⟩ doubled) = 1 ∧
      handlings true "q" (run (step pair) ⟨fun _ => [], [], [], []⟩ doubled) ≤
        handlings true "q" (run (step pair) ⟨fun _ => [], [], [], []⟩ []) + 1 :=
  ⟨by decide,
    (walk_is_bounded pair (fun _ => []) doubled).1 true "q" [] doubled rfl (fun visit mem => by cases mem)
      (by decide)⟩

end ToolArtifactRegistry.Laws
