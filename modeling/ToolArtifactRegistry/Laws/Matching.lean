import ToolArtifactRegistry.Laws.Acknowledging

/-! Advertising and registering leave exactly one delivery for each match. The OpenLineage adapter
leaves what was there. -/
namespace ToolArtifactRegistry.Laws

open Library.Runs Library.Tables Library.Serde Ids Auth Api ToolArtifactRegistry.Subscriptions
open Api.Subscriptions (Courier Notice interested matchOf notifyAdvertised)
open Dispatch (Site Event noticeOf noticeMoves)
open Registry (Action)

section Rows

variable {policy : RetryPolicy} {later : String → Nat → String} {desk : Desk}

/-- A row for this subscription, artifact and role. -/
def Queued (queue : Queue) (key : String × String × String) : Prop := ∃ d ∈ queue.deliveries, matchKey d = key

/-- Exactly one. -/
def QueuedOnce (queue : Queue) (key : String × String × String) : Prop :=
  (queue.deliveries.filter (fun d => decide (matchKey d = key))).length = 1

theorem queuedOnce_iff {queue : Queue} (stored : Stored policy queue) {key : String × String × String} :
    QueuedOnce queue key ↔ Queued queue key := by
  have apart : Keyed matchKey (queue.deliveries.filter (fun d => decide (matchKey d = key))) :=
    List.Nodup.sublist (List.filter_sublist.map matchKey) stored.unique
  have same : ∀ d ∈ queue.deliveries.filter (fun d => decide (matchKey d = key)), matchKey d = key :=
    fun d mem => of_decide_eq_true (List.mem_filter.1 mem).2
  constructor
  · intro once
    obtain ⟨d, only⟩ := List.length_eq_one_iff.1 once
    have mem : d ∈ queue.deliveries.filter (fun d => decide (matchKey d = key)) := by simp [only]
    exact ⟨d, (List.mem_filter.1 mem).1, same d mem⟩
  · rintro ⟨d, held, here⟩
    have mem : d ∈ queue.deliveries.filter (fun d => decide (matchKey d = key)) :=
      List.mem_filter.2 ⟨held, decide_eq_true here⟩
    unfold QueuedOnce
    generalize queue.deliveries.filter (fun d => decide (matchKey d = key)) = rows at apart same mem
    match rows with
    | [] => simp at mem
    | [only] => rfl
    | first :: second :: rest =>
      have clash : matchKey first = matchKey second := (same first (by simp)).trans (same second (by simp)).symm
      simp [Keyed, clash] at apart

theorem queued_columns {before after : Queue} {key : String × String × String}
    (columns : after.deliveries.map matchKey = before.deliveries.map matchKey) (queued : Queued before key) :
    Queued after key := by
  unfold Queued at queued ⊢
  rw [← List.mem_map] at queued ⊢
  rw [columns]
  exact queued

theorem queued_enqueue {queue : Queue} {gap : Nat} {id now : String} {m : Queue.Match} {key : String × String × String}
    (queued : Queued queue key) : Queued (queue.enqueue gap id now m) key := by
  obtain ⟨d, held, here⟩ := queued
  rcases enqueue_cases queue gap id now m with same | ⟨_, deliveries, _, _⟩
  · refine ⟨d, ?_, here⟩
    rw [same]
    exact held
  · refine ⟨d, ?_, here⟩
    rw [deliveries]
    exact List.mem_append_left _ held

/-- A row goes only with its subscription. -/
theorem step_queued {move : Move} {key : String × String × String} (queued : Queued desk.queue key)
    (open_ : move ≠ .delete key.1) : Queued (step policy later desk move).queue key := by
  cases move with
  | subscribe id now new =>
    simp only [step]
    split
    · rename_i queue created
      unfold Queue.create at created
      split at created
      · cases created
      · cases created
        exact queued
    · exact queued
  | enqueue gap id now m => exact queued_enqueue queued
  | collect now limit =>
    simp only [step]
    split <;> exact queued
  | attempt now outcome =>
    cases batch : desk.batch with
    | nil =>
      simp only [step, batch]
      exact queued
    | cons due rest =>
      simp only [step, batch]
      cases outcome with
      | answered code =>
        refine queued_columns (map_updateWhere _ ?_) queued
        exact fun _ => rfl
      | failed error code =>
        obtain ⟨retry, deliveries, _⟩ := markFailed_deliveries policy later desk.queue due.id due.subscriptionId now error
          code
        refine queued_columns ?_ queued
        rw [attempted, deliveries]
        apply map_updateWhere
        exact fun _ => rfl
  | update id now patch =>
    simp only [step, Queue.update]
    split
    · refine queued_columns (map_updateWhere _ ?_) queued
      exact fun _ => rfl
    · exact queued
  | delete id =>
    obtain ⟨d, held, rfl⟩ := queued
    have other : ¬d.subscriptionId = id := fun same => open_ (by rw [← same]; rfl)
    exact ⟨d, mem_deleteWhere.2 ⟨held, decide_eq_false other⟩, rfl⟩
  | restart | poll | acknowledge => exact queued

/-- What a match needs to be queued: a new id, and its subscription. -/
structure Enqueued where
  gap : Nat
  id : String
  now : String
  m : Queue.Match

def Enqueued.key (e : Enqueued) : String × String × String := (e.m.subscriptionId, e.m.artifactIri, e.m.role)

def Enqueued.move (e : Enqueued) : Move := .enqueue e.gap e.id e.now e.m

theorem enqueue_queued {queue : Queue} {gap : Nat} {id now : String} {m : Queue.Match}
    (fresh : ∀ d ∈ queue.deliveries, d.id ≠ id) (there : (queue.find? m.subscriptionId).isSome = true) :
    Queued (queue.enqueue gap id now m) (m.subscriptionId, m.artifactIri, m.role) := by
  by_cases taken : queue.taken id m.subscriptionId m.artifactIri m.role = true
  · obtain ⟨d, held, same⟩ := List.any_eq_true.1 taken
    rcases of_decide_eq_true same with clash | ⟨theirs, artifact, role⟩
    · exact absurd clash (fresh d held)
    · exact queued_enqueue ⟨d, held, by rw [matchKey, theirs, artifact, role]⟩
  · have known : (queue.find? m.subscriptionId).isNone = false := by
      rw [← Option.not_isSome, there]
      rfl
    refine ⟨Queue.queued (queue.issued + 1 + gap) id now m, ?_, rfl⟩
    simp [Queue.enqueue, taken, known, Queue.updateSubscription]

theorem find_enqueue {queue : Queue} {gap : Nat} {id now sid : String} {m : Queue.Match}
    (there : (queue.find? sid).isSome = true) : ((queue.enqueue gap id now m).find? sid).isSome = true := by
  rcases enqueue_cases queue gap id now m with same | ⟨_, _, _, subscriptions⟩
  · rw [same]
    exact there
  · unfold Queue.find? at there ⊢
    rw [subscriptions, find_updateWhere, Option.isSome_map]
    · exact there
    · exact fun _ => rfl

/-- Matches with ids of their own are all queued. -/
theorem run_enqueued {entries : List Enqueued} (apart : (entries.map Enqueued.id).Nodup)
    (fresh : ∀ e ∈ entries, ∀ d ∈ desk.queue.deliveries, d.id ≠ e.id)
    (there : ∀ e ∈ entries, (desk.queue.find? e.m.subscriptionId).isSome = true) :
    ∀ e ∈ entries, Queued (run (step policy later) desk (entries.map Enqueued.move)).queue e.key := by
  induction entries generalizing desk with
  | nil => simp
  | cons first rest ih =>
    rw [List.map_cons, List.nodup_cons] at apart
    have new := @enqueue_queued _ first.gap _ first.now _ (fresh first List.mem_cons_self)
      (there first List.mem_cons_self)
    rw [List.map_cons, run_cons]
    have freshThere : ∀ e ∈ rest, ∀ d ∈ (step policy later desk first.move).queue.deliveries, d.id ≠ e.id := by
      intro e mem d held
      rcases enqueue_cases desk.queue first.gap first.id first.now first.m with same | ⟨_, deliveries, _, _⟩
      · simp only [Enqueued.move, step, same] at held
        exact fresh e (List.mem_cons_of_mem _ mem) d held
      · simp only [Enqueued.move, step, deliveries, List.mem_append, List.mem_singleton] at held
        rcases held with old | rfl
        · exact fresh e (List.mem_cons_of_mem _ mem) d old
        · intro clash
          exact apart.1 (List.mem_map.2 ⟨e, mem, clash.symm⟩)
    intro e mem
    rcases List.mem_cons.1 mem with rfl | later_
    · refine run_invariant (step policy later) (fun desk => Queued desk.queue e.key) new
        (fun _ _ queued isMatch => step_queued queued isMatch) (meets_of_forall _ _ _ ?_)
      intro move inRest _
      obtain ⟨other, _, rfl⟩ := List.mem_map.1 inRest
      simp [Enqueued.move]
    · exact ih apart.2 freshThere
        (fun other inRest => find_enqueue (there other (List.mem_cons_of_mem _ inRest))) e later_

/-- What a subscription asks for. -/
def asks (sub : Subscription) : String × String × Filter × Bool := (sub.id, sub.instanceIri, sub.filter, sub.enabled)

theorem asks_enqueue (queue : Queue) (gap : Nat) (id now : String) (m : Queue.Match) :
    (queue.enqueue gap id now m).subscriptions.map asks = queue.subscriptions.map asks := by
  rcases enqueue_cases queue gap id now m with same | ⟨_, _, _, subscriptions⟩
  · rw [same]
  · rw [subscriptions]
    apply map_updateWhere
    exact fun _ => rfl

theorem asks_enqueued (entries : List Enqueued) :
    (run (step policy later) desk (entries.map Enqueued.move)).queue.subscriptions.map asks =
      desk.queue.subscriptions.map asks := by
  induction entries generalizing desk with
  | nil => rfl
  | cons first rest ih =>
    rw [List.map_cons, run_cons, ih]
    exact asks_enqueue desk.queue first.gap first.id first.now first.m

end Rows

section Notices

variable (server : Server) (courier : Courier)

/-- The id a delivery is given: by its place among the artifacts, and among the subscriptions asked. -/
def deliveryId (draw : Draw) (artifact sub : Nat) : String := (((draw.site 9).site artifact).site sub).id []

/-- Every delivery is given an id of its own. -/
def Unused (queue : Queue) (draw : Draw) (artifacts : Nat) : Prop :=
  (∀ i < artifacts, ∀ j < queue.activeSubscriptions.length, ∀ d ∈ queue.deliveries, d.id ≠ deliveryId draw i j) ∧
    ∀ i < artifacts, ∀ j < queue.activeSubscriptions.length, ∀ i' < artifacts,
      ∀ j' < queue.activeSubscriptions.length, deliveryId draw i j = deliveryId draw i' j' → i = i' ∧ j = j'

/-- The rows a notice asks for. -/
def noticeEntries (state : State) (queue : Queue) (draw : Draw) (gaps : Nat → Nat → Nat) (notice : Notice) :
    List Enqueued :=
  notice.artifacts.zipIdx.flatMap (fun artifact => queue.activeSubscriptions.zipIdx.flatMap (fun sub =>
    if interested server courier state draw notice artifact.1 sub.1 then
      [⟨gaps artifact.2 sub.2, deliveryId draw artifact.2 sub.2, draw.now,
        matchOf server courier state draw notice artifact.1 sub.1⟩]
    else []))

theorem noticeMoves_eq (state : State) (queue : Queue) (draw : Draw) (gaps : Nat → Nat → Nat) (notice : Notice) :
    noticeMoves server courier state queue (draw.site 9) gaps notice =
      (noticeEntries server courier state queue draw gaps notice).map Enqueued.move := by
  unfold noticeMoves noticeEntries
  rw [List.map_flatMap]
  congr 1
  funext artifact
  rw [List.map_flatMap]
  congr 1
  funext sub
  show (if interested server courier state draw notice artifact.1 sub.1 = true then _ else _) = _
  split
  · rfl
  · rfl

variable {server courier} {state : State} {queue : Queue} {draw : Draw} {gaps : Nat → Nat → Nat} {notice : Notice}

theorem mem_noticeEntries {e : Enqueued} (mem : e ∈ noticeEntries server courier state queue draw gaps notice) :
    ∃ i < notice.artifacts.length, ∃ j < queue.activeSubscriptions.length, e.id = deliveryId draw i j ∧
      ∃ sub ∈ queue.activeSubscriptions, e.m.subscriptionId = sub.id := by
  unfold noticeEntries at mem
  simp only [List.mem_flatMap] at mem
  obtain ⟨artifact, place, sub, seat, hit⟩ := mem
  split at hit
  · rw [List.mem_singleton] at hit
    have i := List.snd_lt_of_mem_zipIdx place
    have j := List.snd_lt_of_mem_zipIdx seat
    rw [hit]
    exact ⟨artifact.2, i, sub.2, j, rfl, sub.1, List.fst_mem_of_mem_zipIdx seat, rfl⟩
  · simp at hit

theorem noticeEntries_apart (unused : Unused queue draw notice.artifacts.length) :
    ((noticeEntries server courier state queue draw gaps notice).map Enqueued.id).Nodup := by
  rw [List.Nodup, List.pairwise_map, noticeEntries, List.pairwise_flatMap]
  constructor
  · intro artifact place
    have i := List.snd_lt_of_mem_zipIdx place
    rw [List.pairwise_flatMap]
    constructor
    · intro sub _
      split <;> simp
    · refine (pairwise_zipIdx queue.activeSubscriptions).imp_of_mem ?_
      intro left right seatLeft seatRight apart x inLeft y inRight clash
      have j := List.snd_lt_of_mem_zipIdx seatLeft
      have j' := List.snd_lt_of_mem_zipIdx seatRight
      split at inLeft <;> split at inRight <;> simp at inLeft inRight
      rw [inLeft, inRight] at clash
      exact apart (unused.2 _ i _ j _ i _ j' clash).2
  · refine (pairwise_zipIdx notice.artifacts).imp_of_mem ?_
    intro left right placeLeft placeRight apart x inLeft y inRight clash
    have i := List.snd_lt_of_mem_zipIdx placeLeft
    have i' := List.snd_lt_of_mem_zipIdx placeRight
    simp only [List.mem_flatMap] at inLeft inRight
    obtain ⟨sub, seat, hit⟩ := inLeft
    obtain ⟨sub', seat', hit'⟩ := inRight
    have j := List.snd_lt_of_mem_zipIdx seat
    have j' := List.snd_lt_of_mem_zipIdx seat'
    split at hit <;> split at hit' <;> simp at hit hit'
    rw [hit, hit'] at clash
    exact apart (unused.2 _ i _ j _ i' _ j' clash).1

theorem mem_active {queue : Queue} {sub : Subscription} :
    sub ∈ queue.activeSubscriptions ↔ sub ∈ queue.subscriptions ∧ sub.enabled = true := List.mem_filter

theorem interested_asks {artifact : String} {left right : Subscription} (same : asks left = asks right) :
    interested server courier state draw notice artifact left = interested server courier state draw notice artifact right := by
  simp only [asks, Prod.mk.injEq] at same
  unfold interested
  rw [same.2.1, same.2.2.1]

/-- Each enabled subscription that matches an artifact of the notice has a row for it. -/
def Rows (server : Server) (courier : Courier) (state : State) (draw : Draw) (queue : Queue) (notice : Notice)
    (row : Queue → String × String × String → Prop) : Prop :=
  ∀ artifact ∈ notice.artifacts, ∀ sub ∈ queue.activeSubscriptions,
    interested server courier state draw notice artifact sub = true → row queue (sub.id, artifact, notice.role)

theorem notify_queued {policy : RetryPolicy} {later : String → Nat → String} {desk : Desk}
    (unused : Unused desk.queue draw notice.artifacts.length) :
    Rows server courier state draw (run (step policy later) desk
      (noticeMoves server courier state desk.queue (draw.site 9) gaps notice)).queue notice Queued := by
  rw [noticeMoves_eq]
  intro artifact named sub active hit
  obtain ⟨inTable, enabled⟩ := mem_active.1 active
  have asked : asks sub ∈ desk.queue.subscriptions.map asks := by
    rw [← @asks_enqueued policy later desk]
    exact List.mem_map_of_mem inTable
  obtain ⟨before, held, same⟩ := List.mem_map.1 asked
  have enabledBefore : before.enabled = true := by
    simp only [asks, Prod.mk.injEq] at same
    rw [same.2.2.2, enabled]
  have hitBefore : interested server courier state draw notice artifact before = true := by
    rw [interested_asks same]
    exact hit
  obtain ⟨i, place⟩ := List.mem_iff_getElem?.1 named
  obtain ⟨j, seat⟩ := List.mem_iff_getElem?.1 (mem_active.2 ⟨held, enabledBefore⟩)
  let entry : Enqueued := ⟨gaps i j, deliveryId draw i j, draw.now, matchOf server courier state draw notice artifact before⟩
  have asked_ : entry ∈ noticeEntries server courier state desk.queue draw gaps notice := by
    unfold noticeEntries
    refine List.mem_flatMap.2 ⟨(artifact, i), List.mk_mem_zipIdx_iff_getElem?.2 place, ?_⟩
    refine List.mem_flatMap.2 ⟨(before, j), List.mk_mem_zipIdx_iff_getElem?.2 seat, ?_⟩
    rw [if_pos hitBefore]
    exact List.mem_singleton_self _
  have queued := @run_enqueued policy later desk _
    (@noticeEntries_apart server courier state _ _ gaps _ unused) ?_ ?_ entry asked_
  · have key : entry.key = (sub.id, artifact, notice.role) := by
      simp only [asks, Prod.mk.injEq] at same
      show (before.id, artifact, notice.role) = _
      rw [same.1]
    rw [key] at queued
    exact queued
  · intro e mem d inQueue
    obtain ⟨i, hi, j, hj, id, _⟩ := mem_noticeEntries mem
    rw [id]
    exact unused.1 i hi j hj d inQueue
  · intro e mem
    obtain ⟨_, _, _, _, _, other, otherActive, theirs⟩ := mem_noticeEntries mem
    rw [theirs]
    exact List.find?_isSome.2 ⟨other, (mem_active.1 otherActive).1, decide_eq_true rfl⟩

end Notices

section Paths

variable (server : Server) (courier : Courier)

/-- What a successful request makes produced or consumed, by any of the paths. -/
def advertised (state : State) (draw : Draw) (principal : Principal) : Action → List Notice
  | .ingest event =>
    match (Openlineage.ingest server state draw principal event).response with
    | .ok out => [⟨principal.instanceIri, some out.run, out.produced, roleProduced⟩,
        ⟨principal.instanceIri, some out.run, out.consumed, roleConsumed⟩]
    | .error _ => []
  | action => (noticeOf server state draw principal action).toList

def isIngest : Action → Bool
  | .ingest _ => true
  | _ => false

variable {server courier} {site : Site} {credential : Option String} {draw : Draw} {action : Action}
  {gaps : Nat → Nat → Nat} {principal : Principal}

theorem advertised_told (path : isIngest action = false) :
    advertised server site.state draw principal action =
      (noticeOf server site.state draw principal action).toList := by
  cases action <;> first | rfl | cases path

/-- A path that notifies queues every match. -/
theorem told_queued {notice : Notice} (made : principalOf server site.state draw.now credential = .ok principal)
    (told : noticeOf server site.state draw principal action = some notice)
    (unused : Unused site.desk.queue draw notice.artifacts.length) :
    Rows server courier (Registry.perform server site.state draw principal action) draw
      (Dispatch.step server courier site (.registry (.request credential draw action) gaps)).desk.queue notice Queued := by
  have moved : (Dispatch.step server courier site (.registry (.request credential draw action) gaps)).desk =
      run (Subscriptions.step courier.policy courier.later) site.desk
        (noticeMoves server courier (Registry.perform server site.state draw principal action) site.desk.queue
          (draw.site 9) gaps notice) := by
    rw [Dispatch.step_desk]
    simp only [Dispatch.moves, Dispatch.servedMoves, made, told]
  rw [moved]
  exact notify_queued unused

/-- A path that does not leaves the queue. -/
theorem untold_desk (made : principalOf server site.state draw.now credential = .ok principal)
    (untold : noticeOf server site.state draw principal action = none) :
    (Dispatch.step server courier site (.registry (.request credential draw action) gaps)).desk = site.desk := by
  simp only [Dispatch.step, Dispatch.served, made, untold]

theorem request_state (made : principalOf server site.state draw.now credential = .ok principal) :
    (Dispatch.step server courier site (.registry (.request credential draw action) gaps)).state =
      Registry.perform server site.state draw principal action := by
  simp only [Dispatch.step, Dispatch.served, made]
  split <;> rfl

theorem sites_queued {key : String × String × String} {further : List Event} (queued : Queued site.desk.queue key)
    (keeps : Meets (Dispatch.step server courier) (Keeps server courier key.1) site further) :
    Queued (run (Dispatch.step server courier) site further).desk.queue key := by
  refine run_invariant (Dispatch.step server courier) (fun site => Queued site.desk.queue key) queued ?_ keeps
  intro site event queued kept
  rw [Dispatch.step_desk]
  refine run_invariant (Subscriptions.step courier.policy courier.later) (fun desk => Queued desk.queue key) queued
    (fun _ _ queued open_ => step_queued queued open_) (meets_of_forall _ _ _ (fun move mem _ same => kept (same ▸ mem)))

end Paths

section Specimen

open Specimen

/-- A deployment with a token of its own asks for everything, its own artifacts included. -/
def asking : List Event :=
  [served "i" (.createInstance { label := "one" }),
    .subscribe (some "root") (draw "s") "ia" { filter := { excludeOwn := false, roles := ["produced", "consumed"] } },
    served "t" (.mintToken "ia" { scopes := ["advertise:produce"] })]

/-- A finished run with one output. -/
def lineageEvent : Json :=
  .object [("eventType", .string "COMPLETE"), ("run", .object [("runId", .string "r")]),
    ("outputs", .array [.object [("namespace", .string "n"), ("name", .string "x")]])]

/-- Whoever holds the token. -/
def holder : Principal :=
  (principalOf (registry []) (reached (registry []) courier asking).state "2026-01-01T00:00:00Z"
    (some "tar_ta_tb")).toOption.getD Principal.anonymous

theorem holder_made : principalOf (registry []) (reached (registry []) courier asking).state "2026-01-01T00:00:00Z"
    (some "tar_ta_tb") = .ok holder := by
  have known : (principalOf (registry []) (reached (registry []) courier asking).state "2026-01-01T00:00:00Z"
      (some "tar_ta_tb")).toOption.isSome = true := by decide
  unfold holder
  cases made : principalOf (registry []) (reached (registry []) courier asking).state "2026-01-01T00:00:00Z"
      (some "tar_ta_tb") with
  | error e => simp [made, Except.toOption] at known
  | ok principal => rfl

/-- What the holder of the token asks. -/
def byHolder (label : String) (action : Action) : Event :=
  .registry (.request (some "tar_ta_tb") (draw label) action) (fun _ _ => 0)

/-- After a request of the holder, everyone each of its notices interests has one row. -/
def ToldOnce (label : String) (action : Action) : Prop :=
  ∀ notice ∈ advertised (registry []) (reached (registry []) courier asking).state (draw label) holder action,
    Rows (registry []) courier (reached (registry []) courier (asking ++ [byHolder label action])).state (draw label)
      (reached (registry []) courier (asking ++ [byHolder label action])).desk.queue notice QueuedOnce

end Specimen

end ToolArtifactRegistry.Laws
