import ToolArtifactRegistry.Api.Capping
import ToolArtifactRegistry.Api.Signing
import ToolArtifactRegistry.Laws.Specimen
import ToolArtifactRegistry.Posting

/-! Whether every webhook has a secret. A change decides from a copy of the row and then writes the address
and the secret in two statements, so the two part as soon as one of them changes between set and unset. -/
namespace ToolArtifactRegistry.Laws

open Library.Runs Library.Programs Library.Tables Library.Results Ids Auth Domain ToolArtifactRegistry.Subscriptions
open Api.Subscriptions (Courier Shown CreateSubscription PatchSubscription createPlan patchPlan patchedWebhook Webhook)
open Api.Signing

/-- An address is set just when a secret is. -/
def Paired (url secret : Option String) : Prop := url.isSome = secret.isSome

instance (url secret : Option String) : Decidable (Paired url secret) := inferInstanceAs (Decidable (_ = _))

def Signed (queue : Queue) : Prop := ∀ sub ∈ queue.subscriptions, Paired sub.webhookUrl sub.webhookSecret

instance decidableSigned (queue : Queue) : Decidable (Signed queue) := inferInstanceAs (Decidable (∀ sub ∈ queue.subscriptions, _))

section Signing

variable {server : Server} {courier : Courier}

abbrev Desk (server : Server) (courier : Courier) := Pool (table server courier) (AppResult Shown)

/-- What begins creates a subscription or changes one. -/
def BeginsSubscription (_ : Desk server courier) : Turn (table server courier) (AppResult Shown) → Prop
  | .start p => ∃ request, p = handle server courier request
  | .next _ => True

/-- The column a statement writes is set, or is not, before as after. -/
def StaysSet (queue : Queue) (id : String) : Statement → Prop
  | .set (.webhookUrl value) => ∀ sub ∈ queue.subscriptions, sub.id = id → sub.webhookUrl.isSome = value.isSome
  | .set (.webhookSecret value) => ∀ sub ∈ queue.subscriptions, sub.id = id → sub.webhookSecret.isSome = value.isSome
  | _ => True

/-- No UPDATE sets a webhook column that is not set or clears one that is. -/
def KeepsPresence (pool : Desk server courier) : Turn (table server courier) (AppResult Shown) → Prop
  | .start _ => True
  | .next place => ∀ id statement, pool.Calls place (.execute id statement) → StaysSet pool.state id statement

def SignedAfter (pool : Desk server courier) (turn : Turn (table server courier) (AppResult Shown)) : Prop :=
  Signed (pool.step turn).state

instance (pool : Desk server courier) (turn : Turn (table server courier) (AppResult Shown)) :
    Decidable (SignedAfter pool turn) := decidableSigned _

/-- A row is inserted with both columns or with neither. -/
def insertsPaired : Api.Signing.Call → Queue → Prop
  | .insert _ _ new, _ => Paired new.webhookUrl new.webhookSecret
  | _, _ => True

/-- An insert rests on the two columns it was planned with; nothing else rests on anything. -/
def pairing : Footing (table server courier) := .bare insertsPaired

theorem createPlan_paired {state : State} {queue : Queue} {draw : Draw} {principal : Principal} {id : String}
    {input : CreateSubscription} {new : NewSubscription}
    (planned : createPlan server courier state queue draw principal id input = .ok new) :
    Paired new.webhookUrl new.webhookSecret := by
  unfold createPlan at planned
  simp only [bind_ok, guard_ok, pure_ok] at planned
  obtain ⟨_, _, _, _, _, _, _, _, url, _, rfl⟩ := planned
  cases url <;> rfl

theorem careful_create (state : State) (draw : Draw) (principal : Principal) (id : String) (input : CreateSubscription) :
    (create server courier state draw principal id input).Careful pairing := by
  unfold create
  refine Program.careful_call (fun _ => trivial) (fun queue _ _ => ?_)
  rw [performed_consider]
  cases planned : createPlan server courier state queue draw principal id input with
  | error e => exact (Program.careful_done _).anywhere _
  | ok new =>
    refine ⟨Program.ready_call.2 (createPlan_paired planned), Program.Looks.of_careful (fun reply => ?_)⟩
    cases reply with
    | error e => exact Program.careful_done _
    | ok _ => exact Program.careful_done _

theorem careful_executeAll {α : Type} (id : String) (list : List Statement) (after : Program (table server courier) α)
    (careful : after.Careful pairing) :
    (executeAll server courier id list >>= fun _ => after).Careful pairing := by
  induction list with
  | nil => exact careful
  | cons statement rest ih =>
    unfold executeAll
    rw [Program.ask_bind, Program.bind_call]
    exact Program.careful_call (fun _ => trivial) (fun queue _ _ => ih.anywhere _)

theorem careful_patch (draw : Draw) (principal : Principal) (sid : String) (input : PatchSubscription) :
    (patch server courier draw principal sid input).Careful pairing := by
  unfold patch
  refine Program.careful_call (fun _ => trivial) (fun queue _ _ => ?_)
  rw [performed_load]
  cases patchPlan server courier queue draw principal sid input with
  | error e => exact (Program.careful_done _).anywhere _
  | ok plan =>
    obtain ⟨sub, change, secret⟩ := plan
    refine Program.Careful.anywhere (careful_executeAll _ _ _ ?_) _
    refine Program.careful_call (fun _ => trivial) (fun queue _ _ => ?_)
    rw [performed_get]
    cases queue.find? sub.id <;> exact (Program.careful_done _).anywhere _

theorem careful_request (request : Request) : (handle server courier request).Careful pairing := by
  cases request with
  | create state draw principal id input => exact careful_create state draw principal id input
  | patch draw principal sid input => exact careful_patch draw principal sid input

/-- Nothing changes what an insert rests on. -/
theorem heedful_of_begins {pool : Desk server courier} {turn : Turn (table server courier) (AppResult Shown)}
    (begins : BeginsSubscription pool turn) : pool.Heedful pairing turn := by
  cases turn with
  | start p =>
    obtain ⟨request, rfl⟩ := begins
    exact careful_request request
  | next place =>
    refine fun c _ _ _ => ⟨trivial, trivial, ?_⟩
    intro other pending _ _ paired
    cases pending <;> exact paired

/-- A change of one row leaves the table signed when it leaves that row so. -/
theorem signed_updateSubscription_iff {queue : Queue} (signed : Signed queue) (id : String)
    (change : Subscription → Subscription) : Signed (queue.updateSubscription id change) ↔
      ∀ sub ∈ queue.subscriptions, sub.id = id → Paired (change sub).webhookUrl (change sub).webhookSecret := by
  constructor
  · intro after sub mem here
    have moved : change sub ∈ (queue.updateSubscription id change).subscriptions :=
      mem_updateWhere.2 ⟨sub, mem, (if_pos (decide_eq_true here)).symm⟩
    exact after _ moved
  · intro each
    exact forall_updateWhere signed (fun sub mem here _ => each sub mem (of_decide_eq_true here))

/-- An UPDATE of a signed table leaves it signed just when its column stays set or unset. -/
theorem signed_execute_iff {queue : Queue} (signed : Signed queue) (id : String) (statement : Statement) :
    Signed (statement.execute id queue) ↔ StaysSet queue id statement := by
  cases statement with
  | rearm now => exact iff_of_true signed trivial
  | set column =>
    rw [Statement.execute, signed_updateSubscription_iff signed]
    cases column with
    | webhookUrl value =>
      refine forall_congr' (fun sub => forall_congr' (fun mem => forall_congr' (fun _ => ?_)))
      have before := signed sub mem
      unfold Paired at before
      change value.isSome = sub.webhookSecret.isSome ↔ sub.webhookUrl.isSome = value.isSome
      rw [before]
      exact eq_comm
    | webhookSecret value =>
      refine forall_congr' (fun sub => forall_congr' (fun mem => forall_congr' (fun _ => ?_)))
      have before := signed sub mem
      unfold Paired at before
      change sub.webhookUrl.isSome = value.isSome ↔ sub.webhookSecret.isSome = value.isSome
      rw [before]
    | label value => exact iff_of_true (fun sub mem _ => signed sub mem) trivial
    | filter value => exact iff_of_true (fun sub mem _ => signed sub mem) trivial
    | enabled value => exact iff_of_true (fun sub mem _ => signed sub mem) trivial
    | reactivated => exact iff_of_true (fun sub mem _ => signed sub mem) trivial
    | updatedAt now => exact iff_of_true (fun sub mem _ => signed sub mem) trivial

/-- Statements that write neither column leave the table signed. -/
theorem signed_execute_all {queue : Queue} {id : String} {list : List Statement}
    (other : ∀ statement ∈ list, ∀ queue, StaysSet queue id statement) (signed : Signed queue) :
    Signed (list.foldl (fun queue statement => statement.execute id queue) queue) := by
  induction list generalizing queue with
  | nil => exact signed
  | cons statement rest ih =>
    exact ih (fun later mem => other later (List.mem_cons_of_mem _ mem))
      ((signed_execute_iff signed id statement).2 (other statement List.mem_cons_self queue))

theorem signed_insert {queue : Queue} (signed : Signed queue) (id now : String) {new : NewSubscription}
    (paired : Paired new.webhookUrl new.webhookSecret) :
    Signed ((table server courier).perform (.insert id now new) queue).2 := by
  rw [performed_insert]
  cases created : queue.create id now new with
  | error e => exact signed
  | ok after =>
    unfold Queue.create at created
    split at created
    · cases created
    · cases created
      exact @forall_append _ (fun sub : Subscription => Paired sub.webhookUrl sub.webhookSecret) _ (fresh id now new)
        signed paired

theorem signed_perform_iff {queue : Queue} (signed : Signed queue) (c : Api.Signing.Call) (rests : insertsPaired c queue) :
    Signed ((table server courier).perform c queue).2 ↔
      ∀ id statement, c = .execute id statement → StaysSet queue id statement := by
  cases c with
  | consider state draw principal id input => exact iff_of_true signed (fun _ _ same => nomatch same)
  | insert id now new => exact iff_of_true (signed_insert signed id now rests) (fun _ _ same => nomatch same)
  | load draw principal sid input => exact iff_of_true signed (fun _ _ same => nomatch same)
  | get id => exact iff_of_true signed (fun _ _ same => nomatch same)
  | execute id statement =>
    refine (signed_execute_iff signed id statement).trans ⟨fun stays => ?_, fun all => all id statement rfl⟩
    intro id' statement' same
    cases same
    exact stays

/-- One turn of a signed table. -/
theorem signedAfter_iff {pool : Desk server courier} {turn : Turn (table server courier) (AppResult Shown)}
    (signed : Signed pool.state) (founded : pool.Founded pairing turn) :
    SignedAfter pool turn ↔ KeepsPresence pool turn := by
  cases turn with
  | start p => exact iff_of_true signed trivial
  | next place =>
    cases found : pool.running[place]? with
    | none =>
      refine iff_of_true ?_ (fun id statement calls => ?_)
      · unfold SignedAfter
        simp only [Pool.step, found]
        exact signed
      · obtain ⟨p, here, _⟩ := calls
        rw [found] at here
        cases here
    | some p =>
      unfold SignedAfter
      rw [Pool.step_next found]
      cases p with
      | done answer =>
        refine iff_of_true signed (fun id statement calls => ?_)
        obtain ⟨p, here, next⟩ := calls
        rw [found] at here
        cases here
        cases next
      | call c rest =>
        refine (signed_perform_iff signed c (founded c ⟨_, found, rfl⟩)).trans ⟨fun all id statement calls => ?_, ?_⟩
        · obtain ⟨p, here, next⟩ := calls
          rw [found] at here
          cases here
          exact all id statement (Option.some.inj next)
        · intro keeps id statement same
          exact keeps id statement ⟨_, found, congrArg some same⟩

theorem signed_run_iff {pool : Desk server courier} {turns : List (Turn (table server courier) (AppResult Shown))}
    (signed : Signed pool.state) (sound : pool.Sound pairing) (begins : Meets Pool.step BeginsSubscription pool turns) :
    Meets Pool.step SignedAfter pool turns ↔ Meets Pool.step KeepsPresence pool turns := by
  induction turns generalizing pool with
  | nil => exact Iff.rfl
  | cons turn rest ih =>
    have now := signedAfter_iff signed (sound.founded turn)
    have later (after : SignedAfter pool turn) := ih after (sound.step (heedful_of_begins begins.1)) begins.2
    constructor
    · intro all
      exact ⟨now.1 all.1, (later all.1).1 all.2⟩
    · intro all
      exact ⟨now.2 all.1, (later (now.2 all.1)).2 all.2⟩

/-- The address a change leaves, and its secret when it decides about that. -/
theorem patchedWebhook_ok {sub : Subscription} {input : PatchSubscription} {webhook : Webhook}
    (patched : patchedWebhook courier sub input = .ok webhook) :
    webhook.present = (webhook.url.getD sub.webhookUrl).isSome ∧
      (webhook.secret = none ∧ (webhook.present = false → webhook.url = none) ∨
        webhook.url = some none ∧ webhook.secret = some none) := by
  unfold patchedWebhook at patched
  split at patched
  · cases patched
    exact ⟨rfl, Or.inl ⟨rfl, fun _ => rfl⟩⟩
  · cases patched
    exact ⟨rfl, Or.inr ⟨rfl, rfl⟩⟩
  · rename_i url _ _
    cases checked : courier.webhookUrl url with
    | error e =>
      rw [checked] at patched
      cases patched
    | ok value =>
      rw [checked] at patched
      cases patched
      exact ⟨rfl, Or.inl ⟨rfl, fun gone => nomatch gone⟩⟩

/-- A change that decides nothing about a secret leaves the two together. -/
theorem webhook_paired {sub : Subscription} {webhook : Webhook}
    (present : webhook.present = (webhook.url.getD sub.webhookUrl).isSome)
    (secrets : webhook.secret = none ∧ (webhook.present = false → webhook.url = none) ∨
      webhook.url = some none ∧ webhook.secret = some none)
    (silent : (webhook.present && sub.webhookSecret.isNone && webhook.secret.isNone) = false)
    (paired : Paired sub.webhookUrl sub.webhookSecret) :
    Paired (webhook.url.getD sub.webhookUrl) (webhook.secret.getD sub.webhookSecret) := by
  unfold Paired at *
  rcases secrets with ⟨undecided, kept⟩ | ⟨cleared, dropped⟩
  · rw [undecided] at silent ⊢
    rw [← present]
    cases has : webhook.present with
    | false =>
      rw [kept has, has] at present
      rw [Option.getD_none, ← paired]
      exact present
    | true =>
      rw [has] at silent
      cases held : sub.webhookSecret with
      | none =>
        rw [held] at silent
        cases silent
      | some secret => rfl
  · rw [cleared, dropped]
    rfl

/-- What a change makes of the row it was decided from. -/
theorem patchPlan_paired {queue : Queue} {draw : Draw} {principal : Principal} {sid : String}
    {input : PatchSubscription} {sub : Subscription} {change : Patch} {secret : Option String}
    (planned : patchPlan server courier queue draw principal sid input = .ok (sub, change, secret)) :
    queue.find? sid = some sub ∧ (Paired sub.webhookUrl sub.webhookSecret →
      Paired (change.webhookUrl.getD sub.webhookUrl) (change.webhookSecret.getD sub.webhookSecret)) := by
  unfold patchPlan at planned
  simp only [bind_ok] at planned
  obtain ⟨held, owned, planned⟩ := planned
  have found : queue.find? sid = some held := by
    unfold Api.Subscriptions.loadOwned at owned
    split at owned
    · cases owned
    · rename_i row found
      simp only [bind_ok, pure_ok] at owned
      obtain ⟨_, _, rfl⟩ := owned
      exact found
  split at planned
  all_goals
    simp only [bind_ok] at planned
    obtain ⟨filter, _, webhook, hooked, planned⟩ := planned
    obtain ⟨present, secrets⟩ := patchedWebhook_ok hooked
    split at planned
    · simp only [guard_ok, pure_ok] at planned
      obtain ⟨has, same⟩ := planned
      cases same
      refine ⟨found, fun _ => ?_⟩
      change (webhook.url.getD sub.webhookUrl).isSome = true
      rw [← present]
      cases with_ : webhook.present with
      | true => rfl
      | false =>
        rw [with_] at has
        cases has rfl
    · rename_i silent
      simp only [pure_ok] at planned
      cases planned
      refine ⟨found, webhook_paired present secrets ?_⟩
      rw [Bool.not_eq_true, Bool.or_eq_false_iff] at silent
      exact silent.2

/-- A change made in one step leaves the table signed. -/
theorem signed_patch {queue : Queue} (keyed : Keyed Subscription.id queue.subscriptions) (signed : Signed queue)
    (draw : Draw) (principal : Principal) (sid : String) (input : PatchSubscription) :
    Signed (Api.Subscriptions.patch server courier queue draw principal sid input).queue := by
  unfold Api.Subscriptions.patch
  cases planned : patchPlan server courier queue draw principal sid input with
  | error e => exact signed
  | ok plan =>
    obtain ⟨sub, change, secret⟩ := plan
    obtain ⟨found, paired⟩ := patchPlan_paired planned
    have updated : Signed (queue.update sub.id draw.now change) := by
      rw [← execute_statements, statements_eq, List.append_assoc, List.foldl_append, execute_columns, changed_columnsOf]
      refine signed_execute_all ?_ ?_
      · cases change.resume <;> simp [StaysSet]
      · rw [signed_updateSubscription_iff signed]
        intro other mem here
        rw [keyed.eq mem (List.mem_of_find?_eq_some found) here]
        exact paired (signed sub (List.mem_of_find?_eq_some found))
    simp only []
    cases (queue.update sub.id draw.now change).find? sub.id <;> exact updated

theorem signed_create {queue : Queue} (signed : Signed queue) (state : State) (draw : Draw) (principal : Principal)
    (id : String) (input : CreateSubscription) :
    Signed (Api.Subscriptions.create server courier state queue draw principal id input).queue := by
  unfold Api.Subscriptions.create
  cases planned : createPlan server courier state queue draw principal id input with
  | error e => exact signed
  | ok new =>
    have inserted := @signed_insert server courier queue signed (draw.id []) draw.now new (createPlan_paired planned)
    rw [performed_insert] at inserted
    simp only []
    cases created : queue.create (draw.id []) draw.now new with
    | error e => exact signed
    | ok after =>
      rw [created] at inserted
      exact inserted

end Signing

/-- The two columns agree in every state of a run just when no UPDATE sets or clears one of them; a request
with nothing between its statements keeps them together. -/
theorem webhooks_signed_iff (server : Server) (courier : Courier) :
    (∀ (queue : Queue) (turns : List (Turn (table server courier) (AppResult Shown))), Signed queue →
      Meets Pool.step BeginsSubscription ⟨queue, []⟩ turns →
        (Meets Pool.step SignedAfter ⟨queue, []⟩ turns ↔ Meets Pool.step KeepsPresence ⟨queue, []⟩ turns)) ∧
      ∀ (queue : Queue) (request : Request), Keyed Subscription.id queue.subscriptions → Signed queue →
        Signed ((handle server courier request).finish queue).2 := by
  constructor
  · intro queue turns signed begins
    exact signed_run_iff signed (@Pool.sound_empty (table server courier) _ pairing queue trivial) begins
  · intro queue request keyed signed
    cases request with
    | create state draw principal id input =>
      change Signed ((create server courier state draw principal id input).finish queue).2
      rw [finish_create]
      exact signed_create signed state draw principal id input
    | patch draw principal sid input =>
      change Signed ((patch server courier draw principal sid input).finish queue).2
      rw [finish_patch]
      exact signed_patch keyed signed draw principal sid input

section Specimen

open Specimen

/-- One subscription that is only queued. -/
def queued : Queue where
  subscriptions := [fresh "s" "2026-01-01T00:00:00Z"
    { instanceIri := "https://reg.example/instance/i", label := none, filter := {}, webhookUrl := none,
      webhookSecret := none, createdBy := none }]

def pointing : Api.Signing.Handler (registry []) courier :=
  handle (registry []) courier (.patch (draw "a") rootPrincipal "s" { webhookUrl := some "https://hook.example" })

def clearing : Api.Signing.Handler (registry []) courier :=
  handle (registry []) courier (.patch (draw "b") rootPrincipal "s" { webhookUrl := some "" })

/-- Both changes have read the row; one clears the address before the other writes it, and the secret after. -/
def crossed : List (Turn (table (registry []) courier) (AppResult Shown)) :=
  [.start pointing, .start clearing, .next 0, .next 1, .next 1, .next 0, .next 0, .next 1,
    .next 0, .next 0, .next 1, .next 1]

/-- Both requests have been answered, and the webhook that is left has no secret. -/
theorem webhook_left_unsigned : ¬ ∀ (server : Server) (courier : Courier) (queue : Queue)
    (turns : List (Turn (table server courier) (AppResult Shown))), Signed queue →
      Meets Pool.step BeginsSubscription ⟨queue, []⟩ turns → Meets Pool.step SignedAfter ⟨queue, []⟩ turns := by
  intro all
  have begins : Meets Pool.step BeginsSubscription (⟨queued, []⟩ : Desk (registry []) courier) crossed :=
    ⟨⟨_, rfl⟩, ⟨_, rfl⟩, trivial, trivial, trivial, trivial, trivial, trivial, trivial, trivial, trivial, trivial, trivial⟩
  exact absurd (all (registry []) courier queued crossed (by decide) begins) (by decide)

/-- The state in which they leave it. -/
example : ((run Pool.step (⟨queued, []⟩ : Desk (registry []) courier) crossed).state.subscriptions.map
    (fun sub => (sub.webhookUrl, sub.webhookSecret))) = [(some "https://hook.example", none)] := by decide

def relabelling : Request := .patch (draw "a") rootPrincipal "s" { label := some "l" }

def relabelled : List (Turn (table (registry []) courier) (AppResult Shown)) :=
  [.start (handle (registry []) courier relabelling), .next 0, .next 0, .next 0, .next 0]

/-- A new label leaves both columns alone, and an address set on its own gets its secret. -/
theorem webhooks_signed_relabelled :
    Meets Pool.step KeepsPresence (⟨queued, []⟩ : Desk (registry []) courier) relabelled ∧
      Signed (pointing.finish queued).2 :=
  ⟨((webhooks_signed_iff (registry []) courier).1 queued relabelled (by decide)
      ⟨⟨_, rfl⟩, trivial, trivial, trivial, trivial, trivial⟩).1 (by decide),
    (webhooks_signed_iff (registry []) courier).2 queued
      (.patch (draw "a") rootPrincipal "s" { webhookUrl := some "https://hook.example" })
      (List.nodup_singleton _) (by decide)⟩

end Specimen

end ToolArtifactRegistry.Laws

/-! How many subscriptions a deployment has. Counting and inserting are two statements, so several creations
may count before any of them inserts. -/
namespace ToolArtifactRegistry.Laws

open Library.Rdf Library.Runs Library.Programs Library.Tables Library.Results Ids Auth Domain ToolArtifactRegistry.Subscriptions
open Api.Subscriptions (Courier Shown CreateSubscription createPlan loadOwned)
open Api.Capping

/-- No deployment has more subscriptions than it may. -/
def Capped (queue : Queue) : Prop := ∀ iri, queue.countForInstance iri ≤ maxPerInstance

section Capping

variable {server : Server} {courier : Courier}

/-- What begins creates a subscription or deletes one. -/
def BeginsCapping (_ : Pool (table server courier) (AppResult (Option Shown))) :
    Turn (table server courier) (AppResult (Option Shown)) → Prop
  | .start p => ∃ request, p = handle server courier request
  | .next _ => True

/-- A subscription that is inserted leaves room for every other one of its deployment that is about to be
inserted, the count having been made. -/
def LeavesRoom (pool : Pool (table server courier) (AppResult (Option Shown))) :
    Turn (table server courier) (AppResult (Option Shown)) → Prop
  | .start _ => True
  | .next place => ∀ id now new, pool.Calls place (.insert id now new) →
      ∀ (other : Nat) id' now' new', other ≠ place → pool.Calls other (.insert id' now' new') →
        new'.instanceIri = new.instanceIri → pool.state.countForInstance new.instanceIri + 1 < maxPerInstance

/-- An insert rests on there being room. -/
def hasRoom : Api.Capping.Call → Queue → Prop
  | .insert _ _ new, queue => queue.countForInstance new.instanceIri < maxPerInstance
  | _, _ => True

def capping : Footing (table server courier) := ⟨Capped, hasRoom, fun _ _ => True⟩

theorem createPlan_room {state : State} {queue : Queue} {draw : Draw} {principal : Principal} {id : String}
    {input : CreateSubscription} {new : NewSubscription}
    (planned : createPlan server courier state queue draw principal id input = .ok new) :
    queue.countForInstance new.instanceIri < maxPerInstance := by
  unfold createPlan at planned
  simp only [bind_ok, guard_ok, pure_ok] at planned
  obtain ⟨_, _, _, _, _, room, _, _, url, _, rfl⟩ := planned
  have few : ¬ queue.countForInstance (iriFor server.base Kind.instance_ id) ≥ maxPerInstance := fun full => nomatch room full
  change queue.countForInstance (iriFor server.base Kind.instance_ id) < maxPerInstance
  omega

theorem careful_capping_create (state : State) (draw : Draw) (principal : Principal) (id : String)
    (input : CreateSubscription) : (create server courier state draw principal id input).Careful capping := by
  unfold create
  refine Program.careful_call (fun _ => trivial) (fun queue _ _ => ?_)
  rw [performed_consider]
  cases planned : createPlan server courier state queue draw principal id input with
  | error e => exact (Program.careful_done _).anywhere _
  | ok new =>
    refine ⟨Program.ready_call.2 (createPlan_room planned), Program.Looks.of_careful (fun reply => ?_)⟩
    cases reply with
    | error e => exact Program.careful_done _
    | ok _ =>
      refine Program.careful_call (fun _ => trivial) (fun after _ _ => ?_)
      have got : (table server courier).perform (.get (draw.id [])) after = (after.find? (draw.id []), after) := rfl
      rw [got]
      cases after.find? (draw.id []) <;> exact (Program.careful_done _).anywhere _

theorem careful_capping_delete (principal : Principal) (sid : String) :
    (delete server courier principal sid).Careful capping := by
  unfold delete
  refine Program.careful_call (fun _ => trivial) (fun queue _ _ => ?_)
  rw [performed_loadOwned]
  cases loadOwned queue principal sid with
  | error e => exact (Program.careful_done _).anywhere _
  | ok sub =>
    refine (Program.careful_call (fun _ => trivial) (fun after _ _ => ?_)).anywhere _
    exact (Program.careful_done _).anywhere _

theorem careful_capping (request : Request) : (handle server courier request).Careful capping := by
  cases request with
  | create state draw principal id input => exact careful_capping_create state draw principal id input
  | delete principal sid => exact careful_capping_delete principal sid

/-- An insert adds one subscription to its own deployment. -/
theorem count_create {queue after : Queue} {id now : String} {new : NewSubscription}
    (created : queue.create id now new = .ok after) (iri : String) :
    after.countForInstance iri = queue.countForInstance iri + if new.instanceIri = iri then 1 else 0 := by
  unfold Queue.create at created
  split at created
  · cases created
  · obtain rfl := Except.ok.inj created
    by_cases own : new.instanceIri = iri <;> simp [Queue.countForInstance, List.filter_append, fresh, own]

theorem count_delete (queue : Queue) (id iri : String) : (queue.delete id).countForInstance iri ≤ queue.countForInstance iri := by
  unfold Queue.countForInstance Queue.delete deleteWhere
  exact (List.filter_sublist.filter _).length_le

/-- What a call does to the count of a deployment. -/
theorem count_performed (c : Api.Capping.Call) (queue : Queue) (iri : String) :
    ((table server courier).perform c queue).2.countForInstance iri ≤ queue.countForInstance iri ∨
      ∃ id now new, c = .insert id now new ∧ new.instanceIri = iri ∧
        ((table server courier).perform c queue).2.countForInstance iri = queue.countForInstance iri + 1 := by
  cases c with
  | insert id now new =>
    rw [performed_insert]
    cases created : queue.create id now new with
    | error e => exact Or.inl le_rfl
    | ok after =>
      have counted := count_create created iri
      by_cases own : new.instanceIri = iri
      · rw [if_pos own] at counted
        exact Or.inr ⟨id, now, new, rfl, own, counted⟩
      · rw [if_neg own] at counted
        exact Or.inl (le_of_eq counted)
  | delete id => exact Or.inl (count_delete queue id iri)
  | _ => exact Or.inl le_rfl

variable {pool : Pool (table server courier) (AppResult (Option Shown))}

theorem heedful_of_leavesRoom {turn : Turn (table server courier) (AppResult (Option Shown))}
    (begins : BeginsCapping pool turn) (room : LeavesRoom pool turn) : pool.Heedful capping turn := by
  cases turn with
  | start p =>
    obtain ⟨request, rfl⟩ := begins
    exact careful_capping request
  | next place =>
    intro c calls capped rests
    refine ⟨trivial, ?_, ?_⟩
    · intro iri
      rcases @count_performed server courier c pool.state iri with fewer | ⟨id, now, new, rfl, rfl, more⟩
      · exact fewer.trans (capped iri)
      · change pool.state.countForInstance new.instanceIri < maxPerInstance at rests
        omega
    · intro other d elsewhere about found
      cases d with
      | insert id' now' new' =>
        change pool.state.countForInstance new'.instanceIri < maxPerInstance at found
        change ((table server courier).perform c pool.state).2.countForInstance new'.instanceIri < maxPerInstance
        rcases @count_performed server courier c pool.state new'.instanceIri with
          fewer | ⟨id, now, new, rfl, own, more⟩
        · omega
        · have left := room id now new calls other id' now' new' elsewhere about own.symm
          rw [own] at left
          omega
      | _ => trivial

end Capping

/-- As long as every insert leaves room for those already counted for, no deployment ever has too many
subscriptions. -/
theorem subscriptions_capped (server : Server) (courier : Courier) (queue : Queue)
    (turns : List (Turn (table server courier) (AppResult (Option Shown)))) (capped : Capped queue)
    (heeded : Meets Pool.step (fun pool turn => BeginsCapping pool turn ∧ LeavesRoom pool turn) ⟨queue, []⟩ turns) :
    Capped (run Pool.step ⟨queue, []⟩ turns).state := by
  have heedful : Meets Pool.step (Pool.Heedful capping) ⟨queue, []⟩ turns :=
    meets_mono Pool.step (fun _ _ both => heedful_of_leavesRoom both.1 both.2) heeded
  have empty : (⟨queue, []⟩ : Pool (table server courier) (AppResult (Option Shown))).Sound capping :=
    Pool.sound_empty capped
  exact (Pool.run_sound empty heedful).inv

section Specimen

open Specimen

def deploymentIri : String := "https://reg.example/instance/a"

/-- A registry that holds one deployment. -/
def oneDeployment : State := { State.empty with
  data := Dataset.empty.extend [⟨.named deploymentIri, Ns.rdfType, .named (Ns.t Ns.tar "Instance"), Ns.gLocal⟩] }

def subscribing (number : Nat) : Turn (table (registry []) courier) (AppResult (Option Shown)) :=
  .start (handle (registry []) courier (.create oneDeployment (serial number) rootPrincipal "a" {}))

/-- Thirty-three creations count before any of them inserts. -/
def crowding : List (Turn (table (registry []) courier) (AppResult (Option Shown))) :=
  (List.range 33).map subscribing ++ (List.range 33).map .next ++ (List.range 33).map .next

theorem capped_empty : Capped {} := fun _ => Nat.zero_le _

/-- Every turn of it begins a creation or lets one go on. -/
theorem crowding_begins : Meets Pool.step BeginsCapping
    (⟨{}, []⟩ : Pool (table (registry []) courier) (AppResult (Option Shown))) crowding := by
  apply meets_of_forall Pool.step
  intro turn mem pool
  unfold crowding at mem
  rw [List.append_assoc, List.mem_append] at mem
  rcases mem with starts | goesOn
  · obtain ⟨number, -, rfl⟩ := List.mem_map.1 starts
    exact ⟨_, rfl⟩
  · rw [← List.map_append] at goesOn
    obtain ⟨place, -, rfl⟩ := List.mem_map.1 goesOn
    trivial

theorem crowding_exceeds : ¬ ∀ (server : Server) (courier : Courier) (queue : Queue)
    (turns : List (Turn (table server courier) (AppResult (Option Shown)))), Capped queue →
      Meets Pool.step BeginsCapping ⟨queue, []⟩ turns → Capped (run Pool.step ⟨queue, []⟩ turns).state := by
  intro all
  have counted : (run Pool.step (⟨{}, []⟩ : Pool (table (registry []) courier) (AppResult (Option Shown))) crowding).state.countForInstance
      deploymentIri = 33 := by decide +kernel
  have bounded := all (registry []) courier {} crowding capped_empty crowding_begins deploymentIri
  rw [counted] at bounded
  exact absurd bounded (by decide)

/-- A creation that no other is under way beside. -/
def lone : List (Turn (table (registry []) courier) (AppResult (Option Shown))) :=
  [subscribing 0, .next 0, .next 0, .next 0]

theorem leavesRoom_of_alone {server : Server} {courier : Courier} {pool : Pool (table server courier) (AppResult (Option Shown))}
    {place : Nat} (others : pool.alone place = true) : LeavesRoom pool (.next place) :=
  fun _ _ _ _ _ _ _ _ elsewhere calls => absurd calls (Pool.not_calls_of_alone others elsewhere _)

theorem subscriptions_capped_lone : Capped (run Pool.step
    (⟨{}, []⟩ : Pool (table (registry []) courier) (AppResult (Option Shown))) lone).state :=
  subscriptions_capped (registry []) courier {} lone capped_empty
    ⟨⟨⟨_, rfl⟩, trivial⟩, ⟨trivial, leavesRoom_of_alone (by decide)⟩,
      ⟨trivial, leavesRoom_of_alone (by decide)⟩, ⟨trivial, leavesRoom_of_alone (by decide)⟩, trivial⟩

end Specimen

end ToolArtifactRegistry.Laws
