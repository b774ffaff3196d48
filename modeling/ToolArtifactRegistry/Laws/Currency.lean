import ToolArtifactRegistry.Laws.Specimen
import ToolArtifactRegistry.Renaming
import ToolArtifactRegistry.Seed

/-! The record store's copy of the bundles over starts, restores and rebases, each of which may be interrupted. A digest
is written after the graph it is recorded for, and it is not taken back before that graph is dropped. -/
namespace ToolArtifactRegistry.Laws

open Library.Rdf Library.Text Library.Runs Store Bundles Seed
open Rebase (Holdings)

section Maintenance

variable {platform : Platform} (digester : Digester)

/-- How far a start got: interrupted among the bundles, or with so many of the migrations made. -/
inductive Stop where
  | syncing (cut : Cut)
  | migrating (count : Nat)

/-- What is done to a store from outside. A restore starts first and may end before the dump does; a rebase may end
between the graph and the database. -/
inductive Upkeep (platform : Platform) where
  | start (boot : Boot platform) (stop : Stop)
  | restore (boot : Boot platform) (label : String → String) (dump : List Quad) (upTo : Nat)
  | rebase (base old : String) (dryRun halfway : Bool)

/-- The quads of a dump as far as they were loaded, blank nodes named anew. -/
def restored (label : String → String) (dump : List Quad) (upTo : Nat) : List Quad :=
  (dump.take upTo).map (fun quad => placed label quad.graph (quad.subject, quad.predicate, quad.object))

def maintain (held : Holdings) : Upkeep platform → Holdings
  | .start boot (.syncing cut) => { held with data := syncCut digester boot cut held.data }
  | .start boot (.migrating count) => { held with data := migrate count (sync digester boot held.data) }
  | .restore boot label dump upTo => { held with data := (loadVocab digester boot held.data).extend (restored label dump upTo) }
  | .rebase base old dryRun halfway =>
    if halfway then Rebase.interrupted platform base old held else (Rebase.run platform base old dryRun held).2

/-- A graph holds some triples and no others, up to the names of blank nodes. -/
def HoldsJust (data : Dataset) (graph : String) (triples : List Triple) : Prop :=
  ∃ label : String → String, Function.Injective label ∧
    ∀ quad : Quad, quad.graph = graph → (quad ∈ data ↔ ∃ triple ∈ triples, quad = placed label graph triple)

/-- Every bundle graph holds what the build would load into it. -/
def Current (boot : Boot platform) (data : Dataset) : Prop :=
  ∀ bundle ∈ boot.build.bundles, HoldsJust data bundle.graph ((bundle.triples platform boot.base).getD [])

variable (world : Bundle → String → Prop)

/-- No two of the bundles that are started with collide: one digest is one content. -/
def Collisionless (platform : Platform) : Prop :=
  ∀ bundle base other base', world bundle base → world other base' →
    bundle.digest platform base digester = other.digest platform base' digester →
      (bundle.triples platform base).getD [] = (other.triples platform base').getD []

/-- Of the bundles that are started with, the digests that are recorded tell what their graphs hold. -/
def Honest (platform : Platform) (data : Dataset) : Prop :=
  ∀ bundle base, world bundle base → (bundle.graph, bundle.digest platform base digester) ∈ digestRows data →
    HoldsJust data bundle.graph ((bundle.triples platform base).getD [])

/-- The bundles of some builds, each with the bases it is started under. -/
def Ships (builds : Build → String → Prop) (bundle : Bundle) (base : String) : Prop := ∃ build, builds build base ∧ bundle ∈ build.bundles

def Shipped (boot : Boot platform) : Prop := ∀ bundle ∈ boot.build.bundles, world bundle boot.base

/-- No digest is recorded for the bundle graph that an interrupted start leaves half written, and what a store and a dump
together record of a bundle graph is what they together hold in it. -/
def Unharmed (held : Holdings) : Upkeep platform → Prop
  | .start boot stop => Drawn boot held.data ∧ Shipped world boot ∧
    match stop with
    | .syncing cut => ∀ torn, cut.torn digester boot held.data = some torn → ∀ row ∈ digestRows held.data, row.1 ≠ torn.1.graph
    | .migrating _ => True
  | .restore boot label dump upTo => Drawn boot held.data ∧ Shipped world boot ∧
    Honest digester world platform ((loadVocab digester boot held.data).extend (restored label dump upTo))
  | .rebase .. => True

end Maintenance

section Keeping

variable {platform : Platform} {digester : Digester} {world : Bundle → String → Prop} {boot : Boot platform} {bundle : Bundle}
  {data other : Dataset}

theorem holdsJust_congr {graph : String} {triples : List Triple}
    (same : ∀ quad : Quad, quad.graph = graph → (quad ∈ other ↔ quad ∈ data)) (carries : HoldsJust data graph triples) :
    HoldsJust other graph triples := by
  obtain ⟨label, injective, holds⟩ := carries
  exact ⟨label, injective, fun quad here => (same quad here).trans (holds quad here)⟩

/-- What a bundle graph holds and what is recorded of it is all a recorded digest is judged by. -/
theorem honest_congr (owned : ∀ bundle base, world bundle base → reserved bundle.graph = true)
    (same : ∀ quad : Quad, Bundled quad → (quad ∈ other ↔ quad ∈ data)) (honest : Honest digester world platform data) :
    Honest digester world platform other := by
  intro bundle base known recorded
  have before : (bundle.graph, bundle.digest platform base digester) ∈ digestRows data :=
    (digestRows_congr (fun quad here predicate => same quad (Or.inr ⟨here, predicate⟩)) _).1 recorded
  refine holdsJust_congr ?_ (honest bundle base known before)
  intro quad here
  exact same quad (Or.inl (here ▸ owned bundle base known))

theorem reload_holdsJust (owned : reserved bundle.graph = true) :
    HoldsJust (reload digester boot bundle data) bundle.graph ((bundle.triples platform boot.base).getD []) := by
  refine ⟨boot.label bundle.graph, boot.label_inj _, ?_⟩
  intro quad here
  have elsewhere : quad.graph ≠ Ns.gBundles := by
    rw [here]
    exact (reserved_apart owned).1
  unfold reload
  dsimp only
  rw [mem_record_other elsewhere, mem_loadInto, List.take_length]
  constructor
  · intro either
    rcases either with ⟨_, apart⟩ | placed_
    · exact absurd here apart
    · exact placed_
  · exact Or.inr

/-- A bundle that is written again is recorded as what it is. -/
theorem reload_honest (owned : ∀ bundle base, world bundle base → reserved bundle.graph = true)
    (faithful : Collisionless digester world platform) (known : world bundle boot.base)
    (unused : Unmentioned (boot.checksum bundle.graph) data) (honest : Honest digester world platform data) :
    Honest digester world platform (reload digester boot bundle data) := by
  have mine := owned bundle boot.base known
  intro recordedBundle base recordedKnown recorded
  rcases digestRows_reload mine unused recorded with ⟨graph, digest⟩ | ⟨apart, before⟩
  · rw [graph, faithful recordedBundle base bundle boot.base recordedKnown known digest]
    exact reload_holdsJust mine
  · refine holdsJust_congr ?_ (honest recordedBundle base recordedKnown before)
    intro quad here
    apply mem_reload_other
    · rw [here]
      exact apart
    · rw [here]
      exact (reserved_apart (owned recordedBundle base recordedKnown)).1

/-- What stands while a start works through the bundles: those still to come are as the start found them. -/
structure Syncing (digester : Digester) (world : Bundle → String → Prop) (boot : Boot platform) (found data : Dataset)
    (rest : List Bundle) : Prop where
  honest : Honest digester world platform data
  graphs : ∀ bundle ∈ rest, ∀ quad : Quad, quad.graph = bundle.graph → (quad ∈ data ↔ quad ∈ found)
  rows : ∀ row ∈ digestRows data, row.1 ∈ rest.map Bundle.graph → row ∈ digestRows found
  unused : ∀ bundle ∈ rest, Unmentioned (boot.checksum bundle.graph) data

variable {found : Dataset}

theorem Syncing.start (honest : Honest digester world platform found) (drawn : Drawn boot found) {rest : List Bundle}
    (own : ∀ bundle ∈ rest, bundle ∈ boot.build.bundles) : Syncing digester world boot found found rest :=
  ⟨honest, fun _ _ _ _ => Iff.rfl, fun _ mem _ => mem, fun bundle mem => drawn bundle (own bundle mem)⟩

/-- One bundle is brought up to date, and the others are left. -/
theorem Syncing.bring {rest : List Bundle} (owned : ∀ bundle base, world bundle base → reserved bundle.graph = true)
    (faithful : Collisionless digester world platform) (known : world bundle boot.base) (honest : Honest digester world platform found)
    (later : bundle.graph ∉ rest.map Bundle.graph) (reservedRest : ∀ other ∈ rest, reserved other.graph = true)
    (syncing : Syncing digester world boot found data (bundle :: rest)) :
    Syncing digester world boot found (bring digester boot (rowsRead boot found) data bundle) rest ∧
      HoldsJust (Bundles.bring digester boot (rowsRead boot found) data bundle) bundle.graph
        ((bundle.triples platform boot.base).getD []) := by
  have mine := owned bundle boot.base known
  have apart {other : Bundle} (mem : other ∈ rest) : other.graph ≠ bundle.graph := fun same =>
    later (List.mem_map.2 ⟨other, mem, same⟩)
  unfold Bundles.bring
  by_cases current : unchanged digester boot (rowsRead boot found) bundle = true
  · rw [if_pos current]
    refine ⟨⟨syncing.honest, fun other mem => syncing.graphs other (List.mem_cons_of_mem _ mem), ?_,
      fun other mem => syncing.unused other (List.mem_cons_of_mem _ mem)⟩, ?_⟩
    · intro row mem among
      exact syncing.rows row mem (List.mem_cons_of_mem _ among)
    · exact holdsJust_congr (syncing.graphs bundle List.mem_cons_self) (honest bundle boot.base known (recorded_of_unchanged current))
  · rw [if_neg current]
    have unused := syncing.unused bundle List.mem_cons_self
    refine ⟨⟨reload_honest owned faithful known unused syncing.honest, ?_, ?_, ?_⟩, reload_holdsJust mine⟩
    · intro other mem quad here
      have kept : quad ∈ reload digester boot bundle data ↔ quad ∈ data := by
        apply mem_reload_other
        · rw [here]
          exact apart mem
        · rw [here]
          exact (reserved_apart (reservedRest other mem)).1
      exact kept.trans (syncing.graphs other (List.mem_cons_of_mem _ mem) quad here)
    · intro row mem among
      rcases digestRows_reload mine unused mem with ⟨same, _⟩ | ⟨_, before⟩
      · rw [same] at among
        exact absurd among later
      · exact syncing.rows row before (List.mem_cons_of_mem _ among)
    · intro other mem
      refine Unmentioned.record ((syncing.unused other (List.mem_cons_of_mem _ mem)).load mine) ?_
      exact fun same => apart mem (boot.checksum_inj same)

/-- A start that gets through some bundles brings them up to date. -/
theorem Syncing.through {some_ rest : List Bundle} (owned : ∀ bundle base, world bundle base → reserved bundle.graph = true)
    (faithful : Collisionless digester world platform) (known : ∀ bundle ∈ some_ ++ rest, world bundle boot.base)
    (honest : Honest digester world platform found) (apart : ((some_ ++ rest).map Bundle.graph).Nodup)
    (syncing : Syncing digester world boot found data (some_ ++ rest)) :
    Syncing digester world boot found (some_.foldl (Bundles.bring digester boot (rowsRead boot found)) data) rest ∧
      ∀ bundle ∈ some_, HoldsJust (some_.foldl (Bundles.bring digester boot (rowsRead boot found)) data) bundle.graph
        ((bundle.triples platform boot.base).getD []) := by
  induction some_ generalizing data with
  | nil => exact ⟨syncing, fun bundle mem => nomatch mem⟩
  | cons first more ih =>
    rw [List.cons_append, List.map_cons, List.nodup_cons] at apart
    rw [List.cons_append] at known syncing
    have knownLater : ∀ bundle ∈ more ++ rest, world bundle boot.base := fun bundle mem => known bundle (List.mem_cons_of_mem _ mem)
    obtain ⟨next, carried⟩ := syncing.bring owned faithful (known first List.mem_cons_self) honest apart.1
      (fun other mem => owned other boot.base (knownLater other mem))
    rw [List.foldl_cons]
    obtain ⟨last, brought⟩ := ih knownLater apart.2 next
    refine ⟨last, ?_⟩
    intro bundle mem
    rcases List.mem_cons.1 mem with rfl | among
    · refine holdsJust_congr ?_ carried
      intro quad here
      have mine := owned bundle boot.base (known bundle List.mem_cons_self)
      apply mem_brought_other
      · rw [here]
        intro listed
        apply apart.1
        rw [List.map_append]
        exact List.mem_append_left _ listed
      · rw [here]
        exact (reserved_apart mine).1
    · exact brought bundle among

/-- A start that is not interrupted among the bundles leaves each of them current. -/
theorem sync_current (owned : ∀ bundle base, world bundle base → reserved bundle.graph = true)
    (faithful : Collisionless digester world platform) (within : Shipped world boot) (honest : Honest digester world platform data)
    (drawn : Drawn boot data) :
    Honest digester world platform (sync digester boot data) ∧ Current boot (sync digester boot data) := by
  have start : Syncing digester world boot data data (boot.build.bundles ++ []) :=
    Syncing.start honest drawn (fun bundle mem => by rwa [List.append_nil] at mem)
  have known : ∀ bundle ∈ boot.build.bundles ++ [], world bundle boot.base := by
    rw [List.append_nil]
    exact within
  have apart : ((boot.build.bundles ++ []).map Bundle.graph).Nodup := by
    rw [List.append_nil]
    exact boot.build.apart
  obtain ⟨last, brought⟩ := start.through owned faithful known honest apart
  exact ⟨last.honest, brought⟩

/-- A start that is interrupted leaves no false record when nothing was recorded of the graph it was writing. -/
theorem syncCut_honest (owned : ∀ bundle base, world bundle base → reserved bundle.graph = true)
    (faithful : Collisionless digester world platform) (within : Shipped world boot) (honest : Honest digester world platform data)
    (drawn : Drawn boot data) {cut : Cut}
    (unrecorded : ∀ torn, cut.torn digester boot data = some torn → ∀ row ∈ digestRows data, row.1 ≠ torn.1.graph) :
    Honest digester world platform (syncCut digester boot cut data) := by
  have whole := List.take_append_drop cut.done boot.build.bundles
  have start : Syncing digester world boot data data
      (boot.build.bundles.take cut.done ++ boot.build.bundles.drop cut.done) :=
    Syncing.start honest drawn (fun bundle mem => by rwa [whole] at mem)
  have known : ∀ bundle ∈ boot.build.bundles.take cut.done ++ boot.build.bundles.drop cut.done, world bundle boot.base := by
    rw [whole]
    exact within
  have apart : ((boot.build.bundles.take cut.done ++ boot.build.bundles.drop cut.done).map Bundle.graph).Nodup := by
    rw [whole]
    exact boot.build.apart
  obtain ⟨halted, _⟩ := start.through owned faithful known honest apart
  unfold syncCut
  dsimp only
  generalize (boot.build.bundles.take cut.done).foldl (bring digester boot (rowsRead boot data)) data = after at halted
  cases tears : cut.torn digester boot data with
  | none => exact halted.honest
  | some torn =>
    obtain ⟨bundle, upTo⟩ := torn
    have next : boot.build.bundles[cut.done]? = some bundle := by
      unfold Cut.torn at tears
      split at tears
      · next upTo' bundle' _ found =>
        split at tears
        · cases tears
        · cases tears
          exact found
      · cases tears
    have among : bundle.graph ∈ (boot.build.bundles.drop cut.done).map Bundle.graph := by
      apply List.mem_map_of_mem
      rw [List.mem_iff_getElem?]
      exact ⟨0, by rw [List.getElem?_drop]; exact next⟩
    have mine := owned bundle boot.base (within bundle (List.mem_of_getElem? next))
    intro recordedBundle base recordedKnown recorded
    have before := (digestRows_loadInto mine _).1 recorded
    have other : recordedBundle.graph ≠ bundle.graph := by
      intro same
      have found := halted.rows _ before (same ▸ among)
      exact unrecorded _ tears _ found same
    refine holdsJust_congr ?_ (halted.honest recordedBundle base recordedKnown before)
    intro quad here
    apply mem_loadInto_other
    rw [here]
    exact other

/-- A rebase writes the local graph and no other. -/
theorem mem_rebaseGraph {old new : String} {dryRun : Bool} {count : Nat} {quad : Quad} (elsewhere : quad.graph ≠ Ns.gLocal)
    (done : Rebase.rebaseGraph platform old new dryRun data = .ok (count, other)) : quad ∈ other ↔ quad ∈ data := by
  unfold Rebase.rebaseGraph at done
  dsimp only at done
  split at done
  · split at done
    · split at done
      · next after written =>
        obtain ⟨rfl, rfl⟩ := Prod.mk.inj (Except.ok.inj done)
        rw [apply_ok written]
        unfold effect
        rw [Dataset.mem_extend]
        dsimp only [List.foldl_nil, List.foldl_cons]
        rw [mem_clearGraph]
        constructor
        · intro either
          rcases either with ⟨held, _⟩ | moved
          · exact held
          · obtain ⟨pair, rewritten, rfl⟩ := List.mem_map.1 moved
            obtain ⟨before, _, rfl⟩ := List.mem_map.1 rewritten
            exact absurd rfl elsewhere
        · intro held
          exact Or.inl ⟨held, elsewhere⟩
      · cases done
    · obtain ⟨rfl, rfl⟩ := Prod.mk.inj (Except.ok.inj done)
      exact Iff.rfl
  · cases done

theorem mem_afterRebase {base old : String} {dryRun : Bool} {held : Holdings} {quad : Quad} (elsewhere : quad.graph ≠ Ns.gLocal) :
    quad ∈ (Rebase.run platform base old dryRun held).2.data ↔ quad ∈ held.data := by
  unfold Rebase.run
  dsimp only
  split
  · exact Iff.rfl
  · split
    · exact Iff.rfl
    · next count after done =>
      split
      · exact mem_rebaseGraph elsewhere done
      · exact mem_rebaseGraph elsewhere done

theorem mem_afterInterruption {base old : String} {held : Holdings} {quad : Quad} (elsewhere : quad.graph ≠ Ns.gLocal) :
    quad ∈ (Rebase.interrupted platform base old held).data ↔ quad ∈ held.data := by
  unfold Rebase.interrupted
  split
  · exact Iff.rfl
  · next count after done => exact mem_rebaseGraph elsewhere done

/-- Each piece of upkeep that is undisturbed leaves no false record. -/
theorem maintain_honest (owned : ∀ bundle base, world bundle base → reserved bundle.graph = true)
    (faithful : Collisionless digester world platform) {held : Holdings} {event : Upkeep platform}
    (honest : Honest digester world platform held.data) (undisturbed : Unharmed digester world held event) :
    Honest digester world platform (maintain digester held event).data := by
  cases event with
  | start boot stop =>
    obtain ⟨drawn, within, halted⟩ := undisturbed
    cases stop with
    | syncing cut => exact syncCut_honest owned faithful within honest drawn halted
    | migrating count =>
      refine honest_congr owned ?_ (sync_current owned faithful within honest drawn).1
      exact fun quad bundled => bundled.mem_migrate count
  | restore boot label dump upTo => exact undisturbed.2.2
  | rebase base old dryRun halfway =>
    refine honest_congr owned ?_ honest
    intro quad bundled
    unfold maintain
    dsimp only
    split
    · exact mem_afterInterruption bundled.graphs.1
    · exact mem_afterRebase bundled.graphs.1

end Keeping

/-- In a store that nothing was recorded in at first, after any upkeep that leaves no half-written graph recorded and restores
no false record, a start that gets through the bundles leaves every bundle graph as the build would load it. -/
theorem bundles_current (platform : Platform) (digester : Digester) (builds : Build → String → Prop)
    (faithful : Collisionless digester (Ships builds) platform) (start : Holdings) (new : digestRows start.data = [])
    (events : List (Upkeep platform)) (undisturbed : Meets (maintain digester) (Unharmed digester (Ships builds)) start events)
    (boot : Boot platform) (within : builds boot.build boot.base) (drawn : Drawn boot (run (maintain digester) start events).data) :
    Current boot (sync digester boot (run (maintain digester) start events).data) := by
  have owned : ∀ bundle base, Ships builds bundle base → reserved bundle.graph = true := by
    intro bundle base ships
    obtain ⟨build, _, mem⟩ := ships
    exact build.reserved bundle mem
  have initial : Honest digester (Ships builds) platform start.data := by
    intro bundle base _ recorded
    rw [new] at recorded
    cases recorded
  have honest : Honest digester (Ships builds) platform (run (maintain digester) start events).data :=
    run_invariant (maintain digester) (fun held => Honest digester (Ships builds) platform held.data) initial
      (fun held event honest undisturbed => maintain_honest owned faithful honest undisturbed) undisturbed
  exact (sync_current owned faithful (fun bundle mem => ⟨boot.build, within, mem⟩) honest drawn).2

section Specimen

open Specimen

/-- A Turtle document is one statement, that of its own text. -/
def reader : Platform := { platform [] with turtle := fun text _ => .ok [(.named "https://one.example/term", Ns.rdfType, .simple text)] }

def plainDigester : Digester := ⟨fun text => "#" ++ text, marked_ne_empty, fun _ => ""⟩

def vocabBundle (text : String) : Bundle := ⟨"vocab", "shapes/vocab.ttl", "urn:tar:bundle:vocab", .turtle text⟩

def vocabBuild (text : String) : Build where
  bundles := [vocabBundle text]
  apart := List.nodup_singleton _
  reserved := by
    intro bundle mem
    rw [List.mem_singleton.1 mem]
    show reserved "urn:tar:bundle:vocab" = true
    decide

/-- A start of the build with this vocabulary; its blank nodes begin with a mark. -/
def bootOf (mark text : String) : Boot reader where
  build := vocabBuild text
  base := "https://reg.example"
  parses := by
    intro bundle mem
    rw [List.mem_singleton.1 mem]
    rfl
  order := Library.Orders.Order.asStored
  label _ inner := mark ++ inner
  label_inj _ _ _ same := marked_inj same
  checksum graph := mark ++ graph
  checksum_inj _ _ same := marked_inj same
  now := "2026-01-01T00:00:00Z"

def emptyStore : Holdings := ⟨Dataset.empty, ⟨fun _ => []⟩⟩

/-- One build started twice. -/
theorem bundles_current_again : Current (bootOf "b" "first")
    (sync plainDigester (bootOf "b" "first") (run (maintain plainDigester) emptyStore [.start (bootOf "a" "first") (.migrating 5)]).data) := by
  have one (bundle : Bundle) (base : String)
      (ships : Ships (fun build base => build = vocabBuild "first" ∧ base = "https://reg.example") bundle base) :
      bundle = vocabBundle "first" ∧ base = "https://reg.example" := by
    obtain ⟨build, ⟨rfl, rfl⟩, mem⟩ := ships
    exact ⟨List.mem_singleton.1 mem, rfl⟩
  refine bundles_current reader plainDigester (fun build base => build = vocabBuild "first" ∧ base = "https://reg.example") ?_ emptyStore
    rfl [.start (bootOf "a" "first") (.migrating 5)] ⟨⟨?_, ?_, trivial⟩, trivial⟩ (bootOf "b" "first") ⟨rfl, rfl⟩ ?_
  · intro bundle base other base' ships ships' _
    obtain ⟨rfl, rfl⟩ := one bundle base ships
    obtain ⟨rfl, rfl⟩ := one other base' ships'
    rfl
  · decide
  · exact fun bundle mem => ⟨vocabBuild "first", ⟨rfl, rfl⟩, mem⟩
  · decide

/-- An upgrade is interrupted once the graph was dropped, and the old build is started again: it finds its own digest. -/
def abandonedUpgrade : List (Upkeep reader) :=
  [.start (bootOf "a" "first") (.migrating 5), .start (bootOf "b" "second") (.syncing ⟨0, some 0⟩)]

theorem abandoned_upgrade_stays : ¬Current (bootOf "c" "first")
    (sync plainDigester (bootOf "c" "first") (run (maintain plainDigester) emptyStore abandonedUpgrade).data) := by
  have bare : ∀ quad ∈ (sync plainDigester (bootOf "c" "first") (run (maintain plainDigester) emptyStore abandonedUpgrade).data).quads,
      quad.graph ≠ "urn:tar:bundle:vocab" := by decide
  intro current
  obtain ⟨label, _, holds⟩ := current (vocabBundle "first") (List.mem_singleton_self _)
  have held := (holds (placed label "urn:tar:bundle:vocab" (.named "https://one.example/term", Ns.rdfType, .simple "first")) rfl).2
    ⟨_, List.mem_singleton_self _, rfl⟩
  exact bare _ held rfl

end Specimen

end ToolArtifactRegistry.Laws
