import ToolArtifactRegistry.Laws.Specimen
import ToolArtifactRegistry.Rebase

/-! When a redirect to the current base is the last one. A previous base is told from the current
one by host, port and path only, so a pair of bases that differ in their scheme, or one host with
one path above the other, sends a request round again. -/
namespace ToolArtifactRegistry.Laws

open Library.Text Ids Rebase

/-- A request whose host, port and path are those of the current base or of something below it. -/
def ToCurrent (web : Web) (bases : Bases) (request : Addressed web) : Prop :=
  (restAt web (trimSlash bases.baseIri) request).isSome = true

/-- A client asks for an address under the current base at the host the base names. -/
def AsksFor (web : Web) (bases : Bases) (location : String) (request : Addressed web) : Prop :=
  ∃ rest, restAt web (trimSlash bases.baseIri) request = some rest ∧ location = trimSlash bases.baseIri ++ rest

/-- No request to the current base is redirected, nor is one for the address of a redirect. -/
def Settled (web : Web) (bases : Bases) : Prop :=
  (∀ request, ToCurrent web bases request → redirect web bases request = none) ∧
    ∀ request location, redirect web bases request = some location →
      ∀ next, AsksFor web bases location next → redirect web bases next = none

/-- One path is the other or lies above it. -/
def nestedPaths (left right : String) : Bool := left == right || isUnder left right || isUnder right left

/-- Two bases at one host and port, whatever their schemes, one above the other. -/
def sameSite (here there : Url) : Bool :=
  match here.authority, there.authority with
  | some left, some right => eqIgnoreAsciiCase left right && nestedPaths here.prefix_ there.prefix_
  | _, _ => false

def collides (web : Web) (base old : String) : Bool :=
  match web.parseUrl base, web.parseUrl old with
  | some here, some there => sameSite here there
  | _, _ => false

/-- The current base cannot stand in a header, or no previous base collides with it. -/
def Distinct (web : Web) (bases : Bases) : Prop :=
  web.headerValue (trimSlash bases.baseIri) = false ∨
    ∀ old ∈ bases.previousBaseIris, collides web (trimSlash bases.baseIri) old = false

instance (web : Web) (bases : Bases) : Decidable (Distinct web bases) :=
  inferInstanceAs (Decidable (_ ∨ _))

theorem eqIgnoreAsciiCase_iff {left right : String} :
    eqIgnoreAsciiCase left right = true ↔ toAsciiLowercase left = toAsciiLowercase right := by
  unfold eqIgnoreAsciiCase
  exact beq_iff_eq

theorem headerValue_append (web : Web) (left right : String) :
    web.headerValue (left ++ right) = (web.headerValue left && web.headerValue right) := by
  simp [Web.headerValue, String.toList_append]

/-- A rest begins a new segment or a query, or there is none. -/
def Rest (rest : String) : Prop := rest = "" ∨ startsWith rest "/" = true ∨ startsWith rest "?" = true

theorem restUnder_eq_some {pathAndQuery pre rest : String} :
    restUnder pathAndQuery pre = some rest ↔ pathAndQuery = pre ++ rest ∧ Rest rest := by
  unfold restUnder Rest
  simp only [Option.filter_eq_some_iff, stripPrefix_eq_some, Bool.or_eq_true, beq_iff_eq, or_assoc]

theorem restAt_eq_some {web : Web} {base : String} {request : Addressed web} {rest : String} :
    restAt web base request = some rest ↔ ∃ host url authority, request.host = some host ∧
      web.parseUrl base = some url ∧ url.authority = some authority ∧
      toAsciiLowercase host = toAsciiLowercase authority ∧ request.pathAndQuery = url.prefix_ ++ rest ∧ Rest rest := by
  unfold restAt
  simp only [bind, Option.bind_eq_some_iff, Option.ite_none_right_eq_some, eqIgnoreAsciiCase_iff,
    restUnder_eq_some]
  constructor
  · intro found
    obtain ⟨host, named, url, parsed, authority, located, same, path⟩ := found
    exact ⟨host, url, authority, named, parsed, located, same, path⟩
  · intro found
    obtain ⟨host, url, authority, named, parsed, located, same, path⟩ := found
    exact ⟨host, named, url, parsed, authority, located, same, path⟩

theorem isUnder_iff {text pre : String} : isUnder text pre = true ↔ ∃ rest, text = pre ++ rest ∧ startsWith rest "/" = true := by
  unfold isUnder
  simp [Option.any_eq_true, stripPrefix_eq_some]

theorem prefix_char {url : Url} {c : Char} (mem : c ∈ url.prefix_.toList) : c ∈ url.path.toList := by
  unfold Url.prefix_ trimSlash trimEndMatches at mem
  rw [String.toList_ofList, List.mem_reverse] at mem
  exact List.mem_reverse.mp ((List.dropWhile_sublist _).mem mem)

/-- Whether a text begins with one character is seen at its head. -/
theorem startsWith_head {text pre : String} {c : Char} (only : pre.toList = [c]) :
    startsWith text pre = true ↔ text.toList.head? = some c := by
  unfold startsWith
  rw [only]
  cases text.toList with
  | nil => simp
  | cons d rest =>
    simp only [List.isPrefixOf, Bool.and_true, beq_iff_eq, List.head?_cons, Option.some.injEq]
    exact eq_comm

/-- When one path goes on where the other stops, it goes on with a slash: a path has no query. -/
theorem under_of_append {web : Web} {text pre rest tail more : String} {url : Url}
    (parsed : web.parseUrl text = some url) (longer : url.prefix_ = pre ++ tail) (cut : Rest rest)
    (goes : rest = tail ++ more) : url.prefix_ = pre ∨ isUnder url.prefix_ pre = true := by
  cases chars : tail.toList with
  | nil =>
    left
    rw [longer, ← String.toList_inj, String.toList_append, chars, List.append_nil]
  | cons c later =>
    right
    have mem : c ∈ url.prefix_.toList := by simp [longer, String.toList_append, chars]
    have plain := (web.encoded text url parsed c (prefix_char mem)).2
    have first : rest.toList.head? = some c := by simp [goes, String.toList_append, chars]
    have slash : c = '/' := by
      rcases cut with none_ | slash | query
      · rw [none_] at first
        cases first
      · rw [startsWith_head rfl, first] at slash
        exact Option.some.inj slash
      · rw [startsWith_head rfl, first] at query
        exact absurd (Option.some.inj query) plain
    apply isUnder_iff.mpr
    refine ⟨tail, longer, ?_⟩
    rw [startsWith_head rfl, chars, slash]
    rfl

/-- Two bases that one request is addressed to are at one site. -/
theorem collides_of_restAt {web : Web} {base old rest other : String} {request : Addressed web}
    (here : restAt web base request = some rest) (there : restAt web old request = some other) :
    collides web base old = true := by
  obtain ⟨host, url, authority, named, parsed, located, same, path, cut⟩ := restAt_eq_some.mp here
  obtain ⟨_, url', authority', named', parsed', located', same', path', cut'⟩ := restAt_eq_some.mp there
  cases named.symm.trans named'
  have authorities : eqIgnoreAsciiCase authority authority' = true := eqIgnoreAsciiCase_iff.mpr (same.symm.trans same')
  have paths : nestedPaths url.prefix_ url'.prefix_ = true := by
    have both := congrArg String.toList (path.symm.trans path')
    rw [String.toList_append, String.toList_append] at both
    unfold nestedPaths
    simp only [Bool.or_eq_true, beq_iff_eq]
    rcases List.append_eq_append_iff.mp both with ⟨tail, longer, goes⟩ | ⟨tail, longer, goes⟩
    · have under := @under_of_append _ _ url.prefix_ _ (String.ofList tail) other _ parsed'
        (by rw [← String.toList_inj, String.toList_append, String.toList_ofList, longer]) cut
        (by rw [← String.toList_inj, String.toList_append, String.toList_ofList, goes])
      rcases under with equal | under
      · exact Or.inl (Or.inl equal.symm)
      · exact Or.inr under
    · have under := @under_of_append _ _ url'.prefix_ _ (String.ofList tail) rest _ parsed
        (by rw [← String.toList_inj, String.toList_append, String.toList_ofList, longer]) cut'
        (by rw [← String.toList_inj, String.toList_append, String.toList_ofList, goes])
      exact Or.inl under
  unfold collides sameSite
  rw [parsed, parsed']
  simp only [located, located', authorities, paths, Bool.and_self]

/-- A request at a site with one path above another is addressed to both. -/
theorem restAt_of_longer {web : Web} {base : String} {url : Url} {authority host path : String}
    {request : Addressed web} (named : request.host = some host) (parsed : web.parseUrl base = some url)
    (located : url.authority = some authority) (same : toAsciiLowercase host = toAsciiLowercase authority)
    (goes : request.pathAndQuery = path ++ "/") (above : path = url.prefix_ ∨ isUnder path url.prefix_ = true) :
    ∃ rest, restAt web base request = some rest := by
  rcases above with equal | under
  · refine ⟨"/", restAt_eq_some.mpr ⟨host, url, authority, named, parsed, located, same, ?_, Or.inr (Or.inl (by decide))⟩⟩
    rw [goes, equal]
  · obtain ⟨tail, whole, slash⟩ := isUnder_iff.mp under
    refine ⟨tail ++ "/", restAt_eq_some.mpr ⟨host, url, authority, named, parsed, located, same, ?_, Or.inr (Or.inl ?_)⟩⟩
    · rw [goes, whole, String.append_assoc]
    · obtain ⟨more, parts⟩ := startsWith_iff.mp slash
      exact startsWith_iff.mpr ⟨more ++ "/", by rw [parts, String.append_assoc]⟩

theorem headerValue_path {web : Web} {text : String} {url : Url} (parsed : web.parseUrl text = some url) :
    web.headerValue (url.prefix_ ++ "/") = true := by
  unfold Web.headerValue
  rw [String.toList_append, List.all_append, Bool.and_eq_true, List.all_eq_true]
  refine ⟨fun c mem => (web.encoded text url parsed c (prefix_char mem)).1, ?_⟩
  simpa using web.slash

/-- Two bases at one site share a request. -/
theorem shared_of_collides {web : Web} {base old : String} (meet : collides web base old = true) :
    ∃ request : Addressed web, (∃ rest, restAt web base request = some rest) ∧
      ∃ rest, restAt web old request = some rest := by
  unfold collides at meet
  split at meet
  next here there parsed parsed' =>
    unfold sameSite at meet
    split at meet
    next left right located located' =>
      rw [Bool.and_eq_true, eqIgnoreAsciiCase_iff] at meet
      obtain ⟨same, paths⟩ := meet
      simp only [nestedPaths, Bool.or_eq_true, beq_iff_eq, or_assoc] at paths
      rcases paths with equal | below | above
      · refine ⟨⟨some left, here.prefix_ ++ "/", headerValue_path parsed⟩, ?_, ?_⟩
        · exact restAt_of_longer rfl parsed located rfl rfl (Or.inl rfl)
        · exact restAt_of_longer rfl parsed' located' same rfl (Or.inl equal)
      · refine ⟨⟨some left, here.prefix_ ++ "/", headerValue_path parsed⟩, ?_, ?_⟩
        · exact restAt_of_longer rfl parsed located rfl rfl (Or.inl rfl)
        · exact restAt_of_longer rfl parsed' located' same rfl (Or.inr below)
      · refine ⟨⟨some left, there.prefix_ ++ "/", headerValue_path parsed'⟩, ?_, ?_⟩
        · exact restAt_of_longer rfl parsed located rfl rfl (Or.inr above)
        · exact restAt_of_longer rfl parsed' located' same rfl (Or.inl rfl)
    next => cases meet
  next => cases meet

/-- A request that some previous base fits is sent to the current base with what followed it. -/
theorem redirectTarget_eq_some {web : Web} {request : Addressed web} {previous : List String} {new location : String}
    (found : redirectTarget web request previous new = some location) :
    ∃ old ∈ previous, ∃ rest, restAt web old request = some rest ∧ location = new ++ rest := by
  unfold redirectTarget at found
  obtain ⟨old, mem, hit⟩ := List.exists_of_findSome?_eq_some found
  obtain ⟨rest, fits, sent⟩ := Option.map_eq_some_iff.mp hit
  exact ⟨old, mem, rest, fits, sent.symm⟩

theorem headerValue_rest {web : Web} {base rest : String} {request : Addressed web}
    (fits : restAt web base request = some rest) : web.headerValue rest = true := by
  obtain ⟨host, url, authority, named, parsed, located, same, path, cut⟩ := restAt_eq_some.mp fits
  have visible := request.visible
  rw [path, headerValue_append, Bool.and_eq_true] at visible
  exact visible.2

/-- Unless the base cannot stand in a header, every request a previous base fits is redirected. -/
theorem redirect_of_fits {web : Web} {bases : Bases} {request : Addressed web} {old rest : String}
    (visible : web.headerValue (trimSlash bases.baseIri) = true) (mem : old ∈ bases.previousBaseIris)
    (fits : restAt web old request = some rest) : redirect web bases request ≠ none := by
  have some_ : (redirectTarget web request bases.previousBaseIris (trimSlash bases.baseIri)).isSome = true := by
    unfold redirectTarget
    rw [List.findSome?_isSome_iff]
    exact ⟨old, mem, by simp [fits]⟩
  obtain ⟨location, target⟩ := Option.isSome_iff_exists.mp some_
  obtain ⟨_, _, other, fits', sent⟩ := redirectTarget_eq_some target
  unfold redirect
  rw [if_neg (List.ne_nil_of_mem mem), target]
  simp [Option.filter, sent, headerValue_append, visible, headerValue_rest fits']

/-- A request to the current base stays there when no previous base collides with it. -/
theorem stays_of_distinct {web : Web} {bases : Bases} {request : Addressed web} (apart : Distinct web bases)
    (current : ToCurrent web bases request) : redirect web bases request = none := by
  cases sent : redirect web bases request with
  | none => rfl
  | some location =>
    exfalso
    unfold redirect at sent
    split at sent
    next => cases sent
    next =>
      obtain ⟨target, visible⟩ := Option.filter_eq_some_iff.mp sent
      obtain ⟨old, mem, other, there, whole⟩ := redirectTarget_eq_some target
      obtain ⟨rest, here⟩ := Option.isSome_iff_exists.mp current
      rw [whole, headerValue_append, Bool.and_eq_true] at visible
      rcases apart with hidden | clear
      · rw [visible.1] at hidden
        cases hidden
      · have meet := collides_of_restAt here there
        rw [clear old mem] at meet
        cases meet

/-- Redirects come to rest exactly at the configurations whose bases are at distinct sites. -/
theorem settled_iff_distinct (web : Web) (bases : Bases) : Settled web bases ↔ Distinct web bases := by
  constructor
  · intro settled
    by_contra close
    unfold Distinct at close
    push Not at close
    obtain ⟨visible, old, mem, meet⟩ := close
    obtain ⟨request, ⟨rest, here⟩, other, there⟩ := shared_of_collides (Bool.eq_true_of_not_eq_false meet)
    have stays := settled.1 request (by rw [ToCurrent, here]; rfl)
    exact redirect_of_fits (Bool.eq_true_of_not_eq_false visible) mem there stays
  · intro apart
    refine ⟨fun request current => stays_of_distinct apart current, ?_⟩
    intro request location sent next asks
    obtain ⟨rest, here, whole⟩ := asks
    exact stays_of_distinct apart (by rw [ToCurrent, here]; rfl)

/-- A host without a port, then the path from the first slash on. -/
def plainUrl (text : String) : Option Url :=
  ((stripPrefix text "https://").or (stripPrefix text "http://")).map fun rest =>
    ⟨some (String.ofList (rest.toList.takeWhile (· != '/'))), none,
      String.ofList (rest.toList.dropWhile (· != '/'))⟩

def plainWeb : Web where
  parseUrl text := (plainUrl text).filter
    (fun url => url.path.toList.all (fun c => decide (32 ≤ c.toNat ∧ c.toNat < 127) && c != '?'))
  headerChar c := decide (32 ≤ c.toNat ∧ c.toNat < 127)
  slash := by decide
  encoded text url parsed c mem := by
    have plain := List.all_eq_true.mp (Option.filter_eq_some_iff.mp parsed).2 c mem
    simpa using plain

/-- A registry that moved from `http` to `https` on one host. -/
def upgraded : Bases := ⟨"https://reg.example", ["http://reg.example"]⟩

/-- The move to `https` is accepted, and from then on every request is redirected to its own address. -/
theorem upgrade_redirects_forever :
    readBases (Specimen.platform []) (some "https://reg.example/") (some "http://reg.example") = .ok upgraded ∧
      ¬ Settled plainWeb upgraded := by
  refine ⟨by rfl, fun settled => ?_⟩
  have asked := settled.1 ⟨some "reg.example", "/software/1", by decide⟩ (by rw [ToCurrent]; decide)
  have sent : redirect plainWeb upgraded ⟨some "reg.example", "/software/1", by decide⟩ =
      some "https://reg.example/software/1" := by decide
  rw [sent] at asked
  cases asked

end ToolArtifactRegistry.Laws
