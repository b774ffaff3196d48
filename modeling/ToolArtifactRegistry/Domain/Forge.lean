import ToolArtifactRegistry.Model
import ToolArtifactRegistry.Platform

/-! Keeping a software record in step with its source repository: only the fields the record names
as managed are touched. -/
namespace ToolArtifactRegistry.Domain.Forge

open Library.Text Model

def checkFields (fields : List String) : AppResult Unit :=
  match fields.filter (fun field => decide (field ∉ syncableFields)) with
  | [] => .ok ()
  | unknown => .error (AppError.badRequest ("cannot sync " ++ join ", " unknown ++
      " from a repository; syncable fields are " ++ join ", " syncableFields))

def githubPrefixes : List String :=
  ["https://github.com/", "http://github.com/", "https://www.github.com/", "http://www.github.com/"]

/-- Every trailing repetition of the suffix goes. -/
def trimSuffix (suffix : String) : Nat → String → String
  | 0, text => text
  | fuel + 1, text =>
    if suffix.toList.isSuffixOf text.toList then
      trimSuffix suffix fuel (String.ofList (text.toList.take (text.toList.length - suffix.toList.length)))
    else text

/-- The `owner/name` a repository string names on GitHub. -/
def githubRepo (given : String) : Option String := do
  let s := trim given
  let path ← (githubPrefixes.findSome? (stripPrefix s)).or (if contains s "://" then none else some s)
  let path ← (split path (fun c => c == '?' || c == '#')).head?
  match (split path (fun c => c == '/')).filter (fun piece => piece != "") with
  | owner :: last :: _ =>
    let name := trimSuffix ".git" last.length last
    if '.' ∈ owner.toList ∨ name = "" then none else some (owner ++ "/" ++ name)
  | _ => none

structure Asset where
  name : String
  browserDownloadUrl : String
  size : Option Int

structure GhRelease where
  tagName : Option String
  publishedAt : Option String
  htmlUrl : Option String
  draft : Bool
  prerelease : Bool
  assets : List Asset

structure Repo where
  description : Option String
  homepage : Option String
  topics : List String
  archived : Bool
  defaultBranch : Option String
  spdxId : Option String
  isPrivate : Bool

/-- What GitHub answers when asked about one repository. A failed answer carries its message; a
missing one is not a failure. -/
structure GitHub where
  repo : String → Except String (Option Repo)
  /-- Where the README is, when there is one. -/
  readme : String → Except String (Option String)
  /-- The text at an address, when it can be downloaded. -/
  download : String → Option String
  releases : String → Except String (Option (List GhRelease))

structure SyncOutcome where
  changed : List String := []
  releases : List ReleaseIn := []
  skipped : List String := []

/-- A record under synchronisation, with what the run has done so far. -/
structure Syncing where
  input : SoftwareIn
  out : SyncOutcome := {}

namespace Syncing

def change (s : Syncing) (field : String) : Syncing :=
  { s with out := { s.out with changed := s.out.changed ++ [field] } }

def skip (s : Syncing) (note : String) : Syncing :=
  { s with out := { s.out with skipped := s.out.skipped ++ [note] } }

/-- A field takes a value that says something new. -/
def set (s : Syncing) (field : String) (current next : Option String) (write : SoftwareIn → SoftwareIn) : Syncing :=
  match next with
  | some value => if trim value = "" ∨ current = some value then s else { s.change field with input := write s.input }
  | none => s

end Syncing

def managed (fields : List String) (name : String) (step : Syncing → Syncing) (s : Syncing) : Syncing :=
  if name ∈ fields then step s else s

def syncTagline (meta_ : Repo) (s : Syncing) : Syncing :=
  s.set "tagline" s.input.tagline meta_.description (fun input => { input with tagline := meta_.description })

def syncHomepage (meta_ : Repo) (s : Syncing) : Syncing :=
  let next := meta_.homepage.filter (fun h => startsWith h "http")
  s.set "homepage" s.input.homepage next (fun input => { input with homepage := next })

/-- An unidentified licence is not an SPDX id. -/
def spdxOf (meta_ : Repo) : Option String :=
  (meta_.spdxId.filter (fun id => id != "" && id != "NOASSERTION")).map (fun id => "https://spdx.org/licenses/" ++ id)

def syncLicense (meta_ : Repo) (s : Syncing) : Syncing :=
  let noted := if (spdxOf meta_).isNone then s.skip "license (the repository declares none)" else s
  noted.set "license" s.input.license (spdxOf meta_) (fun input => { input with license := spdxOf meta_ })

/-- The repository's topics, then what a curator added to them. -/
def mergedKeywords (topics keywords : List String) : List String :=
  keywords.foldl (fun merged k =>
    if merged.any (fun m => toAsciiLowercase m == toAsciiLowercase k) then merged else merged ++ [k]) topics

def syncKeywords (meta_ : Repo) (s : Syncing) : Syncing :=
  let merged := mergedKeywords meta_.topics s.input.keywords
  if meta_.topics.isEmpty ∨ merged = s.input.keywords then s
  else { s.change "keywords" with input := { s.input with keywords := merged } }

def syncMaturity (meta_ : Repo) (s : Syncing) : Syncing :=
  if meta_.archived then
    s.set "maturity" s.input.maturity (some "inactive") (fun input => { input with maturity := some "inactive" })
  else s

def syncReadmeBody (body : String) (s : Syncing) : Syncing :=
  if body = "" ∨ s.input.readme = some body then s
  else { s.change "readme" with input := { s.input with readme := some body } }

/-- Relative images only resolve against the raw root, which a private repository has none of. -/
def syncReadmeBase (repo branch : String) (meta_ : Repo) (s : Syncing) : Syncing :=
  if meta_.isPrivate then s.skip "readme_base_url (private repository has no public raw root)"
  else
    let base := some ("https://raw.githubusercontent.com/" ++ repo ++ "/" ++ branch ++ "/")
    if s.input.readmeBaseUrl = base then s
    else { s.change "readme_base_url" with input := { s.input with readmeBaseUrl := base } }

def syncReadme (forge : GitHub) (repo : String) (meta_ : Repo) (location : Option String) (s : Syncing) : Syncing :=
  match location with
  | some url =>
    match forge.download url with
    | some body => syncReadmeBase repo (meta_.defaultBranch.getD "main") meta_ (syncReadmeBody body s)
    | none => s.skip "readme (could not download it)"
  | none => s.skip "readme (the repository has none)"

def endsWith (text suffix : String) : Bool := suffix.toList.isSuffixOf text.toList

/-- The platform an asset's file name suggests. -/
def platformOf (name : String) : Option String :=
  let n := toAsciiLowercase name
  if endsWith n ".exe" || endsWith n ".msi" || contains n "windows" || contains n "win64" then some "Windows"
  else if endsWith n ".dmg" || contains n "mac" || contains n "darwin" || contains n "osx" then some "macOS"
  else if endsWith n ".appimage" || endsWith n ".deb" || endsWith n ".rpm" || contains n "linux" then some "Linux"
  else none

def assetDownload (asset : Asset) : DownloadIn where
  url := asset.browserDownloadUrl
  label := some asset.name
  platform := platformOf asset.name
  byteSize := asset.size
  availability := some "public"

def releaseIn (version : String) (release : GhRelease) : ReleaseIn where
  version := version
  datePublished := release.publishedAt
  changelog := release.htmlUrl
  downloads := release.assets.map assetDownload

/-- A tagged release joins the outcome once for each version. -/
def syncRelease (s : Syncing) (release : GhRelease) : Syncing :=
  match release.tagName.filter (fun tag => tag != "") with
  | none => s
  | some tag =>
    let version := trimStartMatches tag (fun c => c == 'v')
    if version ∈ s.out.releases.map ReleaseIn.version then s
    else
      let added := { s with out := { s.out with releases := s.out.releases ++ [releaseIn version release] } }
      if release.prerelease then added.skip (tag ++ " is a pre-release") else added

def syncReleases (found : Option (List GhRelease)) (s : Syncing) : Syncing :=
  match found with
  | some releases => (releases.filter (fun release => !release.draft)).foldl syncRelease s
  | none => s

/-- Fetch the managed fields and apply them, leaving everything else untouched. -/
def syncInto (platform : Platform) (forge : GitHub) (given : String) (fields : List String)
    (input : SoftwareIn) : Except String Syncing := do
  match githubRepo given with
  | none => .error (platform.quoted given ++ " is not an owner/name repository")
  | some repo =>
    match ← forge.repo repo with
    | none => .error ("no repository " ++ repo ++ ", or it is private and the credential cannot see it")
    | some meta_ =>
      let described := managed fields "maturity" (syncMaturity meta_) (managed fields "keywords" (syncKeywords meta_)
        (managed fields "license" (syncLicense meta_) (managed fields "homepage" (syncHomepage meta_)
          (managed fields "tagline" (syncTagline meta_) { input }))))
      let location ← if "readme" ∈ fields then forge.readme repo else .ok none
      let documented := managed fields "readme" (syncReadme forge repo meta_ location) described
      let found ← if "releases" ∈ fields then forge.releases repo else .ok none
      return managed fields "releases" (syncReleases found) documented

end ToolArtifactRegistry.Domain.Forge
