import ToolArtifactRegistry.Api.Tokens
import ToolArtifactRegistry.Laws.Specimen
import ToolArtifactRegistry.Library.Instants
import ToolArtifactRegistry.Library.Results

/-! A token lasts as long as its request says. -/
namespace ToolArtifactRegistry.Laws.Lasting

open Library.Text Library.Instants Library.Results Ids Model Store Auth Api.Tokens

/-- The number and the unit of a duration, as its text gives them. -/
structure Written (text : String) (n unit : Nat) : Prop where
  number : parseU64 (trim (durationParts (trim text)).1) = some n
  unit : unit = (durationParts (trim text)).2

/-- What the calendar and the reader of dates promise: years end with 262142, and dates are read in four digits of the
year only. A time is counted in nanoseconds since the calendar began. -/
structure Keeps (platform : Platform) (reads : String → Option Nat) : Prop where
  later : ∀ now seconds, platform.later (stamp now) seconds =
    if (ofCount (now + seconds * 1000000000)).year ≤ 262142 then some (stamp (now + seconds * 1000000000)) else none
  expired : ∀ expiry now, platform.expired expiry (stamp now) = (reads expiry).any (fun time => decide (time < now))
  four : ∀ time, (ofCount time).year ≤ 9999 → reads (stamp time) = some time
  more : ∀ time, 9999 < (ofCount time).year → reads (stamp time) = none

/-- The addition of the calendar panics. -/
def overflowed : AppError := AppError.internal "DateTime + TimeDelta overflowed"

/-- A token minted now with this lifetime expires when it should, or the request is refused. -/
def Lasts (server : Server) (reads : String → Option Nat) (draw : Draw) (now : Nat) (text : String) : Prop :=
  (∀ seconds, parseDuration server.platform text = .ok seconds → ∃ n unit, Written text n unit ∧ seconds = n * unit) ∧
  lifetime server draw (some text) ≠ .error overflowed ∧
  ∀ expiry, lifetime server draw (some text) = .ok expiry → ∃ n unit date, Written text n unit ∧ expiry = some date ∧
    reads date = some (now + n * unit * 1000000000) ∧
    ∀ (row : TokenRow) (time : Nat), row.expiresAt = expiry → row.revokedAt = none →
      (Ops.live server.platform (stamp time) row = true ↔ time ≤ now + n * unit * 1000000000)

section

variable {server : Server} {reads : String → Option Nat} {draw : Draw} {now : Nat} {text : String} {n unit : Nat}

theorem Written.functional {m other : Nat} (first : Written text n unit) (second : Written text m other) :
    n = m ∧ unit = other := by
  have same := first.number.symm.trans second.number
  exact ⟨Option.some.inj same, first.unit.trans second.unit.symm⟩

theorem parseDuration_eq (platform : Platform) (text : String) : parseDuration platform text =
    match parseU64 (trim (durationParts (trim text)).1) with
    | some n => .ok (n * (durationParts (trim text)).2 % 2 ^ 64)
    | none => .error ("bad duration " ++ platform.quoted (trim text)) := by
  unfold parseDuration
  generalize durationParts (trim text) = parts
  obtain ⟨number, unit⟩ := parts
  cases read : parseU64 (trim number) with
  | none => simp only [read]
  | some n => simp only [read]

theorem parseDuration_written (platform : Platform) (written : Written text n unit) :
    parseDuration platform text = .ok (n * unit % 2 ^ 64) := by
  rw [parseDuration_eq, written.number, written.unit]

/-- A text that is read gives a number and a unit. -/
theorem written_of_parse {platform : Platform} {seconds : Nat} (parsed : parseDuration platform text = .ok seconds) :
    ∃ n unit, Written text n unit ∧ seconds = n * unit % 2 ^ 64 := by
  rw [parseDuration_eq] at parsed
  cases number : parseU64 (trim (durationParts (trim text)).1) with
  | none =>
    rw [number] at parsed
    cases parsed
  | some n =>
    rw [number] at parsed
    exact ⟨n, _, ⟨number, rfl⟩, (Except.ok.inj parsed).symm⟩

theorem lifetime_of {seconds : Nat} (parsed : parseDuration server.platform text = .ok seconds) (short : seconds ≤ longest) :
    lifetime server draw (some text) = match server.platform.later draw.now seconds with
      | some expiry => .ok (some expiry)
      | none => .error overflowed := by
  unfold lifetime
  dsimp only
  rw [parsed]
  exact if_neg (Nat.not_lt.2 short)

theorem lifetime_long {seconds : Nat} (parsed : parseDuration server.platform text = .ok seconds) (long : longest < seconds) :
    lifetime server draw (some text) =
      .error (AppError.badRequest "Source duration value is out of range for the target type") := by
  unfold lifetime
  dsimp only
  rw [parsed]
  exact if_pos long

theorem lifetime_refused {message : String} (refused : parseDuration server.platform text = .error message) :
    lifetime server draw (some text) = .error (AppError.badRequest message) := by
  unfold lifetime
  dsimp only
  rw [refused]

theorem badRequest_ne (message : String) : AppError.badRequest message ≠ overflowed := by
  intro same
  have kind : "bad-request" = "internal" := congrArg AppError.kind same
  exact absurd kind (by decide)

/-- A date that is read belongs to a year of four digits. -/
theorem Keeps.read (keeps : Keeps server.platform reads) {time date : Nat} (read : reads (stamp time) = some date) :
    date = time ∧ (ofCount time).year ≤ 9999 := by
  rcases Nat.lt_or_ge 9999 (ofCount time).year with more | four
  · rw [keeps.more time more] at read
    cases read
  · rw [keeps.four time four] at read
    exact ⟨(Option.some.inj read).symm, four⟩

/-- A row that expires at a date that is read lives up to it. -/
theorem Keeps.live (keeps : Keeps server.platform reads) {date : String} {expiry : Nat} (read : reads date = some expiry)
    {row : TokenRow} (expires : row.expiresAt = some date) (standing : row.revokedAt = none) (time : Nat) :
    Ops.live server.platform (stamp time) row = true ↔ time ≤ expiry := by
  unfold Ops.live
  rw [expires, standing, Option.any_some, keeps.expired, read, Option.any_some, Option.isNone_none, Bool.true_and,
    Bool.not_eq_true', decide_eq_false_iff_not, Nat.not_lt]

/-- The lifetimes that hold: the product fits, and what the calendar is asked for is a year of four digits. -/
def Fits (now : Nat) (text : String) : Prop := ∀ n unit, Written text n unit →
  n * unit < 2 ^ 64 ∧ (n * unit ≤ longest → (ofCount (now + n * unit * 1000000000)).year ≤ 9999)

theorem lasts_of_fits (keeps : Keeps server.platform reads) (clock : draw.now = stamp now) (fits : Fits now text) :
    Lasts server reads draw now text := by
  cases parsed : parseDuration server.platform text with
  | error message =>
    rw [Lasts, parsed, lifetime_refused parsed]
    refine ⟨?_, ?_, ?_⟩
    · intro seconds none_
      cases none_
    · intro same
      exact badRequest_ne message (Except.error.inj same)
    · intro expiry none_
      cases none_
  | ok seconds =>
    obtain ⟨n, unit, written, same⟩ := written_of_parse parsed
    obtain ⟨small, soon⟩ := fits n unit written
    rw [Nat.mod_eq_of_lt small] at same
    subst same
    refine ⟨fun other again => ⟨n, unit, written, (Except.ok.inj (parsed.symm.trans again)).symm⟩, ?_⟩
    rcases Nat.lt_or_ge longest (n * unit) with long | short
    · rw [lifetime_long parsed long]
      refine ⟨fun same => badRequest_ne _ (Except.error.inj same), ?_⟩
      intro expiry none_
      cases none_
    · have four := soon short
      have reached : server.platform.later draw.now (n * unit) = some (stamp (now + n * unit * 1000000000)) := by
        rw [clock, keeps.later, if_pos (Nat.le_trans four (by decide))]
      rw [lifetime_of parsed short, reached]
      refine ⟨fun none_ => ?_, ?_⟩
      · cases none_
      intro expiry minted
      cases minted
      have read := keeps.four _ four
      exact ⟨n, unit, _, written, rfl, read, fun row time expires standing => keeps.live read expires standing time⟩

theorem fits_of_lasts (keeps : Keeps server.platform reads) (clock : draw.now = stamp now)
    (lasts : Lasts server reads draw now text) : Fits now text := by
  intro n unit written
  obtain ⟨exact_, steady, lasting⟩ := lasts
  have parsed := parseDuration_written server.platform written
  obtain ⟨m, other, again, same⟩ := exact_ _ parsed
  obtain ⟨rfl, rfl⟩ := written.functional again
  have small : n * unit < 2 ^ 64 := by
    rw [← same]
    exact Nat.mod_lt _ (by decide)
  refine ⟨small, fun short => ?_⟩
  rw [same] at parsed
  rw [lifetime_of parsed short, clock, keeps.later] at steady lasting
  by_cases reach : (ofCount (now + n * unit * 1000000000)).year ≤ 262142
  · rw [if_pos reach] at lasting
    obtain ⟨m, other, date, again, held, read, _⟩ := lasting _ rfl
    cases held
    exact (keeps.read read).2
  · rw [if_neg reach] at steady
    exact absurd rfl steady

/-- What is minted expires at the lifetime its request was given. -/
theorem minted_lifetime {state : State} {principal : Principal} {subject : TokenSubject} {iri what : String}
    {fallback : List String} {input : MintToken} {row : TokenRow} {ops : Ops}
    (planned : mintPlan server state draw principal subject iri what fallback input = .ok (row, ops)) :
    lifetime server draw input.expiresIn = .ok row.expiresAt ∧ row.revokedAt = none := by
  unfold mintPlan at planned
  obtain ⟨there, _, planned⟩ := bind_ok.1 planned
  obtain ⟨_, planned⟩ := guard_ok.1 planned
  obtain ⟨_, planned⟩ := unit_ok.1 planned
  obtain ⟨expiry, given, planned⟩ := bind_ok.1 planned
  obtain ⟨added, _, planned⟩ := bind_ok.1 planned
  cases planned
  exact ⟨given, rfl⟩

theorem settled {state : State} {plan : AppResult (TokenRow × Ops)} {minted : Minted}
    (answered : (settle state draw plan).response = .ok minted) : ∃ ops, plan = .ok (minted.record, ops) := by
  cases planned : plan with
  | error e =>
    rw [planned] at answered
    cases answered
  | ok value =>
    rw [planned] at answered
    cases answered
    exact ⟨value.2, rfl⟩

end

/-- A token lasts as its request says exactly if its lifetime fits, and both routes give it that lifetime. -/
theorem lasts_iff {server : Server} {reads : String → Option Nat} (keeps : Keeps server.platform reads) {draw : Draw} {now : Nat}
    (clock : draw.now = stamp now) (text : String) :
    (Lasts server reads draw now text ↔ Fits now text) ∧
    ∀ (state : State) (principal : Principal) (id : String) (input : MintToken) (minted : Minted),
      (create server state draw principal id input).response = .ok minted ∨
        (createForSoftware server state draw principal id input).response = .ok minted →
      lifetime server draw input.expiresIn = .ok minted.record.expiresAt ∧ minted.record.revokedAt = none := by
  refine ⟨⟨fits_of_lasts keeps clock, lasts_of_fits keeps clock⟩, ?_⟩
  rintro state principal id input minted (answered | answered)
  · obtain ⟨ops, planned⟩ := settled answered
    exact minted_lifetime (unit_ok.1 planned).2
  · obtain ⟨ops, planned⟩ := settled answered
    exact minted_lifetime (unit_ok.1 planned).2

/-- The dates of universal time alone, as nanoseconds. -/
def readCount (text : String) : Option Nat := (read text).map Instant.count

/-- A platform with the calendar of this library. -/
def clockwork : Platform :=
  { Specimen.platform [] with
    later := fun now seconds => (readSigned now).bind (fun i =>
      if (ofCount (i.count + seconds * 1000000000)).year ≤ 262142 then some (stamp (i.count + seconds * 1000000000)) else none)
    expired := fun expiry now => (readCount expiry).any (fun time => ((readSigned now).map Instant.count).any (fun n => decide (time < n))) }

theorem clockwork_later (now seconds : Nat) : clockwork.later (stamp now) seconds =
    if (ofCount (now + seconds * 1000000000)).year ≤ 262142 then some (stamp (now + seconds * 1000000000)) else none := by
  have held : readSigned (stamp now) = some (ofCount now) := readSigned_text (ofCount now)
  unfold clockwork
  dsimp only
  rw [held, Option.bind_some, count_ofCount]

theorem clockwork_expired (expiry : String) (now : Nat) :
    clockwork.expired expiry (stamp now) = (readCount expiry).any (fun time => decide (time < now)) := by
  have held : readSigned (stamp now) = some (ofCount now) := readSigned_text (ofCount now)
  unfold clockwork
  dsimp only
  rw [held, Option.map_some]
  simp only [Option.any_some, count_ofCount]

theorem readCount_four {time : Nat} (year : (ofCount time).year ≤ 9999) : readCount (stamp time) = some time := by
  rw [readCount, stamp, read_text year, Option.map_some, count_ofCount]

theorem readCount_more {time : Nat} (year : 9999 < (ofCount time).year) : readCount (stamp time) = none := by
  rw [readCount, stamp, read_late year, Option.map_none]

theorem clockwork_keeps : Keeps clockwork readCount :=
  ⟨clockwork_later, clockwork_expired, fun _ => readCount_four, fun _ => readCount_more⟩

def server : Server := { Specimen.registry [] with platform := clockwork }

/-- Noon on the first day of 2026. -/
def noon : Nat := 63934488000000000000

def draw : Draw := { Specimen.draw "t" with now := stamp noon }

example : stamp noon = "2026-01-01T12:00:00+00:00" := by decide

theorem day_written : Written "24h" 24 3600 := ⟨by decide, by decide⟩

theorem day_lasts : Lasts server readCount draw noon "24h" := by
  apply (lasts_iff clockwork_keeps rfl "24h").1.2
  intro n unit written
  obtain ⟨rfl, rfl⟩ := written.functional day_written
  exact ⟨by decide, fun _ => by decide⟩

/-- So many days are more seconds than 64 bits hold, and what is left of them is seventeen hours. -/
theorem wrapped_lasts_not : ¬Lasts server readCount draw noon "213503982334602d" := by
  intro lasts
  have written : Written "213503982334602d" 213503982334602 86400 := ⟨by decide, by decide⟩
  obtain ⟨n, unit, again, same⟩ := lasts.1 _ (parseDuration_written server.platform written)
  obtain ⟨rfl, rfl⟩ := written.functional again
  exact absurd same (by decide)

end ToolArtifactRegistry.Laws.Lasting
