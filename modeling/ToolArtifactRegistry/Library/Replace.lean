import Mathlib.Data.List.Infix
import Mathlib.Tactic.Common
import ToolArtifactRegistry.Library.Text

/-! Replacing a pattern in a text: occurrences are taken from the left and do not overlap. Which patterns a
replacement leaves gone, and when it commutes with cutting the text at an occurrence. -/
namespace ToolArtifactRegistry.Library.Replace

variable {α : Type}

/-- The pattern is met in front of what follows a text no earlier than at its end. -/
def Fresh (old text : List α) : Prop := ∀ n < text.length, ¬old <+: (text ++ old).drop n

/-- One of two texts begins with the other. -/
def Agree (left right : List α) : Prop := left <+: right ∨ right <+: left

/-- An occurrence of the pattern can begin inside the word. -/
def Within (old word : List α) : Prop := ∃ n < word.length, Agree (word.drop n) old

/-- The word can begin inside an occurrence of the pattern. -/
def Entered (old word : List α) : Prop := ∃ n < old.length, 0 < n ∧ Agree (old.drop n) word

/-- No occurrence of the pattern touches the word. -/
def Clear (old word : List α) : Prop := ¬Within old word ∧ ¬Entered old word

/-- A replacement can bring the pattern back: an occurrence begins inside what is put in, or runs into it. -/
def Reborn (old new : List α) : Prop :=
  Within old new ∨ ∃ n < old.length, 0 < n ∧ Agree (old.drop n) new ∧ Fresh old (old.take n)

theorem Fresh.tail {old : List α} {c : α} {text : List α} (fresh : Fresh old (c :: text)) : Fresh old text := by
  intro n short
  have here := fresh (n + 1) (by rw [List.length_cons]; omega)
  rwa [List.cons_append, List.drop_succ_cons] at here

theorem agree_of_append {left right tail rest : List α} (same : left ++ tail = right ++ rest) : Agree left right :=
  List.prefix_or_prefix_of_prefix ⟨tail, same⟩ ⟨rest, rfl⟩

theorem Agree.head {a b : α} {rest more : List α} (agree : Agree (a :: rest) (b :: more)) : a = b := by
  rcases agree with starts | starts
  · exact (List.cons_prefix_cons.mp starts).1
  · exact (List.cons_prefix_cons.mp starts).1.symm

/-- Of what stands before a word that a pattern does not touch, the pattern begins no more with the word there. -/
theorem prefix_of_clear {old before word after : List α} (clear : Clear old word) (some_ : word ≠ [])
    (starts : old <+: before ++ (word ++ after)) : old <+: before := by
  obtain ⟨tail, whole⟩ := starts
  by_cases short : before.length < old.length
  · exfalso
    have cut := congrArg (List.drop before.length) whole
    rw [List.drop_append_of_le_length (Nat.le_of_lt short), List.drop_left] at cut
    by_cases empty : before.length = 0
    · refine clear.1 ⟨0, List.length_pos_iff.mpr some_, ?_⟩
      rw [empty, List.drop_zero] at cut
      rw [List.drop_zero]
      exact agree_of_append cut.symm
    · exact clear.2 ⟨before.length, short, Nat.pos_of_ne_zero empty, agree_of_append cut⟩
  · exact List.prefix_of_prefix_length_le ⟨tail, whole⟩ (List.prefix_append before _) (by omega)

/-- No pattern touches another, itself or what is put in. -/
def Independent (olds : List (List α)) (new : List α) : Prop :=
  ∀ old ∈ olds, old ≠ [] ∧ ¬Entered old old ∧ Clear old new ∧ ∀ other ∈ olds, other ≠ old → Clear other old

/-- A text read from the left: where a pattern begins the word stands instead, and every other character stays. -/
inductive Translated (olds : List (List α)) (new : List α) : List α → List α → Prop
  | nil : Translated olds new [] []
  | put {old rest after : List α} (mem : old ∈ olds) (goes : Translated olds new rest after) :
      Translated olds new (old ++ rest) (new ++ after)
  | keep {c : α} {rest after : List α} (none_ : ∀ old ∈ olds, ¬old <+: c :: rest) (goes : Translated olds new rest after) :
      Translated olds new (c :: rest) (c :: after)

/-- A pattern that begins a translated text begins the text. -/
theorem prefix_of_translated {old new : List α} {olds : List (List α)} (some_ : new ≠ []) (clear : Clear old new) {text after : List α}
    (goes : Translated olds new text after) (before : List α) (starts : old <+: before ++ after) : old <+: before ++ text := by
  induction goes generalizing before with
  | nil => exact starts
  | put mem goes ih => exact (prefix_of_clear clear some_ starts).trans (List.prefix_append _ _)
  | keep none_ goes ih =>
    rw [List.append_cons] at starts ⊢
    exact ih _ starts

/-- No pattern is left in a translated text. -/
theorem absent_of_translated {new : List α} {olds : List (List α)} (some_ : new ≠ []) (independent : Independent olds new) {text after : List α}
    (goes : Translated olds new text after) : ∀ old ∈ olds, ¬old <:+: after := by
  intro old mem
  obtain ⟨pos, _, clear, _⟩ := independent old mem
  induction goes with
  | nil => exact fun inside => pos (List.infix_nil.mp inside)
  | put _ goes ih =>
    rintro ⟨before, tail, whole⟩
    by_cases inside : before.length < new.length
    · refine clear.1 ⟨before.length, inside, ?_⟩
      have cut := congrArg (List.drop before.length) whole
      rw [List.append_assoc, List.drop_left, List.drop_append_of_le_length (Nat.le_of_lt inside)] at cut
      exact agree_of_append cut.symm
    · refine ih ⟨before.drop new.length, tail, ?_⟩
      have cut := congrArg (List.drop new.length) whole
      rwa [List.drop_left, List.append_assoc, List.drop_append_of_le_length (by omega), ← List.append_assoc] at cut
  | @keep c _ _ none_ goes ih =>
    intro inside
    rcases List.infix_cons_iff.mp inside with here | later
    · exact none_ old mem (prefix_of_translated some_ clear goes [c] here)
    · exact ih later

/-- What a text does not hold and what is put in does not touch is not there afterwards. -/
theorem Translated.absent {new other : List α} {olds : List (List α)} (some_ : new ≠ []) (clear : Clear other new) {text after : List α}
    (goes : Translated olds new text after) (gone : ¬other <:+: text) : ¬other <:+: after := by
  induction goes with
  | nil => exact gone
  | put _ goes ih =>
    rintro ⟨before, tail, whole⟩
    by_cases inside : before.length < new.length
    · refine clear.1 ⟨before.length, inside, ?_⟩
      have cut := congrArg (List.drop before.length) whole
      rw [List.append_assoc, List.drop_left, List.drop_append_of_le_length (Nat.le_of_lt inside)] at cut
      exact agree_of_append cut.symm
    · refine ih (fun inside => gone (inside.trans (List.suffix_append _ _).isInfix)) ⟨before.drop new.length, tail, ?_⟩
      have cut := congrArg (List.drop new.length) whole
      rwa [List.drop_left, List.append_assoc, List.drop_append_of_le_length (by omega), ← List.append_assoc] at cut
  | @keep c _ _ _ goes ih =>
    intro inside
    rcases List.infix_cons_iff.mp inside with here | later
    · exact gone (prefix_of_translated some_ clear goes [c] here).isInfix
    · exact ih (fun inside => gone (List.infix_cons_iff.mpr (Or.inr inside))) later

/-- Patterns that the text does not hold can be left out. -/
theorem Translated.filter {new : List α} {olds : List (List α)} {kept : List α → Bool} {text after : List α}
    (goes : Translated olds new text after) (gone : ∀ old ∈ olds, kept old = false → ¬old <:+: text) :
    Translated (olds.filter kept) new text after := by
  induction goes with
  | nil => exact .nil
  | @put old rest _ mem goes ih =>
    refine .put (List.mem_filter.mpr ⟨mem, ?_⟩) (ih (fun other here out inside => ?_))
    · cases out : kept old with
      | true => rfl
      | false => exact absurd (List.prefix_append old rest).isInfix (gone old mem out)
    · exact gone other here out (inside.trans (List.suffix_append _ _).isInfix)
  | keep none_ goes ih =>
    refine .keep (fun old mem => none_ old (List.mem_filter.mp mem).1) (ih (fun other here out inside => ?_))
    exact gone other here out (List.infix_cons_iff.mpr (Or.inr inside))

variable [DecidableEq α]

instance (left right : List α) : Decidable (Agree left right) := inferInstanceAs (Decidable (_ ∨ _))

instance (old text : List α) : Decidable (Fresh old text) :=
  inferInstanceAs (Decidable (∀ n < text.length, ¬old <+: (text ++ old).drop n))

instance (old word : List α) : Decidable (Within old word) :=
  inferInstanceAs (Decidable (∃ n < word.length, Agree (word.drop n) old))

instance (old word : List α) : Decidable (Entered old word) :=
  inferInstanceAs (Decidable (∃ n < old.length, 0 < n ∧ Agree (old.drop n) word))

instance (old word : List α) : Decidable (Clear old word) := inferInstanceAs (Decidable (_ ∧ _))

instance (old new : List α) : Decidable (Reborn old new) :=
  inferInstanceAs (Decidable (Within old new ∨
    ∃ n < old.length, 0 < n ∧ Agree (old.drop n) new ∧ Fresh old (old.take n)))

/-- The number counts what is left of an occurrence that has been replaced already. -/
def replaceFrom (old new : List α) : Nat → List α → List α
  | _, [] => []
  | skip + 1, _ :: rest => replaceFrom old new skip rest
  | 0, c :: rest =>
    if old <+: c :: rest then new ++ replaceFrom old new (old.length - 1) rest
    else c :: replaceFrom old new 0 rest

def replace (old new text : List α) : List α := replaceFrom old new 0 text

/-- Several patterns, one after the other. -/
def replaceAll (olds : List (List α)) (new text : List α) : List α :=
  olds.foldl (fun text old => replace old new text) text

instance (olds : List (List α)) (new : List α) : Decidable (Independent olds new) :=
  inferInstanceAs (Decidable (∀ old ∈ olds, old ≠ [] ∧ ¬Entered old old ∧ Clear old new ∧
    ∀ other ∈ olds, other ≠ old → Clear other old))

variable {old new : List α}

@[simp] theorem replace_nil : replace old new [] = [] := rfl

theorem replace_cons_miss {c : α} {rest : List α} (miss : ¬old <+: c :: rest) :
    replace old new (c :: rest) = c :: replace old new rest := by
  unfold replace
  rw [replaceFrom, if_neg miss]

theorem replaceFrom_skip (skipped text : List α) :
    replaceFrom old new skipped.length (skipped ++ text) = replace old new text := by
  induction skipped with
  | nil => rfl
  | cons c rest ih => exact ih

theorem replace_append_hit (pos : old ≠ []) (text : List α) :
    replace old new (old ++ text) = new ++ replace old new text := by
  cases old with
  | nil => exact absurd rfl pos
  | cons c rest =>
    have hit : c :: rest <+: c :: (rest ++ text) := List.prefix_append (c :: rest) text
    show replaceFrom (c :: rest) new 0 (c :: (rest ++ text)) = _
    rw [replaceFrom, if_pos hit]
    congr 1
    exact replaceFrom_skip rest text

/-- A text is empty, begins with the pattern, or begins with a character that is kept. -/
theorem replace_induction {motive : List α → Prop} (pos : old ≠ []) (nil : motive [])
    (hit : ∀ rest, motive rest → motive (old ++ rest))
    (miss : ∀ c rest, ¬old <+: c :: rest → motive rest → motive (c :: rest)) (text : List α) : motive text := by
  induction many : text.length using Nat.strong_induction_on generalizing text with
  | _ n ih =>
    cases text with
    | nil => exact nil
    | cons c rest =>
      by_cases starts : old <+: c :: rest
      · obtain ⟨after, same⟩ := starts
        have shorter : after.length < n := by
          have lengths := congrArg List.length same
          have some_ := List.length_pos_iff.mpr pos
          rw [List.length_append] at lengths
          omega
        rw [← same]
        exact hit after (ih after.length shorter after rfl)
      · exact miss c rest starts (ih rest.length (by rw [← many, List.length_cons]; omega) rest rfl)

theorem replace_of_absent {text : List α} (gone : ¬old <:+: text) : replace old new text = text := by
  induction text with
  | nil => rfl
  | cons c rest ih =>
    rw [replace_cons_miss (fun starts => gone starts.isInfix), ih]
    exact fun inside => gone (inside.trans (List.suffix_cons c rest).isInfix)

/-- Text before an occurrence that begins no earlier one stands as it is. -/
theorem replace_fresh (pos : old ≠ []) {before : List α} (fresh : Fresh old before) (rest : List α) :
    replace old new (before ++ old ++ rest) = before ++ new ++ replace old new rest := by
  induction before with
  | nil => exact replace_append_hit pos rest
  | cons c before ih =>
    have miss : ¬old <+: c :: (before ++ old ++ rest) := by
      intro starts
      have whole : c :: before ++ old <+: c :: (before ++ old ++ rest) := ⟨rest, by simp⟩
      have early : old <+: c :: before ++ old :=
        List.prefix_of_prefix_length_le starts whole (by simp; omega)
      exact fresh 0 (by simp) early
    rw [List.cons_append, List.cons_append, replace_cons_miss miss, ih fresh.tail]
    rfl

/-- A text holds no occurrence, or it is cut at its first one. -/
theorem first_occurrence (old text : List α) :
    ¬old <:+: text ∨ ∃ before rest, text = before ++ old ++ rest ∧ Fresh old before := by
  induction text with
  | nil =>
    by_cases empty : old = []
    · exact Or.inr ⟨[], [], by rw [empty]; rfl, nofun⟩
    · exact Or.inl (fun inside => empty (List.infix_nil.mp inside))
  | cons c text ih =>
    by_cases starts : old <+: c :: text
    · obtain ⟨rest, same⟩ := starts
      exact Or.inr ⟨[], rest, by rw [List.nil_append, same], nofun⟩
    · rcases ih with gone | ⟨before, rest, same, fresh⟩
      · refine Or.inl (fun inside => ?_)
        rcases List.infix_cons_iff.mp inside with here | later
        · exact starts here
        · exact gone later
      · refine Or.inr ⟨c :: before, rest, by rw [same]; rfl, fun n short => ?_⟩
        cases n with
        | zero =>
          refine fun early => starts (early.trans ?_)
          rw [same]
          exact ⟨rest, by simp⟩
        | succ n =>
          rw [List.cons_append, List.drop_succ_cons]
          exact fresh n (by rw [List.length_cons] at short; omega)

/-- What stands after a replacement and was not there before begins inside what was put in, or runs into it. -/
theorem reborn_of_back (pos : old ≠ []) {text : List α} (back : old <:+: replace old new text) : Reborn old new := by
  induction text using replace_induction pos with
  | nil => exact absurd (List.infix_nil.mp back) pos
  | hit rest ih =>
    rw [replace_append_hit pos] at back
    obtain ⟨before, after, same⟩ := back
    by_cases inside : before.length < new.length
    · refine Or.inl ⟨before.length, inside, ?_⟩
      have cut := congrArg (List.drop before.length) same
      rw [List.append_assoc, List.drop_left, List.drop_append_of_le_length (Nat.le_of_lt inside)] at cut
      exact agree_of_append cut.symm
    · refine ih ⟨before.drop new.length, after, ?_⟩
      have cut := congrArg (List.drop new.length) same
      rwa [List.drop_left, List.append_assoc, List.drop_append_of_le_length (by omega), ← List.append_assoc] at cut
  | miss c rest away ih =>
    rw [replace_cons_miss away] at back
    rcases List.infix_cons_iff.mp back with here | later
    · rcases first_occurrence old (c :: rest) with gone | ⟨before, after, same, fresh⟩
      · have kept := @replace_of_absent _ _ _ new _ gone
        rw [replace_cons_miss away] at kept
        rw [kept] at here
        exact absurd here away
      · have put : c :: replace old new rest = before ++ new ++ replace old new after := by
          rw [← replace_cons_miss away, same, replace_fresh pos fresh]
        rw [put, List.append_assoc] at here
        obtain ⟨tail, whole⟩ := here
        by_cases short : before.length < old.length
        · have start : old.take before.length = before := by
            have cut := congrArg (List.take before.length) whole
            rwa [List.take_append_of_le_length (by omega), List.take_left] at cut
          have some_ : 0 < before.length := by
            refine List.length_pos_iff.mpr (fun empty => away ⟨after, ?_⟩)
            rw [same, empty, List.nil_append]
          refine Or.inr ⟨before.length, short, some_, ?_, by rw [start]; exact fresh⟩
          have cut := congrArg (List.drop before.length) whole
          rw [List.drop_append_of_le_length (by omega), List.drop_left] at cut
          exact agree_of_append cut
        · exfalso
          have early : old <+: before := by
            refine List.prefix_of_prefix_length_le ⟨tail, whole⟩ ⟨new ++ replace old new after, rfl⟩ (by omega)
          refine away (early.trans ?_)
          rw [same, List.append_assoc]
          exact List.prefix_append _ _
    · exact ih later

/-- A tail of the pattern that is not the whole of it holds no occurrence. -/
theorem replace_drop {n : Nat} (pos : 0 < n) (short : n ≤ old.length) : replace old new (old.drop n) = old.drop n := by
  refine replace_of_absent (fun inside => ?_)
  have lengths := inside.length_le
  rw [List.length_drop] at lengths
  omega

theorem infix_of_reborn (pos : old ≠ []) (reborn : Reborn old new) : ∃ text, old <:+: replace old new text := by
  rcases reborn with ⟨n, short, ends | whole⟩ | ⟨n, short, some_, begins, fresh⟩
  · -- an end of what is put in begins the pattern: put the rest of the pattern behind an occurrence
    obtain ⟨rest, same⟩ := ends
    have some_ : 0 < (new.drop n).length := by rw [List.length_drop]; omega
    have tail : rest = old.drop (new.drop n).length := by rw [← same, List.drop_left]
    have short_ : (new.drop n).length ≤ old.length := by rw [← same, List.length_append]; omega
    refine ⟨old ++ rest, ?_⟩
    rw [replace_append_hit pos, tail, replace_drop some_ short_, ← tail]
    refine ⟨new.take n, [], ?_⟩
    rw [← same, ← List.append_assoc, List.take_append_drop, List.append_nil]
  · refine ⟨old, ?_⟩
    have put : replace old new old = new := by simpa using @replace_append_hit _ _ _ new pos []
    rw [put]
    exact whole.isInfix.trans (List.drop_suffix n new).isInfix
  · rcases begins with inNew | overNew
    · obtain ⟨rest, same⟩ := inNew
      refine ⟨old.take n ++ old, ?_⟩
      have put : replace old new (old.take n ++ old) = old.take n ++ new := by
        simpa using @replace_fresh _ _ old new pos _ fresh []
      rw [put, ← same]
      exact ⟨[], rest, by rw [← List.append_assoc, List.nil_append, List.take_append_drop]⟩
    · obtain ⟨rest, same⟩ := overNew
      refine ⟨old.take n ++ old ++ rest, ?_⟩
      have tail : rest = old.drop (n + new.length) := by
        rw [← List.drop_drop, ← same, List.drop_left]
      have lengths := congrArg List.length same
      rw [List.length_append, List.length_drop] at lengths
      rw [replace_fresh pos fresh, tail, replace_drop (by omega) (by omega), ← tail, List.append_assoc, same,
        List.take_append_drop]

/-- No text holds the pattern after a replacement, exactly when what is put in does not bring it back. -/
theorem settled_iff (pos : old ≠ []) : (∀ text, ¬old <:+: replace old new text) ↔ ¬Reborn old new := by
  constructor
  · intro gone reborn
    obtain ⟨text, back⟩ := infix_of_reborn pos reborn
    exact gone text back
  · exact fun apart text back => apart (reborn_of_back pos back)

/-- Where no occurrence runs into a word, the text before the word is replaced on its own. -/
theorem replace_before (pos : old ≠ []) {word : List α} (apart : ¬Entered old word) (before after : List α) :
    replace old new (before ++ (word ++ after)) = replace old new before ++ replace old new (word ++ after) := by
  induction before using replace_induction pos with
  | nil => rfl
  | hit rest ih => rw [List.append_assoc, replace_append_hit pos, replace_append_hit pos, ih, List.append_assoc]
  | miss c rest away ih =>
    have still : ¬old <+: c :: (rest ++ (word ++ after)) := by
      intro starts
      obtain ⟨tail, whole⟩ := starts
      by_cases short : (c :: rest).length < old.length
      · refine apart ⟨(c :: rest).length, short, by simp, ?_⟩
        have cut := congrArg (List.drop (c :: rest).length) whole
        rw [List.drop_append_of_le_length (Nat.le_of_lt short), ← List.cons_append, List.drop_left] at cut
        exact agree_of_append cut
      · exact away (List.prefix_of_prefix_length_le ⟨tail, whole⟩ ⟨word ++ after, rfl⟩ (by omega))
    rw [List.cons_append, replace_cons_miss still, replace_cons_miss away, ih, List.cons_append]

theorem replace_through {word : List α} (apart : ¬Within old word) (after : List α) :
    replace old new (word ++ after) = word ++ replace old new after := by
  induction word with
  | nil => rfl
  | cons c word ih =>
    have miss : ¬old <+: c :: (word ++ after) := by
      intro starts
      obtain ⟨tail, whole⟩ := starts
      refine apart ⟨0, by simp, ?_⟩
      rw [List.drop_zero]
      exact agree_of_append (show (c :: word) ++ after = old ++ tail by rw [whole, List.cons_append])
    rw [List.cons_append, replace_cons_miss miss, ih]
    · rfl
    · rintro ⟨n, short, agree⟩
      exact apart ⟨n + 1, by rw [List.length_cons]; omega, by rwa [List.drop_succ_cons]⟩

/-- A word no occurrence touches stands, and the texts around it are replaced on their own. -/
theorem replace_around (pos : old ≠ []) {word : List α} (clear : Clear old word) (before after : List α) :
    replace old new (before ++ (word ++ after)) = replace old new before ++ (word ++ replace old new after) := by
  rw [replace_before pos clear.2, replace_through clear.1]

/-- An occurrence of a pattern that overlaps no other is replaced wherever it stands. -/
theorem replace_cut (pos : old ≠ []) (unbordered : ¬Entered old old) (before after : List α) :
    replace old new (before ++ (old ++ after)) = replace old new before ++ (new ++ replace old new after) := by
  rw [replace_before pos unbordered, replace_append_hit pos]

theorem replaceAll_around {olds : List (List α)} {word : List α}
    (clear : ∀ old ∈ olds, old ≠ [] ∧ Clear old word) (before after : List α) :
    replaceAll olds new (before ++ (word ++ after)) =
      replaceAll olds new before ++ (word ++ replaceAll olds new after) := by
  induction olds generalizing before after with
  | nil => rfl
  | cons old olds ih =>
    obtain ⟨pos, apart⟩ := clear old List.mem_cons_self
    show replaceAll olds new (replace old new _) = _
    rw [replace_around pos apart, ih (fun other mem => clear other (List.mem_cons_of_mem old mem))]
    rfl

/-- Of independent patterns each is replaced wherever it stands, whatever the order they are taken in. -/
theorem replaceAll_cut {olds : List (List α)} (independent : Independent olds new) (mem : old ∈ olds)
    (before after : List α) :
    replaceAll olds new (before ++ (old ++ after)) =
      replaceAll olds new before ++ (new ++ replaceAll olds new after) := by
  induction olds generalizing before after with
  | nil => cases mem
  | cons first olds ih =>
    obtain ⟨pos, unbordered, _, others⟩ := independent old mem
    show replaceAll olds new (replace first new _) = _
    by_cases same : first = old
    · rw [same, replace_cut pos unbordered, replaceAll_around (fun other here => ?_)]
      · rw [← same]
        rfl
      · obtain ⟨some_, _, apart, _⟩ := independent other (List.mem_cons_of_mem first here)
        exact ⟨some_, apart⟩
    · have clear := (independent old mem).2.2.2 first List.mem_cons_self same
      rw [replace_around (independent first List.mem_cons_self).1 clear]
      have rest : Independent olds new := by
        intro other here
        obtain ⟨some_, free, apart, others⟩ := independent other (List.mem_cons_of_mem first here)
        exact ⟨some_, free, apart, fun third there => others third (List.mem_cons_of_mem first there)⟩
      rw [ih rest ((List.mem_cons.mp mem).resolve_left (fun here => same here.symm))]
      rfl

theorem replaceAll_of_absent {olds : List (List α)} {text : List α} (gone : ∀ old ∈ olds, ¬old <:+: text) :
    replaceAll olds new text = text := by
  induction olds with
  | nil => rfl
  | cons old olds ih =>
    show replaceAll olds new (replace old new text) = text
    rw [replace_of_absent (gone old List.mem_cons_self)]
    exact ih (fun other mem => gone other (List.mem_cons_of_mem old mem))

theorem exists_translated {olds : List (List α)} (some_ : ∀ old ∈ olds, old ≠ []) (text : List α) :
    ∃ after, Translated olds new text after := by
  induction many : text.length using Nat.strong_induction_on generalizing text with
  | _ n ih =>
    cases text with
    | nil => exact ⟨[], .nil⟩
    | cons c rest =>
      by_cases starts : ∃ old ∈ olds, old <+: c :: rest
      · obtain ⟨old, mem, tail, same⟩ := starts
        have shorter : tail.length < n := by
          have lengths := congrArg List.length same
          have long := List.length_pos_iff.mpr (some_ old mem)
          rw [List.length_append] at lengths
          omega
        obtain ⟨after, goes⟩ := ih tail.length shorter tail rfl
        rw [← same]
        exact ⟨new ++ after, .put mem goes⟩
      · obtain ⟨after, goes⟩ := ih rest.length (by rw [← many, List.length_cons]; omega) rest rfl
        exact ⟨c :: after, .keep (fun old mem here => starts ⟨old, mem, here⟩) goes⟩

theorem replaceAll_keep {olds : List (List α)} (some_ : new ≠ []) (clear : ∀ old ∈ olds, Clear old new) {c : α} {rest : List α}
    (none_ : ∀ old ∈ olds, ¬old <+: c :: rest) : replaceAll olds new (c :: rest) = c :: replaceAll olds new rest := by
  induction olds generalizing rest with
  | nil => rfl
  | cons first olds ih =>
    show replaceAll olds new (replace first new (c :: rest)) = c :: replaceAll olds new (replace first new rest)
    rw [replace_cons_miss (none_ first List.mem_cons_self)]
    refine ih (fun old mem => clear old (List.mem_cons_of_mem first mem)) (fun old mem starts => ?_)
    have away := none_ old (List.mem_cons_of_mem first mem)
    rcases first_occurrence first rest with gone | ⟨before, after, same, fresh⟩
    · rw [replace_of_absent gone] at starts
      exact away starts
    · by_cases pos : first = []
      · exact none_ first List.mem_cons_self (pos ▸ List.nil_prefix)
      · rw [same, replace_fresh pos fresh, List.append_assoc] at starts
        have early := @prefix_of_clear _ _ (c :: before) _ _ (clear old (List.mem_cons_of_mem first mem)) some_ starts
        refine away (early.trans ?_)
        rw [same, List.append_assoc]
        exact List.prefix_append (c :: before) _

/-- One after the other, independent patterns are replaced just where the text holds them. -/
theorem replaceAll_translated {olds : List (List α)} (some_ : new ≠ []) (independent : Independent olds new)
    {text after : List α} (goes : Translated olds new text after) : replaceAll olds new text = after := by
  induction goes with
  | nil => exact replaceAll_of_absent (fun old mem inside => (independent old mem).1 (List.infix_nil.mp inside))
  | @put old rest _ mem goes ih =>
    have nothing : replaceAll olds new [] = [] :=
      replaceAll_of_absent (fun old mem inside => (independent old mem).1 (List.infix_nil.mp inside))
    have cut := replaceAll_cut independent mem [] rest
    rwa [List.nil_append, nothing, List.nil_append, ih] at cut
  | keep none_ goes ih => rw [replaceAll_keep some_ (fun old mem => (independent old mem).2.2.1) none_, ih]

theorem translated_replace (pos : old ≠ []) (text : List α) : Translated [old] new text (replace old new text) := by
  induction text using replace_induction pos with
  | nil => exact .nil
  | hit rest ih =>
    rw [replace_append_hit pos]
    exact .put List.mem_cons_self ih
  | miss c rest away ih =>
    rw [replace_cons_miss away]
    refine .keep (fun other mem => ?_) ih
    rwa [List.mem_singleton.mp mem]

theorem replaceAll_filter {olds : List (List α)} {kept : List α → Bool} (some_ : new ≠ [])
    (clear : ∀ old ∈ olds, old ≠ [] ∧ Clear old new) {text : List α} (gone : ∀ old ∈ olds, kept old = false → ¬old <:+: text) :
    replaceAll olds new text = replaceAll (olds.filter kept) new text := by
  induction olds generalizing text with
  | nil => rfl
  | cons first olds ih =>
    show replaceAll olds new (replace first new text) = _
    have rest := fun old mem => clear old (List.mem_cons_of_mem first mem)
    cases out : kept first with
    | false =>
      rw [replace_of_absent (gone first List.mem_cons_self out), List.filter_cons_of_neg (by rw [out]; decide)]
      exact ih rest (fun old mem => gone old (List.mem_cons_of_mem first mem))
    | true =>
      rw [List.filter_cons_of_pos out]
      refine ih rest (fun old mem out => ?_)
      exact (translated_replace (clear first List.mem_cons_self).1 text).absent some_ (rest old mem).2
        (gone old (List.mem_cons_of_mem first mem) out)

/-- Of the patterns those that the text holds are independent, and none touches what is put in. -/
def Apart (olds : List (List α)) (new text : List α) : Prop :=
  (∀ old ∈ olds, old ≠ [] ∧ Clear old new) ∧ Independent (olds.filter (fun old => old <:+: text)) new

instance (olds : List (List α)) (new text : List α) : Decidable (Apart olds new text) := inferInstanceAs (Decidable (_ ∧ _))

theorem absent_of_filtered {olds : List (List α)} {text : List α} :
    ∀ old ∈ olds, decide (old <:+: text) = false → ¬old <:+: text := fun _ _ out => of_decide_eq_false out

/-- One after the other, patterns are replaced just where the text holds them, when no two it holds touch. -/
theorem translated_replaceAll {olds : List (List α)} (some_ : new ≠ []) {text : List α} (apart : Apart olds new text) :
    Translated olds new text (replaceAll olds new text) := by
  obtain ⟨after, goes⟩ := @exists_translated _ _ new olds (fun old mem => (apart.1 old mem).1) text
  have same := replaceAll_translated some_ apart.2 (goes.filter absent_of_filtered)
  rw [replaceAll_filter some_ apart.1 absent_of_filtered, same]
  exact goes

/-- A text that stands for itself holds none of the patterns. -/
theorem translated_self {olds : List (List α)} (some_ : new ≠ []) {text : List α} (apart : Apart olds new text) :
    Translated olds new text text ↔ ∀ old ∈ olds, ¬old <:+: text := by
  constructor
  · intro goes old mem inside
    exact absent_of_translated some_ apart.2 (goes.filter absent_of_filtered) old
      (List.mem_filter.mpr ⟨mem, decide_eq_true inside⟩) inside
  · intro gone
    have goes := translated_replaceAll some_ apart
    rwa [replaceAll_of_absent gone] at goes

/-- Replacement in a text. -/
def replaceText (text pattern with_ : String) : String :=
  String.ofList (replace pattern.toList with_.toList text.toList)

theorem containsChars_iff (pattern text : List Char) : Text.containsChars pattern text = true ↔ pattern <:+: text := by
  induction text with
  | nil => simp [Text.containsChars, List.infix_nil]
  | cons c rest ih =>
    rw [Text.containsChars, Bool.or_eq_true, ih, List.infix_cons_iff, List.isPrefixOf_iff_prefix]

theorem contains_iff {text pattern : String} :
    Text.contains text pattern = true ↔ pattern.toList <:+: text.toList := containsChars_iff _ _

/-- A pattern the replacement does not bring back is gone from the text. -/
theorem contains_replaceText {pattern with_ : String} (some_ : pattern.toList ≠ [])
    (settled : ¬Reborn pattern.toList with_.toList) (text : String) :
    Text.contains (replaceText text pattern with_) pattern = false := by
  have gone := (settled_iff some_).mpr settled text.toList
  rw [← Bool.not_eq_true, contains_iff, replaceText, String.toList_ofList]
  exact gone

end ToolArtifactRegistry.Library.Replace
