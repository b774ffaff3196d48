import ToolArtifactRegistry.Negotiate

/-! Content negotiation: what the weights of a header decide, and what they do not. -/
namespace ToolArtifactRegistry.Laws

open Library.Text Library.Floats Negotiate

/-! The reading by specificity: a name before a range of its type, and that before a range of everything. -/

/-- The type of a representation, before the slash. -/
def typeName (repr : Repr) : String := ((splitOnce repr.mediaType '/').map Prod.fst).getD ""

/-- How specifically a range matches a representation, where it does. -/
def specificity (media : String) (repr : Repr) : Option Nat :=
  if (media, repr) ∈ names then some 2
  else if media = typeName repr ++ "/*" then some 1
  else if media = "*/*" then some 0
  else none

def weighExactly (exact_ : Option (Nat × Nat)) (param : String) : Option (Nat × Nat) :=
  match stripPrefix (trim param) "q=" with
  | some text => decimal text.toList
  | none => exact_

/-- The weight of an entry as an exact fraction: its last `q`, one where there is none. -/
def exactOf (params : List String) : Option (Nat × Nat) := params.foldl weighExactly (some (1, 1))

def ranges (accept : String) : List (String × List String) := (split accept (fun c => c == ',')).map entryOf

/-- The entry at a place is one of the most specific that match a representation. -/
def Leads (accept : String) (place : Nat) (repr : Repr) (params : List String) : Prop :=
  ∃ media n, (ranges accept)[place]? = some (media, params) ∧ specificity media repr = some n ∧
    ∀ other ∈ ranges accept, ∀ m ∈ specificity other.1 repr, m ≤ n

/-- One exact weight is at most another. -/
def atMost (left right : Nat × Nat) : Prop := left.1 * right.2 ≤ right.1 * left.2

/-- A representation whose most specific range has the greatest exact weight, the earlier entry first. -/
def Honoured (accept : String) (repr : Repr) : Prop :=
  ∃ place params weight, Leads accept place repr params ∧ exactOf params = some weight ∧
    ∀ place' other params' weight', Leads accept place' other params' → exactOf params' = some weight' →
      atMost weight' weight ∧ (atMost weight weight' → place ≤ place')

/-- What the code does: the first of the heaviest entries it recognises, each on its own. -/
theorem negotiate_cases (headers : Mcp.Headers) (defaultRepr : Repr) {accept : String}
    (given : Mcp.headerStr headers "accept" = some accept) :
    (recognised defaultRepr accept = [] ∧ negotiate headers defaultRepr = defaultRepr) ∨
      ∃ best, Heaviest (weighed defaultRepr accept) best ∧ negotiate headers defaultRepr = best.1 := by
  have folded := foldl_better (weighed defaultRepr accept)
  rw [negotiate, given]
  dsimp only
  cases held : (weighed defaultRepr accept).foldl better none with
  | none =>
    rw [held] at folded
    exact Or.inl ⟨List.map_eq_nil_iff.1 folded, rfl⟩
  | some best =>
    rw [held] at folded
    exact Or.inr ⟨best, folded, rfl⟩

/-- A weight and an exact one are read from the same text, where the exact one is read. -/
def Tallies (q : Library.Floats.Single) (exact_ : Option (Nat × Nat)) : Prop :=
  ∀ w, exact_ = some w → q = some (round w.1 w.2 : Int) ∧ 0 < w.2

theorem agree_step {q : Library.Floats.Single} {exact_ : Option (Nat × Nat)} (agree : Tallies q exact_) (param : String) :
    Tallies (weigh q param) (weighExactly exact_ param) := by
  unfold weigh weighExactly
  cases stripPrefix (trim param) "q=" with
  | none => exact agree
  | some text =>
    intro w read
    dsimp only at read ⊢
    rw [parse_decimal read]
    exact ⟨rfl, decimal_positive read⟩

/-- An exact weight is read as the number nearest to it. -/
theorem weightOf_exact (params : List String) : Tallies (weightOf params) (exactOf params) := by
  have run : ∀ (params : List String) (q : Library.Floats.Single) (exact_ : Option (Nat × Nat)), Tallies q exact_ →
      Tallies (params.foldl weigh q) (params.foldl weighExactly exact_) := by
    intro params
    induction params with
    | nil => exact fun _ _ agree => agree
    | cons param rest ih =>
      intro q exact_ agree
      rw [List.foldl_cons, List.foldl_cons]
      exact ih _ _ (agree_step agree param)
  have start : Tallies one (some (1, 1)) := by
    intro w same
    rw [← Option.some.inj same, one_eq]
    exact ⟨rfl, Nat.one_pos⟩
  rw [weightOf, exactOf]
  exact run params one _ start

/-- A weight from zero to one that is a whole number of thousandths. -/
def Thousandths (params : List String) (k : Nat) : Prop :=
  k ≤ 1000 ∧ ∃ p q, exactOf params = some (p, q) ∧ p * 1000 = k * q

/-- Of weights of three decimals at most, the greater is the heavier. -/
theorem heavier_thousandths {params params' : List String} {k l : Nat} (first : Thousandths params k)
    (second : Thousandths params' l) : heavier (weightOf params) (weightOf params') = true ↔ l < k := by
  obtain ⟨smallK, p, q, exact_, same⟩ := first
  obtain ⟨smallL, r, s, exact_', same'⟩ := second
  obtain ⟨weight, positive⟩ := weightOf_exact params _ exact_
  obtain ⟨weight', positive'⟩ := weightOf_exact params' _ exact_'
  rw [weight, weight', heavier, decide_eq_true_eq, Int.ofNat_lt]
  exact round_thousandths positive' positive same' same ⟨smallL, smallK⟩

end ToolArtifactRegistry.Laws
