/-! # Sets of characters -/

namespace Arbiter.Text

/-- What is said of the characters of a list is decided along the list: there are too many characters
to go through all of them. -/
instance decidableForallMem (cs : List Char) (P : Char → Prop) [DecidablePred P] :
    Decidable (∀ c ∈ cs, P c) := List.decidableBAll P cs

instance decidableExistsMem (cs : List Char) (P : Char → Prop) [DecidablePred P] :
    Decidable (∃ c ∈ cs, P c) := List.decidableBEx P cs

/-- Closed ranges of code points. -/
abbrev Ranges := List (Nat × Nat)

/-- The code point lies in one of the ranges. -/
def Ranges.contains (rs : Ranges) (n : Nat) : Bool :=
  rs.any fun r => decide (r.1 ≤ n) && decide (n ≤ r.2)

end Arbiter.Text
