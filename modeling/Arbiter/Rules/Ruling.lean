import Arbiter.Position

/-! # Rulings -/

namespace Arbiter

/-- What the rules say about a move. -/
inductive Ruling where
  | illegal
  /-- A pawn would reach its last row, and no piece to become is chosen. -/
  | needsPromotion
  | legal (effects : Effects)
deriving Repr, DecidableEq, Inhabited

namespace Ruling

/-- Legal without further effects under a condition, otherwise illegal. -/
def legalIf (p : Prop) [Decidable p] : Ruling :=
  if p then legal {} else illegal

def isLegal : Ruling → Bool
  | legal _ => true
  | _ => false

end Ruling
end Arbiter
