import Arbiter.Cell
import Arbiter.Square

/-! # Moves -/

namespace Arbiter

/-- A move from one square to another, with the kind that a pawn is to become. -/
structure Move where
  src : Square
  dst : Square
  promotion : Option Kind := none
deriving Repr, DecidableEq, Inhabited

namespace Move

/-- How many rows the move goes down the board. -/
def dRow (m : Move) : Int := m.dst.row - m.src.row

/-- How many columns the move goes to the right. -/
def dCol (m : Move) : Int := m.dst.col - m.src.col

/-- The same move with another choice of promotion. -/
def promoting (m : Move) (kind : Kind) : Move := { m with promotion := some kind }

/-- Along a row or a column. -/
def Straight (m : Move) : Prop := m.dRow = 0 ∨ m.dCol = 0

/-- As many rows as columns. -/
def Diagonal (m : Move) : Prop := m.dRow.natAbs = m.dCol.natAbs

/-- Two squares one way and one the other. -/
def KnightJump (m : Move) : Prop :=
  (m.dRow.natAbs = 1 ∧ m.dCol.natAbs = 2) ∨ (m.dRow.natAbs = 2 ∧ m.dCol.natAbs = 1)

/-- At most one square in every direction. -/
def KingStep (m : Move) : Prop := m.dRow.natAbs ≤ 1 ∧ m.dCol.natAbs ≤ 1

instance (m : Move) : Decidable m.Straight :=
  inferInstanceAs (Decidable (m.dRow = 0 ∨ m.dCol = 0))

instance (m : Move) : Decidable m.Diagonal :=
  inferInstanceAs (Decidable (m.dRow.natAbs = m.dCol.natAbs))

instance (m : Move) : Decidable m.KnightJump :=
  inferInstanceAs (Decidable ((m.dRow.natAbs = 1 ∧ m.dCol.natAbs = 2) ∨
    (m.dRow.natAbs = 2 ∧ m.dCol.natAbs = 1)))

instance (m : Move) : Decidable m.KingStep :=
  inferInstanceAs (Decidable (m.dRow.natAbs ≤ 1 ∧ m.dCol.natAbs ≤ 1))

/-- The squares strictly between the ends of a straight or diagonal move, in order. -/
def between (m : Move) : List Square :=
  (List.range (max m.dRow.natAbs m.dCol.natAbs - 1)).map fun k =>
    m.src.shift (m.dRow.sign * (k + 1 : Nat)) (m.dCol.sign * (k + 1 : Nat))

end Move
end Arbiter
