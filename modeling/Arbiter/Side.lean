/-! # The two players -/

namespace Arbiter

/-- A player. A piece belongs to a player or to nobody, so an owner is an `Option Side`. -/
inductive Side where
  | white
  | black
deriving Repr, DecidableEq, Inhabited

namespace Side

def opponent : Side → Side
  | white => black
  | black => white

def name : Side → String
  | white => "white"
  | black => "black"

def ofName? (s : String) : Option Side :=
  if s = "white" then some white
  else if s = "black" then some black
  else none

def homeRow : Side → Int
  | white => 6
  | black => 1

/-- Rows are counted from black's back rank, so white's pawns advance towards row 0. Nobody's
pawns go the same way as black's. -/
def forward (owner : Option Side) : Int :=
  if owner = some white then -1 else 1

/-- The row on which a pawn promotes. -/
def lastRow (owner : Option Side) : Int :=
  if owner = some white then 0 else 7

/-- The row from which the player's pawns take in passing: where the opponent's pawns land after
a double step. -/
def passingRow (side : Side) : Int :=
  side.homeRow + 3 * forward side

@[simp] theorem opponent_opponent (side : Side) : side.opponent.opponent = side := by
  cases side <;> rfl

@[simp] theorem opponent_ne (side : Side) : side.opponent ≠ side := by
  cases side <;> simp [opponent]

end Side
end Arbiter
