import Arbiter.Rules.Ruling

/-! # How the pieces move

One rule for each kind of piece, without castling. The rules look at the squares on the way and at
the target, and leave open whose turn it is and whether a king is in danger.
-/

namespace Arbiter.Position

/-- Nothing stands between the ends of the move. -/
def ClearPath (p : Position) (m : Move) : Prop :=
  ∀ s ∈ m.between, (p.board.get s).IsEmpty

instance (p : Position) (m : Move) : Decidable (p.ClearPath m) :=
  inferInstanceAs (Decidable (∀ s ∈ m.between, (p.board.get s).IsEmpty))

def rookRuling (p : Position) (m : Move) : Ruling :=
  .legalIf (m.Straight ∧ p.ClearPath m)

def bishopRuling (p : Position) (m : Move) : Ruling :=
  .legalIf (m.Diagonal ∧ p.ClearPath m)

def queenRuling (p : Position) (m : Move) : Ruling :=
  .legalIf ((m.Straight ∨ m.Diagonal) ∧ p.ClearPath m)

def knightRuling (m : Move) : Ruling :=
  .legalIf m.KnightJump

def kingStepRuling (m : Move) : Ruling :=
  .legalIf m.KingStep

def mover (p : Position) (m : Move) : Option Side := (p.board.get m.src).owner

/-- The square right ahead of a pawn. -/
def ahead (p : Position) (m : Move) : Square :=
  m.src.shift (Side.forward (p.mover m)) 0

/-- A pawn goes straight ahead onto empty squares, by one step, or by two from its home row. -/
def PawnAdvance (p : Position) (m : Move) : Prop :=
  m.dCol = 0 ∧ (p.board.get (p.ahead m)).IsEmpty ∧
    (m.dst = p.ahead m ∨
      (m.dRow = 2 * Side.forward (p.mover m) ∧
        (p.mover m).map Side.homeRow = some m.src.row ∧ (p.board.get m.dst).IsEmpty))

/-- One step diagonally ahead. -/
def PawnDiagonal (p : Position) (m : Move) : Prop :=
  m.dCol.natAbs = 1 ∧ m.dRow = Side.forward (p.mover m)

/-- The square beside a pawn on which it takes in passing. -/
def passedSquare (m : Move) : Square := ⟨m.src.row, m.dst.col⟩

/-- An enemy pawn beside this one made its only move, the double step, on the previous ply. -/
def PawnPasses (p : Position) (m : Move) : Prop :=
  let victim := p.board.get (passedSquare m)
  victim.kind = .pawn ∧ victim.owner = (p.mover m).map Side.opponent ∧ victim.moves = 1 ∧
    victim.lastMove = p.plies ∧ (p.mover m).map Side.passingRow = some m.src.row

instance (p : Position) (m : Move) : Decidable (p.PawnAdvance m) := by
  unfold PawnAdvance; infer_instance

instance (p : Position) (m : Move) : Decidable (p.PawnDiagonal m) := by
  unfold PawnDiagonal; infer_instance

instance (p : Position) (m : Move) : Decidable (p.PawnPasses m) := by
  unfold PawnPasses; infer_instance

/-- An owner's pawn that may go to its target must name a promotion there if that is its last
row. -/
def arrivalRuling (m : Move) (owner : Option Side) (captured : Option Square) : Ruling :=
  if m.dst.row = Side.lastRow owner then
    match m.promotion with
    | some kind =>
      if kind ∈ Kind.promotions then .legal { captured, promotion := some kind }
      else .needsPromotion
    | none => .needsPromotion
  else .legal { captured }

def pawnArrival (p : Position) (m : Move) (captured : Option Square) : Ruling :=
  arrivalRuling m (p.mover m) captured

/-- Pawns advance onto empty squares, and take diagonally, also in passing. -/
def pawnRuling (p : Position) (m : Move) : Ruling :=
  if ¬ (p.ahead m).OnBoard then .illegal
  else if p.PawnAdvance m then p.pawnArrival m none
  else if p.PawnDiagonal m then
    if ¬ (p.board.get m.dst).IsEmpty then p.pawnArrival m none
    else if p.PawnPasses m then p.pawnArrival m (some (passedSquare m))
    else .illegal
  else .illegal

def movementRuling (p : Position) (m : Move) : Kind → Ruling
  | .empty => .illegal
  | .pawn => p.pawnRuling m
  | .knight => knightRuling m
  | .bishop => p.bishopRuling m
  | .rook => p.rookRuling m
  | .queen => p.queenRuling m
  | .king => kingStepRuling m

/-- Both squares are on the board, the player owns the piece that moves, and the target holds no
other piece of the same owner. -/
def Admissible (p : Position) (m : Move) (player : Option Side) : Prop :=
  m.src.OnBoard ∧ m.dst.OnBoard ∧ ¬ (p.board.get m.src).IsEmpty ∧ p.mover m = player ∧
    ((p.board.get m.dst).IsEmpty ∨ (p.board.get m.dst).owner ≠ player)

instance (p : Position) (m : Move) (player : Option Side) : Decidable (p.Admissible m player) := by
  unfold Admissible; infer_instance

end Arbiter.Position
