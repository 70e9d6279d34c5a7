import Arbiter.Rules.Movement

/-! # Attacked squares

A square is attacked if some piece of the opponent could move onto it now. Pawns take only where
something stands, so a vacant square is given a pawn while the question is asked.
-/

namespace Arbiter.Position

/-- The position in which a vacant square holds a pawn of the given owner. -/
def marked (p : Position) (s : Square) (owner : Option Side) : Position :=
  if (p.board.get s).IsEmpty then
    { p with board := p.board.put s { kind := .pawn, owner } }
  else p

/-- The piece on a square may move onto the target. A pawn is taken to become a queen. -/
def reaches (p : Position) (src target : Square) (attacker : Option Side) : Bool :=
  let m : Move := { src, dst := target, promotion := some .queen }
  decide (p.Admissible m attacker) && (p.movementRuling m (p.board.get src).kind).isLegal

/-- A square is attacked by the opponent of the given owner. -/
def attacked (p : Position) (s : Square) (owner : Option Side) : Bool :=
  let attacker := owner.map Side.opponent
  let q := p.marked s owner
  (q.board.squaresOf attacker).any fun src => q.reaches src s attacker

/-- The king is attacked. An owner without a king counts as being in check. -/
def inCheck (p : Position) (owner : Option Side) : Bool :=
  match p.board.king? owner with
  | none => true
  | some s => p.attacked s owner

end Arbiter.Position
