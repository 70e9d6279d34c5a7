import Arbiter.Rules.Castling

/-! # Legal moves

A move is legal if the rule for the piece allows it and the player's own king is not in check
afterwards.
-/

namespace Arbiter.Position

/-- The position after a move that the rule for the piece allows, unless the player's own king is
in check there. -/
def settle (p : Position) (m : Move) (e : Effects) : Option Position :=
  let q := p.play m e
  if q.inCheck (some p.toMove) then none else some q

/-- The ruling on a move of the player to move, and the position after it: the same one unless the
move is legal. A promotion is asked for only if becoming a queen would be legal. -/
def attempt (p : Position) (m : Move) : Ruling × Position :=
  match p.pieceRuling m (some p.toMove) true with
  | .illegal => (.illegal, p)
  | .legal e =>
    match p.settle m e with
    | some q => (.legal e, q)
    | none => (.illegal, p)
  | .needsPromotion =>
    match p.pieceRuling (m.promoting .queen) (some p.toMove) true with
    | .legal e =>
      if (p.settle (m.promoting .queen) e).isSome then (.needsPromotion, p) else (.illegal, p)
    | _ => (.illegal, p)

/-- The ruling on a move of the player to move. -/
def ruling (p : Position) (m : Move) : Ruling :=
  (p.attempt m).1

/-- The moves from a square of the player to move to any square, origin by origin. -/
def candidates (p : Position) : List Move :=
  (p.board.squaresOf (some p.toMove)).flatMap fun src =>
    Square.all.map fun dst => { src, dst }

/-- The legal moves, with one entry for every choice of promotion. -/
def legalMoves (p : Position) : List Move :=
  p.candidates.flatMap fun m =>
    match p.ruling m with
    | .illegal => []
    | .needsPromotion => Kind.promotions.map m.promoting
    | .legal _ => [m]

/-- The player to move has a legal move. Pawns are taken to become queens. -/
def hasReply (p : Position) : Bool :=
  p.candidates.any fun m => (p.ruling (m.promoting .queen)).isLegal

end Arbiter.Position
