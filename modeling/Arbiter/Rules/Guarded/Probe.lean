import Arbiter.Rules.Guarded

/-! # The question about a square, asked on the board itself

Whether a square is attacked is found out on the board that the game is played on: a pawn is put
down there for the time of the question, and what stood there is put back, whatever the outcome.
-/

namespace Arbiter.Position.Guarded

/-- Asks the pieces on some squares in turn, until one may move onto the target or the question
cannot be answered. The position is handed on as the question leaves it. -/
def askInTurn (target : Square) (attacker : Option Side) :
    List Square → Position → Except Fault Bool × Position
  | [], p => (.ok false, p)
  | src :: others, p =>
    match reaches p target attacker src with
    | .error fault => (.error fault, p)
    | .ok true => (.ok true, p)
    | .ok false => askInTurn target attacker others p

/-- A square is attacked by the opponent of the given owner, with the position afterwards. -/
def probe (p : Position) (s : Square) (owner : Option Side) : Except Fault Bool × Position :=
  match look p s with
  | .error fault => (.error fault, p)
  | .ok original =>
    let attacker := owner.map Side.opponent
    let q :=
      if original.IsEmpty then
        { p with board := p.board.put s { kind := .pawn, owner } }
      else p
    let (answer, q) := askInTurn s attacker (q.board.squaresOf attacker) q
    (answer, { q with board := q.board.put s original })

end Arbiter.Position.Guarded
