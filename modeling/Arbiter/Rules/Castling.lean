import Arbiter.Rules.Attack

/-! # Castling, and the rule for every move

Castling is a king's move of two squares along its row. The rook is found by looking along the row,
not by a table of home squares.
-/

namespace Arbiter.Position

/-- The squares next to a square along its row, from the nearest on. -/
def alongRow (s : Square) (step : Int) : List Square :=
  (List.range 7).map fun k => s.shift 0 (step * (k + 1 : Nat))

/-- The first occupied square along the row. -/
def firstAlongRow (p : Position) (s : Square) (step : Int) : Option Square :=
  (alongRow s step).find? fun t => ¬ (p.board.get t).IsEmpty

/-- Where the king stands, the square that it crosses, and where it lands. -/
def kingPath (m : Move) : List Square :=
  (List.range 3).map fun k => m.src.shift 0 (m.dCol.sign * (k : Nat))

/-- Neither the king nor the first piece in its direction, its own rook, has moved, and none of the
squares of the king's path is attacked. -/
def castlingRuling (p : Position) (m : Move) : Ruling :=
  let king := p.board.get m.src
  if king.moves = 0 ∧ m.dRow = 0 ∧ m.dCol.natAbs = 2 then
    match p.firstAlongRow m.src m.dCol.sign with
    | none => .illegal
    | some corner =>
      let rook := p.board.get corner
      if rook.kind = .rook ∧ rook.owner = king.owner ∧ rook.moves = 0 ∧
          ∀ s ∈ kingPath m, p.attacked s king.owner = false then
        .legal { castle := some { src := corner, dst := m.src.shift 0 m.dCol.sign } }
      else .illegal
  else .illegal

/-- Kings go one step, or castle. -/
def kingRuling (p : Position) (m : Move) (castling : Bool) : Ruling :=
  if m.KingStep then .legal {}
  else if castling then p.castlingRuling m
  else .illegal

/-- The rule for a move of the given player's piece. It leaves open whether the player's own king
is in danger afterwards. -/
def pieceRuling (p : Position) (m : Move) (player : Option Side) (castling : Bool) : Ruling :=
  if p.Admissible m player then
    match (p.board.get m.src).kind with
    | .king => p.kingRuling m castling
    | kind => p.movementRuling m kind
  else .illegal

end Arbiter.Position
