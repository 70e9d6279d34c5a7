import Arbiter.Board
import Arbiter.Move

/-! # Positions

A position is a board with two clocks. It knows no player to move and no castling or en passant
rights of its own: the first follows from the plies played, the others from what the cells remember
about their pieces.
-/

namespace Arbiter

/-- A board, the number of plies played, and the ply of the latest capture. -/
structure Position where
  board : Board
  plies : Int := 0
  lastCapture : Int := 0
deriving DecidableEq

/-- What a legal move does besides taking a piece from one square to another. -/
structure Effects where
  /-- The square of a pawn taken in passing. -/
  captured : Option Square := none
  /-- The rook's move when castling. -/
  castle : Option Move := none
  /-- What the pawn becomes. -/
  promotion : Option Kind := none
deriving Repr, DecidableEq, Inhabited

namespace Position

/-- White moves at an even number of plies. -/
def toMove (p : Position) : Side :=
  if p.plies % 2 = 0 then .white else .black

/-- The plies since the latest capture. -/
def quietPlies (p : Position) : Int := p.plies - p.lastCapture

/-- The number of the turn: it starts at 1 and grows after each move of black. -/
def turn (p : Position) : Int := p.plies / 2 + 1

/-- The board after a move made at the given ply: the pawn taken in passing is removed, the piece is
relocated and promoted, and the castling rook follows. -/
def boardAfter (b : Board) (m : Move) (e : Effects) (now : Int) : Board :=
  let b := e.captured.elim b fun s => b.put s .vacant
  let b := b.relocate m.src m.dst now
  let b := e.promotion.elim b fun kind => b.promote m.dst kind
  e.castle.elim b fun rook => b.relocate rook.src rook.dst now

/-- The move takes a piece, on its target or in passing. -/
def Captures (p : Position) (m : Move) (e : Effects) : Prop :=
  ¬ (p.board.get m.dst).IsEmpty ∨ e.captured.isSome

instance (p : Position) (m : Move) (e : Effects) : Decidable (p.Captures m e) :=
  inferInstanceAs (Decidable (¬ (p.board.get m.dst).IsEmpty ∨ e.captured.isSome))

/-- The position after a move with its effects. Nothing is checked. -/
def play (p : Position) (m : Move) (e : Effects) : Position :=
  { board := boardAfter p.board m e (p.plies + 1)
    plies := p.plies + 1
    lastCapture := if p.Captures m e then p.plies + 1 else p.lastCapture }

@[simp] theorem plies_play (p : Position) (m : Move) (e : Effects) :
    (p.play m e).plies = p.plies + 1 := rfl

@[simp] theorem toMove_play (p : Position) (m : Move) (e : Effects) :
    (p.play m e).toMove = p.toMove.opponent := by
  unfold toMove
  rw [plies_play]
  by_cases h : p.plies % 2 = 0
  · rw [if_pos h, if_neg (by omega)]
    rfl
  · rw [if_neg h, if_pos (by omega)]
    rfl

end Position
end Arbiter
