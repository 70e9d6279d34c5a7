import Arbiter.Rules.Guarded

/-! # Moves carried out square by square

A move with its effects, whatever its squares are. A square off the board stops the move, and what
was done before is not taken back. A move on the board comes to the same as `Position.play`.
-/

namespace Arbiter.Position.Guarded

/-- Where a move stopped: the fault, and the position as it was left. -/
structure Halt where
  fault : Fault
  position : Position
deriving DecidableEq

def inspect (p : Position) (s : Square) : Except Halt Cell :=
  (look p s).mapError fun fault => { fault, position := p }

/-- The position with another cell on a square. -/
def put (p : Position) (s : Square) (c : Cell) : Except Halt Position :=
  if s.OnBoard then .ok { p with board := p.board.put s c }
  else .error { fault := .offBoard, position := p }

/-- Takes a piece up, and puts it down as moved at the current ply. -/
def relocate (p : Position) (src dst : Square) : Except Halt Position := do
  let piece ← inspect p src
  let p ← put p src .vacant
  put p dst (piece.moved p.plies)

def promote (p : Position) (s : Square) (kind : Kind) : Except Halt Position := do
  put p s { ← inspect p s with kind }

/-- Makes a move with its effects. The target is looked at, the pawn taken in passing is removed,
the ply is counted, the piece is relocated and promoted, the castling rook follows, and a capture is
noted. -/
def play (p : Position) (m : Move) (e : Effects) : Except Halt Position := do
  let target ← inspect p m.dst
  let p ← e.captured.elim (.ok p) fun s => put p s .vacant
  let p ← relocate { p with plies := p.plies + 1 } m.src m.dst
  let p ← e.promotion.elim (.ok p) (promote p m.dst)
  let p ← e.castle.elim (.ok p) fun rook => relocate p rook.src rook.dst
  return { p with
    lastCapture := if ¬ target.IsEmpty ∨ e.captured.isSome then p.plies else p.lastCapture }

/-- The squares that a move with its effects touches. -/
def touched (m : Move) (e : Effects) : List Square :=
  [m.src, m.dst] ++ e.captured.toList ++ e.castle.elim [] fun rook => [rook.src, rook.dst]

theorem inspect_of_onBoard (p : Position) {s : Square} (h : s.OnBoard) :
    inspect p s = .ok (p.board.get s) := by
  rw [inspect, look, if_pos h]
  rfl

theorem put_of_onBoard (p : Position) {s : Square} (h : s.OnBoard) (c : Cell) :
    put p s c = .ok { p with board := p.board.put s c } := by
  simp [put, h]

theorem relocate_of_onBoard (p : Position) {src dst : Square} (hs : src.OnBoard)
    (hd : dst.OnBoard) :
    relocate p src dst = .ok { p with board := p.board.relocate src dst p.plies } := by
  simp [relocate, inspect_of_onBoard, put_of_onBoard, hs, hd, bind, Except.bind, Board.relocate]

theorem promote_of_onBoard (p : Position) {s : Square} (h : s.OnBoard) (kind : Kind) :
    promote p s kind = .ok { p with board := p.board.promote s kind } := by
  simp [promote, inspect_of_onBoard, put_of_onBoard, h, bind, Except.bind, Board.promote]

theorem play_of_onBoard (p : Position) {m : Move} {e : Effects}
    (h : ∀ s ∈ touched m e, s.OnBoard) : play p m e = .ok (p.play m e) := by
  obtain ⟨captured, castle, promotion⟩ := e
  cases captured <;> cases castle <;> cases promotion <;>
    simp_all [touched, play, inspect_of_onBoard, put_of_onBoard, relocate_of_onBoard,
      promote_of_onBoard, Position.play, boardAfter, Captures, bind, Except.bind, pure, Except.pure]

end Arbiter.Position.Guarded
