import Arbiter.Descriptor.Parser
import Arbiter.Position

/-! # From descriptors to positions and back

A position remembers castling and en passant rights through its cells. Setting one up marks the
rooks that have not moved and the pawn that moved last; describing one finds them again.
-/

namespace Arbiter.Descriptor

/-- The plies played before the player's move in a turn. -/
def plies (d : Descriptor) : Int :=
  2 * (d.turn - 1) + if d.toMove = some .white then 0 else 1

/-- Marks the rook of a right as never moved. -/
def readyRook (b : Board) (right : CastlingRight) : Except Error Board :=
  let rook := b.get right.rookHome
  if rook.kind = .rook ∧ rook.owner = some right.side then
    .ok (b.put right.rookHome { rook with moves := 0 })
  else .error (.noRook right)

/-- The first digit of the rank behind the landing square of a player's double step. -/
def passingRank : Side → Char
  | .white => '3'
  | .black => '6'

/-- Marks the pawn in front of the square to pass over as moved on the latest ply. -/
def readyPawn (d : Descriptor) (b : Board) : Except Error Board :=
  match d.passing with
  | none => .ok b
  | some s =>
    if ¬ s.HasName then .error .unnamedSquare
    else
      match d.toMove with
      | none => .error .nobodyToMove
      | some side =>
        if (Numeral.ofInt (8 - s.row)).toList.head? ≠ some (passingRank side.opponent) then
          .error (.passingRank s side)
        else
          let t := s.shift (Side.forward (some side.opponent)) 0
          let pawn := b.get t
          if ¬ t.OnBoard then .error .offBoard
          else if pawn.kind = .pawn ∧ pawn.owner = some side.opponent then
            .ok (b.put t { pawn with lastMove := d.plies })
          else .error (.noPawn s t)

/-- The position that a descriptor states. -/
def setup (d : Descriptor) : Except Error Position := do
  let b ← (Placement.read d.placement).mapError .placement
  let b ← d.castling.foldlM readyRook b
  let b ← d.readyPawn b
  return { board := b, plies := d.plies, lastCapture := d.plies - d.quietPlies }

/-- The position that a text states. -/
def position (text : String) : Except Error Position := do
  (← read text).setup

/-- The text states a position, or fails to. There is no answer for an overlong counter. -/
def isValid? (text : String) : Option Bool :=
  match position text with
  | .ok _ => some true
  | .error e => e.message?.map fun _ => false

/-- King and rook of a right stand at home and have not moved. -/
def HasRight (b : Board) (right : CastlingRight) : Prop :=
  let king := b.get right.kingHome
  let rook := b.get right.rookHome
  (king.kind = .king ∧ king.owner = some right.side ∧ king.moves = 0) ∧
    (rook.kind = .rook ∧ rook.owner = some right.side ∧ rook.moves = 0)

instance (b : Board) (right : CastlingRight) : Decidable (HasRight b right) := by
  unfold HasRight; infer_instance

/-- A pawn of the player who just moved stands here after its only move, a double step on the
latest ply. -/
def JustDoubled (p : Position) (s : Square) : Prop :=
  let side := p.toMove.opponent
  let c := p.board.get s
  c.kind = .pawn ∧ c.owner = some side ∧ s.row = side.homeRow + 2 * Side.forward (some side) ∧
    c.moves = 1 ∧ c.lastMove = p.plies

instance (p : Position) (s : Square) : Decidable (JustDoubled p s) := by
  unfold JustDoubled; infer_instance

/-- The square behind the first pawn that just made a double step. -/
def passingSquare (p : Position) : Option Square :=
  (Square.all.find? fun s => JustDoubled p s).map fun s =>
    s.shift (-Side.forward (some p.toMove.opponent)) 0

/-- The descriptor of a position. -/
def ofPosition (p : Position) : Descriptor where
  placement := Placement.write p.board
  toMove := some p.toMove
  castling := CastlingRight.all.filter fun right => HasRight p.board right
  passing := passingSquare p
  quietPlies := p.quietPlies
  turn := p.turn

end Arbiter.Descriptor
