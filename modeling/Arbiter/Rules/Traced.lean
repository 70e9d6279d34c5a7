import Arbiter.Rules.Castling
import Arbiter.Rules.Guarded

/-! # Rules that leave a trace

The rules asked square by square once more, with nothing to hold them back. A line is walked until
something ends the walk, and rules ask each other for as long as they need, so it has to be proved
that they come to an end: `none` stands for work that goes on forever. A square beyond the edges is
looked up where its coordinates lead, which may be the opposite edge. Every square that is looked at
or changed is written down, and every move that is tried out.
-/

namespace Arbiter.Position.Traced

/-- The position that is worked on, and what has been done so far. -/
structure Trace where
  position : Position
  /-- The squares that were looked at or changed, the latest first. -/
  touched : List Square := []
  /-- The moves that were tried out, in order. -/
  tried : List Move := []

/-- Work on a position: an answer or a fault with the trace that it leaves, if it ends at all. -/
abbrev Work (α : Type) := ExceptT Fault (StateT Trace Option) α

def current : Work Position := return (← get).position

def update (f : Position → Position) : Work Unit :=
  modify fun w => { w with position := f w.position }

/-- Takes note of a move that is about to be tried out. -/
def note (m : Move) : Work Unit := modify fun w => { w with tried := w.tried ++ [m] }

/-- The row or column that a number leads to. Numbers below zero count from the far edge. -/
def reached? (i : Int) : Option Int :=
  if 0 ≤ i ∧ i < 8 then some i
  else if -8 ≤ i ∧ i < 0 then some (i + 8)
  else none

/-- Takes note of a square and finds the place that its coordinates lead to. -/
def touch (s : Square) : Work Square := do
  modify fun w => { w with touched := s :: w.touched }
  match reached? s.row, reached? s.col with
  | some row, some col => return { row, col }
  | _, _ => throw .offBoard

/-- What stands on a square. -/
def look (s : Square) : Work Cell := do
  let place ← touch s
  return (← current).board.get place

/-- Replaces what stands on a square, in view of what stood there. -/
def alter (s : Square) (f : Cell → Cell) : Work Unit := do
  let place ← touch s
  update fun p => { p with board := p.board.put place (f (p.board.get place)) }

def put (s : Square) (c : Cell) : Work Unit := alter s fun _ => c

end Arbiter.Position.Traced

namespace Arbiter.Square

open Position.Traced

/-- Walks towards the target for as long as the squares are empty. -/
def walk (s target : Square) (dRow dCol : Int) : Work Bool := do
  if s = target then return true
  else if (← look s).IsEmpty then s.shift dRow dCol |>.walk target dRow dCol
  else return false
partial_fixpoint

/-- The first square from here on along the row that is occupied or off the board. -/
def scan (s : Square) (step : Int) : Work Square := do
  if s.OnBoard then
    if (← look s).IsEmpty then s.shift 0 step |>.scan step else return s
  else return s
partial_fixpoint

end Arbiter.Square

namespace Arbiter.Position.Traced

/-- Nothing stands between the ends of the move. -/
def clearPath (m : Move) : Work Bool :=
  (m.src.shift m.dRow.sign m.dCol.sign).walk m.dst m.dRow.sign m.dCol.sign

def slide (m : Move) (direction : Prop) [Decidable direction] : Work Ruling := do
  if direction then return .legalIf (← clearPath m) else return .illegal

def doubleStep (m : Move) (owner : Option Side) : Work Bool := do
  if m.dRow = 2 * Side.forward owner then
    if (← Guarded.homeRow owner) = m.src.row then return (← look m.dst).IsEmpty else return false
  else return false

def passes (m : Move) (owner : Option Side) : Work Bool := do
  let victim ← look (passedSquare m)
  if victim.kind = .pawn ∧ victim.owner = owner.map Side.opponent ∧ victim.moves = 1 ∧
      victim.lastMove = (← current).plies then
    return (← Guarded.passingRow owner) = m.src.row
  else return false

def pawnRuling (m : Move) : Work Ruling := do
  let owner := (← look m.src).owner
  let ahead := m.src.shift (Side.forward owner) 0
  if ¬ ahead.OnBoard then return .illegal
  else if m.dCol = 0 then
    if (← look ahead).IsEmpty then
      let double ← doubleStep m owner
      if m.dst = ahead ∨ double then return arrivalRuling m owner none
      else return .illegal
    else return .illegal
  else if m.dCol.natAbs = 1 ∧ m.dRow = Side.forward owner then
    if (← look m.dst).IsEmpty then
      if ← passes m owner then return arrivalRuling m owner (some (passedSquare m))
      else return .illegal
    else return arrivalRuling m owner none
  else return .illegal

def movementRuling (m : Move) : Kind → Work Ruling
  | .empty => throw .noRule
  | .pawn => pawnRuling m
  | .knight => return knightRuling m
  | .bishop => slide m m.Diagonal
  | .rook => slide m m.Straight
  | .queen => slide m (m.Straight ∨ m.Diagonal)
  | .king => return kingStepRuling m

/-- Puts a pawn of the given owner on a square where nothing stands. -/
def mark (s : Square) (owner : Option Side) (original : Cell) : Work Unit :=
  if original.IsEmpty then put s { kind := .pawn, owner } else pure ()

end Arbiter.Position.Traced

namespace Arbiter

open Position.Traced

mutual

/-- The rule for a move of the given player's piece. -/
def Move.pieceRuling (m : Move) (player : Option Side) (castling : Bool) : Work Ruling := do
  if ¬ (m.src.OnBoard ∧ m.dst.OnBoard) then return .illegal
  else
    let piece ← look m.src
    if piece.IsEmpty ∨ piece.owner ≠ player then return .illegal
    else
      let target ← look m.dst
      if ¬ target.IsEmpty ∧ target.owner = piece.owner then return .illegal
      else m |>.kindRuling castling piece.kind
partial_fixpoint

/-- The full rule for a kind of piece, whatever stands on the first square. -/
def Move.kindRuling (m : Move) (castling : Bool) (kind : Kind) : Work Ruling :=
  match kind with
  | .king => m |>.kingRuling castling
  | kind => movementRuling m kind
partial_fixpoint

def Move.kingRuling (m : Move) (castling : Bool) : Work Ruling := do
  if m.KingStep then return .legal {}
  else
    let king ← look m.src
    if castling ∧ king.moves = 0 ∧ m.dRow = 0 ∧ m.dCol.natAbs = 2 then
      let corner ← (m.src.shift 0 m.dCol.sign).scan m.dCol.sign
      if ¬ corner.OnBoard then return .illegal
      else
        let rook ← look corner
        if rook.kind = .rook ∧ rook.owner = king.owner ∧ rook.moves = 0 then
          if ← (Position.kingPath m).anyM fun s => s |>.attacked king.owner then return .illegal
          else return .legal { castle := some { src := corner, dst := m.src.shift 0 m.dCol.sign } }
        else return .illegal
    else return .illegal
partial_fixpoint

/-- Asks the pieces on some squares in turn, until one may move onto the target. -/
def Square.askInTurn (target : Square) (attacker : Option Side) (squares : List Square) :
    Work Bool :=
  squares.anyM fun src => do
    let m : Move := { src, dst := target, promotion := some .queen }
    return (← m |>.pieceRuling attacker false).isLegal
partial_fixpoint

/-- A square is attacked by the opponent of the given owner. A vacant one holds a pawn while the
question is asked. -/
def Square.attacked (s : Square) (owner : Option Side) : Work Bool := do
  let original ← look s
  mark s owner original
  let attacker := owner.map Side.opponent
  let squares := (← current).board.squaresOf attacker
  -- What stood there is put back in any case, also after a fault.
  fun w => do
    let (answer, w) ← s |>.askInTurn attacker squares w
    let (_, w) ← put s original w
    return (answer, w)
partial_fixpoint

end

end Arbiter

namespace Arbiter.Position.Traced

def inCheck (owner : Option Side) : Work Bool := do
  match (← current).board.king? owner with
  | none => return true
  | some s => s.attacked owner

/-- Takes a piece up, and puts it down as moved at the current ply. -/
def relocate (src dst : Square) : Work Unit := do
  let piece ← look src
  put src .vacant
  put dst (piece.moved (← current).plies)

def promote (s : Square) (kind : Kind) : Work Unit := alter s fun c => { c with kind }

/-- Makes a move with its effects. -/
def execute (m : Move) (e : Effects) : Work Unit := do
  let target ← look m.dst
  e.captured.elim (pure ()) fun s => put s .vacant
  update fun p => { p with plies := p.plies + 1 }
  relocate m.src m.dst
  e.promotion.elim (pure ()) (promote m.dst)
  e.castle.elim (pure ()) fun rook => relocate rook.src rook.dst
  update fun p =>
    { p with lastCapture :=
        if ¬ target.IsEmpty ∨ e.captured.isSome then p.plies else p.lastCapture }

end Arbiter.Position.Traced

namespace Arbiter.Move

open Position.Traced

mutual

/-- Makes a move of the player to move, if it is legal. A promotion is asked for only if becoming a
queen would be legal. -/
def attempt (m : Move) : Work Ruling := do
  note m
  let side := (← current).toMove
  match ← m.pieceRuling (some side) true with
  | .illegal => return .illegal
  | .needsPromotion =>
    if (← m.promoting .queen |>.ruling).isLegal then return .needsPromotion else return .illegal
  | .legal e =>
    let backup ← current
    execute m e
    if ← inCheck (some side) then
      update fun _ => backup
      return .illegal
    else return .legal e
partial_fixpoint

/-- The ruling on a move of the player to move, found on a copy. -/
def ruling (m : Move) : Work Ruling := do
  if (← m.pieceRuling (some (← current).toMove) true) = .illegal then return .illegal
  else
    fun w => do
      let (answer, after) ← m |>.attempt w
      return (answer, { after with position := w.position })
partial_fixpoint

end

end Arbiter.Move
