import Arbiter.Rules.Castling

/-! # Rules that refuse to look beyond the edges

The same rules asked step by step, for any squares and any owner. They stop with a fault where they
would look at a place off the board, or would need the home row of a pawn that nobody owns.
-/

namespace Arbiter

/-- Why a question about a position has no answer. -/
inductive Fault where
  /-- A place beyond the edges would have to be looked at. -/
  | offBoard
  /-- Nobody's pawns have no home row. -/
  | noHomeRow
  /-- There is no rule for an empty square. -/
  | noRule
deriving Repr, DecidableEq, Inhabited

namespace Position.Guarded

/-- What stands on a square of the board. -/
def look (p : Position) (s : Square) : Except Fault Cell :=
  if s.OnBoard then .ok (p.board.get s) else .error .offBoard

def homeRow (owner : Option Side) : Except Fault Int :=
  match owner with
  | some side => .ok side.homeRow
  | none => .error .noHomeRow

/-- Where an owner's pawns take in passing. -/
def passingRow (owner : Option Side) : Except Fault Int :=
  match owner with
  | some side => .ok side.passingRow
  | none => .error .noHomeRow

/-- Walks towards the target as long as the squares are empty, for a bounded number of steps. -/
def walk (p : Position) (target : Square) (dRow dCol : Int) : Nat → Square → Except Fault Bool
  | 0, _ => .error .offBoard
  | n + 1, s =>
    if s = target then .ok true
    else do
      if (← look p s).IsEmpty then walk p target dRow dCol n (s.shift dRow dCol) else .ok false

/-- Walks from the square next to the start. No line has more than eight squares, so the ninth step
has reached the target or left the board. -/
def clearPath (p : Position) (m : Move) : Except Fault Bool :=
  walk p m.dst m.dRow.sign m.dCol.sign 9 (m.src.shift m.dRow.sign m.dCol.sign)

/-- A sliding piece needs a clear path in one of its directions. -/
def slide (p : Position) (m : Move) (direction : Prop) [Decidable direction] :
    Except Fault Ruling :=
  if direction then do
    return .legalIf (← clearPath p m)
  else .ok .illegal

/-- The pawn's double step: from its home row onto an empty square. -/
def doubleStep (p : Position) (m : Move) (owner : Option Side) : Except Fault Bool :=
  if m.dRow = 2 * Side.forward owner then do
    if (← homeRow owner) = m.src.row then
      return (← look p m.dst).IsEmpty
    else return false
  else .ok false

/-- The pawn beside this one can be taken in passing. -/
def passes (p : Position) (m : Move) (owner : Option Side) : Except Fault Bool := do
  let victim ← look p (passedSquare m)
  if victim.kind = .pawn ∧ victim.owner = owner.map Side.opponent ∧ victim.moves = 1 ∧
      victim.lastMove = p.plies then
    return (← passingRow owner) = m.src.row
  else return false

def pawnRuling (p : Position) (m : Move) : Except Fault Ruling := do
  let owner := (← look p m.src).owner
  let ahead := m.src.shift (Side.forward owner) 0
  if ¬ ahead.OnBoard then return .illegal
  else if m.dCol = 0 then
    if (← look p ahead).IsEmpty then
      let double ← doubleStep p m owner
      if m.dst = ahead ∨ double then return p.pawnArrival m none
      else return .illegal
    else return .illegal
  else if m.dCol.natAbs = 1 ∧ m.dRow = Side.forward owner then
    if (← look p m.dst).IsEmpty then
      if ← passes p m owner then return p.pawnArrival m (some (passedSquare m))
      else return .illegal
    else return p.pawnArrival m none
  else return .illegal

def movementRuling (p : Position) (m : Move) : Kind → Except Fault Ruling
  | .empty => .error .noRule
  | .pawn => pawnRuling p m
  | .knight => .ok (knightRuling m)
  | .bishop => slide p m m.Diagonal
  | .rook => slide p m m.Straight
  | .queen => slide p m (m.Straight ∨ m.Diagonal)
  | .king => .ok (kingStepRuling m)

/-- The piece on a square may move onto the target. -/
def reaches (p : Position) (target : Square) (attacker : Option Side) (src : Square) :
    Except Fault Bool :=
  let m : Move := { src, dst := target, promotion := some .queen }
  if p.Admissible m attacker then do
    return (← movementRuling p m (p.board.get src).kind).isLegal
  else .ok false

/-- A square is attacked by the opponent of the given owner. -/
def attacked (p : Position) (s : Square) (owner : Option Side) : Except Fault Bool := do
  let _ ← look p s
  let attacker := owner.map Side.opponent
  let q := p.marked s owner
  (q.board.squaresOf attacker).anyM (reaches q s attacker)

/-- The king is attacked, or there is none. -/
def inCheck (p : Position) (owner : Option Side) : Except Fault Bool :=
  match p.board.king? owner with
  | none => .ok true
  | some s => attacked p s owner

def castlingRuling (p : Position) (m : Move) : Except Fault Ruling := do
  let king ← look p m.src
  if king.moves = 0 ∧ m.dRow = 0 ∧ m.dCol.natAbs = 2 then
    match p.firstAlongRow m.src m.dCol.sign with
    | none => return .illegal
    | some corner =>
      let rook := p.board.get corner
      if rook.kind = .rook ∧ rook.owner = king.owner ∧ rook.moves = 0 then
        if ← (kingPath m).anyM (attacked p · king.owner) then return .illegal
        else return .legal { castle := some { src := corner, dst := m.src.shift 0 m.dCol.sign } }
      else return .illegal
  else return .illegal

def kingRuling (p : Position) (m : Move) (castling : Bool) : Except Fault Ruling :=
  if m.KingStep then .ok (.legal {})
  else do
    let _ ← look p m.src
    if castling then castlingRuling p m else return .illegal

/-- The full rule for a kind of piece, whatever stands on the first square. -/
def kindRuling (p : Position) (m : Move) (castling : Bool) : Kind → Except Fault Ruling
  | .king => kingRuling p m castling
  | kind => movementRuling p m kind

/-- The rule for a move of the given player's piece. -/
def pieceRuling (p : Position) (m : Move) (player : Option Side) (castling : Bool) :
    Except Fault Ruling :=
  if p.Admissible m player then kindRuling p m castling (p.board.get m.src).kind
  else .ok .illegal

end Position.Guarded
end Arbiter
