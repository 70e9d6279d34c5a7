import Arbiter.Board.Placement
import Arbiter.CastlingRight
import Arbiter.Square.Name

/-! # Faults of descriptors -/

namespace Arbiter.Descriptor

/-- Why a text or a descriptor states no position. -/
inductive Error where
  /-- Not four to six parts. -/
  | partCount (text : String)
  | toMove (part text : String)
  | castling (part text : String)
  | passing (part text : String)
  /-- A counter is no numeral. -/
  | counters (text : String)
  /-- A counter has too many digits to be read. -/
  | counterTooLong
  /-- The number of the turn is not positive. -/
  | turn (text : String)
  | placement (cause : Placement.Error)
  /-- The corner of a castling right holds no rook of the player. -/
  | noRook (right : CastlingRight)
  /-- The square to pass over lies on the wrong rank for the player to move. -/
  | passingRank (square : Square) (player : Side)
  /-- No pawn stands in front of the square to pass over. -/
  | noPawn (square pawn : Square)
  /-- The square to pass over has no name. -/
  | unnamedSquare
  /-- There is a square to pass over, but nobody to move. -/
  | nobodyToMove
  /-- The pawn would have to stand off the board. -/
  | offBoard
deriving Repr, DecidableEq

namespace Error

/-- The message for the faults that have one: all but an overlong counter, and what only a
descriptor put together by hand can suffer from. -/
def message? : Error → Option String
  | partCount text =>
    some ("FEN string must contain 4 to 6 space-separated parts: " ++ Text.quoted text)
  | toMove part text =>
    some ("Invalid active color " ++ Text.quoted part ++ " in " ++ Text.quoted text)
  | castling part text =>
    some ("Invalid castling rights " ++ Text.quoted part ++ " in " ++ Text.quoted text)
  | passing part text =>
    some ("Invalid en passant square " ++ Text.quoted part ++ " in " ++ Text.quoted text)
  | counters text => some ("Move counters must be numbers: " ++ Text.quoted text)
  | turn text => some ("Number of turns starts counting at 1: " ++ Text.quoted text)
  | placement cause => some cause.message
  | noRook right =>
    some ("Castling right " ++ Text.quoted (String.singleton right.letter) ++
      " needs a rook on " ++ right.rookHome.name)
  | passingRank square player =>
    some (square.name ++ " cannot be an en passant square when " ++ player.name ++ " is to move")
  | noPawn square pawn =>
    some ("En passant square " ++ square.name ++ " needs a pawn on " ++ pawn.name)
  | counterTooLong | unnamedSquare | nobodyToMove | offBoard => none

end Error
end Arbiter.Descriptor
