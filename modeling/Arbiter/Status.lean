import Arbiter.Rules.Legality

/-! # The outcome of a game -/

namespace Arbiter

/-- How a game stands. -/
inductive Status where
  | inProgress
  | drawOffered
  | checkmate
  | stalemate
  | drawByMoveClock
  | drawClaimed
deriving Repr, DecidableEq, Inhabited

namespace Status

def all : List Status :=
  [inProgress, drawOffered, checkmate, stalemate, drawByMoveClock, drawClaimed]

def name : Status → String
  | inProgress => "in progress"
  | drawOffered => "draw offered"
  | checkmate => "checkmate"
  | stalemate => "stalemate"
  | drawByMoveClock => "draw by move clock"
  | drawClaimed => "draw claimed"

def ofName? (s : String) : Option Status :=
  all.find? (·.name == s)

/-- The game has ended. The offer of a draw does not end it. -/
def isOver : Status → Bool
  | inProgress | drawOffered => false
  | _ => true

theorem ofName?_name (s : Status) : ofName? s.name = some s := by
  cases s <;> decide +kernel

end Status

namespace Position

/-- The plies without a capture after which a draw is offered. -/
def offerPlies : Int := 100

/-- The plies without a capture after which the game is drawn. -/
def drawPlies : Int := 150

/-- Checkmate or stalemate, if the player to move has no legal move. -/
def stuck? (p : Position) : Option Status :=
  if p.hasReply then none
  else if p.inCheck (some p.toMove) then some .checkmate
  else some .stalemate

/-- How the game stands after a move: the clock comes first. -/
def outcome (p : Position) : Status :=
  if drawPlies ≤ p.quietPlies then .drawByMoveClock
  else if offerPlies ≤ p.quietPlies then .drawOffered
  else p.stuck?.getD .inProgress

end Position
end Arbiter
