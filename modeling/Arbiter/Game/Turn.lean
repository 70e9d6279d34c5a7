import Arbiter.Game.Basic
import Arbiter.Move.Notation

/-! # Taking turns

What a player may ask of a game: to make a move, to claim a draw, to list the legal moves. A request
that is refused leaves the game as it was, but for a move with a ply number that is too long to be
written: this comes out only after the move has been made, and the status is not found anew.
-/

namespace Arbiter.Game

/-- Why a request to a game is refused. -/
inductive Error where
  | finished (status : Status)
  | noDraw (status : Status)
  | badNotation (cause : Move.NotationError)
  | promotionMissing (move : Move)
  | illegal (move : Move)
  /-- The move has no notation. -/
  | unnamedMove
  /-- The number of plies is too long to be written. -/
  | countTooLong
deriving Repr, DecidableEq

/-- The message for the faults that have one. -/
def Error.message? : Error → Option String
  | finished status => some ("Game is over. status: " ++ status.name)
  | noDraw status => some ("There is no draw to claim. status: " ++ status.name)
  | badNotation cause => cause.message?
  | promotionMissing move =>
    some ("Pawn reaches the final rank, pick a piece to promote into: " ++ move.notationText)
  | illegal move => some ("Move not allowed: " ++ move.notationText)
  | unnamedMove | countTooLong => none

/-- How important an entry of the journal is. -/
inductive Level where
  | debug
  | info
deriving Repr, DecidableEq, Inhabited

/-- An entry of the journal that is kept of a game. -/
structure Entry where
  level : Level
  text : String
deriving Repr, DecidableEq, Inhabited

/-- What a request led to. -/
structure Reaction (α : Type) where
  game : Game
  result : Except Error α
  journal : List Entry := []

/-- The entries for a move that was made. -/
def moveEntries (side : Side) (m : Move) (p : Position) (status : Status) : List Entry :=
  let played : Entry :=
    ⟨.info, side.name ++ " played " ++ m.notationText ++ " (ply " ++ Numeral.ofInt p.plies ++ ")"⟩
  if status = .inProgress then [played]
  else [played, ⟨.info, "Game status after " ++ m.notationText ++ ": " ++ status.name⟩]

/-- The reaction to a move that cannot be made, once its notation is needed for the message. -/
def refuse (g : Game) (m : Move) (e : Error) (journal : List Entry) : Reaction Status :=
  if m.HasNotation then { game := g, result := .error e, journal }
  else { game := g, result := .error .unnamedMove }

/-- The player to move makes a move. -/
def play (g : Game) (m : Move) : Reaction Status :=
  if g.status.isOver then { game := g, result := .error (.finished g.status) }
  else
    match g.position.attempt m with
    | (.needsPromotion, _) => g.refuse m (.promotionMissing m) []
    | (.illegal, _) =>
      g.refuse m (.illegal m)
        [⟨.debug, "Rejected " ++ g.toMove.name ++ " move " ++ m.notationText⟩]
    | (.legal _, p) =>
      if Numeral.Fits p.plies then
        { game := { position := p, status := p.outcome }
          result := .ok p.outcome
          journal := moveEntries g.toMove m p p.outcome }
      else { game := { g with position := p }, result := .error .countTooLong }

/-- The player to move makes a move that is given by its notation. -/
def playText (g : Game) (text : String) : Reaction Status :=
  if g.status.isOver then { game := g, result := .error (.finished g.status) }
  else
    match Move.ofNotation text with
    | .ok m => g.play m
    | .error e => { game := g, result := .error (.badNotation e) }

/-- The player to move takes the draw that the clock offers. -/
def claim (g : Game) : Reaction Unit :=
  if g.status = .drawOffered then
    { game := { g with status := .drawClaimed }
      result := .ok ()
      journal := [⟨.info, g.toMove.name ++ " claimed the draw"⟩] }
  else { game := g, result := .error (.noDraw g.status) }

/-- The legal moves of a game that goes on. -/
def legalMoves (g : Game) : Except Error (List Move) :=
  if g.status.isOver then .error (.finished g.status) else .ok g.position.legalMoves

end Arbiter.Game
