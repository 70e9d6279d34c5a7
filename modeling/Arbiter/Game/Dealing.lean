import Arbiter.Game.Turn
import Arbiter.Rules.Guarded.Trial

/-! # Requests carried out on a game

What a player may ask of a game, with the rules asked on the game's own position. A request that is
refused, or that stops with a fault, hands on the game as it leaves it.
-/

namespace Arbiter.Game

open Position.Guarded (Trial)

/-- Work on a game: an answer, a refusal or a fault, with the game as it is left. -/
abbrev Dealing (α : Type) := ExceptT Error (ExceptT Fault (StateM Game)) α

namespace Dealing

/-- Works on the game's position. -/
def onPosition {α : Type} (t : Trial α) : Dealing α := fun g =>
  match t g.position with
  | (answer, p) => (answer.map .ok, { g with position := p })

/-- Refuses a move, once its notation is needed for the message. -/
def refuse {α : Type} (m : Move) (e : Error) : Dealing α :=
  if m.HasNotation then throw e else throw .unnamedMove

def mustGoOn : Dealing Unit := do
  let g ← get
  if g.status.isOver then throw (.finished g.status)

/-- The player to move makes a move. -/
def play (m : Move) : Dealing Status := do
  mustGoOn
  match ← onPosition (Trial.attempt m) with
  | .needsPromotion => refuse m (.promotionMissing m)
  | .illegal => refuse m (.illegal m)
  | .legal _ =>
    -- The number of the ply is written into the journal before the outcome is found.
    if Numeral.Fits (← get).position.plies then
      let status ← onPosition Trial.outcome
      modify fun g => { g with status }
      return status
    else throw .countTooLong

/-- The player to move makes a move that is given by its notation. -/
def playText (text : String) : Dealing Status := do
  mustGoOn
  match Move.ofNotation text with
  | .ok m => play m
  | .error e => throw (.badNotation e)

def legalMoves : Dealing (List Move) := do
  mustGoOn
  onPosition Trial.legalMoves

def isCheck : Dealing Bool := do
  onPosition (Trial.inCheck (some (← get).toMove))

end Dealing
end Arbiter.Game
