import Arbiter.Game.Turn
import Arbiter.Register
import Arbiter.Request

/-! # The desk

The desk answers requests about the games of a register. A game is restored from its record for
each request, and filed again if the request has changed it.
-/

namespace Arbiter.Desk

/-- Why a request is not granted. -/
inductive Error where
  | unknownGame (game : Identifier)
  | notYourTurn (waitingFor : Side)
  | record (cause : Game.RecordError)
  | descriptor (cause : Descriptor.Error)
  | game (cause : Game.Error)
  /-- The counters of the position are too long to be filed. -/
  | countTooLong
deriving Repr, DecidableEq

/-- The message for the faults that have one. -/
def Error.message? : Error → Option String
  | unknownGame i => some ("Game with game_id=UUID('" ++ i.text ++ "') not found.")
  | notYourTurn player =>
    some ("It is not your turn. Waiting for " ++ player.name ++ " to make a move first.")
  | record cause => cause.message?
  | descriptor cause => cause.message?
  | game cause => cause.message?
  | countTooLong => none

def report (i : Identifier) (g : Game) : GameReply where
  game := i
  descriptor := g.position.text
  toMove := g.toMove
  status := g.status
  inCheck := g.isCheck
  winner := g.winner

/-- The game under an identifier. -/
def fetch (r : Register) (i : Identifier) : Except Error Game :=
  match r.get? i with
  | none => .error (.unknownGame i)
  | some record => (Game.ofRecord record).mapError .record

/-- The game under an identifier, if it is the player's turn. -/
def fetchFor (r : Register) (i : Identifier) (player : Side) : Except Error Game := do
  let g ← fetch r i
  if g.toMove = player then return g else throw (.notYourTurn g.toMove)

/-- Files a game that has changed, and reports it. -/
def refile (r : Register) (i : Identifier) (g : Game) : Except Error GameReply × Register :=
  if g.position.Writable then (.ok (report i g), r.update i g.record)
  else (.error .countTooLong, r)

/-- The game that a request for a new one asks for. An empty descriptor asks for the initial
position, as none does. -/
def newGame (q : CreateRequest) : Except Error Game :=
  match q.descriptor with
  | none => .ok .initial
  | some text =>
    if text = "" then .ok .initial else (Game.ofDescriptor text).mapError .descriptor

def create (r : Register) (q : CreateRequest) : Except Error GameReply × Register :=
  match newGame q with
  | .error e => (.error e, r)
  | .ok g =>
    if g.position.Writable then
      let (i, r) := r.add g.record
      (.ok (report i g), r)
    else (.error .countTooLong, r)

def state (r : Register) (q : GameRequest) : Except Error GameReply := do
  let g ← fetch r q.game
  if g.position.Writable then return report q.game g else throw .countTooLong

def legalMoves (r : Register) (q : PlayerRequest) : Except Error MovesReply := do
  let g ← fetchFor r q.game q.player
  let moves ← g.legalMoves.mapError .game
  return { game := q.game, player := q.player, moves := moves.map Move.notationText }

/-- Makes a player's move. -/
def move (r : Register) (q : MoveRequest) : Except Error GameReply × Register :=
  match fetchFor r q.game q.player with
  | .error e => (.error e, r)
  | .ok g =>
    let reaction := g.playText q.move
    match reaction.result with
    | .error e => (.error (.game e), r)
    | .ok _ => refile r q.game reaction.game

/-- Takes the draw that is offered to a player. -/
def claim (r : Register) (q : PlayerRequest) : Except Error GameReply × Register :=
  match fetchFor r q.game q.player with
  | .error e => (.error e, r)
  | .ok g =>
    let reaction := g.claim
    match reaction.result with
    | .error e => (.error (.game e), r)
    | .ok _ => refile r q.game reaction.game

/-- Removes a game, if it is there. -/
def delete (r : Register) (q : GameRequest) : Register :=
  r.remove q.game

end Arbiter.Desk
