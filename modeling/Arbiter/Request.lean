import Arbiter.Descriptor.Setup
import Arbiter.Form
import Arbiter.Text.Alphabetic
import Arbiter.Text.Numeric

/-! # Requests and replies

The forms by which players create games and take part in them, and the forms of the answers.
-/

namespace Arbiter

/-- Why a form is refused at once. -/
inductive Refusal where
  | descriptor (text : String)
  | moveLength (text : String)
  | moveSquares (text : String)
deriving Repr, DecidableEq, Inhabited

/-- The message for a refusal. -/
def Refusal.message : Refusal → String
  | descriptor text => "Invalid FEN string: " ++ Text.quoted text
  | moveLength text =>
    "Cannot interpret move: " ++ Text.quoted text ++ ". Expected 4 or 5 characters."
  | moveSquares text => "Cannot interpret move: " ++ Text.quoted text ++ " as two square names."

/-- The fields of a form, and what reading it comes to. -/
abbrev Fields := List (String × Form.Value)

/-- Asks for a new game, from a descriptor or from the initial position. -/
structure CreateRequest where
  descriptor : Option String
deriving Repr, DecidableEq, Inhabited

/-- Asks about a game. -/
structure GameRequest where
  game : Identifier
deriving Repr, DecidableEq, Inhabited

/-- A player asks something of a game. -/
structure PlayerRequest where
  game : Identifier
  player : Side
deriving Repr, DecidableEq, Inhabited

/-- A player makes a move. -/
structure MoveRequest where
  game : Identifier
  player : Side
  move : String
deriving Repr, DecidableEq, Inhabited

/-- The state of a game. -/
structure GameReply where
  game : Identifier
  descriptor : String
  toMove : Side
  status : Status
  inCheck : Bool
  winner : Option Side
deriving Repr, DecidableEq, Inhabited

/-- The legal moves of a player. -/
structure MovesReply where
  game : Identifier
  player : Side
  moves : List String
deriving Repr, DecidableEq, Inhabited

namespace Form

/-- The identifier of the game. -/
def gameField (fields : Fields) : Reading Refusal Identifier :=
  field fields "game_id" Value.asIdentifier

/-- The player. -/
def playerField (fields : Fields) : Reading Refusal Side :=
  field fields "color" (Value.asChoice Side.ofName?)

end Form

open Form

/-- Refuses a text that states no position. -/
def CreateRequest.examine : Option String → Reading Refusal (Option String)
  | none => .ok none
  | some text =>
    match Descriptor.isValid? text with
    | some true => .ok (some text)
    | some false => .refused (.descriptor text)
    | none => .faults [⟨["starting_fen"], .unreadable⟩]

/-- Reads a request for a new game. -/
def CreateRequest.read (fields : Fields) : Reading Refusal CreateRequest :=
  ((optionalField fields "starting_fen" Value.asText).check CreateRequest.examine).map
    CreateRequest.mk

/-- Reads a request about a game. -/
def GameRequest.read (fields : Fields) : Reading Refusal GameRequest :=
  (gameField fields).map GameRequest.mk

/-- Reads a player's request. -/
def PlayerRequest.read (fields : Fields) : Reading Refusal PlayerRequest :=
  .both PlayerRequest.mk (gameField fields) (playerField fields)

/-- A letter and a number, of any script. -/
def MoveRequest.looksLikeSquare (file rank : Char) : Bool :=
  Text.isAlphabetic file && Text.isNumeric rank

/-- Refuses a text that does not look like two squares and at most one letter more. -/
def MoveRequest.examine (text : String) : Reading Refusal String :=
  match text.toList with
  | file₁ :: rank₁ :: file₂ :: rank₂ :: letters =>
    if 1 < letters.length then .refused (.moveLength text)
    else if looksLikeSquare file₁ rank₁ && looksLikeSquare file₂ rank₂ then .ok text
    else .refused (.moveSquares text)
  | _ => .refused (.moveLength text)

/-- Reads a player's move. -/
def MoveRequest.read (fields : Fields) : Reading Refusal MoveRequest :=
  .both (fun (game, player) move => ⟨game, player, move⟩)
    (.both Prod.mk (gameField fields) (playerField fields))
    ((field fields "move" Value.asText).check MoveRequest.examine)

/-- Reads the state of a game. -/
def GameReply.read (fields : Fields) : Reading Refusal GameReply :=
  let side := Value.asChoice Side.ofName?
  .both (fun (game, descriptor, toMove) (status, inCheck, winner) =>
      ⟨game, descriptor, toMove, status, inCheck, winner⟩)
    (.both Prod.mk (gameField fields)
      (.both Prod.mk (field fields "fen_state" Value.asText) (field fields "color_to_move" side)))
    (.both Prod.mk (field fields "status" (Value.asChoice Status.ofName?))
      (.both Prod.mk (field fields "in_check" Value.asFlag) (optionalField fields "winner" side)))

/-- Reads the legal moves of a player. -/
def MovesReply.read (fields : Fields) : Reading Refusal MovesReply :=
  .both (fun (game, player) moves => ⟨game, player, moves⟩)
    (.both Prod.mk (gameField fields) (playerField fields))
    (listField fields "legal_moves" Value.asText)

end Arbiter
