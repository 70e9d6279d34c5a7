import Arbiter.Cell
import Arbiter.Square

/-! # Castling rights

A right belongs to a player and to one wing of the board. It stands for a king and a rook that have
not left their home squares.
-/

namespace Arbiter

/-- The half of the board towards which a king castles. -/
inductive Wing where
  | kingSide
  | queenSide
deriving Repr, DecidableEq, Inhabited

/-- The right of a player to castle on a wing. -/
structure CastlingRight where
  side : Side
  wing : Wing
deriving Repr, DecidableEq, Inhabited

namespace CastlingRight

/-- The rights in the order in which they are listed. -/
def all : List CastlingRight :=
  [⟨.white, .kingSide⟩, ⟨.white, .queenSide⟩, ⟨.black, .kingSide⟩, ⟨.black, .queenSide⟩]

@[simp] theorem mem_all (r : CastlingRight) : r ∈ all := by
  rcases r with ⟨_ | _, _ | _⟩ <;> decide

/-- The letter of a right: upper case for white's. -/
def letter : CastlingRight → Char
  | ⟨.white, .kingSide⟩ => 'K'
  | ⟨.white, .queenSide⟩ => 'Q'
  | ⟨.black, .kingSide⟩ => 'k'
  | ⟨.black, .queenSide⟩ => 'q'

/-- The row on which the player's king and rooks start. -/
def backRow (r : CastlingRight) : Int :=
  match r.side with
  | .white => 7
  | .black => 0

def kingHome (r : CastlingRight) : Square := ⟨r.backRow, 4⟩

theorem kingHome_onBoard (r : CastlingRight) : r.kingHome.OnBoard := by
  rcases r with ⟨_ | _, _ | _⟩ <;> decide

def kingTarget (r : CastlingRight) : Square :=
  match r.wing with
  | .kingSide => ⟨r.backRow, 6⟩
  | .queenSide => ⟨r.backRow, 2⟩

def rookHome (r : CastlingRight) : Square :=
  match r.wing with
  | .kingSide => ⟨r.backRow, 7⟩
  | .queenSide => ⟨r.backRow, 0⟩

def rookTarget (r : CastlingRight) : Square :=
  match r.wing with
  | .kingSide => ⟨r.backRow, 5⟩
  | .queenSide => ⟨r.backRow, 3⟩

/-- The rights whose letters occur in a text. -/
def read (text : List Char) : List CastlingRight :=
  all.filter fun r => r.letter ∈ text

theorem mem_read {r : CastlingRight} {text : List Char} : r ∈ read text ↔ r.letter ∈ text := by
  simp [read]

/-- The letters of the rights, each once and in the fixed order, or a dash if there are none. -/
def write (rights : List CastlingRight) : List Char :=
  match (all.filter (· ∈ rights)).map letter with
  | [] => ['-']
  | letters => letters

/-- A dash, or letters of rights, at least one and none twice. -/
def isField (text : List Char) : Bool :=
  text == ['-'] ||
    (!text.isEmpty && text.all (fun c => all.any (·.letter == c)) && decide text.Nodup)

end CastlingRight
end Arbiter
