import Arbiter.Board
import Arbiter.Text.Fields
import Arbiter.Text.LowerCase
import Arbiter.Text.Numeral
import Arbiter.Text.Quoted

/-! # Piece placement

The text of a board: eight rows between slashes, from black's back rank to white's. A letter is a
piece, in upper case if it is white's, and a digit is a run of so many vacant squares. The text
tells nothing about past moves, so reading guesses how often a piece has moved.
-/

namespace Arbiter

/-- The piece for a letter. A character that is its own lower case is a black piece. -/
def Cell.ofLetter? (c : Char) : Option Cell := do
  let l ← Text.lower? c
  let kind ← Kind.ofLetter? l
  some { kind, owner := some (if l = c then .black else .white) }

/-- How often a piece found in a row is taken to have moved: never for a king and for a pawn on its
home row, otherwise once. -/
def Cell.presumedMoves (c : Cell) (row : Nat) : Int :=
  match c.kind with
  | .king => 0
  | .pawn => if c.owner.map Side.homeRow = some (row : Int) then 0 else 1
  | _ => 1

namespace Placement

/-- Why a text describes no board. Rows and columns are counted from 0. -/
inductive Error where
  | rowCount (rows : Nat) (text : String)
  | overflow (row : Nat) (text : String)
  | unknown (character : Char) (text : String)
  | short (row columns : Nat) (text : String)
deriving Repr, DecidableEq

namespace Error

def message : Error → String
  | rowCount rows text =>
    "Expected 8 rows separated by '/', got " ++ Numeral.ofNat rows ++ ": " ++ Text.quoted text
  | overflow row text => "Row " ++ Numeral.ofNat row ++ " overflows: " ++ Text.quoted text
  | unknown character text =>
    "Unknown character " ++ Text.quoted (String.singleton character) ++ " in row " ++
      Text.quoted text
  | short row columns text =>
    "Row " ++ Numeral.ofNat row ++ " covers " ++ Numeral.ofNat columns ++
      " columns instead of 8: " ++ Text.quoted text

end Error

/-- Reads the rest of a row, from the given column on. A run of vacant squares may end the row, but
a piece needs a square of its own. -/
def readCells (row : Nat) (text : String) : Nat → List Char → Except Error (List Cell)
  | col, [] => if col = 8 then .ok [] else .error (.short row col text)
  | col, c :: cs =>
    if c.isDigit then
      let run := c.toNat - 48
      if 8 < col + run then .error (.overflow row text)
      else (readCells row text (col + run) cs).map (List.replicate run .vacant ++ ·)
    else
      match Cell.ofLetter? c with
      | none => .error (.unknown c text)
      | some piece =>
        if 8 ≤ col then .error (.overflow row text)
        else (readCells row text (col + 1) cs).map
          ({ piece with moves := piece.presumedMoves row } :: ·)

/-- Reads the rows one after the other, up to the first faulty one. -/
def readRows : Nat → List (List Char) → Except Error (List (List Cell))
  | _, [] => .ok []
  | row, cs :: rest => do
    let cells ← readCells row (String.ofList cs) 0 cs
    let others ← readRows (row + 1) rest
    pure (cells :: others)

def ofRows (rows : List (List Cell)) : Board :=
  .ofFn fun s => (rows[s.row.toNat]?.bind (·[s.col.toNat]?)).getD .vacant

def read (text : String) : Except Error Board :=
  let rows := Text.fields '/' text.toList
  if rows.length = 8 then (readRows 0 rows).map ofRows
  else .error (.rowCount rows.length text)

/-- A run of vacant squares, written only if there are some. -/
def writeRun (run : Nat) : List Char :=
  if run = 0 then [] else Nat.toDigits 10 run

/-- Writes the rest of a row, after a run of vacant squares. -/
def writeCells : Nat → List Cell → List Char
  | run, [] => writeRun run
  | run, c :: cs =>
    match c.letter? with
    | none => writeCells (run + 1) cs
    | some l => writeRun run ++ l :: writeCells 0 cs

def row (b : Board) (i : Nat) : List Cell :=
  (List.range 8).map fun j => b.get ⟨i, (j : Nat)⟩

def write (b : Board) : String :=
  String.ofList (Text.joinFields '/' ((List.range 8).map fun i => writeCells 0 (row b i)))

/-- The placement from which every game starts. -/
def initial : String := "rnbqkbnr/pppppppp/8/8/8/8/PPPPPPPP/RNBQKBNR"

end Placement

/-- The board from which every game starts. Nothing has moved yet. -/
def Board.initial : Board :=
  match Placement.read Placement.initial with
  | .ok b => .ofFn fun s => { b.get s with moves := 0 }
  | .error _ => .bare

end Arbiter
