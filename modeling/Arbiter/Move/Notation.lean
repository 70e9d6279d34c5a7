import Arbiter.Move
import Arbiter.Square.Name
import Arbiter.Text.Quoted

/-! # Move notation

A move is written as the names of its two squares, followed by the letter of the promotion if one
is chosen: e2e4, e7e8q. Castling is written as the king's move.
-/

namespace Arbiter.Move

/-- Why a text is no move. -/
inductive NotationError where
  /-- Fewer than four characters. -/
  | tooShort (text : String)
  /-- One of the squares cannot be read. -/
  | square (cause : Square.NameError)
  /-- What follows the squares is not the letter of a promotion. -/
  | promotion (letters text : String)
deriving Repr, DecidableEq

/-- The promotion that a text stands for, in either case. -/
def promotion? : List Char → Option Kind
  | [c] => do
    let kind ← Kind.ofLetter? (← Text.lower? c)
    if kind ∈ Kind.promotions then some kind else none
  | _ => none

/-- Reads the notation of a move. -/
def ofNotation (text : String) : Except NotationError Move :=
  match text.toList with
  | file₁ :: rank₁ :: file₂ :: rank₂ :: letters => do
    let src ← (Square.ofName [file₁, rank₁]).mapError .square
    let dst ← (Square.ofName [file₂, rank₂]).mapError .square
    match letters, promotion? letters with
    | [], _ => pure { src, dst }
    | _, some kind => pure { src, dst, promotion := some kind }
    | _, none => throw (.promotion (String.ofList letters) text)
  | _ => .error (.tooShort text)

/-- Both squares have a name. -/
def HasNotation (m : Move) : Prop := m.src.HasName ∧ m.dst.HasName

instance (m : Move) : Decidable m.HasNotation :=
  inferInstanceAs (Decidable (m.src.HasName ∧ m.dst.HasName))

/-- The letter of a promotion. The choice of no piece at all has the null character. -/
def promotionLetter (kind : Kind) : Char := kind.letter?.getD '\x00'

/-- The notation of a move whose squares have names. -/
def notationText (m : Move) : String :=
  m.src.name ++ m.dst.name ++
    String.ofList (m.promotion.elim [] fun kind => [promotionLetter kind])

namespace NotationError

/-- The message for the faults that have one; a square that cannot be read has none. -/
def message? : NotationError → Option String
  | tooShort text => some ("Move must have at least 4 characters: " ++ Text.quoted text)
  | square _ => none
  | promotion letters text =>
    some ("Cannot promote into " ++ Text.quoted letters ++ ": " ++ Text.quoted text)

end NotationError
end Arbiter.Move
