import Arbiter.CastlingRight
import Arbiter.Square.Name
import Arbiter.Text.Fields

/-! # Position descriptors

A descriptor states a position in six parts: the placement of the pieces, the player to move, the
castling rights, the square behind a pawn that may be taken in passing, and two counters.
-/

namespace Arbiter

/-- The parts of a descriptor. A descriptor read from a text names a player to move; one put
together by hand may leave it open. -/
structure Descriptor where
  placement : String
  toMove : Option Side
  castling : List CastlingRight := []
  passing : Option Square := none
  quietPlies : Int := 0
  turn : Int := 1
deriving Repr, DecidableEq, Inhabited

namespace Descriptor

def toMoveLetter (toMove : Option Side) : Char :=
  if toMove = some .white then 'w' else 'b'

/-- The parts of a descriptor, as they are written. -/
def parts (d : Descriptor) : List (List Char) :=
  [d.placement.toList, [toMoveLetter d.toMove], CastlingRight.write d.castling,
    d.passing.elim ['-'] fun s => s.name.toList, (Numeral.ofInt d.quietPlies).toList,
    (Numeral.ofInt d.turn).toList]

def write (d : Descriptor) : String :=
  String.ofList (Text.joinFields ' ' d.parts)

/-- The parts can be written: the square has a name, and the counters are not too long. -/
def Writable (d : Descriptor) : Prop :=
  (∀ s, d.passing = some s → s.HasName) ∧ Numeral.Fits d.quietPlies ∧ Numeral.Fits d.turn

instance (d : Descriptor) : Decidable d.Writable :=
  match h : d.passing with
  | none => decidable_of_iff (Numeral.Fits d.quietPlies ∧ Numeral.Fits d.turn)
      (by simp [Writable, h])
  | some s => decidable_of_iff (s.HasName ∧ Numeral.Fits d.quietPlies ∧ Numeral.Fits d.turn)
      (by simp [Writable, h])

/-- The text from which every game starts. -/
def initialText : String :=
  "rnbqkbnr/pppppppp/8/8/8/8/PPPPPPPP/RNBQKBNR w KQkq - 0 1"

end Descriptor
end Arbiter
