import Arbiter.Side

/-! # What stands on a square -/

namespace Arbiter

/-- The kinds of piece, and the absence of one. -/
inductive Kind where
  | empty
  | pawn
  | knight
  | bishop
  | rook
  | queen
  | king
deriving Repr, DecidableEq, Inhabited

namespace Kind

/-- The lower-case letter of a kind of piece. -/
def letter? : Kind → Option Char
  | empty => none
  | pawn => some 'p'
  | knight => some 'n'
  | bishop => some 'b'
  | rook => some 'r'
  | queen => some 'q'
  | king => some 'k'

/-- The kind of piece that a lower-case letter stands for. -/
def ofLetter? : Char → Option Kind
  | 'p' => some pawn
  | 'n' => some knight
  | 'b' => some bishop
  | 'r' => some rook
  | 'q' => some queen
  | 'k' => some king
  | _ => none

/-- What a pawn may become, in the order in which the choices are listed. -/
def promotions : List Kind := [knight, bishop, rook, queen]

theorem ofLetter?_eq_some_iff {c : Char} {k : Kind} :
    ofLetter? c = some k ↔ k.letter? = some c := by
  constructor
  · intro h
    unfold ofLetter? at h
    split at h <;> cases h <;> rfl
  · intro h
    cases k <;> cases h <;> rfl

end Kind

/-- The contents of a square. `moves` counts how often the piece moved, `lastMove` is the ply
count right after its latest move, or -1 if it has not moved since the position was set up. -/
structure Cell where
  kind : Kind
  owner : Option Side
  moves : Int := 0
  lastMove : Int := -1
deriving Repr, DecidableEq, Inhabited

namespace Cell

def vacant : Cell := { kind := .empty, owner := none }

def IsEmpty (c : Cell) : Prop := c.kind = .empty

instance (c : Cell) : Decidable c.IsEmpty := inferInstanceAs (Decidable (c.kind = .empty))

/-- The letter of the piece: upper case for white's. -/
def letter? (c : Cell) : Option Char :=
  c.kind.letter?.map fun l => if c.owner = some .white then l.toUpper else l

/-- The piece after one more move, made at the given ply. -/
def moved (c : Cell) (now : Int) : Cell :=
  { c with moves := c.moves + 1, lastMove := now }

@[simp] theorem isEmpty_vacant : vacant.IsEmpty := rfl

theorem occupied_of_kind {c : Cell} {k : Kind} (h : c.kind = k) (hk : k ≠ .empty) : ¬ c.IsEmpty :=
  fun hempty => hk (h.symm.trans hempty)

end Cell
end Arbiter
