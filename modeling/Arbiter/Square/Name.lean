import Arbiter.Square
import Arbiter.Text.LowerCase
import Arbiter.Text.Numeral

/-! # Names of squares

A square is named by the letter of its file and the number of its rank: a8 is the square in row 0
and column 0. Reading takes any two characters and counts from these, so most texts name places
beyond the edges.
-/

namespace Arbiter.Square

/-- Why a text names no square. -/
inductive NameError where
  /-- There is no character for the file, or none for the rank. -/
  | tooShort
  /-- The lower case of the first character is more than one character. -/
  | fileNotOneLetter
deriving Repr, DecidableEq

/-- The square named by the first two characters of a text. The file is counted from the letter a,
which is character 97, and the rank from the digit 0, which is character 48. -/
def ofName : List Char → Except NameError Square
  | [] => .error .tooShort
  | file :: rest =>
    match Text.lower? file, rest with
    | none, _ => .error .fileNotOneLetter
    | some _, [] => .error .tooShort
    | some letter, rank :: _ => .ok ⟨8 - ((rank.toNat : Int) - 48), (letter.toNat : Int) - 97⟩

/-- The column has a letter: its distance from the a-file leads to a character. The rank is short
enough to be written. -/
def HasName (s : Square) : Prop :=
  (0 ≤ s.col + 97 ∧ s.col + 97 < 0x110000) ∧ Numeral.Fits (8 - s.row)

instance (s : Square) : Decidable s.HasName :=
  inferInstanceAs (Decidable ((0 ≤ s.col + 97 ∧ s.col + 97 < 0x110000) ∧ Numeral.Fits (8 - s.row)))

/-- The letter of a column. -/
def fileLetter (s : Square) : Char :=
  Char.ofNat (s.col + 97).toNat

/-- The name of a square that has one. -/
def name (s : Square) : String :=
  String.singleton s.fileLetter ++ Numeral.ofInt (8 - s.row)

theorem hasName_of_onBoard {s : Square} (h : s.OnBoard) : s.HasName := by
  unfold OnBoard at h
  exact ⟨by omega, Numeral.fits_of_four_digits (by omega)⟩

end Arbiter.Square
