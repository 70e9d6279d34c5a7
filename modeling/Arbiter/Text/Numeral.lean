/-! # Decimal numerals

Numbers of any size are written and read in decimal, up to a fixed number of digits.
-/

namespace Arbiter.Numeral

/-- The longest numeral that is read or written, in digits. -/
def maxDigits : Nat := 4300

/-- A non-empty run of ASCII digits. -/
def isNumeral (cs : List Char) : Bool :=
  !cs.isEmpty && cs.all Char.isDigit

/-- The number that a run of digits stands for. -/
def value (cs : List Char) : Nat :=
  Nat.ofDigitChars 10 cs 0

/-- Reads a run of digits, leading zeros included in its length, unless it is too long. -/
def read? (cs : List Char) : Option Nat :=
  if cs.length ≤ maxDigits then some (value cs) else none

/-- A number in decimal, without leading zeros. -/
def ofNat (n : Nat) : String :=
  String.ofList (Nat.toDigits 10 n)

def ofInt (n : Int) : String :=
  if n < 0 then "-" ++ ofNat n.natAbs else ofNat n.natAbs

/-- The least number too long to be written. -/
def limit : Nat := Nat.pow 10 maxDigits

/-- The integer is short enough to be written. -/
def Fits (n : Int) : Prop := n.natAbs < limit

instance (n : Int) : Decidable (Fits n) := inferInstanceAs (Decidable (n.natAbs < limit))

private theorem lt_pow_iff_length {n k : Nat} (hk : 0 < k) :
    n < Nat.pow 10 k ↔ (Nat.toDigits 10 n).length ≤ k :=
  (Nat.length_toDigits_le_iff (by decide) hk).symm

theorem fits_iff_length {n : Int} : Fits n ↔ (Nat.toDigits 10 n.natAbs).length ≤ maxDigits := by
  unfold Fits limit
  exact lt_pow_iff_length (by decide)

theorem fits_of_four_digits {n : Int} (h : n.natAbs < 10000) : Fits n :=
  have hlength : (Nat.toDigits 10 n.natAbs).length ≤ 4 := (lt_pow_iff_length (by decide)).mp h
  fits_iff_length.mpr (Nat.le_trans hlength (by decide))

theorem value_toDigits (n : Nat) : value (Nat.toDigits 10 n) = n :=
  Nat.ofDigitChars_ten_toDigits

theorem isNumeral_toDigits (n : Nat) : isNumeral (Nat.toDigits 10 n) = true := by
  have hd : (Nat.toDigits 10 n).all Char.isDigit = true := by
    rw [List.all_eq_true]
    exact fun c hc => Nat.isDigit_of_mem_toDigits (by decide) (by decide) hc
  have hne : Nat.toDigits 10 n ≠ [] := Nat.toDigits_ne_nil
  simp [isNumeral, hd, hne]

end Arbiter.Numeral
