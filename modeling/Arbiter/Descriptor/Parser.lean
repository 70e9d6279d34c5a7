import Arbiter.Descriptor.Basic
import Arbiter.Descriptor.Error

/-! # Reading descriptors

Reading checks the shape of every part. Whether the parts fit together is found out when the
position is set up.
-/

namespace Arbiter.Descriptor

def toMove? : List Char → Option Side
  | ['w'] => some .white
  | ['b'] => some .black
  | _ => none

/-- A file from a to h and a rank from 1 to 8. -/
def isSquareName : List Char → Bool
  | [file, rank] => decide ('a' ≤ file ∧ file ≤ 'h') && decide ('1' ≤ rank ∧ rank ≤ '8')
  | _ => false

/-- A dash, or a square on the third or the sixth rank. -/
def isPassingField (part : List Char) : Bool :=
  part == ['-'] || (isSquareName part && (part[1]? == some '3' || part[1]? == some '6'))

/-- Reads the part for the square to pass over, once its shape is known. -/
def readPassing (part : List Char) : Option Square :=
  if part = ['-'] then none else (Square.ofName part).toOption

/-- Reads the counter in a place, or takes the given number if there is none. -/
def readCounter (counters : List (List Char)) (place : Nat) (absent : Nat) : Except Error Nat :=
  match counters[place]? with
  | none => .ok absent
  | some part =>
    match Numeral.read? part with
    | some n => .ok n
    | none => .error .counterTooLong

/-- Reads the parts of a descriptor. -/
def ofParts (text : String) : List (List Char) → Except Error Descriptor
  | placement :: player :: rights :: square :: counters =>
    if 2 < counters.length then .error (.partCount text)
    else
      match toMove? player with
      | none => .error (.toMove (String.ofList player) text)
      | some toMove =>
        if ¬ CastlingRight.isField rights then .error (.castling (String.ofList rights) text)
        else if ¬ isPassingField square then .error (.passing (String.ofList square) text)
        else if ¬ counters.all Numeral.isNumeral then .error (.counters text)
        else do
          let quietPlies ← readCounter counters 0 0
          let turn ← readCounter counters 1 1
          if turn < 1 then .error (.turn text)
          else
            .ok { placement := String.ofList placement, toMove := some toMove
                  castling := CastlingRight.read rights, passing := readPassing square
                  quietPlies, turn }
  | _ => .error (.partCount text)

def read (text : String) : Except Error Descriptor :=
  ofParts text (Text.fields ' ' text.toList)

end Arbiter.Descriptor
