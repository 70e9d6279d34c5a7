import Arbiter.Text.Fields
import Arbiter.Text.Quoted

/-! # Identifiers of games

An identifier is a number, written in 32 hexadecimal digits in groups of 8, 4, 4, 4 and 12.
-/

namespace Arbiter

/-- The number that identifies a game. -/
structure Identifier where
  value : Nat
deriving Repr, DecidableEq, Inhabited

namespace Identifier

/-- The lengths of the groups of digits. -/
def groupLengths : List Nat := [8, 4, 4, 4, 12]

/-- Cuts a list into groups of given lengths. -/
def groups {α : Type} : List Nat → List α → List (List α)
  | [], _ => []
  | n :: ns, cs => cs.take n :: groups ns (cs.drop n)

/-- The text of an identifier. -/
def text (i : Identifier) : String :=
  String.ofList (Text.joinFields '-' (groups groupLengths (Text.hex 32 i.value)))

/-- The value of a hexadecimal digit, in either case. -/
def digit? (c : Char) : Option Nat :=
  if '0' ≤ c ∧ c ≤ '9' then some (c.toNat - 48)
  else if 'a' ≤ c ∧ c ≤ 'f' then some (c.toNat - 87)
  else if 'A' ≤ c ∧ c ≤ 'F' then some (c.toNat - 55)
  else none

/-- The number that hexadecimal digits stand for. -/
def ofDigits? (cs : List Char) : Option Identifier :=
  (cs.foldlM (fun n c => (digit? c).map (16 * n + ·)) 0).map Identifier.mk

/-- Reads groups of digits between hyphens. -/
def ofGroups? (cs : List Char) : Option Identifier :=
  let gs := Text.fields '-' cs
  if gs.map List.length = groupLengths then ofDigits? gs.flatten else none

/-- The text without the braces or the scheme around it. -/
def unwrap (cs : List Char) : List Char :=
  match cs with
  | '{' :: rest => if rest.getLast? = some '}' then rest.dropLast else cs
  | _ => if "urn:uuid:".toList.isPrefixOf cs then cs.drop 9 else cs

/-- Reads an identifier: the digits alone, or in groups, which may stand in braces or after the
scheme `urn:uuid:`. -/
def ofText? (s : String) : Option Identifier :=
  let cs := s.toList
  if cs.length = 32 then ofDigits? cs else ofGroups? (unwrap cs)

end Identifier
end Arbiter
