import Arbiter.Identifier
import Arbiter.Status

/-! # Forms

Requests arrive as forms: named fields with values of any shape. Reading a form goes through its
fields in order and collects what is wrong with each of them.
-/

namespace Arbiter.Form

/-- The value of a field. -/
inductive Value where
  | null
  | flag (b : Bool)
  | whole (n : Int)
  /-- A number that is not whole. -/
  | fraction
  | text (s : String)
  | list (values : List Value)
  /-- Fields inside a field. None of them is ever read. -/
  | fields
deriving Inhabited

/-- What can be wrong with the value of a field. -/
inductive Defect where
  | missing
  | notText
  | notIdentifierText
  | badIdentifier
  | notAmongChoices
  | notFlag
  | badFlag
  | notList
  /-- The value cannot be examined. -/
  | unreadable
deriving Repr, DecidableEq, Inhabited

/-- A defect and where it is found: the name of the field, and the place inside a list. -/
structure Fault where
  path : List String
  defect : Defect
deriving Repr, DecidableEq, Inhabited

/-- What reading comes to: a result, faults, or a refusal that cuts it short. -/
inductive Reading (ε α : Type) where
  | ok (a : α)
  | faults (fs : List Fault)
  | refused (cause : ε)

namespace Reading

variable {ε α β γ : Type}

/-- Puts two parts together. The second part is read even if the first has faults; a refusal comes
before any fault. -/
def both (f : α → β → γ) : Reading ε α → Reading ε β → Reading ε γ
  | refused e, _ => refused e
  | _, refused e => refused e
  | ok a, ok b => ok (f a b)
  | faults fs, ok _ => faults fs
  | ok _, faults gs => faults gs
  | faults fs, faults gs => faults (fs ++ gs)

def map (f : α → β) : Reading ε α → Reading ε β
  | ok a => ok (f a)
  | faults fs => faults fs
  | refused e => refused e

/-- A further examination of the result. -/
def check (r : Reading ε α) (f : α → Reading ε β) : Reading ε β :=
  match r with
  | ok a => f a
  | faults fs => faults fs
  | refused e => refused e

end Reading

namespace Value

def asText : Value → Except Defect String
  | text s => .ok s
  | _ => .error .notText

def asIdentifier : Value → Except Defect Identifier
  | text s =>
    match Identifier.ofText? s with
    | some i => .ok i
    | none => .error .badIdentifier
  | _ => .error .notIdentifierText

/-- One of the words that a function knows. -/
def asChoice {α : Type} (ofName? : String → Option α) : Value → Except Defect α
  | text s =>
    match ofName? s with
    | some a => .ok a
    | none => .error .notAmongChoices
  | _ => .error .notAmongChoices

def yesWords : List String := ["1", "on", "t", "true", "y", "yes"]

def noWords : List String := ["0", "off", "f", "false", "n", "no"]

/-- The flag that a word stands for, in upper or lower case of ASCII letters. -/
def flagOfWord (word : String) : Except Defect Bool :=
  let word := word.map Char.toLower
  if word ∈ yesWords then .ok true
  else if word ∈ noWords then .ok false
  else .error .badFlag

/-- The flag that a whole number stands for: 0 or 1. Other numbers of 64 bits are bad flags, and
longer ones are no flags at all. -/
def flagOfNumber (n : Int) : Except Defect Bool :=
  if n = 1 then .ok true
  else if n = 0 then .ok false
  else if -Int.pow 2 63 ≤ n ∧ n < Int.pow 2 63 then .error .badFlag
  else .error .notFlag

/-- A flag, or a number or a word for it. -/
def asFlag : Value → Except Defect Bool
  | flag b => .ok b
  | text s => flagOfWord s
  | whole n => flagOfNumber n
  | _ => .error .notFlag

end Value

variable {ε α : Type}

/-- Reads the field of a form that has to be there. -/
def field (form : List (String × Value)) (name : String) (read : Value → Except Defect α) :
    Reading ε α :=
  match form.lookup name with
  | none => .faults [⟨[name], .missing⟩]
  | some v =>
    match read v with
    | .ok a => .ok a
    | .error d => .faults [⟨[name], d⟩]

/-- Reads a field that may be left out or null. -/
def optionalField (form : List (String × Value)) (name : String)
    (read : Value → Except Defect α) : Reading ε (Option α) :=
  match form.lookup name with
  | none | some .null => .ok none
  | some _ => (field form name read).map some

/-- Reads the values of a list, numbered from the given place. -/
def listElements (name : String) (read : Value → Except Defect α) :
    Nat → List Value → Reading ε (List α)
  | _, [] => .ok []
  | i, v :: vs =>
    let first : Reading ε α :=
      match read v with
      | .ok a => .ok a
      | .error d => .faults [⟨[name, String.ofList (Nat.toDigits 10 i)], d⟩]
    .both (· :: ·) first (listElements name read (i + 1) vs)

/-- Reads a field that holds a list. -/
def listField (form : List (String × Value)) (name : String) (read : Value → Except Defect α) :
    Reading ε (List α) :=
  match form.lookup name with
  | none => .faults [⟨[name], .missing⟩]
  | some (.list vs) => listElements name read 0 vs
  | some _ => .faults [⟨[name], .notList⟩]

end Arbiter.Form
