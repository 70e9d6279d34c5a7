import Arbiter.Descriptor.Setup
import Arbiter.Status

/-! # Games

A game is a position with a status. It starts from the initial position, from a descriptor, or from
a record, which keeps the descriptor and the status as texts.
-/

namespace Arbiter

/-- What is kept of a game between two requests. -/
structure Record where
  descriptor : String
  status : String
deriving Repr, DecidableEq, Inhabited

/-- The position from which every game starts. -/
def Position.initial : Position := { board := .initial }

/-- The counters of the position are short enough to be written. -/
def Position.Writable (p : Position) : Prop :=
  Numeral.Fits p.quietPlies ∧ Numeral.Fits p.turn

instance (p : Position) : Decidable p.Writable :=
  inferInstanceAs (Decidable (Numeral.Fits p.quietPlies ∧ Numeral.Fits p.turn))

/-- The text of the position's descriptor. -/
def Position.text (p : Position) : String := (Descriptor.ofPosition p).write

/-- A position and how the game stands. -/
structure Game where
  position : Position
  status : Status := .inProgress
deriving DecidableEq

namespace Game

/-- Why a game cannot be restored from a record. -/
inductive RecordError where
  | status (text : String)
  | descriptor (cause : Descriptor.Error)
deriving Repr, DecidableEq

/-- The message for the faults that have one. -/
def RecordError.message? : RecordError → Option String
  | status text =>
    some ("Invalid status code: " ++ Text.quoted text ++ ". \nPick one from " ++
      ",".intercalate (Status.all.map Status.name))
  | descriptor cause => cause.message?

def initial : Game := { position := .initial }

/-- A game from a descriptor. It may be over before it starts. -/
def ofDescriptor (text : String) : Except Descriptor.Error Game := do
  let p ← Descriptor.position text
  return { position := p, status := p.stuck?.getD .inProgress }

/-- The game that a record stands for. -/
def ofRecord (r : Record) : Except RecordError Game := do
  let some status := Status.ofName? r.status | throw (.status r.status)
  let p ← (Descriptor.position r.descriptor).mapError .descriptor
  return { position := p, status }

def record (g : Game) : Record :=
  { descriptor := g.position.text, status := g.status.name }

def toMove (g : Game) : Side := g.position.toMove

/-- Only a checkmate has a winner: the player who just moved. -/
def winner (g : Game) : Option Side :=
  if g.status = .checkmate then some g.toMove.opponent else none

def isCheck (g : Game) : Bool := g.position.inCheck (some g.toMove)

end Game
end Arbiter
