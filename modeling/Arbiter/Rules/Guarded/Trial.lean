import Arbiter.Rules.Guarded.Play
import Arbiter.Rules.Guarded.Probe
import Arbiter.Status

/-! # Moves tried out on the board itself

The rules are asked on the position that the game is played on. A question about an attacked square
puts a pawn down and takes it up again. Whether a move leaves the player's own king in check is
found out after the move has been carried out, and then a kept copy takes its place again.
-/

namespace Arbiter.Position.Guarded

/-- Work on a position: an answer or a fault, with the position as it is left. -/
abbrev Trial (α : Type) := ExceptT Fault (StateM Position) α

namespace Trial

/-- Looks at the position without touching it. -/
def ask {α : Type} (question : Position → Except Fault α) : Trial α := fun p => (question p, p)

/-- Works on a copy, which is thrown away. -/
def onCopy {α : Type} (t : Trial α) : Trial α := fun p => ((t p).1, p)

def attacked (s : Square) (owner : Option Side) : Trial Bool := fun p => probe p s owner

def inCheck (owner : Option Side) : Trial Bool := do
  match (← get).board.king? owner with
  | none => return true
  | some s => attacked s owner

def castlingRuling (m : Move) : Trial Ruling := do
  let king ← ask (look · m.src)
  if king.moves = 0 ∧ m.dRow = 0 ∧ m.dCol.natAbs = 2 then
    match (← get).firstAlongRow m.src m.dCol.sign with
    | none => return .illegal
    | some corner =>
      let rook := (← get).board.get corner
      if rook.kind = .rook ∧ rook.owner = king.owner ∧ rook.moves = 0 then
        if ← (kingPath m).anyM (attacked · king.owner) then return .illegal
        else return .legal { castle := some { src := corner, dst := m.src.shift 0 m.dCol.sign } }
      else return .illegal
  else return .illegal

def kingRuling (m : Move) (castling : Bool) : Trial Ruling := do
  if m.KingStep then return .legal {}
  else
    let _ ← ask (look · m.src)
    if castling then castlingRuling m else return .illegal

/-- The full rule for a kind of piece, whatever stands on the first square. -/
def kindRuling (m : Move) (castling : Bool) : Kind → Trial Ruling
  | .king => kingRuling m castling
  | kind => ask (movementRuling · m kind)

/-- The rule for a move of the given player's piece. -/
def pieceRuling (m : Move) (player : Option Side) (castling : Bool) : Trial Ruling := do
  let p ← get
  if p.Admissible m player then kindRuling m castling (p.board.get m.src).kind
  else return .illegal

/-- Carries a move out. A move that stops halfway is left there. -/
def execute (m : Move) (e : Effects) : Trial Unit := fun p =>
  match play p m e with
  | .ok q => (.ok (), q)
  | .error halt => (.error halt.fault, halt.position)

/-- Carries a move out, and takes it back if the player's own king is in check then. -/
def settle (m : Move) (e : Effects) : Trial Ruling := do
  let backup ← get
  execute m e
  if ← inCheck (some backup.toMove) then
    set backup
    return .illegal
  else return .legal e

theorem bind_apply {α β : Type} (t : Trial α) (next : α → Trial β) (p : Position) :
    (t >>= next) p = match t p with
      | (.ok a, q) => next a q
      | (.error fault, q) => (.error fault, q) := by
  change ExceptT.bindCont next (t p).1 (t p).2 = _
  cases t p with
  | mk answer q => cases answer <;> rfl

end Trial

section Queen

variable {p : Position} {m : Move}

theorem bind_ne_ok {α : Type} {x : Except Fault α} {next : α → Except Fault Ruling} {r : Ruling}
    (h : ∀ a, next a ≠ .ok r) : x >>= next ≠ .ok r := by
  cases x with
  | error fault => exact nofun
  | ok a => exact h a

theorem pawnRuling_queen (h : m.promotion = some .queen) :
    pawnRuling p m ≠ .ok .needsPromotion := by
  have illegal : (.ok .illegal : Except Fault Ruling) ≠ .ok .needsPromotion := nofun
  have arrives (captured : Option Square) :
      (.ok (p.pawnArrival m captured) : Except Fault Ruling) ≠ .ok .needsPromotion := by
    unfold pawnArrival arrivalRuling
    rw [h]
    split <;> simp [Kind.promotions]
  unfold pawnRuling
  refine bind_ne_ok fun pawn => ?_
  simp only
  split
  · exact illegal
  split
  · refine bind_ne_ok fun ahead => ?_
    split
    · refine bind_ne_ok fun double => ?_
      split
      · exact arrives none
      · exact illegal
    · exact illegal
  split
  · refine bind_ne_ok fun target => ?_
    split
    · refine bind_ne_ok fun passes => ?_
      split
      · exact arrives _
      · exact illegal
    · exact arrives none
  · exact illegal

theorem movementRuling_queen {kind : Kind} (h : m.promotion = some .queen) :
    movementRuling p m kind ≠ .ok .needsPromotion := by
  have plain (c : Prop) [Decidable c] :
      (.ok (.legalIf c) : Except Fault Ruling) ≠ .ok .needsPromotion := by
    unfold Ruling.legalIf
    split <;> exact nofun
  have slides (direction : Prop) [Decidable direction] :
      slide p m direction ≠ .ok .needsPromotion := by
    unfold slide
    split
    · exact bind_ne_ok fun _ => plain _
    · exact nofun
  cases kind with
  | empty => exact nofun
  | pawn => exact pawnRuling_queen h
  | knight | king => exact plain _
  | bishop | rook | queen => exact slides _

namespace Trial

/-- The answer never asks for a promotion. -/
def Decides (t : Trial Ruling) : Prop := ∀ p, (t p).1 ≠ .ok .needsPromotion

theorem decides_illegal : Decides (pure .illegal) := fun _ => nofun

theorem decides_legal (e : Effects) : Decides (pure (.legal e)) := fun _ => nofun

theorem Decides.bind {α : Type} (t : Trial α) {next : α → Trial Ruling}
    (h : ∀ a, Decides (next a)) : Decides (t >>= next) := by
  intro p
  rw [bind_apply]
  split
  · exact h _ _
  · exact nofun

theorem decides_castlingRuling (m : Move) : Decides (castlingRuling m) := by
  unfold castlingRuling
  refine .bind _ fun king => ?_
  split
  · refine .bind _ fun q => ?_
    split
    · exact decides_illegal
    · refine .bind _ fun q => ?_
      simp only
      split
      · refine .bind _ fun threatened => ?_
        split
        · exact decides_illegal
        · exact decides_legal _
      · exact decides_illegal
  · exact decides_illegal

theorem decides_kingRuling (m : Move) (castling : Bool) : Decides (kingRuling m castling) := by
  unfold kingRuling
  split
  · exact decides_legal _
  · refine .bind _ fun king => ?_
    split
    · exact decides_castlingRuling m
    · exact decides_illegal

theorem decides_pieceRuling {player : Option Side} {castling : Bool}
    (h : m.promotion = some .queen) : Decides (pieceRuling m player castling) := by
  have movement (kind : Kind) : Decides (ask (movementRuling · m kind)) :=
    fun _ => movementRuling_queen h
  unfold pieceRuling
  refine .bind _ fun p => ?_
  split
  · cases (p.board.get m.src).kind with
    | king => exact decides_kingRuling m castling
    | _ => exact movement _
  · exact decides_illegal

end Trial

end Queen

namespace Trial

mutual

/-- Makes a move of the player to move, if it is legal. A promotion is asked for only if becoming a
queen would be legal, which is found out on a copy. -/
def attempt (m : Move) (p : Position) : Except Fault Ruling × Position :=
  match _h : pieceRuling m (some p.toMove) true p with
  | (.ok .illegal, q) => (.ok .illegal, q)
  | (.ok .needsPromotion, q) =>
    match ruling (m.promoting .queen) q with
    | (.ok (.legal _), q) => (.ok .needsPromotion, q)
    | (.ok _, q) => (.ok .illegal, q)
    | (.error fault, q) => (.error fault, q)
  | (.ok (.legal e), q) => settle m e q
  | (.error fault, q) => (.error fault, q)
termination_by (if m.promotion = some .queen then 0 else 1, 0)
decreasing_by
  have hqueen : m.promotion ≠ some .queen := fun h => decides_pieceRuling h p (by rw [_h])
  simp [hqueen, Move.promoting, Prod.lex_def]

/-- The ruling on a move of the player to move, found on a copy. -/
def ruling (m : Move) (p : Position) : Except Fault Ruling × Position :=
  match pieceRuling m (some p.toMove) true p with
  | (.ok .illegal, q) => (.ok .illegal, q)
  | (.ok _, q) => onCopy (attempt m) q
  | (.error fault, q) => (.error fault, q)
termination_by (if m.promotion = some .queen then 0 else 1, 1)
decreasing_by simp [Prod.lex_def]

end

/-- The player to move has a legal move. -/
def hasReply : Trial Bool := do
  (← get).candidates.anyM fun m => do
    return (← ruling (m.promoting .queen)).isLegal

/-- The legal moves, with one entry for every choice of promotion. -/
def legalMoves : Trial (List Move) := do
  let listed ← (← get).candidates.mapM fun m => do
    match ← ruling m with
    | .illegal => return []
    | .needsPromotion => return Kind.promotions.map m.promoting
    | .legal _ => return [m]
  return listed.flatten

/-- Checkmate or stalemate, if the player to move has no legal move. -/
def stuck? : Trial (Option Status) := do
  if ← hasReply then return none
  else if ← inCheck (some (← get).toMove) then return some .checkmate
  else return some .stalemate

/-- How the game stands after a move. -/
def outcome : Trial Status := do
  let p ← get
  if drawPlies ≤ p.quietPlies then return .drawByMoveClock
  else if offerPlies ≤ p.quietPlies then return .drawOffered
  else return (← stuck?).getD .inProgress

end Trial

end Arbiter.Position.Guarded
