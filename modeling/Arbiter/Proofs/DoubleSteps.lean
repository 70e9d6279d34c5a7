import Arbiter.Descriptor.Setup
import Arbiter.Proofs.Aftermath

/-! # Double steps

No position notes which pawn has just made a double step. It is inferred: from a count of one move, a
date of the latest ply, and a row. In a `Tracked` position, where pawns have moved exactly if they
are ahead of their home row and nothing is dated in the future, this inference is right: after a
move, the pawn found is the one that has moved, and it has gone two squares (`justDoubled_play`).
-/

namespace Arbiter.Position

open Descriptor (JustDoubled)

variable {p : Position} {m : Move} {e : Effects} {player : Option Side} {side : Side} {s : Square}

/-- Counters and dates agree with the board: pawns at home have not moved, all others are ahead of
their home row and have moved, and no date lies in the future. -/
structure Tracked (p : Position) : Prop where
  clock : 0 ≤ p.plies
  stamps : ∀ s, (p.board.get s).lastMove ≤ p.plies
  counts : ∀ s, 0 ≤ (p.board.get s).moves
  pawns : ∀ s side, (p.board.get s).kind = .pawn → (p.board.get s).owner = some side →
    0 ≤ (s.row - side.homeRow) * Side.forward (some side) ∧
      ((p.board.get s).moves = 0 ↔ s.row = side.homeRow)

theorem Tracked.pawns_play (hp : p.Tracked) (hadm : p.Admissible m (some p.toMove))
    (h : p.Allows m e) (s : Square) (side : Side) (hkind : ((p.play m e).board.get s).kind = .pawn)
    (howner : ((p.play m e).board.get s).owner = some side) :
    0 ≤ (s.row - side.homeRow) * Side.forward (some side) ∧
      (((p.play m e).board.get s).moves = 0 ↔ s.row = side.homeRow) := by
  have hmover : (p.board.get m.src).owner = some p.toMove := hadm.owner
  revert side
  refine (apart_of_allows hadm h).forall_cells
    (fun s c => c.kind = .pawn → ∀ side, c.owner = some side →
      0 ≤ (s.row - side.homeRow) * Side.forward (some side) ∧ (c.moves = 0 ↔ s.row = side.homeRow))
    (fun s hkind side howner => hp.pawns s side hkind howner) (fun _ hkind => by cases hkind) ?_
    (fun hop hhop hkind => by cases (h.hop_rook hhop).1.symm.trans hkind) s hkind
  intro hkind side howner
  have hside : p.toMove = side := Option.some.inj (hmover.symm.trans howner)
  have hpawn := (h.pawn_arrives hkind).1
  have hsrc := (hp.pawns _ _ hpawn hmover).1
  have hahead := h.pawn_ahead hpawn
  have hcount : (p.board.get m.src).moves + 1 ≠ 0 := by
    have := hp.counts m.src
    omega
  rw [show p.mover m = some p.toMove from hmover, hside] at hahead
  rw [hside] at hsrc
  unfold Move.dRow at hahead
  have hrow : 0 ≤ (m.dst.row - side.homeRow) * Side.forward (some side) ∧
      m.dst.row ≠ side.homeRow := by
    cases side <;> simp [Side.forward, Side.homeRow] at hsrc hahead ⊢ <;> omega
  exact ⟨hrow.1, iff_of_false hcount hrow.2⟩

theorem Tracked.play (hp : p.Tracked) (hadm : p.Admissible m (some p.toMove)) (h : p.Allows m e) :
    (p.play m e).Tracked where
  clock := by
    have := hp.clock
    rw [plies_play]
    omega
  stamps := (apart_of_allows hadm h).stamps_play hp.clock hp.stamps
  counts := (apart_of_allows hadm h).counts_play hp.counts
  pawns := hp.pawns_play hadm h

/-- The double step of a pawn starts on its home row and ends two rows ahead. -/
def DoubleStep (p : Position) (m : Move) : Prop :=
  (p.board.get m.src).kind = .pawn ∧ m.src.row = p.toMove.homeRow ∧
    m.dst.row = p.toMove.homeRow + 2 * Side.forward (some p.toMove)

theorem dst_of_justDoubled_play (hadm : p.Admissible m player) (h : p.Allows m e)
    (hstamps : ∀ s, (p.board.get s).lastMove ≤ p.plies) (hdoubled : JustDoubled (p.play m e) s) :
    s = m.dst := by
  obtain ⟨hkind, -, -, -, hstamp⟩ := hdoubled
  rcases (apart_of_allows hadm h).get_play_cases (p := p) s with ⟨hs, -⟩ | ⟨hop, hhop, -, hget⟩ |
    ⟨-, hget⟩ | ⟨-, hget⟩
  · exact hs
  · rw [hget] at hkind
    cases (h.hop_rook hhop).1.symm.trans hkind
  · rw [hget] at hkind
    cases hkind
  · rw [hget, plies_play] at hstamp
    have := hstamps s
    omega

/-- After a move the pawn that seems to have just made a double step has made it. -/
theorem Tracked.justDoubled_play (hp : p.Tracked) (hadm : p.Admissible m (some p.toMove))
    (h : p.Allows m e) : JustDoubled (p.play m e) s ↔ s = m.dst ∧ p.DoubleStep m := by
  have hapart := apart_of_allows hadm h
  have hmover : (p.board.get m.src).owner = some p.toMove := hadm.owner
  constructor
  · intro hdoubled
    obtain rfl := dst_of_justDoubled_play hadm h hp.stamps hdoubled
    obtain ⟨hkind, -, hrow, hmoves, -⟩ := hdoubled
    rw [hapart.get_play_dst] at hkind hmoves
    rw [toMove_play, Side.opponent_opponent] at hrow
    have hpawn := (h.pawn_arrives hkind).1
    have hunmoved : (p.board.get m.src).moves = 0 := by
      have : (p.board.get m.src).moves + 1 = 1 := hmoves
      omega
    exact ⟨rfl, hpawn, (hp.pawns _ _ hpawn hmover).2.mp hunmoved, hrow⟩
  · intro prem
    obtain ⟨rfl, hpawn, hhome, hrow⟩ := prem
    have hlast : m.dst.row ≠ Side.lastRow (p.mover m) := by
      rw [show p.mover m = some p.toMove from hmover, hrow]
      cases p.toMove <;> decide
    have hunmoved := (hp.pawns _ _ hpawn hmover).2.mpr hhome
    unfold JustDoubled
    simp only [toMove_play, Side.opponent_opponent, plies_play]
    rw [hapart.get_play_dst]
    refine ⟨?_, hmover, hrow, ?_, rfl⟩
    · rcases h.arrival_kind with ⟨hsame, -⟩ | ⟨⟨-, hrow'⟩, -⟩
      · exact hsame.trans hpawn
      · exact absurd hrow' hlast
    · exact congrArg (· + 1) hunmoved

/-- The player to move may take a pawn in passing exactly if it has just made a double step. -/
theorem pawnPasses_iff_justDoubled (hmover : p.mover m = some p.toMove) :
    p.PawnPasses m ↔ m.src.row = p.toMove.passingRow ∧ JustDoubled p (passedSquare m) := by
  have hlanding : p.toMove.opponent.homeRow + 2 * Side.forward (some p.toMove.opponent) =
      p.toMove.passingRow := by
    cases p.toMove <;> rfl
  simp only [PawnPasses, JustDoubled, hmover, hlanding, Option.map_some, Option.some.injEq,
    passedSquare, eq_comm (a := p.toMove.passingRow)]
  grind

end Arbiter.Position
