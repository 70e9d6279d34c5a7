import Arbiter.Proofs.Rulings

/-! # The board seen from the other side

The mirror image of a position has its rows turned over and its players exchanged. The clocks and the
dates of all pieces are a ply later, so that the other player moves and nothing else is remembered
differently. White and black have their own rows and directions in the rules for pawns, but each of
these is the mirror image of the other, so the rules allow in the mirror what they allow in front
of it, and the same squares are attacked there.
-/

namespace Arbiter

namespace Side

@[simp] theorem forward_opponent (side : Side) :
    forward (some side.opponent) = -forward (some side) := by
  cases side <;> rfl

@[simp] theorem homeRow_opponent (side : Side) : side.opponent.homeRow = 7 - side.homeRow := by
  cases side <;> rfl

@[simp] theorem lastRow_opponent (side : Side) :
    lastRow (some side.opponent) = 7 - lastRow (some side) := by
  cases side <;> rfl

@[simp] theorem passingRow_opponent (side : Side) :
    side.opponent.passingRow = 7 - side.passingRow := by
  cases side <;> rfl

theorem opponent_eq_iff {a b : Side} : a.opponent = b ↔ a = b.opponent := by
  cases a <;> cases b <;> decide

theorem map_opponent_eq_some {owner : Option Side} {side : Side} :
    owner.map opponent = some side.opponent ↔ owner = some side := by
  cases owner <;> simp [opponent_eq_iff]

end Side

namespace Square

/-- The square in the same column, with its row counted from the other side. -/
def mirror (s : Square) : Square := ⟨7 - s.row, s.col⟩

@[simp] theorem mirror_mirror (s : Square) : s.mirror.mirror = s := by
  cases s
  simp [mirror]

theorem mirror_inj {s t : Square} : s.mirror = t.mirror ↔ s = t :=
  ⟨fun h => by rw [← s.mirror_mirror, h, t.mirror_mirror], congrArg mirror⟩

@[simp] theorem onBoard_mirror {s : Square} : s.mirror.OnBoard ↔ s.OnBoard := by
  simp only [mirror, OnBoard]
  omega

theorem mirror_shift (s : Square) (dRow dCol : Int) :
    (s.shift dRow dCol).mirror = s.mirror.shift (-dRow) dCol := by
  simp only [mirror, shift, mk.injEq, and_true]
  omega

end Square

namespace Cell

/-- The piece in the hands of the opponent, dated a ply later. -/
def mirror (c : Cell) : Cell :=
  { c with
    owner := c.owner.map Side.opponent
    lastMove := if c.IsEmpty then c.lastMove else c.lastMove + 1 }

@[simp] theorem mirror_kind (c : Cell) : c.mirror.kind = c.kind := rfl

@[simp] theorem mirror_owner (c : Cell) : c.mirror.owner = c.owner.map Side.opponent := rfl

@[simp] theorem mirror_moves (c : Cell) : c.mirror.moves = c.moves := rfl

@[simp] theorem isEmpty_mirror {c : Cell} : c.mirror.IsEmpty ↔ c.IsEmpty := Iff.rfl

@[simp] theorem mirror_vacant : vacant.mirror = vacant := rfl

theorem mirror_lastMove {c : Cell} (h : ¬ c.IsEmpty) : c.mirror.lastMove = c.lastMove + 1 :=
  if_neg h

theorem mirror_moved {c : Cell} (h : ¬ c.IsEmpty) (now : Int) :
    (c.moved now).mirror = c.mirror.moved (now + 1) := by
  have hdate : (c.moved now).mirror.lastMove = now + 1 := mirror_lastMove h
  simp only [moved, mirror, mk.injEq, true_and] at hdate ⊢
  exact hdate

end Cell

namespace Board

/-- The mirror image of a board. -/
def mirror (b : Board) : Board := .ofFn fun s => (b.get s.mirror).mirror

@[simp] theorem get_mirror (b : Board) (s : Square) : b.mirror.get s.mirror = (b.get s).mirror := by
  by_cases hs : s.OnBoard
  · rw [mirror, get_ofFn _ (Square.onBoard_mirror.mpr hs), Square.mirror_mirror]
  · rw [get_of_not_onBoard _ hs, get_of_not_onBoard _ (mt Square.onBoard_mirror.mp hs)]
    rfl

end Board

namespace Move

/-- The mirror image of a move. -/
def mirror (m : Move) : Move := { m with src := m.src.mirror, dst := m.dst.mirror }

variable {m : Move}

@[simp] theorem mirror_mirror (m : Move) : m.mirror.mirror = m := by
  simp [mirror]

@[simp] theorem mirror_src (m : Move) : m.mirror.src = m.src.mirror := rfl

@[simp] theorem mirror_dst (m : Move) : m.mirror.dst = m.dst.mirror := rfl

@[simp] theorem mirror_promotion (m : Move) : m.mirror.promotion = m.promotion := rfl

@[simp] theorem dRow_mirror (m : Move) : m.mirror.dRow = -m.dRow := by
  simp only [dRow, mirror, Square.mirror]
  omega

@[simp] theorem dCol_mirror (m : Move) : m.mirror.dCol = m.dCol := rfl

theorem straight_mirror : m.mirror.Straight ↔ m.Straight := by
  simp [Straight]

theorem diagonal_mirror : m.mirror.Diagonal ↔ m.Diagonal := by
  simp [Diagonal]

theorem knightJump_mirror : m.mirror.KnightJump ↔ m.KnightJump := by
  simp [KnightJump]

theorem kingStep_mirror : m.mirror.KingStep ↔ m.KingStep := by
  simp [KingStep]

theorem between_mirror (m : Move) : m.mirror.between = m.between.map Square.mirror := by
  simp only [between, List.map_map, dRow_mirror, dCol_mirror, Int.natAbs_neg, Int.sign_neg,
    mirror_src]
  congr 1
  funext k
  rw [Function.comp_apply, Square.mirror_shift, Int.neg_mul]

end Move

namespace Effects

/-- The mirror image of what a move does besides. -/
def mirror (e : Effects) : Effects :=
  { e with captured := e.captured.map Square.mirror, castle := e.castle.map Move.mirror }

end Effects

namespace Ruling

/-- The mirror image of a ruling. -/
def mirror : Ruling → Ruling
  | illegal => illegal
  | needsPromotion => needsPromotion
  | legal e => legal e.mirror

theorem legalIf_mirror {c c' : Prop} [Decidable c] [Decidable c'] (h : c' ↔ c) :
    legalIf c' = (legalIf c).mirror := by
  by_cases hc : c
  · simp only [legalIf, hc, h.mpr hc, if_true]
    rfl
  · simp only [legalIf, hc, mt h.mp hc, if_false]
    rfl

theorem mirror_eq_legal {r : Ruling} {e : Effects} (h : r.mirror = .legal e) :
    ∃ e', r = .legal e' := by
  cases r with
  | legal e' => exact ⟨e', rfl⟩
  | illegal => cases h
  | needsPromotion => cases h

end Ruling

namespace Position

/-- The mirror image of a position, with the other player to move. -/
def mirror (p : Position) : Position where
  board := p.board.mirror
  plies := p.plies + 1
  lastCapture := p.lastCapture + 1

variable {p : Position} {m : Move} {s t : Square} {side : Side}

@[simp] theorem board_mirror (p : Position) : p.mirror.board = p.board.mirror := rfl

@[simp] theorem plies_mirror (p : Position) : p.mirror.plies = p.plies + 1 := rfl

@[simp] theorem toMove_mirror (p : Position) : p.mirror.toMove = p.toMove.opponent := by
  have hply : p.mirror.toMove = (p.play default {}).toMove := by
    rw [toMove, toMove, plies_mirror, plies_play]
  rw [hply, toMove_play]

theorem quietPlies_mirror (p : Position) : p.mirror.quietPlies = p.quietPlies := by
  simp only [quietPlies, mirror]
  omega

theorem mover_mirror (p : Position) (m : Move) :
    p.mirror.mover m.mirror = (p.mover m).map Side.opponent := by
  simp only [mover, board_mirror, Move.mirror_src, Board.get_mirror, Cell.mirror_owner]

theorem clearPath_mirror : p.mirror.ClearPath m.mirror ↔ p.ClearPath m := by
  simp only [ClearPath, Move.between_mirror, List.forall_mem_map, board_mirror, Board.get_mirror,
    Cell.isEmpty_mirror]

theorem admissible_mirror :
    p.mirror.Admissible m.mirror (some side.opponent) ↔ p.Admissible m (some side) := by
  simp only [Admissible, mover_mirror, board_mirror, Move.mirror_src, Move.mirror_dst,
    Board.get_mirror, Cell.isEmpty_mirror, Cell.mirror_owner, Square.onBoard_mirror, ne_eq,
    Side.map_opponent_eq_some]

section Pawns

variable (hmover : p.mover m = some side)

include hmover

theorem ahead_mirror : p.mirror.ahead m.mirror = (p.ahead m).mirror := by
  simp only [ahead, mover_mirror, hmover, Option.map_some, Side.forward_opponent, Move.mirror_src,
    Square.mirror_shift]

theorem pawnDiagonal_mirror : p.mirror.PawnDiagonal m.mirror ↔ p.PawnDiagonal m := by
  simp only [PawnDiagonal, mover_mirror, hmover, Option.map_some, Side.forward_opponent,
    Move.dRow_mirror, Move.dCol_mirror, Int.neg_inj]

theorem pawnAdvance_mirror : p.mirror.PawnAdvance m.mirror ↔ p.PawnAdvance m := by
  have hrow : 7 - side.homeRow = 7 - m.src.row ↔ side.homeRow = m.src.row := by omega
  simp only [PawnAdvance, ahead_mirror hmover, mover_mirror, hmover, Option.map_some,
    Side.forward_opponent, Side.homeRow_opponent, Move.dRow_mirror, Move.dCol_mirror,
    Move.mirror_dst, Move.mirror_src, board_mirror, Board.get_mirror, Cell.isEmpty_mirror,
    Square.mirror_inj, Int.mul_neg, Int.neg_inj, Option.some.injEq]
  rw [Square.mirror, hrow]

theorem pawnPasses_mirror : p.mirror.PawnPasses m.mirror ↔ p.PawnPasses m := by
  have hsquare : passedSquare m.mirror = (passedSquare m).mirror := rfl
  have hrow : 7 - side.passingRow = 7 - m.src.row ↔ side.passingRow = m.src.row := by omega
  simp only [PawnPasses, hsquare, board_mirror, Board.get_mirror, mover_mirror, hmover,
    Option.map_some, Cell.mirror_kind, Cell.mirror_owner, Cell.mirror_moves, plies_mirror,
    Side.map_opponent_eq_some, Side.passingRow_opponent, Option.some.injEq]
  rw [Move.mirror_src, Square.mirror, hrow]
  apply and_congr_right
  intro hpawn
  rw [Cell.mirror_lastMove (Cell.occupied_of_kind hpawn (by decide)), Int.add_left_inj]

theorem pawnArrival_mirror (captured : Option Square) :
    p.mirror.pawnArrival m.mirror (captured.map Square.mirror) =
      (p.pawnArrival m captured).mirror := by
  have hrow : 7 - m.dst.row = 7 - Side.lastRow (some side) ↔
      m.dst.row = Side.lastRow (some side) := by omega
  simp only [pawnArrival, arrivalRuling, mover_mirror, hmover, Option.map_some,
    Side.lastRow_opponent, Move.mirror_promotion]
  rw [Move.mirror_dst, Square.mirror]
  simp only [hrow]
  split_ifs
  · cases m.promotion with
    | none => rfl
    | some kind =>
        simp only
        split_ifs
        · rfl
        · rfl
  · rfl

theorem pawnRuling_mirror : p.mirror.pawnRuling m.mirror = (p.pawnRuling m).mirror := by
  have harrival := pawnArrival_mirror hmover none
  have hpassed := pawnArrival_mirror hmover (some (passedSquare m))
  have hsquare : (some (passedSquare m)).map Square.mirror = some (passedSquare m.mirror) := rfl
  rw [Option.map_none] at harrival
  rw [hsquare] at hpassed
  simp only [pawnRuling, ahead_mirror hmover, pawnAdvance_mirror hmover, pawnDiagonal_mirror hmover,
    pawnPasses_mirror hmover, harrival, hpassed, Square.onBoard_mirror, board_mirror,
    Move.mirror_dst, Board.get_mirror, Cell.isEmpty_mirror, apply_ite Ruling.mirror]
  rfl

end Pawns

theorem movementRuling_mirror (hmover : p.mover m = some side) (kind : Kind) :
    p.mirror.movementRuling m.mirror kind = (p.movementRuling m kind).mirror := by
  cases kind with
  | empty => rfl
  | pawn => exact pawnRuling_mirror hmover
  | knight => exact Ruling.legalIf_mirror Move.knightJump_mirror
  | bishop => exact Ruling.legalIf_mirror (and_congr Move.diagonal_mirror clearPath_mirror)
  | rook => exact Ruling.legalIf_mirror (and_congr Move.straight_mirror clearPath_mirror)
  | queen =>
      exact Ruling.legalIf_mirror
        (and_congr (or_congr Move.straight_mirror Move.diagonal_mirror) clearPath_mirror)
  | king => exact Ruling.legalIf_mirror Move.kingStep_mirror

theorem strikes_mirror (howner : (p.board.get s).owner = some side) :
    p.mirror.Strikes s.mirror t.mirror ↔ p.Strikes s t := by
  have hpawn := pawnDiagonal_mirror (m := { src := s, dst := t }) howner
  have hpath := clearPath_mirror (p := p) (m := { src := s, dst := t })
  have hstraight := Move.straight_mirror (m := { src := s, dst := t })
  have hdiagonal := Move.diagonal_mirror (m := { src := s, dst := t })
  simp only [Strikes, board_mirror, Board.get_mirror, Cell.mirror_kind]
  cases (p.board.get s).kind with
  | empty => exact Iff.rfl
  | pawn => exact hpawn
  | knight => exact Move.knightJump_mirror (m := { src := s, dst := t })
  | bishop => exact and_congr hdiagonal hpath
  | rook => exact and_congr hstraight hpath
  | queen => exact and_congr (or_congr hstraight hdiagonal) hpath
  | king => exact Move.kingStep_mirror (m := { src := s, dst := t })

theorem attacked_of_not_onBoard (h : ¬ s.OnBoard) (owner : Option Side) :
    p.attacked s owner = false := by
  simp [attacked, reaches, Admissible, h]

theorem attacked_mirror (p : Position) (s : Square) (side : Side) :
    p.mirror.attacked s.mirror (some side.opponent) = p.attacked s (some side) := by
  by_cases hs : s.OnBoard
  · rw [Bool.eq_iff_iff, attacked_iff hs, attacked_iff (Square.onBoard_mirror.mpr hs)]
    simp only [board_mirror, Board.get_mirror, Cell.isEmpty_mirror, Cell.mirror_owner, ne_eq,
      Side.map_opponent_eq_some]
    apply and_congr_right
    intro _
    constructor
    · intro prem
      obtain ⟨src, hsrc, howner, hstrikes⟩ := prem
      rw [← src.mirror_mirror] at howner hstrikes
      rw [Board.get_mirror, Cell.mirror_owner, Side.map_opponent_eq_some] at howner
      exact ⟨src.mirror, Square.onBoard_mirror.mpr hsrc, howner, (strikes_mirror howner).mp hstrikes⟩
    · intro prem
      obtain ⟨src, hsrc, howner, hstrikes⟩ := prem
      refine ⟨src.mirror, Square.onBoard_mirror.mpr hsrc, ?_, (strikes_mirror howner).mpr hstrikes⟩
      rw [Board.get_mirror, Cell.mirror_owner, howner]
      rfl
  · rw [attacked_of_not_onBoard hs, attacked_of_not_onBoard (mt Square.onBoard_mirror.mp hs)]

section Castling

theorem firstAlongRow_mirror (p : Position) (s : Square) (step : Int) :
    p.mirror.firstAlongRow s.mirror step = (p.firstAlongRow s step).map Square.mirror := by
  have hrow : alongRow s.mirror step = (alongRow s step).map Square.mirror := by
    simp only [alongRow, List.map_map]
    congr 1
    funext k
    rw [Function.comp_apply, Square.mirror_shift, Int.neg_zero]
  simp only [firstAlongRow, hrow, List.find?_map, Function.comp_def, board_mirror, Board.get_mirror,
    Cell.isEmpty_mirror]

theorem kingPath_mirror (m : Move) : kingPath m.mirror = (kingPath m).map Square.mirror := by
  simp only [kingPath, List.map_map, Move.dCol_mirror, Move.mirror_src]
  congr 1
  funext k
  rw [Function.comp_apply, Square.mirror_shift, Int.neg_zero]

theorem castlingRuling_mirror (hmover : p.mover m = some side) :
    p.mirror.castlingRuling m.mirror = (p.castlingRuling m).mirror := by
  have hking : (p.board.get m.src).owner = some side := hmover
  simp only [castlingRuling, board_mirror, Move.mirror_src, Board.get_mirror, Cell.mirror_moves,
    Cell.mirror_owner, Move.dRow_mirror, Move.dCol_mirror, Int.neg_eq_zero, firstAlongRow_mirror,
    kingPath_mirror, List.forall_mem_map, hking, Option.map_some, attacked_mirror]
  split_ifs with hunmoved
  · cases p.firstAlongRow m.src m.dCol.sign with
    | none => rfl
    | some corner =>
        simp only [Option.map_some, Board.get_mirror, Cell.mirror_kind, Cell.mirror_owner,
          Cell.mirror_moves, Side.map_opponent_eq_some]
        split_ifs
        · simp only [Ruling.mirror, Effects.mirror, Option.map_none, Option.map_some, Move.mirror,
            Square.mirror_shift, Int.neg_zero]
        · rfl
  · rfl

end Castling

/-- The rules allow in the mirror what they allow in front of it. -/
theorem pieceRuling_mirror (p : Position) (m : Move) (side : Side) (castling : Bool) :
    p.mirror.pieceRuling m.mirror (some side.opponent) castling =
      (p.pieceRuling m (some side) castling).mirror := by
  simp only [pieceRuling, admissible_mirror, board_mirror, Move.mirror_src, Board.get_mirror,
    Cell.mirror_kind]
  split_ifs with hadm
  · have hmover : p.mover m = some side := hadm.owner
    cases hkind : (p.board.get m.src).kind with
    | king =>
        simp only [kingRuling, Move.kingStep_mirror, castlingRuling_mirror hmover,
          apply_ite Ruling.mirror]
        rfl
    | empty | pawn | knight | bishop | rook | queen => exact movementRuling_mirror hmover _
  · rfl

end Position
end Arbiter
