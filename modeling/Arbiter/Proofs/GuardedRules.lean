import Arbiter.Proofs.Lines
import Arbiter.Proofs.Aftermath
import Arbiter.Rules.Guarded

/-! # The guarded rules answer as the plain ones

For the pieces of a player the rules that stop at the edges never stop: every place that they look
at is on the board. So they answer whatever move is asked about, and what the plain rules answer.
-/

namespace Arbiter.Position.Guarded

variable {p : Position} {m : Move} {side : Side} {s : Square}

theorem look_of_onBoard (p : Position) (hs : s.OnBoard) : look p s = .ok (p.board.get s) :=
  if_pos hs

/-- With some steps left to its target, the walk tells whether the squares before it are vacant. -/
theorem walk_waypoint (hline : m.Lined) (hsrc : m.src.OnBoard) (hdst : m.dst.OnBoard)
    {left fuel k : Nat} (hpos : 0 < k) (hk : k + left = m.length) (hfuel : left < fuel) :
    walk p m.dst m.dRow.sign m.dCol.sign fuel (m.waypoint k) =
      .ok ((List.range' k left).all fun j => (p.board.get (m.waypoint j)).IsEmpty) := by
  induction left generalizing k fuel with
  | zero =>
      obtain ⟨fuel, rfl⟩ := Nat.exists_eq_add_one_of_ne_zero (Nat.ne_of_gt hfuel)
      have harrived : m.waypoint k = m.dst := by
        rw [← hline.waypoint_length, ← hk]
        rfl
      rw [walk, if_pos harrived]
      rfl
  | succ left ih =>
      obtain ⟨fuel, rfl⟩ := Nat.exists_eq_add_one_of_ne_zero (Nat.ne_zero_of_lt hfuel)
      have hlt : k < m.length := by omega
      have hlook := look_of_onBoard p (hline.waypoint_onBoard hsrc hdst hpos hlt)
      have hrest := ih k.succ_pos (by omega) (Nat.lt_of_succ_lt_succ hfuel)
      rw [walk, if_neg (Move.waypoint_ne_dst hpos hlt), hlook, Move.waypoint_succ, hrest,
        List.range'_succ, List.all_cons]
      by_cases hempty : (p.board.get (m.waypoint k)).IsEmpty
      · rw [decide_eq_true hempty, Bool.true_and]
        exact if_pos hempty
      · rw [decide_eq_false hempty, Bool.false_and]
        exact if_neg hempty

theorem clearPath_eq (p : Position) (hline : m.Lined) (hsrc : m.src.OnBoard)
    (hdst : m.dst.OnBoard) (hne : m.src ≠ m.dst) :
    clearPath p m = .ok (decide (p.ClearPath m)) := by
  have hpos : m.length ≠ 0 := fun h => hne (Move.length_eq_zero_iff.mp h)
  have hshort : m.length ≤ 7 := by
    unfold Square.OnBoard at hsrc hdst
    simp only [Move.length, Move.dRow, Move.dCol]
    omega
  have hstart : m.src.shift m.dRow.sign m.dCol.sign = m.waypoint 1 := by
    simp [Move.waypoint]
  have hclear : (∀ k ∈ List.range' 1 (m.length - 1), (p.board.get (m.waypoint k)).IsEmpty) ↔
      p.ClearPath m := by
    simp only [ClearPath, Move.mem_between_waypoint, List.mem_range'_1]
    constructor
    · intro prem s hs
      obtain ⟨k, hk, hk', rfl⟩ := hs
      exact prem k ⟨hk, by omega⟩
    · intro prem k hk
      exact prem _ ⟨k, hk.1, by omega, rfl⟩
  have hleft : 1 + (m.length - 1) = m.length := by omega
  rw [clearPath, hstart, walk_waypoint hline hsrc hdst one_pos hleft (by omega)]
  congr 1
  rw [Bool.eq_iff_iff, decide_eq_true_eq, List.all_eq_true]
  simpa only [decide_eq_true_eq] using hclear

theorem doubleStep_eq (p : Position) (hdst : m.dst.OnBoard) :
    doubleStep p m (some side) = .ok (decide (m.dRow = 2 * Side.forward (some side) ∧
      side.homeRow = m.src.row ∧ (p.board.get m.dst).IsEmpty)) := by
  unfold doubleStep
  by_cases hrow : m.dRow = 2 * Side.forward (some side)
  · by_cases hhome : side.homeRow = m.src.row
    · simp [hrow, hhome, homeRow, look_of_onBoard p hdst, bind, Except.bind, pure, Except.pure]
    · simp [hrow, hhome, homeRow, bind, Except.bind, pure, Except.pure]
  · simp [hrow]

theorem passes_eq (p : Position) (hsrc : m.src.OnBoard) (hdst : m.dst.OnBoard)
    (howner : p.mover m = some side) :
    passes p m (some side) = .ok (decide (p.PawnPasses m)) := by
  have hpassed : (passedSquare m).OnBoard := ⟨hsrc.1, hdst.2⟩
  have hsplit : p.PawnPasses m ↔ ((p.board.get (passedSquare m)).kind = .pawn ∧
      (p.board.get (passedSquare m)).owner = (some side).map Side.opponent ∧
      (p.board.get (passedSquare m)).moves = 1 ∧
      (p.board.get (passedSquare m)).lastMove = p.plies) ∧ side.passingRow = m.src.row := by
    simp only [PawnPasses, howner, Option.map_some, Option.some.injEq, and_assoc]
  rw [passes, look_of_onBoard p hpassed]
  simp only [bind, Except.bind, pure, Except.pure, passingRow]
  by_cases hpass : p.PawnPasses m
  · obtain ⟨hvictim, hrow⟩ := hsplit.mp hpass
    rw [if_pos hvictim, decide_eq_true hrow, decide_eq_true hpass]
  · rw [decide_eq_false hpass]
    split_ifs with hvictim
    · rw [decide_eq_false fun hrow => hpass (hsplit.mpr ⟨hvictim, hrow⟩)]
    · rfl

theorem pawnRuling_eq (p : Position) (hsrc : m.src.OnBoard) (hdst : m.dst.OnBoard)
    (howner : p.mover m = some side) : pawnRuling p m = .ok (p.pawnRuling m) := by
  have hahead : p.ahead m = m.src.shift (Side.forward (some side)) 0 := by rw [ahead, howner]
  have hcell : (p.board.get m.src).owner = some side := howner
  unfold pawnRuling Position.pawnRuling
  rw [look_of_onBoard p hsrc]
  simp only [bind, Except.bind, hcell, ← hahead, look_of_onBoard p hdst, doubleStep_eq p hdst,
    passes_eq p hsrc hdst howner]
  by_cases honward : (p.ahead m).OnBoard
  · simp only [look_of_onBoard p honward, honward, not_true_eq_false, if_false, pure, Except.pure]
    by_cases hcol : m.dCol = 0
    · have hadvance : p.PawnAdvance m ↔ (p.board.get (p.ahead m)).IsEmpty ∧ (m.dst = p.ahead m ∨
          m.dRow = 2 * Side.forward (some side) ∧ side.homeRow = m.src.row ∧
            (p.board.get m.dst).IsEmpty) := by
        simp [PawnAdvance, hcol, howner]
      have hdiagonal : ¬ p.PawnDiagonal m := fun h => by simp [PawnDiagonal, hcol] at h
      simp only [hcol, hadvance, hdiagonal, decide_eq_true_eq, if_false, if_true]
      split_ifs <;> simp_all
    · have hadvance : ¬ p.PawnAdvance m := fun h => hcol h.1
      have hdiagonal : p.PawnDiagonal m ↔
          m.dCol.natAbs = 1 ∧ m.dRow = Side.forward (some side) := by
        rw [PawnDiagonal, howner]
      simp only [hcol, hadvance, hdiagonal, decide_eq_true_eq, if_false]
      split_ifs <;> rfl
  · simp [honward, pure, Except.pure]

theorem slide_eq (p : Position) (direction : Prop) [Decidable direction]
    (hline : direction → m.Lined) (hsrc : m.src.OnBoard) (hdst : m.dst.OnBoard)
    (hne : m.src ≠ m.dst) :
    slide p m direction = .ok (.legalIf (direction ∧ p.ClearPath m)) := by
  unfold slide
  split_ifs with h
  · rw [clearPath_eq p (hline h) hsrc hdst hne]
    by_cases hclear : p.ClearPath m <;>
      simp [h, hclear, bind, Except.bind, pure, Except.pure, Ruling.legalIf]
  · simp [h, Ruling.legalIf]

theorem movementRuling_eq (hadm : p.Admissible m (some side)) :
    movementRuling p m (p.board.get m.src).kind =
      .ok (p.movementRuling m (p.board.get m.src).kind) := by
  have hsrc := hadm.src_onBoard
  have hdst := hadm.dst_onBoard
  have hne := hadm.src_ne_dst
  cases hkind : (p.board.get m.src).kind with
  | empty => exact absurd hkind hadm.occupied
  | pawn => exact pawnRuling_eq p hsrc hdst hadm.owner
  | knight => rfl
  | bishop => exact slide_eq p m.Diagonal .inr hsrc hdst hne
  | rook => exact slide_eq p m.Straight .inl hsrc hdst hne
  | queen => exact slide_eq p (m.Straight ∨ m.Diagonal) id hsrc hdst hne
  | king => rfl

theorem reaches_eq (q : Position) (target : Square) (side : Side) (src : Square) :
    reaches q target (some side) src = .ok (q.reaches src target (some side)) := by
  unfold reaches Position.reaches
  simp only
  split_ifs with hadm
  · have hmove := movementRuling_eq hadm
    simp only at hmove
    rw [hmove, decide_eq_true hadm, Bool.true_and]
    rfl
  · rw [decide_eq_false hadm, Bool.false_and]

theorem anyM_eq {α : Type} {f : α → Except Fault Bool} {g : α → Bool} {l : List α}
    (h : ∀ a ∈ l, f a = .ok (g a)) : l.anyM f = .ok (l.any g) := by
  induction l with
  | nil => rfl
  | cons a l ih =>
      rw [List.anyM, h a List.mem_cons_self, List.any_cons]
      have hrest := ih fun b hb => h b (List.mem_cons_of_mem a hb)
      cases hg : g a with
      | true => rfl
      | false => exact hrest

theorem attacked_eq (p : Position) (hs : s.OnBoard) (side : Side) :
    attacked p s (some side) = .ok (p.attacked s (some side)) := by
  unfold attacked
  rw [look_of_onBoard p hs]
  exact anyM_eq fun src _ => reaches_eq _ s side.opponent src

theorem kingPath_onBoard (hsrc : m.src.OnBoard) (hdst : m.dst.OnBoard)
    (htwo : m.dCol.natAbs = 2) : ∀ s ∈ kingPath m, s.OnBoard := by
  intro s hs
  obtain ⟨k, hk, rfl⟩ := List.mem_map.mp hs
  have hk3 : k < 3 := List.mem_range.mp hk
  simp only [Square.OnBoard, Square.shift, Move.dCol] at *
  rcases Move.sign_cases (m.dst.col - m.src.col) with ⟨hsign, h⟩ | ⟨hsign, h⟩ | ⟨hsign, h⟩ <;>
    rw [hsign] <;> omega

theorem castlingRuling_eq (hadm : p.Admissible m (some side)) :
    castlingRuling p m = .ok (p.castlingRuling m) := by
  have hking : (p.board.get m.src).owner = some side := hadm.owner
  unfold castlingRuling Position.castlingRuling
  rw [look_of_onBoard p hadm.src_onBoard]
  simp only [bind, Except.bind, pure, Except.pure, hking]
  split_ifs with hunmoved
  · have hpath : (kingPath m).anyM (attacked p · (some side)) =
        .ok ((kingPath m).any (p.attacked · (some side))) :=
      anyM_eq fun s hs => attacked_eq p
        (kingPath_onBoard hadm.src_onBoard hadm.dst_onBoard hunmoved.2.2 s hs) side
    have hsafe : (∀ s ∈ kingPath m, p.attacked s (some side) = false) ↔
        (kingPath m).any (p.attacked · (some side)) = false := by
      simp
    rw [hpath]
    simp only [hsafe]
    cases p.firstAlongRow m.src m.dCol.sign with
    | none => rfl
    | some corner =>
        simp only
        cases (kingPath m).any (p.attacked · (some side)) with
        | true => simp
        | false =>
            simp only [and_true, Bool.false_eq_true, if_false]
            split_ifs <;> rfl
  · rfl

theorem kingRuling_eq (hadm : p.Admissible m (some side)) (castling : Bool) :
    kingRuling p m castling = .ok (p.kingRuling m castling) := by
  unfold kingRuling Position.kingRuling
  rw [look_of_onBoard p hadm.src_onBoard, castlingRuling_eq hadm]
  split_ifs <;> rfl

/-- Every move of a player's piece is ruled upon, and as the plain rules do. -/
theorem pieceRuling_eq (p : Position) (m : Move) (side : Side) (castling : Bool) :
    pieceRuling p m (some side) castling = .ok (p.pieceRuling m (some side) castling) := by
  unfold pieceRuling Position.pieceRuling
  split_ifs with hadm
  · have hmovement := movementRuling_eq hadm
    cases hkind : (p.board.get m.src).kind with
    | king => exact kingRuling_eq hadm castling
    | _ =>
        rw [hkind] at hmovement
        exact hmovement
  · rfl

end Arbiter.Position.Guarded
