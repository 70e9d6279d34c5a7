import Arbiter.Proofs.AttackMap
import Arbiter.Proofs.Legality
import Arbiter.Proofs.Traces

/-! # Rules come to an end and keep to the board

For the pieces of a player the traced rules answer as the plain ones, from squares of the board
alone. The rules for single moves and the question about attacked squares use each other. The
question asks for moves without castling, and those ask no such question, so this comes to an end
after one round (`ends_pieceRuling_of`, `ends_attacked`). In the same way a trial leads to one other
trial at most: the move for a queen names its promotion.
-/

namespace Arbiter.Position.Traced

variable {p q : Position} {m : Move} {side : Side} {e : Effects}

theorem follows_slide (p : Position) (m : Move) (direction : Prop) [Decidable direction] :
    Follows p (slide m direction) (Guarded.slide p m direction) := by
  unfold slide Guarded.slide
  split
  · exact .bind (follows_clearPath p m) fun clear => .pure p _
  · exact .pure p _

theorem follows_doubleStep (p : Position) (m : Move) (owner : Option Side) :
    Follows p (doubleStep m owner) (Guarded.doubleStep p m owner) := by
  unfold doubleStep Guarded.doubleStep
  split
  · refine .bind (.lift p _) fun home => ?_
    split
    · exact .look (.pure p _)
    · exact .pure p _
  · exact .pure p _

theorem follows_passes (p : Position) (m : Move) (owner : Option Side) :
    Follows p (passes m owner) (Guarded.passes p m owner) := by
  unfold passes Guarded.passes
  refine .look (.current ?_)
  split
  · exact .bind (.lift p _) fun row => .pure p _
  · exact .pure p _

theorem follows_pawnRuling (p : Position) (m : Move) :
    Follows p (pawnRuling m) (Guarded.pawnRuling p m) := by
  unfold pawnRuling Guarded.pawnRuling
  refine .look ?_
  simp only
  split
  · exact .pure p _
  split
  · refine .look ?_
    split
    · refine .bind (follows_doubleStep p m _) fun double => ?_
      split <;> exact .pure p _
    · exact .pure p _
  split
  · refine .look ?_
    split
    · refine .bind (follows_passes p m _) fun victim => ?_
      split <;> exact .pure p _
    · exact .pure p _
  · exact .pure p _

theorem follows_movementRuling (p : Position) (m : Move) (kind : Kind) :
    Follows p (movementRuling m kind) (Guarded.movementRuling p m kind) := by
  cases kind with
  | empty => exact .fault p _ _
  | pawn => exact follows_pawnRuling p m
  | knight | king => exact .pure p _
  | bishop | rook | queen => exact follows_slide p m _

/-- The attack question is answered on the squares of the board. Castling needs this. -/
def Asks (p : Position) (side : Side) : Prop :=
  ∀ s, s.OnBoard → Ends p (s.attacked (some side)) (p.attacked s (some side)) p

theorem ends_castling (hadm : p.Admissible m (some side)) (hasks : Asks p side)
    (hunmoved : (p.board.get m.src).moves = 0 ∧ m.dRow = 0 ∧ m.dCol.natAbs = 2) :
    Ends p (m.kingRuling true) (p.castlingRuling m) p := by
  have hking : (p.board.get m.src).owner = some side := hadm.owner
  have hlong : ¬ m.KingStep := fun h => by
    have := h.2
    omega
  have hstep : m.dCol.sign = 1 ∨ m.dCol.sign = -1 := by
    rcases Move.sign_cases m.dCol with ⟨hsign, h⟩ | ⟨hsign, h⟩ | ⟨hsign, h⟩ <;> omega
  obtain ⟨corner, hscan, hfirst⟩ := ends_scan p hadm.src_onBoard hstep
  have hpath := Ends.anyM (l := kingPath m) (f := (·.attacked (some side))) fun s hs =>
    hasks s (Guarded.kingPath_onBoard hadm.src_onBoard hadm.dst_onBoard hunmoved.2.2 s hs)
  rw [Move.kingRuling, if_neg hlong, castlingRuling, if_pos hunmoved, hking, hfirst]
  refine (ends_look p hadm.src_onBoard).next ?_
  rw [if_pos ⟨rfl, hunmoved⟩, hking]
  refine hscan.next ?_
  by_cases hon : corner.OnBoard
  · rw [if_neg (not_not_intro hon), if_pos hon]
    refine (ends_look p hon).next ?_
    simp only
    by_cases hrook : (p.board.get corner).kind = .rook ∧
        (p.board.get corner).owner = some side ∧ (p.board.get corner).moves = 0
    · have hsafe : (∀ s ∈ kingPath m, p.attacked s (some side) = false) ↔
          (kingPath m).any (p.attacked · (some side)) = false := by
        simp
      rw [if_pos hrook]
      refine hpath.next ?_
      simp only [hrook, hsafe, true_and]
      cases (kingPath m).any (p.attacked · (some side)) with
      | true => exact .pure p _
      | false => exact .pure p _
    · rw [if_neg hrook, if_neg fun h => hrook ⟨h.1, h.2.1, h.2.2.1⟩]
      exact .pure p _
  · rw [if_pos hon, if_neg hon]
    exact .pure p _

theorem ends_kingRuling {castling : Bool} (hadm : p.Admissible m (some side))
    (hasks : castling = true → Asks p side) :
    Ends p (m.kingRuling castling) (p.kingRuling m castling) p := by
  by_cases hstep : m.KingStep
  · rw [Move.kingRuling, Position.kingRuling, if_pos hstep, if_pos hstep]
    exact .pure p _
  by_cases htry : castling = true ∧
      (p.board.get m.src).moves = 0 ∧ m.dRow = 0 ∧ m.dCol.natAbs = 2
  · obtain ⟨rfl, hunmoved⟩ := htry
    rw [Position.kingRuling, if_neg hstep, if_pos rfl]
    exact ends_castling hadm (hasks rfl) hunmoved
  · have hillegal : p.kingRuling m castling = .illegal := by
      rw [Position.kingRuling, if_neg hstep]
      split
      · next hcastling => exact if_neg fun h => htry ⟨hcastling, h⟩
      · rfl
    rw [Move.kingRuling, if_neg hstep, hillegal]
    refine (ends_look p hadm.src_onBoard).next ?_
    rw [if_neg htry]
    exact .pure p _

/-- The rule for a move, where the attack question is left to castling. -/
theorem ends_pieceRuling_of (p : Position) (m : Move) (side : Side) (castling : Bool)
    (hasks : castling = true → Asks p side) :
    Ends p (m.pieceRuling (some side) castling) (p.pieceRuling m (some side) castling) p := by
  rw [Move.pieceRuling, Position.pieceRuling]
  by_cases hon : m.src.OnBoard ∧ m.dst.OnBoard
  · rw [if_neg (not_not_intro hon)]
    refine (ends_look p hon.1).next ?_
    by_cases hown : (p.board.get m.src).IsEmpty ∨ (p.board.get m.src).owner ≠ some side
    · rw [if_pos hown, if_neg fun h => hown.elim h.occupied fun hne => hne h.owner]
      exact .pure p _
    rw [if_neg hown]
    obtain ⟨hoccupied, howner⟩ := not_or.mp hown
    rw [not_not] at howner
    refine (ends_look p hon.2).next ?_
    by_cases htarget : ¬ (p.board.get m.dst).IsEmpty ∧
        (p.board.get m.dst).owner = (p.board.get m.src).owner
    · rw [if_pos htarget,
        if_neg fun h => h.target.elim htarget.1 fun hne => hne (htarget.2.trans howner)]
      exact .pure p _
    have hadm : p.Admissible m (some side) := by
      refine ⟨hon.1, hon.2, hoccupied, howner, ?_⟩
      rw [← howner]
      tauto
    have hmovement := follows_movementRuling p m _ _ (Guarded.movementRuling_eq hadm)
    rw [if_neg htarget, if_pos hadm]
    unfold Move.kindRuling
    cases hkind : (p.board.get m.src).kind with
    | king => exact ends_kingRuling hadm hasks
    | _ =>
        rw [hkind] at hmovement
        exact hmovement
  · rw [if_pos hon, if_neg fun h => hon ⟨h.src_onBoard, h.dst_onBoard⟩]
    exact .pure p _

theorem reaches_eq_pieceRuling (q : Position) (src target : Square) (attacker : Option Side) :
    q.reaches src target attacker =
      (q.pieceRuling { src, dst := target, promotion := some .queen } attacker false).isLegal := by
  unfold reaches Position.pieceRuling
  by_cases hadm : q.Admissible { src, dst := target, promotion := some .queen } attacker
  · simp only [hadm, decide_true, Bool.true_and, if_true]
    cases (q.board.get src).kind <;> rfl
  · simp only [hadm, decide_false, Bool.false_and, if_false]
    rfl

/-- The pieces are asked for moves without castling, so the question does not come back. The pawn
that is put down for it is taken up again. -/
theorem ends_attacked (p : Position) (side : Side) : Asks p side := by
  intro s hs
  have hmark : Ends p (mark s (some side) (p.board.get s)) () (p.marked s (some side)) := by
    unfold mark marked
    split
    · exact ends_put p hs _
    · exact .pure p _
  have hask : Ends (p.marked s (some side))
      (s.askInTurn (some side.opponent)
        ((p.marked s (some side)).board.squaresOf (some side.opponent)))
      (p.attacked s (some side)) (p.marked s (some side)) := by
    rw [Square.askInTurn]
    refine .anyM fun src _ => ?_
    rw [reaches_eq_pieceRuling]
    exact (ends_pieceRuling_of _ _ side.opponent false nofun).next (.pure _ _)
  have hback := ends_put (p.marked s (some side)) hs (p.board.get s)
  rw [unmark] at hback
  rw [Square.attacked]
  exact (ends_look p hs).next (hmark.next (.current (hask.putBack hback)))

theorem ends_pieceRuling (p : Position) (m : Move) (side : Side) (castling : Bool) :
    Ends p (m.pieceRuling (some side) castling) (p.pieceRuling m (some side) castling) p :=
  ends_pieceRuling_of p m side castling fun _ => ends_attacked p side

theorem ends_inCheck (p : Position) (side : Side) :
    Ends p (inCheck (some side)) (p.inCheck (some side)) p := by
  unfold inCheck Position.inCheck
  apply Ends.current
  cases hking : p.board.king? (some side) with
  | none => exact .pure p true
  | some s =>
      have hs : s ∈ Square.all := List.mem_of_find?_eq_some hking
      exact ends_attacked p side s (Square.mem_all.mp hs)

theorem ends_relocate {src dst : Square} (p : Position) (hsrc : src.OnBoard)
    (hdst : dst.OnBoard) :
    Ends p (relocate src dst) () { p with board := p.board.relocate src dst p.plies } :=
  (ends_look p hsrc).next ((ends_put p hsrc .vacant).next (.current (ends_put _ hdst _)))

theorem ends_execute (p : Position) (h : Apart m e) : Ends p (execute m e) () (p.play m e) := by
  have hcaptured : Ends p (e.captured.elim (pure ()) fun s => put s .vacant) ()
      { p with board := e.captured.elim p.board fun s => p.board.put s .vacant } :=
    .elim fun s hs => ends_put p (h.captured s hs).1 .vacant
  have hpromotion (q : Position) : Ends q (e.promotion.elim (pure ()) (promote m.dst)) ()
      { q with board := e.promotion.elim q.board (q.board.promote m.dst) } :=
    .elim fun kind _ => ends_alter q h.dst fun c => { c with kind }
  have hcastle (q : Position) :
      Ends q (e.castle.elim (pure ()) fun rook => relocate rook.src rook.dst) ()
        { q with board := e.castle.elim q.board fun rook =>
                   q.board.relocate rook.src rook.dst q.plies } :=
    .elim fun rook hrook => ends_relocate q (h.castle rook hrook).1.1 (h.castle rook hrook).2.1
  unfold execute
  exact (ends_look p h.dst).next (hcaptured.next ((Ends.update _ _).next
    ((ends_relocate _ h.src h.dst).next ((hpromotion _).next ((hcastle _).next (.update _ _))))))

/-- The moves that are tried out on the way to a ruling: the move itself, and then the same move for
a queen where a promotion has to be named. -/
def trials (p : Position) (m : Move) : List Move :=
  if p.pieceRuling m (some p.toMove) true = .needsPromotion then [m, m.promoting .queen] else [m]

theorem trials_promoting (p : Position) (m : Move) :
    trials p (m.promoting .queen) = [m.promoting .queen] :=
  if_neg fun h => (pieceRuling_eq_needsPromotion.mp h).2.2.2 .queen (by decide) rfl

theorem ends_ruling_of {tried : List Move} (h : Ends p m.attempt (p.attempt m).1 q tried) :
    Ends p m.ruling (p.ruling m) p
      (if p.pieceRuling m (some p.toMove) true = .illegal then [] else tried) := by
  rw [Move.ruling]
  refine .current ((ends_pieceRuling p m p.toMove true).next ?_)
  split
  · next hillegal =>
      rw [Position.ruling, Position.attempt, hillegal]
      exact .pure p _
  · exact h.onCopy

theorem ends_attempt_of_decided (h : p.pieceRuling m (some p.toMove) true ≠ .needsPromotion) :
    Ends p m.attempt (p.attempt m).1 (p.attempt m).2 [m] := by
  rw [Move.attempt, Position.attempt]
  refine .note (.current ((ends_pieceRuling p m p.toMove true).next ?_))
  cases hpiece : p.pieceRuling m (some p.toMove) true with
  | illegal => exact .pure p _
  | needsPromotion => exact absurd hpiece h
  | legal e =>
      obtain ⟨hadm, hallows⟩ := pieceRuling_eq_legal.mp hpiece
      have hplay := ends_execute p (apart_of_allows hadm hallows)
      refine .current (hplay.next ((ends_inCheck (p.play m e) p.toMove).next ?_))
      simp only [settle]
      cases (p.play m e).inCheck (some p.toMove) with
      | true => exact (Ends.update _ _).next (.pure p _)
      | false => exact .pure _ _

/-- Where a promotion has to be named, the rules allow the move for a queen. -/
theorem legal_of_needsPromotion (h : p.pieceRuling m (some side) true = .needsPromotion) :
    ∃ e, p.pieceRuling (m.promoting .queen) (some side) true = .legal e := by
  obtain ⟨hadm, ⟨hpawn, hrow⟩, ⟨honward, captured, way⟩, -⟩ := pieceRuling_eq_needsPromotion.mp h
  have becomes : p.Becomes (m.promoting .queen) (some .queen) := by
    rw [Becomes, if_pos]
    · exact ⟨.queen, by decide, rfl, rfl⟩
    · exact hrow
  exact ⟨_, pieceRuling_eq_legal.mpr
    ⟨hadm, .pawn hpawn honward (way.rechosen (some .queen)) becomes⟩⟩

theorem ends_attempt (p : Position) (m : Move) :
    Ends p m.attempt (p.attempt m).1 (p.attempt m).2 (trials p m) := by
  by_cases hneeds : p.pieceRuling m (some p.toMove) true = .needsPromotion
  · obtain ⟨e, hqueen⟩ := legal_of_needsPromotion hneeds
    have hprobe := ends_ruling_of (ends_attempt_of_decided (p := p) (m := m.promoting .queen)
      (by simp [hqueen]))
    rw [if_neg (by simp [hqueen])] at hprobe
    have hattempt : p.attempt m =
        (if (p.ruling (m.promoting .queen)).isLegal then .needsPromotion else .illegal, p) := by
      rw [Position.attempt, hneeds, Position.ruling, Position.attempt, hqueen]
      cases hsettle : p.settle (m.promoting .queen) e <;> simp [hsettle, Ruling.isLegal]
    rw [Move.attempt, trials, if_pos hneeds, hattempt]
    refine .note (.current ((ends_pieceRuling p m p.toMove true).next ?_))
    rw [hneeds]
    refine hprobe.last ?_
    split <;> exact .pure p _
  · rw [trials, if_neg hneeds]
    exact ends_attempt_of_decided hneeds

/-- Whatever is asked about a move, wherever it leads, the rules come to an end and touch squares of
the board only: the ruling on a piece's move, a trial of it on the position or on a copy, and the
question whether a square is attacked. The answers are those of the plain rules. A trial goes on to
at most one other, for a queen, which goes on to none. Every walk stops, also off the lines, and on
the lines of the board it stays there, as does the search for a rook along a row. -/
theorem rules_end_within_board (p : Position) (m : Move) (side : Side) (castling : Bool) :
    Ends p (m.pieceRuling (some side) castling) (p.pieceRuling m (some side) castling) p ∧
      Ends p m.attempt (p.attempt m).1 (p.attempt m).2 (trials p m) ∧
      Ends p m.ruling (p.ruling m) p
        (if p.pieceRuling m (some p.toMove) true = .illegal then [] else trials p m) ∧
      trials p (m.promoting .queen) = [m.promoting .queen] ∧
      (∀ s, s.OnBoard → Ends p (s.attacked (some side)) (p.attacked s (some side)) p) ∧
      (∀ w, (clearPath m w).isSome) ∧
      (m.src.OnBoard → m.dst.OnBoard → m.src ≠ m.dst → m.Lined →
        Ends p (clearPath m) (decide (p.ClearPath m)) p) ∧
      ∀ s step, s.OnBoard → step = 1 ∨ step = -1 → ∃ t, Ends p ((s.shift 0 step).scan step) t p ∧
        p.firstAlongRow s step = if t.OnBoard then some t else none := by
  refine ⟨ends_pieceRuling p m side castling, ends_attempt p m, ends_ruling_of (ends_attempt p m),
    trials_promoting p m, ends_attacked p side, clearPath_stops m, ?_,
    fun s step hs hstep => ends_scan p hs hstep⟩
  intro hsrc hdst hne hline
  exact follows_clearPath p m _ (Guarded.clearPath_eq p hline hsrc hdst hne)

/-- White may castle with the rook on h1, or promote on a8, where black's rook looks. -/
def twoPlans : Position where
  board := ((((Board.bare.put ⟨7, 4⟩ { kind := .king, owner := some .white }).put ⟨7, 7⟩
    { kind := .rook, owner := some .white }).put ⟨1, 0⟩
    { kind := .pawn, owner := some .white, moves := 5 }).put ⟨0, 7⟩
    { kind := .king, owner := some .black }).put ⟨0, 3⟩ { kind := .rook, owner := some .black }

def toLastRow : Move := { src := ⟨1, 0⟩, dst := ⟨0, 0⟩ }

/-- The pawn is tried out a second time, as a queen, and nothing looks beyond the edge on which all
this happens. -/
theorem toLastRow_within_board :
    (⟨0, 0⟩ : Square).OnBoard ∧ toLastRow.src.OnBoard ∧ toLastRow.src ≠ toLastRow.dst ∧
      toLastRow.Lined ∧
      Ends twoPlans toLastRow.attempt .needsPromotion twoPlans
        [toLastRow, toLastRow.promoting .queen] ∧
      Ends twoPlans ((⟨0, 0⟩ : Square).attacked (some .white)) true twoPlans ∧
      Ends twoPlans (clearPath toLastRow) true twoPlans ∧
      ∃ t, Ends twoPlans ((⟨7, 5⟩ : Square).scan 1) t twoPlans ∧
        twoPlans.firstAlongRow ⟨7, 4⟩ 1 = if t.OnBoard then some t else none := by
  have hcorner : (⟨0, 0⟩ : Square).OnBoard := by decide
  have hsrc : toLastRow.src.OnBoard := by decide
  have hne : toLastRow.src ≠ toLastRow.dst := by decide
  have hline : toLastRow.Lined := .inl (.inr rfl)
  obtain ⟨-, htrial, -, -, hattacked, -, hpath, hscan⟩ :=
    rules_end_within_board twoPlans toLastRow .white true
  have hattempt : twoPlans.attempt toLastRow = (.needsPromotion, twoPlans) := by decide +kernel
  have htrials : trials twoPlans toLastRow = [toLastRow, toLastRow.promoting .queen] := by
    decide +kernel
  rw [hattempt, htrials] at htrial
  refine ⟨hcorner, hsrc, hne, hline, htrial, ?_, ?_, hscan ⟨7, 4⟩ 1 (by decide) (.inl rfl)⟩
  · have hanswer : twoPlans.attacked ⟨0, 0⟩ (some .white) = true := by decide +kernel
    rw [← hanswer]
    exact hattacked _ hcorner
  · have hanswer : decide (twoPlans.ClearPath toLastRow) = true := by decide +kernel
    rw [← hanswer]
    exact hpath hsrc hcorner hne hline

end Arbiter.Position.Traced
