import Arbiter.Proofs.Restoring

/-! # The window for taking in passing

A pawn may be taken in passing on the ply right after its double step, and never otherwise. The rules
and the descriptor find this pawn by different tests of its counters; in games in which no pawn
started behind its home row both find the pawn of the latest move, if that was a step of two squares,
and nothing else.
-/

namespace Arbiter

/-- The square halfway of a move along a column. -/
def Move.skipped (m : Move) : Square := ⟨(m.src.row + m.dst.row) / 2, m.dst.col⟩

namespace Position

open Descriptor (JustDoubled passingSquare)

variable {p : Position} {m : Move} {e : Effects} {side : Side} {s victim : Square}

/-- A pawn goes two squares at once. -/
def TwoSquareStep (p : Position) (m : Move) : Prop :=
  (p.board.get m.src).kind = .pawn ∧ m.dRow.natAbs = 2

/-- A pawn of the player to move stands directly beside a square. -/
def PawnBeside (p : Position) (src s : Square) : Prop :=
  ((p.board.get src).kind = .pawn ∧ (p.board.get src).owner = some p.toMove) ∧
    src.row = s.row ∧ (src.col - s.col).natAbs = 1

/-- No pawn stands on the row behind the one from which its player's pawns start. -/
def NoPawnBehind (p : Position) : Prop :=
  ∀ s side, (p.board.get s).kind = .pawn → (p.board.get s).owner = some side →
    s.row ≠ side.homeRow - Side.forward (some side)

instance (p : Position) (m : Move) : Decidable (p.TwoSquareStep m) := by
  unfold TwoSquareStep; infer_instance

/-- In any position the moves that take in passing are the diagonal steps behind a pawn that seems to
have just made a double step, by pawns beside it. -/
theorem takes_passing_iff :
    (∃ e, p.pieceRuling m (some p.toMove) true = .legal e ∧ e.captured = some victim) ↔
      JustDoubled p victim ∧ p.PawnBeside m.src victim ∧
        m.dst = victim.shift (-Side.forward (some p.toMove.opponent)) 0 ∧
          (p.board.get m.dst).IsEmpty := by
  have hforward : Side.forward (some p.toMove) = -Side.forward (some p.toMove.opponent) := by
    cases p.toMove <;> rfl
  constructor
  · intro prem
    obtain ⟨e, hlegal, hcaptured⟩ := prem
    obtain ⟨hadm, hallows⟩ := pieceRuling_eq_legal.mp hlegal
    have hmover : p.mover m = some p.toMove := hadm.owner
    cases hallows with
    | strike => cases hcaptured
    | castle => cases hcaptured
    | pawn piece _ way =>
        cases way with
        | advance => cases hcaptured
        | take => cases hcaptured
        | pass hway hvacant hvictim =>
            cases hcaptured
            obtain ⟨hrow, hdoubled⟩ := (pawnPasses_iff_justDoubled hmover).mp hvictim
            obtain ⟨hcol, hahead⟩ := hway
            rw [hmover, hforward] at hahead
            simp only [Move.dCol, Move.dRow] at hcol hahead
            refine ⟨hdoubled, ⟨⟨piece, hmover⟩, rfl, ?_⟩, ?_, hvacant⟩
            · simp only [passedSquare]
              omega
            · simp only [Square.ext_iff, passedSquare, Square.shift]
              omega
  · intro prem
    obtain ⟨hdoubled, ⟨⟨hpawn, howner⟩, hbeside, hcol⟩, hdst, hvacant⟩ := prem
    have hmover : p.mover m = some p.toMove := howner
    have hsrc : m.src.OnBoard := onBoard_of_occupied (Cell.occupied_of_kind hpawn (by decide))
    have hon : victim.OnBoard :=
      onBoard_of_occupied (Cell.occupied_of_kind hdoubled.1 (by decide))
    have hrow := hdoubled.2.2.1
    have hpassed : passedSquare m = victim := by
      simp [passedSquare, hdst, hbeside, Square.shift]
    have hdiagonal : p.PawnDiagonal m := by
      rw [PawnDiagonal, hmover, hforward]
      simp only [Move.dCol, Move.dRow, hdst, Square.shift]
      omega
    have hdstOn : m.dst.OnBoard := by
      rw [hdst]
      simp only [Square.OnBoard, Square.shift] at hon ⊢
      revert hrow
      cases p.toMove <;> simp [Side.opponent, Side.forward, Side.homeRow] <;> omega
    have hpasses : p.PawnPasses m := by
      refine (pawnPasses_iff_justDoubled hmover).mpr ⟨?_, hpassed ▸ hdoubled⟩
      rw [hbeside, hrow]
      cases p.toMove <;> rfl
    have hbecomes : p.Becomes m none := by
      rw [Becomes, if_neg]
      rw [hmover, hdst]
      simp only [Square.shift, hrow]
      cases p.toMove <;> decide
    have hadm : p.Admissible m (some p.toMove) :=
      ⟨hsrc, hdstOn, Cell.occupied_of_kind hpawn (by decide), hmover, .inl hvacant⟩
    refine ⟨_, pieceRuling_eq_legal.mpr ⟨hadm, .pawn hpawn (ahead_onBoard hsrc hdstOn hdiagonal)
      (.pass hdiagonal hvacant hpasses) hbecomes⟩, congrArg some hpassed⟩

theorem Allows.twoSquareStep (h : p.Allows m e) (hadm : p.Admissible m (some p.toMove))
    (htwo : p.TwoSquareStep m) :
    p.DoubleStep m ∧ (m.dCol = 0 ∧ (p.board.get m.skipped).IsEmpty) ∧ e.captured = none ∧
      e.castle = none := by
  obtain ⟨hpawn, htwo⟩ := htwo
  have hmover : p.mover m = some p.toMove := hadm.owner
  have hone : (Side.forward (some p.toMove)).natAbs = 1 := by
    cases p.toMove <;> rfl
  cases h with
  | strike piece => exact absurd hpawn piece
  | castle way => cases hpawn.symm.trans way.king
  | pawn _ _ way =>
      cases way with
      | take hway =>
          rw [hway.2, hmover] at htwo
          omega
      | pass hway =>
          rw [hway.2, hmover] at htwo
          omega
      | advance hway =>
          obtain ⟨hcol, hahead, hdst | ⟨hrow, hhome, -⟩⟩ := hway
          · have hrow := congrArg Square.row hdst
            simp only [ahead, Square.shift, hmover] at hrow
            simp only [Move.dRow] at htwo
            omega
          · rw [hmover] at hrow hhome
            have hhome' : m.src.row = p.toMove.homeRow := (Option.some.inj hhome).symm
            have hskipped : p.ahead m = m.skipped := by
              simp only [ahead, Move.skipped, Square.ext_iff, Square.shift, hmover]
              simp only [Move.dRow, Move.dCol] at hrow hcol
              omega
            refine ⟨⟨hpawn, hhome', ?_⟩, ⟨hcol, hskipped ▸ hahead⟩, rfl, rfl⟩
            simp only [Move.dRow] at hrow
            omega

theorem DoubleStep.skipped (h : p.DoubleStep m) :
    m.skipped = m.dst.shift (-Side.forward (some p.toMove)) 0 := by
  obtain ⟨-, hsrc, hdst⟩ := h
  simp only [Move.skipped, Square.ext_iff, Square.shift]
  omega

theorem DoubleStep.twoSquareStep (h : p.DoubleStep m) : p.TwoSquareStep m := by
  obtain ⟨hpawn, hsrc, hdst⟩ := h
  refine ⟨hpawn, ?_⟩
  simp only [Move.dRow]
  rw [hsrc, hdst]
  cases p.toMove <;> decide

theorem Tracked.justDoubled_iff (hp : p.Tracked) (hadm : p.Admissible m (some p.toMove))
    (h : p.Allows m e) : JustDoubled (p.play m e) s ↔ s = m.dst ∧ p.TwoSquareStep m := by
  rw [hp.justDoubled_play hadm h]
  exact and_congr_right fun _ =>
    ⟨DoubleStep.twoSquareStep, fun htwo => (h.twoSquareStep hadm htwo).1⟩

theorem Allows.skipped_vacant (h : p.Allows m e) (hadm : p.Admissible m (some p.toMove))
    (htwo : p.TwoSquareStep m) : ((p.play m e).board.get m.skipped).IsEmpty := by
  obtain ⟨⟨-, hsrc, hdst⟩, ⟨hcol, hvacant⟩, hcaptured, hcastle⟩ := h.twoSquareStep hadm htwo
  have huntouched : ¬ Touches m e m.skipped := by
    have hmid : m.skipped.row ≠ m.src.row ∧ m.skipped.row ≠ m.dst.row := by
      simp only [Move.skipped, hsrc, hdst]
      cases p.toMove <;> decide
    simp only [Touches, hcaptured, hcastle, reduceCtorEq, false_and, exists_false, or_false]
    exact not_or.mpr ⟨fun h => hmid.1 (congrArg Square.row h),
      fun h => hmid.2 (congrArg Square.row h)⟩
  rwa [get_play_of_not_touches huntouched]

theorem Tracked.passingSquare_play (hp : p.Tracked) (hadm : p.Admissible m (some p.toMove))
    (h : p.Allows m e) :
    passingSquare (p.play m e) = if p.TwoSquareStep m then some m.skipped else none := by
  cases hpassing : passingSquare (p.play m e) with
  | none =>
      have hno := passingSquare_eq_none (s := m.dst) hpassing
      rw [hp.justDoubled_iff hadm h] at hno
      rw [if_neg fun htwo => hno ⟨rfl, htwo⟩]
  | some behind =>
      obtain ⟨t, ht, rfl⟩ := passingSquare_eq_some hpassing
      obtain ⟨rfl, htwo⟩ := (hp.justDoubled_iff hadm h).mp ht
      rw [if_pos htwo, (h.twoSquareStep hadm htwo).1.skipped, toMove_play, Side.opponent_opponent]

/-- The moves that take in passing after a move: diagonal steps onto the square that it skipped. -/
theorem Tracked.takes_passing_play (hp : p.Tracked) (hadm : p.Admissible m (some p.toMove))
    (h : p.Allows m e) {n : Move} :
    (∃ e', (p.play m e).pieceRuling n (some (p.play m e).toMove) true = .legal e' ∧
        e'.captured = some victim) ↔
      p.TwoSquareStep m ∧ victim = m.dst ∧ n.dst = m.skipped ∧
        (p.play m e).PawnBeside n.src m.dst := by
  rw [takes_passing_iff, hp.justDoubled_iff hadm h, toMove_play, Side.opponent_opponent]
  constructor
  · intro prem
    obtain ⟨⟨rfl, htwo⟩, hbeside, hdst, -⟩ := prem
    refine ⟨htwo, rfl, ?_, hbeside⟩
    rw [hdst, (h.twoSquareStep hadm htwo).1.skipped]
  · intro prem
    obtain ⟨htwo, rfl, hdst, hbeside⟩ := prem
    refine ⟨⟨rfl, htwo⟩, hbeside, ?_, ?_⟩
    · rw [hdst, (h.twoSquareStep hadm htwo).1.skipped]
    · rw [hdst]
      exact h.skipped_vacant hadm htwo

theorem tracked_of_text {text : String} (h : Descriptor.position text = .ok p)
    (hpawns : p.NoPawnBehind) : p.Tracked := by
  obtain ⟨d, hread, hsetup⟩ := Descriptor.position_eq_ok.mp h
  have hclock : 0 ≤ p.plies := by
    rw [(Descriptor.clocks_of_setup hsetup).1]
    exact Descriptor.plies_nonneg hread
  refine ⟨hclock, Descriptor.stamps_of_setup hsetup hclock, Descriptor.counts_of_setup hsetup,
    fun s side hkind howner => ?_⟩
  have hon : s.OnBoard := onBoard_of_occupied (Cell.occupied_of_kind hkind (by decide))
  have hbehind := hpawns s side hkind howner
  have hcell : Descriptor.SetUp d s (p.board.get s) := by
    refine (Descriptor.setUp_of_setup hsetup hon).resolve_left fun hvacant => ?_
    rw [hvacant] at hkind
    cases hkind
  constructor
  · simp only [Square.OnBoard] at hon
    cases side <;> simp [Side.homeRow, Side.forward] at hbehind ⊢ <;> omega
  · rcases hcell.moves with hmoves | ⟨-, right, hright, rfl⟩
    · have hrow : ((s.row.toNat : Nat) : Int) = s.row := Int.toNat_of_nonneg hon.1.1
      rw [hmoves]
      simp only [Cell.presumedMoves, hkind, howner, Option.map_some, Option.some.injEq, hrow,
        eq_comm (a := side.homeRow)]
      split_ifs with hhome <;> simp [hhome]
    · cases (Descriptor.rookHome_of_setup hsetup hright).1.symm.trans hkind

end Position

namespace Game

open Position

variable {g g' g₀ : Game} {m : Move}

/-- A game starts cleanly from the initial position, and from a descriptor whose position has no
pawn behind its home row. -/
inductive CleanStart : Game → Prop where
  | initial : CleanStart .initial
  | text {text : String} {g : Game} (read : ofDescriptor text = .ok g)
      (pawns : g.position.NoPawnBehind) : CleanStart g

theorem CleanStart.tracked (h : CleanStart g) : g.position.Tracked := by
  cases h with
  | initial => exact regular_initial.tracked
  | text read pawns => exact tracked_of_text (position_of_ofDescriptor read) pawns

theorem Run.tracked (hstart : CleanStart g₀) (hrun : Run g₀ g) : g.position.Tracked :=
  hrun.invariant (fun g => g.position.Tracked) hstart.tracked fun {a b m e} played htracked => by
    rw [played.position]
    exact htracked.play played.admissible played.allows

/-- After a move in a game that started cleanly, the fourth part of the text names a square exactly
if the move was a pawn's step of two squares, and then it is the square that the pawn skipped. The
moves that take in passing are then the steps onto that square by pawns directly beside the pawn,
which is what they take; after other moves there are none. -/
theorem passing_window_is_one_ply (hstart : CleanStart g₀) (hrun : Run g₀ g)
    (made : Makes g m g') :
    (∃ field, (Text.fields ' ' g'.position.text.toList)[3]? = some field ∧
      (field ≠ ['-'] ↔ g.position.TwoSquareStep m) ∧
      (g.position.TwoSquareStep m → field = m.skipped.name.toList)) ∧
    ∀ n victim, (∃ e, g'.position.pieceRuling n (some g'.toMove) true = .legal e ∧
        e.captured = some victim) ↔
      g.position.TwoSquareStep m ∧ victim = m.dst ∧ n.dst = m.skipped ∧
        g'.position.PawnBeside n.src m.dst := by
  obtain ⟨e, played⟩ := made.played
  have htracked := Run.tracked hstart hrun
  have hpassing := htracked.passingSquare_play played.admissible played.allows
  rw [← played.position] at hpassing
  constructor
  · refine ⟨(Descriptor.passingSquare g'.position).elim ['-'] fun s => s.name.toList, ?_, ?_, ?_⟩
    · rw [fields_text]
      rfl
    · split_ifs at hpassing with htwo
      · rw [hpassing]
        exact iff_of_true (Descriptor.name_ne_dash (behindDouble_passingSquare hpassing)) htwo
      · rw [hpassing]
        exact iff_of_false (fun h => h rfl) htwo
    · intro htwo
      rw [hpassing, if_pos htwo]
      rfl
  · intro n victim
    rw [toMove, played.position]
    exact htracked.takes_passing_play played.admissible played.allows

/-- The white king's pawn and the black queen's pawn, each two steps from the place where they will
meet. -/
def pawnsApart : Game :=
  (ofDescriptor "4k3/3p4/8/8/4P3/8/8/4K3 w - - 0 1").toOption.getD .initial

/-- White's pawn has advanced. -/
def pawnAdvanced : Game := (pawnsApart.playText "e4e5").game

/-- Black's pawn steps past it. -/
def stepPast : Move := { src := ⟨1, 3⟩, dst := ⟨3, 3⟩ }

theorem pawnsApart_cleanStart : CleanStart pawnsApart := by
  have hread : ofDescriptor "4k3/3p4/8/8/4P3/8/8/4K3 w - - 0 1" = .ok pawnsApart := by
    decide +kernel
  have hpawns : ∀ s ∈ Square.all, (pawnsApart.position.board.get s).kind = .pawn →
      s.row ≠ 0 ∧ s.row ≠ 7 := by
    decide +kernel
  refine .text hread fun s side hkind _ => ?_
  have hon : s.OnBoard := onBoard_of_occupied (Cell.occupied_of_kind hkind (by decide))
  obtain ⟨hfirst, hlast⟩ := hpawns s (Square.mem_all.mpr hon) hkind
  cases side
  · exact hlast
  · exact hfirst

/-- White's pawn takes the other one in passing. -/
theorem stepPast_taken_in_passing :
    (CleanStart pawnsApart ∧ Run pawnsApart pawnAdvanced ∧
      Makes pawnAdvanced stepPast (pawnAdvanced.play stepPast).game) ∧
      ∃ e, (pawnAdvanced.play stepPast).game.position.pieceRuling
        { src := ⟨3, 4⟩, dst := ⟨2, 3⟩ } (some .white) true = .legal e ∧
          e.captured = some ⟨3, 3⟩ := by
  have advanced : (pawnsApart.playText "e4e5").result = .ok .inProgress := by decide +kernel
  have stepped : (pawnAdvanced.play stepPast).result = .ok .inProgress := by decide +kernel
  have hrun : Run pawnsApart pawnAdvanced := .single (.notated advanced)
  have made : Makes pawnAdvanced stepPast (pawnAdvanced.play stepPast).game := .move stepped
  have hmove : (pawnAdvanced.play stepPast).game.toMove = .white := by decide +kernel
  have htakes : pawnAdvanced.position.TwoSquareStep stepPast ∧
      (pawnAdvanced.play stepPast).game.position.PawnBeside ⟨3, 4⟩ stepPast.dst := by
    unfold PawnBeside
    decide +kernel
  refine ⟨⟨pawnsApart_cleanStart, hrun, made⟩, ?_⟩
  rw [← hmove]
  exact ((passing_window_is_one_ply pawnsApart_cleanStart hrun made).2 _ _).mpr
    ⟨htakes.1, rfl, rfl, htakes.2⟩

end Game
end Arbiter
