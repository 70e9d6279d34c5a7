import Arbiter.Proofs.Restoring

/-! # Castling and the history of a game

No position keeps castling rights, and no rule looks at the moves that were made. Yet in a game from
the initial position a right to castle is what it should be: it is lost by the first move that
starts or ends on the home square of its king or of its rook, and by nothing else. The king castles
exactly with the rights that are left, and the text of the position names them.
-/

namespace Arbiter

/-- The direction along the row in which a king castles. -/
def Wing.step : Wing → Int
  | .kingSide => 1
  | .queenSide => -1

/-- The number of squares between the homes of the king and of the rook. -/
def Wing.gap : Wing → Nat
  | .kingSide => 2
  | .queenSide => 3

namespace CastlingRight

/-- The move neither starts nor ends at the home squares of the right. -/
def Spared (right : CastlingRight) (m : Move) : Prop :=
  (m.src ≠ right.kingHome ∧ m.dst ≠ right.kingHome) ∧
    (m.src ≠ right.rookHome ∧ m.dst ≠ right.rookHome)

instance (right : CastlingRight) (m : Move) : Decidable (right.Spared m) := by
  unfold Spared; infer_instance

/-- No move of a history has started or ended at the home squares of the right. -/
def Kept (right : CastlingRight) (ms : List Move) : Prop := ∀ m ∈ ms, right.Spared m

instance (right : CastlingRight) (ms : List Move) : Decidable (right.Kept ms) := by
  unfold Kept; infer_instance

variable {right : CastlingRight}

theorem kingTarget_eq (right : CastlingRight) :
    right.kingTarget = right.kingHome.shift 0 (right.wing.step * 2) := by
  rcases right with ⟨_ | _, _ | _⟩ <;> rfl

theorem rookTarget_eq (right : CastlingRight) :
    right.rookTarget = right.kingHome.shift 0 right.wing.step := by
  rcases right with ⟨_ | _, _ | _⟩ <;> rfl

theorem rookHome_eq (right : CastlingRight) : right.rookHome =
    right.kingHome.shift 0 (right.wing.step * (right.wing.gap + 1 : Nat)) := by
  rcases right with ⟨_ | _, _ | _⟩ <;> rfl

theorem between_homes (right : CastlingRight) :
    Move.between { src := right.kingHome, dst := right.rookHome } =
      (List.range right.wing.gap).map fun k =>
        right.kingHome.shift 0 (right.wing.step * (k + 1 : Nat)) := by
  rcases right with ⟨_ | _, _ | _⟩ <;> rfl

theorem kingTarget_onBoard (right : CastlingRight) : right.kingTarget.OnBoard := by
  rcases right with ⟨_ | _, _ | _⟩ <;> decide

theorem eq_of_kingTarget {right' : CastlingRight} (hside : right'.side = right.side)
    (h : right'.kingTarget = right.kingTarget) : right' = right := by
  have hcol := congrArg Square.col h
  rcases right with ⟨_, _ | _⟩ <;> rcases right' with ⟨_, _ | _⟩ <;> cases hside <;>
    first | rfl | cases hcol

theorem letter_mem_write {rights : List CastlingRight} (h : rights.Sublist all) :
    right.letter ∈ write rights ↔ right ∈ rights := by
  have hmem : right ∈ read (write rights) ↔ right.letter ∈ write rights := by
    simp [read]
  rw [← hmem, (read_write h).2.1]

end CastlingRight

namespace Position

open Descriptor (HasRight ofPosition)

variable {p : Position} {m : Move} {e : Effects} {right : CastlingRight} {side : Side}
variable {corner : Square}

theorem firstAlongRow_corner :
    p.firstAlongRow right.kingHome right.wing.step = some right.rookHome ↔
      ¬ (p.board.get right.rookHome).IsEmpty ∧
        p.ClearPath { src := right.kingHome, dst := right.rookHome } := by
  rw [firstAlongRow_eq_some_iff]
  apply and_congr_right
  intro _
  have hclear : p.ClearPath { src := right.kingHome, dst := right.rookHome } ↔
      ∀ j : Nat, j < right.wing.gap →
        (p.board.get (right.kingHome.shift 0 (right.wing.step * (j + 1 : Nat)))).IsEmpty := by
    rw [ClearPath, right.between_homes]
    simp
  rw [hclear]
  constructor
  · intro prem
    obtain ⟨k, -, hk, before⟩ := prem
    have hgap : k = right.wing.gap := by
      have hcol := congrArg Square.col (right.rookHome_eq.symm.trans hk)
      simp only [Square.shift] at hcol
      cases hwing : right.wing <;> simp only [hwing, Wing.step, Wing.gap] at hcol ⊢ <;> omega
    exact hgap ▸ before
  · intro before
    have hgap : right.wing.gap < 7 := by
      cases right.wing <;> decide
    exact ⟨right.wing.gap, hgap, right.rookHome_eq, before⟩

theorem Regular.right_of_castles (hp : p.Regular) (hadm : p.Admissible m (some side))
    (way : p.Castles m corner) : ∃ right : CastlingRight, right.side = side ∧
      HasRight p.board right ∧ (m.src = right.kingHome ∧ m.dst = right.kingTarget) ∧
        corner = right.rookHome ∧ m.dCol.sign = right.wing.step := by
  have hready := way.ready hadm
  obtain ⟨right, rfl, hking, rfl⟩ := hp.home side m.src corner hready
  rw [← hking] at hready
  have hsign : m.dCol.sign = right.wing.step := by
    obtain ⟨k, -, hk, -⟩ := way.corner_spec
    have hcol := congrArg Square.col (right.rookHome_eq.symm.trans hk)
    simp only [Square.shift, hking] at hcol
    rcases way.sign with ⟨hsign, -⟩ | ⟨hsign, -⟩ <;> rw [hsign] at hcol ⊢ <;>
      cases hwing : right.wing <;> simp only [hwing, Wing.step, Wing.gap] at hcol ⊢ <;> omega
  refine ⟨right, rfl, hready, ⟨hking.symm, ?_⟩, rfl, hsign⟩
  rw [way.dst_eq, hsign, ← hking, right.kingTarget_eq]

/-- A move that spares the home squares of a right leaves king and rook there alone. In particular
castling moves no rook whose king is not the one that moves. -/
theorem Regular.not_touches_of_spared (hp : p.Regular) (hadm : p.Admissible m (some p.toMove))
    (h : p.Allows m e) (hright : HasRight p.board right) (hspared : right.Spared m) :
    ¬ Touches m e right.kingHome ∧ ¬ Touches m e right.rookHome := by
  obtain ⟨⟨hking, hkingOwner, -⟩, hrook, hrookOwner, -⟩ := hright
  obtain ⟨⟨hkingSrc, -⟩, hrookSrc, hrookDst⟩ := hspared
  refine ⟨hp.king_untouched hadm h ⟨hking, hkingOwner⟩ hkingSrc.symm, fun htouches => ?_⟩
  rcases htouches with hs | hs | hs | ⟨hop, hhop, hs⟩
  · exact hrookSrc hs.symm
  · exact hrookDst hs.symm
  · cases hrook.symm.trans (h.captured_pawn hs)
  · rcases hs with hs | hs
    · obtain ⟨right', hside, -, ⟨hsrc, -⟩, -⟩ := hp.right_of_castles hadm (h.castles hhop).1
      rw [hs, (h.hop_rook hhop).2] at hrookOwner
      have hsame : right.side = right'.side :=
        (Option.some.inj (hrookOwner.symm.trans hadm.owner)).trans hside.symm
      have hhome : right.kingHome = right'.kingHome := by
        simp only [CastlingRight.kingHome, CastlingRight.backRow, hsame]
      exact hkingSrc (hsrc.trans hhome.symm)
    · have hvacant := hp.landing_vacant hadm h hhop
      rw [← hs] at hvacant
      exact Cell.occupied_of_kind hrook (by decide) hvacant

theorem Regular.hasRight_play (hp : p.Regular) (hadm : p.Admissible m (some p.toMove))
    (h : p.Allows m e) :
    HasRight (p.play m e).board right ↔ right.Spared m ∧ HasRight p.board right := by
  rw [hasRight_iff_ready, hp.toSound.ready_play (apart_of_allows hadm h), ← hasRight_iff_ready]
  apply and_congr_left
  intro hright
  constructor
  · intro prem
    obtain ⟨hking, hrook⟩ := prem
    exact ⟨⟨fun hs => hking (.inl hs.symm), fun hs => hking (.inr (.inl hs.symm))⟩,
      fun hs => hrook (.inl hs.symm), fun hs => hrook (.inr (.inl hs.symm))⟩
  · exact hp.not_touches_of_spared hadm h hright

/-- The way is free for castling with a right: nothing stands between king and rook, and none of the
squares on which the king starts, which it crosses and on which it lands is attacked. -/
def WayFree (p : Position) (right : CastlingRight) : Prop :=
  p.ClearPath { src := right.kingHome, dst := right.rookHome } ∧
    ∀ s ∈ [right.kingHome, right.rookTarget, right.kingTarget],
      p.attacked s (some right.side) = false

instance (p : Position) (right : CastlingRight) : Decidable (p.WayFree right) := by
  unfold WayFree; infer_instance

theorem steps_to_kingTarget (hsrc : m.src = right.kingHome) (hdst : m.dst = right.kingTarget) :
    m.dRow = 0 ∧ m.dCol.natAbs = 2 ∧ m.dCol.sign = right.wing.step := by
  rw [Move.dRow, Move.dCol, hsrc, hdst]
  rcases right with ⟨_ | _, _ | _⟩ <;> decide

theorem kingPath_eq (hsrc : m.src = right.kingHome) (hsign : m.dCol.sign = right.wing.step) :
    kingPath m = [right.kingHome, right.rookTarget, right.kingTarget] := by
  rw [kingPath, hsrc, hsign]
  rcases right with ⟨_ | _, _ | _⟩ <;> rfl

theorem castles_iff (hsrc : m.src = right.kingHome) (hdst : m.dst = right.kingTarget) :
    p.Admissible m (some right.side) ∧ p.Castles m right.rookHome ↔
      HasRight p.board right ∧ p.WayFree right := by
  obtain ⟨hrow, htwo, hsign⟩ := steps_to_kingTarget hsrc hdst
  constructor
  · intro prem
    obtain ⟨hadm, way⟩ := prem
    have hright := way.ready hadm
    rw [hsrc] at hright
    have hfound := way.found
    have hsafe := way.safe
    rw [hsrc, hsign] at hfound
    rw [kingPath_eq hsrc hsign, show p.mover m = some right.side from hadm.owner] at hsafe
    exact ⟨hright, (firstAlongRow_corner.mp hfound).2, hsafe⟩
  · intro prem
    obtain ⟨⟨⟨hking, howner, hmoves⟩, hrook, hrookOwner, hrookMoves⟩, hclear, hsafe⟩ := prem
    have hmover : p.mover m = some right.side := by rw [mover, hsrc, howner]
    have hocc : ¬ (p.board.get right.rookHome).IsEmpty := Cell.occupied_of_kind hrook (by decide)
    have hvacant : (p.board.get m.dst).IsEmpty := by
      refine hclear m.dst ?_
      rw [right.between_homes, hdst, right.kingTarget_eq]
      exact List.mem_map.mpr ⟨1, by cases right.wing <;> decide, rfl⟩
    constructor
    · refine ⟨?_, ?_, ?_, hmover, .inl hvacant⟩
      · rw [hsrc]
        exact right.kingHome_onBoard
      · rw [hdst]
        exact right.kingTarget_onBoard
      · rw [hsrc]
        exact Cell.occupied_of_kind hking (by decide)
    · refine ⟨hsrc ▸ hking, hsrc ▸ hmoves, hrow, htwo, ?_, hrook, hrookOwner.trans hmover.symm,
        hrookMoves, ?_⟩
      · rw [hsrc, hsign]
        exact firstAlongRow_corner.mpr ⟨hocc, hclear⟩
      · rw [kingPath_eq hsrc hsign, hmover]
        exact hsafe

theorem Regular.king_far (hp : p.Regular) (hking : p.KingAt side m.src) (hfar : ¬ m.KingStep)
    (h : p.pieceRuling m (some side) true = .legal e) : ∃ right : CastlingRight,
      right.side = side ∧ (m.src = right.kingHome ∧ m.dst = right.kingTarget) ∧
        (p.Admissible m (some side) ∧ p.Castles m right.rookHome) ∧
          e = { castle := some { src := right.rookHome, dst := right.rookTarget } } := by
  obtain ⟨hadm, hallows⟩ := pieceRuling_eq_legal.mp h
  cases hallows with
  | strike _ way =>
      simp only [Strikes, hking.1] at way
      exact absurd way hfar
  | pawn piece => cases piece.symm.trans hking.1
  | castle way =>
      obtain ⟨right, hside, -, hends, rfl, hsign⟩ := hp.right_of_castles hadm way
      refine ⟨right, hside, hends, ⟨hadm, way⟩, ?_⟩
      rw [rookHop, hends.1, hsign, right.rookTarget_eq]

/-- A king goes from its home to its target on a wing exactly if it has the right and the way is
free, and the rook goes with it. -/
theorem Regular.king_castles_iff (hp : p.Regular) (hsrc : m.src = right.kingHome)
    (hdst : m.dst = right.kingTarget) :
    p.KingAt right.side m.src ∧ p.pieceRuling m (some right.side) true = .legal e ↔
      (HasRight p.board right ∧ p.WayFree right) ∧
        e = { castle := some { src := right.rookHome, dst := right.rookTarget } } := by
  obtain ⟨-, htwo, hsign⟩ := steps_to_kingTarget hsrc hdst
  rw [← castles_iff hsrc hdst]
  constructor
  · intro prem
    obtain ⟨hking, hlegal⟩ := prem
    have hfar : ¬ m.KingStep := fun hstep => by
      have := hstep.2
      omega
    obtain ⟨right', hside, ⟨-, hdst'⟩, hcastles, heffects⟩ := hp.king_far hking hfar hlegal
    obtain rfl := CastlingRight.eq_of_kingTarget hside (hdst'.symm.trans hdst)
    exact ⟨hcastles, heffects⟩
  · intro prem
    obtain ⟨⟨hadm, way⟩, heffects⟩ := prem
    have hhop : rookHop m right.rookHome = { src := right.rookHome, dst := right.rookTarget } := by
      rw [rookHop, hsrc, hsign, right.rookTarget_eq]
    refine ⟨⟨way.king, hadm.owner⟩, pieceRuling_eq_legal.mpr ⟨hadm, ?_⟩⟩
    rw [heffects, ← hhop]
    exact .castle way

theorem hasRight_initial (right : CastlingRight) : HasRight Position.initial.board right := by
  have table : ∀ right ∈ CastlingRight.all, HasRight Position.initial.board right := by
    decide +kernel
  exact table right right.mem_all

end Position

namespace Game

open Position Descriptor

variable {g : Game} {ms : List Move}

/-- In a game from the initial position a right is there exactly if no move has started or ended at
its home squares. -/
theorem Line.rights (line : Line .initial ms g) :
    g.position.Regular ∧ ∀ right, HasRight g.position.board right ↔ right.Kept ms := by
  induction line with
  | start =>
      refine ⟨regular_initial, fun right => iff_of_true (hasRight_initial right) ?_⟩
      simp [CastlingRight.Kept]
  | move before made ih =>
      obtain ⟨hp, hrights⟩ := ih
      obtain ⟨e, played⟩ := made.played
      rw [played.position]
      refine ⟨hp.play played.admissible played.allows played.safe, fun right => ?_⟩
      rw [hp.hasRight_play played.admissible played.allows, hrights]
      simp [CastlingRight.Kept]

/-- After any moves from the initial position the rights to castle are those of the history. A king
goes two squares from its home towards a wing, to its target, exactly if no move has started or
ended at the home squares of that right and the way is free, and then the rook goes from its home to
its target. No king goes further than one step otherwise. The third part of the text has the letters
of the rights at whose home squares no move has started or ended, and no others. -/
theorem castling_follows_history (line : Line .initial ms g) :
    (∀ (right : CastlingRight) (m : Move), m.src = right.kingHome →
      m.dst = right.kingHome.shift 0 (right.wing.step * 2) → m.dst = right.kingTarget ∧
        ∀ e, g.position.KingAt right.side m.src ∧
            g.position.pieceRuling m (some right.side) true = .legal e ↔
          (right.Kept ms ∧ g.position.WayFree right) ∧
            e = { castle := some { src := right.rookHome, dst := right.rookTarget } }) ∧
    (∀ side m e, g.position.KingAt side m.src →
      g.position.pieceRuling m (some side) true = .legal e → ¬ m.KingStep →
        ∃ right : CastlingRight, right.side = side ∧
          m.src = right.kingHome ∧ m.dst = right.kingTarget) ∧
    ∃ field, (Text.fields ' ' g.position.text.toList)[2]? = some field ∧
      field = CastlingRight.write (CastlingRight.all.filter fun right => right.Kept ms) ∧
        ∀ right : CastlingRight, right.letter ∈ field ↔ right.Kept ms := by
  obtain ⟨hp, hrights⟩ := line.rights
  refine ⟨fun right m hsrc hdst => ?_, fun side m e hking hlegal hfar => ?_, ?_⟩
  · rw [← right.kingTarget_eq] at hdst
    refine ⟨hdst, fun e => ?_⟩
    rw [hp.king_castles_iff hsrc hdst, hrights]
  · obtain ⟨right, hside, hends, -⟩ := hp.king_far hking hfar hlegal
    exact ⟨right, hside, hends⟩
  · have hcastling : (ofPosition g.position).castling =
        CastlingRight.all.filter fun right => right.Kept ms :=
      List.filter_congr fun right _ => decide_eq_decide.mpr (hrights right)
    refine ⟨_, ?_, rfl, fun right => ?_⟩
    · rw [fields_text, ← hcastling]
      rfl
    · rw [CastlingRight.letter_mem_write List.filter_sublist]
      simp

/-- Both players clear the way for castling on the king's side; the latest move first. -/
def clearing : List Move :=
  [{ src := ⟨0, 5⟩, dst := ⟨1, 6⟩ }, { src := ⟨7, 5⟩, dst := ⟨6, 6⟩ },
    { src := ⟨1, 6⟩, dst := ⟨2, 6⟩ }, { src := ⟨6, 6⟩, dst := ⟨5, 6⟩ },
    { src := ⟨0, 6⟩, dst := ⟨2, 5⟩ }, { src := ⟨7, 6⟩, dst := ⟨5, 5⟩ }]

/-- White may castle then on the king's side. -/
theorem castling_after_clearing : ∃ g, Line .initial clearing g ∧
    g.position.pieceRuling { src := ⟨7, 4⟩, dst := ⟨7, 6⟩ } (some .white) true =
      .legal { castle := some { src := ⟨7, 7⟩, dst := ⟨7, 5⟩ } } := by
  have hcleared : (replay .initial clearing).any
      (fun g => g.position.WayFree ⟨.white, .kingSide⟩) = true := by
    decide +kernel
  obtain ⟨g, hreplay, hfree⟩ := (Option.any_eq_true _ _).mp hcleared
  have line : Line .initial clearing g := line_iff_replay.mpr hreplay
  have hkept : (CastlingRight.mk .white .kingSide).Kept clearing := by decide
  have hcastles := (castling_follows_history line).1 ⟨.white, .kingSide⟩
    { src := ⟨7, 4⟩, dst := ⟨7, 6⟩ } rfl rfl
  exact ⟨g, line, ((hcastles.2 _).mpr ⟨⟨hkept, of_decide_eq_true hfree⟩, rfl⟩).2⟩

end Game
end Arbiter
