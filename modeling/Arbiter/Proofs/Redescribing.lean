import Arbiter.Proofs.Restoring

/-! # Describing a position that a text states

A text may name a castling right although the king does not stand at its home. Setting the text up
marks the rook as unmoved all the same, and the king may castle with it from where it stands; but the
descriptor of that position leaves the right out, as it looks for king and rook at home. So a
position that a text states, once described and set up again, plays by the same rules except for
castling of this kind, which is lost. If the kings of all rights named stand at home nothing is lost.
-/

namespace Arbiter

theorem Ruling.eq_ite {r r' : Ruling} {c : Prop} [Decidable c]
    (kept : ¬ c → ∀ e, r = .legal e → r' = .legal e) (lost : c → ∀ e, r' ≠ .legal e)
    (back : ∀ e, r' = .legal e → r = .legal e) (needs : r' = .needsPromotion ↔ r = .needsPromotion)
    (decided : c → r ≠ .needsPromotion) : r' = if c then .illegal else r := by
  split_ifs with hc
  · cases hr' : r' with
    | illegal => rfl
    | needsPromotion => exact absurd (needs.mp hr') (decided hc)
    | legal e => exact absurd hr' (lost hc e)
  · cases hr : r with
    | legal e => exact kept hc e hr
    | needsPromotion => exact needs.mpr hr
    | illegal =>
        cases hr' : r' with
        | illegal => rfl
        | needsPromotion => exact hr.symm.trans (needs.mp hr') |>.symm
        | legal e => exact hr.symm.trans (back e hr') |>.symm

namespace Position

open Descriptor (JustDoubled HasRight ofPosition)

variable {text : String} {d : Descriptor} {p q : Position} {m : Move} {e : Effects}
variable {s king rook corner : Square} {side : Side}

/-- The rook comes from the corner of a right whose king does not stand at home. -/
def Displaced (p : Position) (hop : Move) : Prop :=
  ∀ right ∈ CastlingRight.all, right.side = p.toMove → right.rookHome = hop.src →
    ¬ p.KingAt p.toMove right.kingHome

instance (p : Position) (hop : Move) : Decidable (p.Displaced hop) := by
  unfold Displaced; infer_instance

/-- The rules allow the player to move to castle with a king that does not stand at home. -/
def CastlesDisplaced (p : Position) (m : Move) : Prop :=
  ∃ e hop, p.pieceRuling m (some p.toMove) true = .legal e ∧ e.castle = some hop ∧
    p.Displaced hop

instance (p : Position) (m : Move) : Decidable (p.CastlesDisplaced m) :=
  match h : p.pieceRuling m (some p.toMove) true with
  | .illegal => isFalse (by simp [CastlesDisplaced, h])
  | .needsPromotion => isFalse (by simp [CastlesDisplaced, h])
  | .legal ⟨_, none, _⟩ => isFalse (by simp [CastlesDisplaced, h])
  | .legal ⟨_, some hop, _⟩ => decidable_of_iff (p.Displaced hop) (by simp [CastlesDisplaced, h])

section Stated

variable (hsetup : d.setup = .ok p)

include hsetup

theorem king_unmoved_of_setup (hking : p.KingAt side s) : (p.board.get s).moves = 0 := by
  have hmoves := Descriptor.moves_of_setup hsetup hking.onBoard
    (Cell.occupied_of_kind hking.1 (by decide)) (by rw [hking.1]; decide)
  rw [hmoves, Cell.presumedMoves, hking.1]

theorem right_of_ready (hready : Ready p.board side king rook) :
    ∃ right ∈ d.castling, right.side = side ∧ right.rookHome = rook := by
  obtain ⟨-, hrook, howner, hmoves⟩ := hready
  obtain ⟨right, hright, rfl⟩ := Descriptor.right_of_unmoved_rook hsetup hrook hmoves
  have hhome := Descriptor.rookHome_of_setup hsetup hright
  exact ⟨right, hright, Option.some.inj (hhome.2.symm.trans howner), rfl⟩

theorem hasRight_of_ready {right : CastlingRight}
    (hready : Ready p.board right.side king right.rookHome) :
    HasRight p.board right ↔ p.KingAt right.side right.kingHome := by
  constructor
  · intro hright
    exact ⟨hright.1.1, hright.1.2.1⟩
  · intro hking
    exact ⟨⟨hking.1, hking.2, king_unmoved_of_setup hsetup hking⟩, hready.2⟩

/-- The position that a text states is set up again from its own descriptor as an akin one, and a
king may castle there as before if a king stands at the home of the rook's right. -/
theorem setup_again (hread : Descriptor.read text = .ok d) :
    ∃ q, (ofPosition p).setup = .ok q ∧ Akin p q ∧ ∀ side king rook,
      Ready q.board side king rook ↔ Ready p.board side king rook ∧
        ∃ right : CastlingRight, right.side = side ∧ right.rookHome = rook ∧
          p.KingAt side right.kingHome := by
  have hlegible := legible_of_text (Descriptor.position_eq_ok.mpr ⟨d, hread, hsetup⟩)
  obtain ⟨q, hagain, hakin, hcells⟩ := hlegible.setup_akin
  refine ⟨q, hagain, hakin, fun side king rook => ?_⟩
  rw [hlegible.restored_ready hcells]
  constructor
  · intro prem
    obtain ⟨hking, right, rfl, rfl, hright⟩ := prem
    have hready : Ready p.board right.side king right.rookHome :=
      ⟨⟨hking.1, hking.2, king_unmoved_of_setup hsetup hking⟩, hright.2⟩
    exact ⟨hready, right, rfl, rfl, (hasRight_of_ready hsetup hready).mp hright⟩
  · intro prem
    obtain ⟨hready, right, rfl, rfl, hking⟩ := prem
    exact ⟨⟨hready.1.1, hready.1.2.1⟩, right, rfl, rfl,
      (hasRight_of_ready hsetup hready).mpr hking⟩

end Stated

section Again

variable (hakin : Akin p q) (hready : ∀ side king rook,
  Ready q.board side king rook ↔ Ready p.board side king rook ∧
    ∃ right : CastlingRight, right.side = side ∧ right.rookHome = rook ∧
      p.KingAt side right.kingHome)

include hready

theorem ready_back (hadm : q.Admissible m (some q.toMove)) (way : q.Castles m corner) :
    Ready p.board q.toMove m.src corner :=
  ((hready _ _ _).mp (way.ready hadm)).1

theorem castlesDisplaced_iff (hadm : p.Admissible m (some p.toMove)) (way : p.Castles m corner) :
    p.CastlesDisplaced m ↔ ¬ Ready q.board p.toMove m.src corner := by
  have hlegal := pieceRuling_eq_legal.mpr ⟨hadm, Allows.castle way⟩
  have hkept : Ready q.board p.toMove m.src corner ↔ ¬ p.Displaced (rookHop m corner) := by
    rw [hready, and_iff_right (way.ready hadm)]
    simp only [Displaced, CastlingRight.mem_all, rookHop, not_forall, not_not, true_implies,
      exists_prop]
  rw [hkept, not_not]
  constructor
  · intro prem
    obtain ⟨e, hop, hlegal', hhop, hdisplaced⟩ := prem
    cases hlegal.symm.trans hlegal'
    cases hhop
    exact hdisplaced
  · exact fun hdisplaced => ⟨_, _, hlegal, rfl, hdisplaced⟩

include hakin

/-- The rules for the pieces are the same again, except that displaced castling is lost. -/
theorem pieceRuling_again (m : Move) :
    q.pieceRuling m (some q.toMove) true =
      if p.CastlesDisplaced m then .illegal else p.pieceRuling m (some p.toMove) true := by
  have back (e : Effects) (h : q.pieceRuling m (some q.toMove) true = .legal e) :
      p.pieceRuling m (some p.toMove) true = .legal e := by
    obtain ⟨hadm, hallows⟩ := pieceRuling_eq_legal.mp h
    exact pieceRuling_eq_legal.mpr ⟨hakin.symm.admissible hadm,
      hakin.symm.allows hadm hallows fun _ => ready_back hready hadm⟩
  refine Ruling.eq_ite (fun hkept e h => ?_) (fun hlost e h => ?_) back
    ⟨hakin.symm.pieceRuling_needsPromotion, hakin.pieceRuling_needsPromotion⟩ fun hlost h => ?_
  · obtain ⟨hadm, hallows⟩ := pieceRuling_eq_legal.mp h
    refine pieceRuling_eq_legal.mpr ⟨hakin.admissible hadm, hakin.allows hadm hallows fun _ way => ?_⟩
    exact not_not.mp fun hno => hkept ((castlesDisplaced_iff hready hadm way).mpr hno)
  · obtain ⟨e', hop, hlegal, hhop, -⟩ := id hlost
    cases (back e h).symm.trans hlegal
    obtain ⟨hadm', hallows'⟩ := pieceRuling_eq_legal.mp h
    have way' := (hallows'.castles hhop).1
    have hback := hakin.symm.castles hadm' way' (ready_back hready hadm' way')
    refine (castlesDisplaced_iff hready (hakin.symm.admissible hadm') hback).mp hlost ?_
    rw [hakin.toMove_eq]
    exact way'.ready hadm'
  · obtain ⟨e, -, hlegal, -⟩ := hlost
    cases hlegal.symm.trans h

theorem ruling_again (m : Move) :
    q.ruling m = if p.CastlesDisplaced m then .illegal else p.ruling m := by
  refine Ruling.eq_ite (fun hkept e h => ?_) (fun hlost e h => ?_) (fun e h => ?_)
    ⟨hakin.symm.needsPromotion, hakin.needsPromotion⟩ fun hlost h => ?_
  · refine hakin.legal h fun _ way => ?_
    have hadm := (ruling_eq_legal.mp h).1.1
    exact not_not.mp fun hno => hkept ((castlesDisplaced_iff hready hadm way).mpr hno)
  · have hpiece := (pieceRuling_legal_of_ruling h).1
    rw [pieceRuling_again hakin hready, if_pos hlost] at hpiece
    cases hpiece
  · exact hakin.symm.legal h fun _ => ready_back hready (ruling_eq_legal.mp h).1.1
  · obtain ⟨e, -, hlegal, -⟩ := hlost
    cases hlegal.symm.trans (ruling_eq_needsPromotion.mp h).1

theorem legalMoves_again :
    q.legalMoves = p.legalMoves.filter fun m => ¬ p.CastlesDisplaced m := by
  have hlisted (m : Move) : q.listed m = (p.listed m).filter fun m => ¬ p.CastlesDisplaced m := by
    have hruling := ruling_again hakin hready m
    unfold listed
    rw [hruling]
    cases hp : p.ruling m with
    | illegal => simp
    | legal e => by_cases hlost : p.CastlesDisplaced m <;> simp [hlost]
    | needsPromotion =>
        have hpiece := (ruling_eq_needsPromotion.mp hp).1
        have hpawn := (pieceRuling_eq_needsPromotion.mp hpiece).2.1.1
        have hkept (n : Move) (hsrc : n.src = m.src) : ¬ p.CastlesDisplaced n := by
          intro prem
          obtain ⟨e, hop, hlegal, hhop, -⟩ := prem
          rw [← hsrc, ((pieceRuling_eq_legal.mp hlegal).2.castles hhop).1.king] at hpawn
          cases hpawn
        rw [if_neg (hkept m rfl)]
        refine (List.filter_eq_self.mpr fun n hn => ?_).symm
        obtain ⟨k, -, rfl⟩ := List.mem_map.mp hn
        exact decide_eq_true (hkept _ rfl)
  rw [legalMoves_eq, legalMoves_eq, List.filter_flatMap,
    ← hakin.men.candidates_eq hakin.toMove_eq, funext hlisted]

end Again

theorem not_castlesDisplaced (hsetup : d.setup = .ok p)
    (home : ∀ right ∈ d.castling, p.KingAt right.side right.kingHome) (m : Move) :
    ¬ p.CastlesDisplaced m := by
  intro prem
  obtain ⟨e, hop, hlegal, hhop, hdisplaced⟩ := prem
  obtain ⟨hadm, hallows⟩ := pieceRuling_eq_legal.mp hlegal
  have hready := (hallows.castles hhop).1.ready hadm
  obtain ⟨right, hright, hside, hcorner⟩ := right_of_ready hsetup hready
  exact hdisplaced right right.mem_all hside hcorner (hside ▸ home right hright)

/-- A position that a text states can be set up again from its own descriptor. The rules for the
pieces are the same again for every move, and so are the legal moves, except that castling with a
displaced king is lost; if the kings of all rights that the text names stand at home, there is no
such castling, and all is the same. -/
theorem redescribed_but_for_displaced_castling (hread : Descriptor.read text = .ok d)
    (hsetup : d.setup = .ok p) :
    ∃ q, (ofPosition p).setup = .ok q ∧
      (∀ m, q.pieceRuling m (some q.toMove) true =
        if p.CastlesDisplaced m then .illegal else p.pieceRuling m (some p.toMove) true) ∧
      (q.legalMoves = p.legalMoves.filter fun m => ¬ p.CastlesDisplaced m) ∧
      ((∀ right ∈ d.castling, p.KingAt right.side right.kingHome) →
        (∀ m, q.pieceRuling m (some q.toMove) true = p.pieceRuling m (some p.toMove) true) ∧
          q.legalMoves = p.legalMoves) := by
  obtain ⟨q, hagain, hakin, hready⟩ := setup_again hsetup hread
  have hpiece := pieceRuling_again hakin hready
  have hlegal := legalMoves_again hakin hready
  refine ⟨q, hagain, hpiece, hlegal, fun home => ?_⟩
  have hnone := not_castlesDisplaced hsetup home
  constructor
  · intro m
    rw [hpiece, if_neg (hnone m)]
  · rw [hlegal, List.filter_eq_self]
    exact fun m _ => decide_eq_true (hnone m)

/-- White's king has left its home, and yet the text names a right to castle. -/
def displacedText : String := "4k3/8/8/8/8/8/8/3K3R w K - 0 1"

/-- The position that the text states. -/
def displacedKing : Position := (Descriptor.position displacedText).toOption.getD .initial

/-- The king castles from the square next to its home. -/
def displacedCastling : Move := { src := ⟨7, 3⟩, dst := ⟨7, 5⟩ }

theorem castling_lost_with_displaced_king :
    ((∃ d, Descriptor.read displacedText = .ok d ∧ d.setup = .ok displacedKing) ∧
      displacedKing.CastlesDisplaced displacedCastling) ∧
      ∃ q, (ofPosition displacedKing).setup = .ok q ∧
        q.pieceRuling displacedCastling (some q.toMove) true = .illegal := by
  have hstated : Descriptor.position displacedText = .ok displacedKing := by decide +kernel
  have hdisplaced : displacedKing.CastlesDisplaced displacedCastling := by decide +kernel
  obtain ⟨d, hread, hsetup⟩ := Descriptor.position_eq_ok.mp hstated
  obtain ⟨q, hagain, hpiece, -⟩ := redescribed_but_for_displaced_castling hread hsetup
  refine ⟨⟨⟨d, hread, hsetup⟩, hdisplaced⟩, q, hagain, ?_⟩
  rw [hpiece, if_pos hdisplaced]

/-- The same position, described and set up again. -/
def displacedAgain : Position := (ofPosition displacedKing).setup.toOption.getD .initial

/-- A position that a text states may list a move that it no longer lists when it has been described
and set up again. -/
theorem redescribed_position_lists_fewer_moves :
    ∃ p q m, Descriptor.position displacedText = .ok p ∧ (ofPosition p).setup = .ok q ∧
      p.pieceRuling m (some p.toMove) true ≠ q.pieceRuling m (some q.toMove) true ∧
      m ∈ p.legalMoves ∧ m ∉ q.legalMoves := by
  have hlegal : displacedKing.ruling displacedCastling =
      .legal { castle := some { src := ⟨7, 7⟩, dst := ⟨7, 4⟩ } } := by
    decide +kernel
  have hillegal : displacedAgain.ruling displacedCastling = .illegal := by decide +kernel
  refine ⟨displacedKing, displacedAgain, displacedCastling, by decide +kernel, by decide +kernel,
    by decide +kernel, mem_legalMoves.mpr (.inl ⟨rfl, _, hlegal⟩), ?_⟩
  rw [mem_legalMoves]
  rintro (⟨-, e, h⟩ | ⟨⟨k, -, h⟩, -⟩)
  · cases hillegal.symm.trans h
  · cases h

end Position
end Arbiter
