import Arbiter.Proofs.KingSafety
import Arbiter.Proofs.Mirror

/-! # White and black play by the same rules

Playing a move and looking at it in the mirror can be done in either order. So a move is legal in the
mirror exactly if it is legal in front of it, and leads to the mirror image of the same position; the
same moves are listed, and the game stands the same. The king in question is the first that is found
on the board, which is why no player may have more than one.
-/

namespace Arbiter.Position

variable {p : Position} {m : Move} {e : Effects} {player : Option Side} {side : Side}
variable {s : Square}

/-- The player has no second king. -/
def AtMostOneKing (p : Position) (side : Side) : Prop :=
  ∀ s t, p.KingAt side s → p.KingAt side t → s = t

theorem kingAt_mirror : p.mirror.KingAt side.opponent s.mirror ↔ p.KingAt side s := by
  simp only [KingAt, board_mirror, Board.get_mirror, Cell.mirror_kind, Cell.mirror_owner,
    Side.map_opponent_eq_some]

theorem king?_mirror (hone : p.AtMostOneKing side) :
    p.mirror.board.king? (some side.opponent) =
      (p.board.king? (some side)).map Square.mirror := by
  cases hfound : p.board.king? (some side) with
  | none =>
      apply king?_eq_none_iff.mpr
      intro s hking
      rw [← s.mirror_mirror, kingAt_mirror] at hking
      exact king?_eq_none_iff.mp hfound _ hking
  | some k =>
      have hking := kingAt_of_king? hfound
      apply king?_eq_some (kingAt_mirror.mpr hking)
      intro t ht
      rw [← t.mirror_mirror, kingAt_mirror] at ht
      rw [hone _ _ hking ht, t.mirror_mirror]

theorem inCheck_mirror (hone : p.AtMostOneKing side) :
    p.mirror.inCheck (some side.opponent) = p.inCheck (some side) := by
  simp only [inCheck, king?_mirror hone]
  cases p.board.king? (some side) with
  | none => rfl
  | some s => exact attacked_mirror p s side

section Playing

theorem Apart.mirror (h : Apart m e) : Apart m.mirror e.mirror where
  src := Square.onBoard_mirror.mpr h.src
  dst := Square.onBoard_mirror.mpr h.dst
  ne := mt Square.mirror_inj.mp h.ne
  captured := by
    intro s hs
    obtain ⟨t, ht, rfl⟩ := Option.map_eq_some_iff.mp hs
    simpa only [Move.mirror_src, Move.mirror_dst, ne_eq, Square.mirror_inj, Square.onBoard_mirror]
      using h.captured t ht
  castle := by
    intro hop hhop
    obtain ⟨hop, hcastle, rfl⟩ := Option.map_eq_some_iff.mp hhop
    simpa only [Move.mirror_src, Move.mirror_dst, ne_eq, Square.mirror_inj, Square.onBoard_mirror]
      using h.castle hop hcastle
  alone := by
    intro hcastle
    simp only [Effects.mirror, Option.isSome_map] at hcastle ⊢
    simp [h.alone hcastle]

theorem captures_mirror : p.mirror.Captures m.mirror e.mirror ↔ p.Captures m e := by
  simp only [Captures, Effects.mirror, Option.isSome_map, board_mirror, Move.mirror_dst,
    Board.get_mirror, Cell.isEmpty_mirror]

theorem arrival_mirror (hadm : p.Admissible m player) (h : p.Allows m e) :
    p.mirror.arrival m.mirror e.mirror = (p.arrival m e).mirror := by
  have hdate : (p.arrival m e).mirror.lastMove = p.plies + 1 + 1 :=
    Cell.mirror_lastMove (h.arrival_occupied hadm)
  simp only [arrival, Cell.moved, Cell.mirror, Effects.mirror, board_mirror, Move.mirror_src,
    Board.get_mirror, plies_mirror, Cell.mk.injEq, true_and] at hdate ⊢
  exact hdate.symm

theorem get_play_mirror (hadm : p.Admissible m player) (h : p.Allows m e) (s : Square) :
    (p.mirror.play m.mirror e.mirror).board.get s.mirror =
      ((p.play m e).board.get s).mirror := by
  have hapart := apart_of_allows hadm h
  have harrival := arrival_mirror hadm h
  cases hcastle : e.castle with
  | none =>
      have hnone : e.mirror.castle = none := congrArg (Option.map Move.mirror) hcastle
      have hcaptured : e.mirror.captured = some s.mirror ↔ e.captured = some s := by
        simp only [Effects.mirror, Option.map_eq_some_iff, Square.mirror_inj, exists_eq_right]
      rw [hapart.mirror.get_play_of_castle_eq_none hnone, hapart.get_play_of_castle_eq_none hcastle]
      simp only [Move.mirror_src, Move.mirror_dst, Square.mirror_inj, hcaptured, harrival,
        board_mirror, Board.get_mirror, apply_ite Cell.mirror, Cell.mirror_vacant]
  | some hop =>
      have hsome : e.mirror.castle = some hop.mirror := congrArg (Option.map Move.mirror) hcastle
      have hrook := Cell.occupied_of_kind (h.hop_rook hcastle).1 (by decide)
      rw [hapart.mirror.get_play_of_castle_eq_some hsome, hapart.get_play_of_castle_eq_some hcastle]
      simp only [Move.mirror_src, Move.mirror_dst, Square.mirror_inj, harrival, board_mirror,
        plies_mirror, Board.get_mirror, apply_ite Cell.mirror, Cell.mirror_vacant,
        Cell.mirror_moved hrook]

/-- Playing the mirror image of a move leads to the mirror image of the position. -/
theorem play_mirror (hadm : p.Admissible m player) (h : p.Allows m e) :
    p.mirror.play m.mirror e.mirror = (p.play m e).mirror := by
  have hboard : (p.mirror.play m.mirror e.mirror).board = (p.play m e).board.mirror := by
    apply Board.ext_get
    intro s _
    rw [← s.mirror_mirror, get_play_mirror hadm h, Board.get_mirror]
  have hcapture : (p.mirror.play m.mirror e.mirror).lastCapture = (p.play m e).lastCapture + 1 := by
    simp only [play, captures_mirror, plies_mirror]
    split_ifs
    · rfl
    · rfl
  simp only [play, mirror, mk.injEq] at hboard hcapture ⊢
  exact ⟨hboard, trivial, hcapture⟩

theorem AtMostOneKing.play (hone : p.AtMostOneKing side) (hadm : p.Admissible m player)
    (h : p.Allows m e) : (p.play m e).AtMostOneKing side := by
  intro s t hs ht
  rcases (kingAt_play hadm h).mp hs with ⟨rfl, hsrc⟩ | ⟨huntouched, hs'⟩
  · rcases (kingAt_play hadm h).mp ht with ⟨rfl, -⟩ | ⟨huntouched, ht'⟩
    · rfl
    · exact absurd (.inl (hone _ _ ht' hsrc)) huntouched
  · rcases (kingAt_play hadm h).mp ht with ⟨rfl, hsrc⟩ | ⟨-, ht'⟩
    · exact absurd (.inl (hone _ _ hs' hsrc)) huntouched
    · exact hone s t hs' ht'

end Playing

section Legality

variable (hone : ∀ side, p.AtMostOneKing side)

include hone

theorem settle_mirror (h : p.pieceRuling m (some p.toMove) true = .legal e) :
    p.mirror.settle m.mirror e.mirror = (p.settle m e).map Position.mirror := by
  obtain ⟨hadm, hallows⟩ := pieceRuling_eq_legal.mp h
  have hsafe := inCheck_mirror ((hone p.toMove).play hadm hallows)
  simp only [settle, play_mirror hadm hallows, toMove_mirror, hsafe]
  split_ifs
  · rfl
  · rfl

theorem attempt_mirror (m : Move) :
    p.mirror.attempt m.mirror = ((p.attempt m).1.mirror, (p.attempt m).2.mirror) := by
  have hpiece := pieceRuling_mirror p m p.toMove true
  have hqueen := pieceRuling_mirror p (m.promoting .queen) p.toMove true
  rw [← toMove_mirror] at hpiece hqueen
  simp only [attempt, hpiece]
  cases hruling : p.pieceRuling m (some p.toMove) true with
  | illegal => rfl
  | legal e =>
      simp only [Ruling.mirror, settle_mirror hone hruling]
      cases p.settle m e with
      | none => rfl
      | some q => rfl
  | needsPromotion =>
      have hchoice : m.mirror.promoting .queen = (m.promoting .queen).mirror := rfl
      simp only [Ruling.mirror, hchoice, hqueen]
      cases hruling' : p.pieceRuling (m.promoting .queen) (some p.toMove) true with
      | illegal => rfl
      | needsPromotion => rfl
      | legal e =>
          simp only [settle_mirror hone hruling', Option.isSome_map]
          split_ifs
          · rfl
          · rfl

theorem ruling_mirror (m : Move) : p.mirror.ruling m.mirror = (p.ruling m).mirror :=
  congrArg Prod.fst (attempt_mirror hone m)

theorem legal_mirror (m : Move) :
    (∃ e, p.mirror.ruling m.mirror = .legal e) ↔ ∃ e, p.ruling m = .legal e := by
  rw [ruling_mirror hone]
  constructor
  · intro prem
    obtain ⟨e, he⟩ := prem
    exact Ruling.mirror_eq_legal he
  · intro prem
    obtain ⟨e, he⟩ := prem
    rw [he]
    exact ⟨e.mirror, rfl⟩

theorem mirror_mem_legalMoves (m : Move) : m.mirror ∈ p.mirror.legalMoves ↔ m ∈ p.legalMoves := by
  have hneeds : p.mirror.ruling { m.mirror with promotion := none } = .needsPromotion ↔
      p.ruling { m with promotion := none } = .needsPromotion := by
    have hruling := ruling_mirror hone { m with promotion := none }
    rw [show ({ m with promotion := none } : Move).mirror = { m.mirror with promotion := none }
      from rfl] at hruling
    rw [hruling]
    cases p.ruling { m with promotion := none } <;> simp [Ruling.mirror]
  rw [mem_legalMoves, mem_legalMoves, legal_mirror hone, hneeds, Move.mirror_promotion]

theorem hasReply_mirror : p.mirror.hasReply = p.hasReply := by
  rw [Bool.eq_iff_iff, hasReply_iff, hasReply_iff]
  constructor
  · intro prem
    obtain ⟨m, hlegal⟩ := prem
    rw [← m.mirror_mirror] at hlegal
    exact ⟨m.mirror, (legal_mirror hone _).mp hlegal⟩
  · intro prem
    obtain ⟨m, hlegal⟩ := prem
    exact ⟨m.mirror, (legal_mirror hone m).mpr hlegal⟩

theorem outcome_mirror : p.mirror.outcome = p.outcome := by
  simp only [outcome, stuck?, quietPlies_mirror, hasReply_mirror hone, toMove_mirror,
    inCheck_mirror (hone p.toMove)]

/-- The rules do not tell the players apart. If no player has a second king, then in the mirror the
rules for the pieces rule the same on every move, the same squares are attacked, and the same player
is in check; a move that is tried is ruled the same and leads to the mirror image of the position
that it leads to in front of the mirror; the legal moves are the mirror images of the legal moves,
and the game stands the same. -/
theorem rules_symmetric :
    (∀ m side castling, p.mirror.pieceRuling m.mirror (some side.opponent) castling =
        (p.pieceRuling m (some side) castling).mirror) ∧
      (∀ s side, p.mirror.attacked s.mirror (some side.opponent) = p.attacked s (some side)) ∧
      (∀ side, p.mirror.inCheck (some side.opponent) = p.inCheck (some side)) ∧
      (∀ m, p.mirror.attempt m.mirror = ((p.attempt m).1.mirror, (p.attempt m).2.mirror)) ∧
      (∀ m, m ∈ p.mirror.legalMoves ↔ ∃ n ∈ p.legalMoves, m = n.mirror) ∧
      p.mirror.outcome = p.outcome := by
  refine ⟨pieceRuling_mirror p, attacked_mirror p, fun side => inCheck_mirror (hone side),
    attempt_mirror hone, fun m => ?_, outcome_mirror hone⟩
  constructor
  · intro hm
    rw [← m.mirror_mirror] at hm
    exact ⟨m.mirror, (mirror_mem_legalMoves hone _).mp hm, m.mirror_mirror.symm⟩
  · intro prem
    obtain ⟨n, hn, rfl⟩ := prem
    exact (mirror_mem_legalMoves hone n).mpr hn

end Legality

/-- Where white castles, black castles in the mirror. -/
theorem castling_in_the_mirror :
    (∀ side, Game.castlingGame.position.AtMostOneKing side) ∧
      ∃ e q, Game.castlingGame.position.attempt Game.longCastling = (.legal e, q) ∧
        e.castle.isSome ∧
        Game.castlingGame.position.mirror.attempt Game.longCastling.mirror =
          (.legal e.mirror, q.mirror) := by
  have hone (side : Side) : Game.castlingGame.position.AtMostOneKing side := fun _ _ hs ht =>
    (Game.castlingGame_fairStart.sound.kings side).unique hs ht
  have hlegal : Game.castlingGame.position.ruling Game.longCastling =
      .legal { castle := some { src := ⟨7, 0⟩, dst := ⟨7, 3⟩ } } := by
    decide +kernel
  refine ⟨hone, _, _, Prod.ext hlegal rfl, rfl, ?_⟩
  rw [(rules_symmetric hone).2.2.2.1]
  exact Prod.ext (congrArg Ruling.mirror hlegal) rfl

end Arbiter.Position
