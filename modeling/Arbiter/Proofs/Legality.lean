import Arbiter.Proofs.Aftermath
import Arbiter.Rules.Legality
import Mathlib.Data.List.Nodup

/-! # Which moves are legal

A move is legal if the rules for the pieces allow it and it leaves the player's own king safe.
Safety does not depend on what a pawn becomes, so the four choices of promotion are legal together,
and asking for a choice is the same as finding any of them legal. From this follow the two listings:
`mem_legalMoves` for the list of legal moves and `hasReply_iff` for the search for a reply.
-/

namespace Arbiter.Position

variable {p : Position} {m : Move} {e : Effects}

/-- After the move the player's own king is not in check. -/
def Safe (p : Position) (m : Move) (e : Effects) : Prop :=
  (p.play m e).inCheck (some p.toMove) = false

/-- A pawn goes to the row on which it promotes. -/
def Promotes (p : Position) (m : Move) : Prop :=
  (p.board.get m.src).kind = .pawn ∧ m.dst.row = Side.lastRow (p.mover m)

instance (p : Position) (m : Move) : Decidable (p.Promotes m) := by
  unfold Promotes; infer_instance

theorem settle_eq_some {q : Position} :
    p.settle m e = some q ↔ p.Safe m e ∧ q = p.play m e := by
  simp only [settle, Safe]
  cases (p.play m e).inCheck (some p.toMove) <;> simp [eq_comm]

theorem attempt_eq_legal {q : Position} :
    p.attempt m = (.legal e, q) ↔
      (p.pieceRuling m (some p.toMove) true = .legal e ∧ p.Safe m e) ∧ q = p.play m e := by
  unfold attempt
  cases p.pieceRuling m (some p.toMove) true with
  | illegal => simp
  | needsPromotion =>
      simp only
      split
      · split_ifs <;> simp
      · simp
  | legal e' =>
      simp only [Ruling.legal.injEq]
      cases hsettle : p.settle m e' with
      | none =>
          simp only [Prod.mk.injEq, reduceCtorEq, false_and, false_iff]
          intro prem
          obtain ⟨⟨rfl, hsafe⟩, -⟩ := prem
          cases hsettle.symm.trans (settle_eq_some.mpr ⟨hsafe, rfl⟩)
      | some q' =>
          obtain ⟨hsafe, rfl⟩ := settle_eq_some.mp hsettle
          simp only [Prod.mk.injEq, Ruling.legal.injEq]
          constructor
          · intro prem
            obtain ⟨rfl, rfl⟩ := prem
            exact ⟨⟨rfl, hsafe⟩, rfl⟩
          · intro prem
            obtain ⟨⟨rfl, -⟩, rfl⟩ := prem
            exact ⟨rfl, rfl⟩

theorem pieceRuling_legal_of_ruling (h : p.ruling m = .legal e) :
    p.pieceRuling m (some p.toMove) true = .legal e ∧ p.Safe m e :=
  (attempt_eq_legal.mp (Prod.ext h rfl)).1

theorem ruling_eq_legal :
    p.ruling m = .legal e ↔
      (p.Admissible m (some p.toMove) ∧ p.Allows m e) ∧ p.Safe m e := by
  rw [← pieceRuling_eq_legal]
  constructor
  · exact pieceRuling_legal_of_ruling
  · intro h
    exact congrArg Prod.fst (attempt_eq_legal.mpr ⟨h, rfl⟩)

theorem ruling_eq_needsPromotion :
    p.ruling m = .needsPromotion ↔
      p.pieceRuling m (some p.toMove) true = .needsPromotion ∧
        ∃ e, p.ruling (m.promoting .queen) = .legal e := by
  have hqueen : (∃ e, p.ruling (m.promoting .queen) = .legal e) ↔
      ∃ e, p.pieceRuling (m.promoting .queen) (some p.toMove) true = .legal e ∧
        (p.settle (m.promoting .queen) e).isSome := by
    apply exists_congr
    intro e
    rw [ruling_eq_legal, ← pieceRuling_eq_legal, Option.isSome_iff_exists]
    simp only [settle_eq_some, exists_and_left, exists_eq, and_true]
  rw [hqueen, ruling, attempt]
  cases p.pieceRuling m (some p.toMove) true with
  | illegal => simp
  | legal e => cases hsettle : p.settle m e <;> simp [hsettle]
  | needsPromotion =>
      cases p.pieceRuling (m.promoting .queen) (some p.toMove) true with
      | illegal | needsPromotion => simp
      | legal e => cases hsettle : (p.settle (m.promoting .queen) e).isSome <;> simp [hsettle]

theorem admissible_of_ruling_ne (h : p.ruling m ≠ .illegal) : p.Admissible m (some p.toMove) := by
  cases hruling : p.ruling m with
  | illegal => exact absurd hruling h
  | legal e => exact (ruling_eq_legal.mp hruling).1.1
  | needsPromotion =>
      exact (pieceRuling_eq_needsPromotion.mp (ruling_eq_needsPromotion.mp hruling).1).1

theorem ruling_promotion_irrelevant (h : ¬ p.Promotes m) (choice : Option Kind) :
    p.ruling { m with promotion := choice } = p.ruling m := by
  have hpiece := @pieceRuling_promotion_irrelevant p m (some p.toMove) h
  have hqueen : (m.promoting .queen).promotion = some .queen := rfl
  simp only [ruling, attempt]
  rw [hpiece choice true]
  rfl

section Promotion

variable {k k' : Kind} {captured : Option Square}

theorem PawnGoes.rechosen (way : p.PawnGoes m captured) (choice : Option Kind) :
    p.PawnGoes { m with promotion := choice } captured := by
  cases way with
  | advance hway => exact .advance hway
  | take hway hocc => exact .take hway hocc
  | pass hway hvacant victim => exact .pass hway hvacant victim

theorem safe_of_promotion (h : Apart m { captured, promotion := some k })
    (howner : p.mover m = some p.toMove) (hk : k ∈ Kind.promotions) (hk' : k' ∈ Kind.promotions)
    (hsafe : p.Safe m { captured, promotion := some k }) :
    p.Safe (m.promoting k') { captured, promotion := some k' } := by
  have h' : Apart (m.promoting k') { captured, promotion := some k' } :=
    ⟨h.src, h.dst, h.ne, h.captured, h.castle, by simp⟩
  obtain ⟨hempty, -, hking⟩ := kind_of_mem_promotions hk
  obtain ⟨hempty', -, hking'⟩ := kind_of_mem_promotions hk'
  have hmover : (p.board.get m.src).owner = some p.toMove := howner
  have target := h.get_play_dst (p := p)
  have target' : (p.play (m.promoting k') _).board.get m.dst = _ := h'.get_play_dst (p := p)
  have elsewhere (s : Square) (hs : s ≠ m.dst) :
      (p.play m { captured, promotion := some k }).board.get s =
        (p.play (m.promoting k') { captured, promotion := some k' }).board.get s := by
    rw [h.get_play_of_castle_eq_none rfl, h'.get_play_of_castle_eq_none rfl, if_neg hs]
    exact (if_neg hs).symm
  -- The two boards differ on the target alone, where both hold a piece of the player's own.
  have hthreats : SameThreats (p.play m { captured, promotion := some k }).board
      (p.play (m.promoting k') { captured, promotion := some k' }).board p.toMove := by
    constructor <;> intro s <;> rcases eq_or_ne s m.dst with rfl | hs
    · simp [target, target', arrival, Cell.IsEmpty, hempty, hempty']
    · rw [elsewhere s hs]
    · rw [target, target']
      rfl
    · rw [elsewhere s hs]
    · simp [target, arrival, Cell.moved, hmover, (Side.opponent_ne _).symm]
    · rw [elsewhere s hs]
      exact fun _ => rfl
  have kings (s : Square) (_ : ((p.play m { captured, promotion := some k }).board.get s).owner =
      some p.toMove) : ((p.play m { captured, promotion := some k }).board.get s).kind = .king ↔
        ((p.play (m.promoting k') { captured, promotion := some k' }).board.get s).kind =
          .king := by
    rcases eq_or_ne s m.dst with rfl | hs
    · simp [target, target', arrival, hking, hking']
    · rw [elsewhere s hs]
  exact (hthreats.inCheck_eq kings).symm.trans hsafe

theorem ruling_promoting_of_legal (hpromotes : p.Promotes m) (h : p.ruling m = .legal e)
    (hk' : k' ∈ Kind.promotions) :
    ∃ e', p.ruling (m.promoting k') = .legal e' := by
  obtain ⟨⟨hadm, hallows⟩, hsafe⟩ := ruling_eq_legal.mp h
  have hapart := apart_of_allows hadm hallows
  cases hallows with
  | strike hne => exact absurd hpromotes.1 hne
  | castle way => cases hpromotes.1.symm.trans way.king
  | @pawn captured choice hpawn onward way becomes =>
      rw [Becomes, if_pos hpromotes.2] at becomes
      obtain ⟨kind, hkind, -, rfl⟩ := becomes
      have way' : p.PawnGoes (m.promoting k') captured := way.rechosen (some k')
      have becomes' : p.Becomes (m.promoting k') (some k') := by
        rw [Becomes, if_pos]
        · exact ⟨k', hk', rfl, rfl⟩
        · exact hpromotes.2
      exact ⟨_, ruling_eq_legal.mpr ⟨⟨hadm, .pawn hpawn onward way' becomes'⟩,
        safe_of_promotion hapart hadm.owner hkind hk' hsafe⟩⟩

/-- A choice is asked for exactly if the pawn promotes and each of the choices is legal. -/
theorem ruling_eq_needsPromotion_iff (hnone : m.promotion = none) (hk : k ∈ Kind.promotions) :
    p.ruling m = .needsPromotion ↔
      p.Promotes m ∧ ∃ e, p.ruling (m.promoting k) = .legal e := by
  rw [ruling_eq_needsPromotion, pieceRuling_eq_needsPromotion]
  constructor
  · intro prem
    obtain ⟨⟨-, hpromotes, -, -⟩, e, he⟩ := prem
    exact ⟨hpromotes, ruling_promoting_of_legal (m := m.promoting .queen) hpromotes he hk⟩
  · intro prem
    obtain ⟨hpromotes, e, he⟩ := prem
    obtain ⟨⟨hadm, hallows⟩, -⟩ := ruling_eq_legal.mp he
    refine ⟨⟨hadm, hpromotes, ?_, by simp [hnone]⟩,
      ruling_promoting_of_legal (m := m.promoting k) hpromotes he (by decide)⟩
    cases hallows with
    | strike hne => exact absurd hpromotes.1 hne
    | castle way => cases hpromotes.1.symm.trans way.king
    | @pawn captured choice _ onward way _ => exact ⟨onward, captured, way.rechosen m.promotion⟩

theorem promotion_of_legal (hpromotes : p.Promotes m) (h : p.ruling m = .legal e) :
    ∃ k ∈ Kind.promotions, m.promotion = some k := by
  obtain ⟨⟨-, hallows⟩, -⟩ := ruling_eq_legal.mp h
  cases hallows with
  | strike hne => exact absurd hpromotes.1 hne
  | castle way => cases hpromotes.1.symm.trans way.king
  | pawn _ _ _ becomes =>
      rw [Becomes, if_pos hpromotes.2] at becomes
      obtain ⟨k, hk, hchoice, -⟩ := becomes
      exact ⟨k, hk, hchoice⟩

end Promotion

section Listing

theorem mem_candidates :
    m ∈ p.candidates ↔ (m.src.OnBoard ∧ p.mover m = some p.toMove) ∧ m.dst.OnBoard ∧
      m.promotion = none := by
  simp only [candidates, List.mem_flatMap, Board.mem_squaresOf, List.mem_map, Square.mem_all]
  constructor
  · intro prem
    obtain ⟨src, hsrc, dst, hdst, rfl⟩ := prem
    exact ⟨hsrc, hdst, rfl⟩
  · intro prem
    obtain ⟨hsrc, hdst, hnone⟩ := prem
    exact ⟨m.src, hsrc, m.dst, hdst, by rw [← hnone]⟩

theorem mem_candidates_of_ruling_ne (hnone : m.promotion = none) (h : p.ruling m ≠ .illegal) :
    m ∈ p.candidates := by
  obtain ⟨hsrc, hdst, -, howner, -⟩ := admissible_of_ruling_ne h
  exact mem_candidates.mpr ⟨⟨hsrc, howner⟩, hdst, hnone⟩

/-- The moves listed for a candidate: itself if it is legal, with each choice of promotion if one
is asked for. -/
def listed (p : Position) (m : Move) : List Move :=
  match p.ruling m with
  | .illegal => []
  | .needsPromotion => Kind.promotions.map m.promoting
  | .legal _ => [m]

theorem legalMoves_eq (p : Position) : p.legalMoves = p.candidates.flatMap p.listed := rfl

theorem mem_listed {n : Move} :
    n ∈ p.listed m ↔ (n = m ∧ ∃ e, p.ruling m = .legal e) ∨
      (p.ruling m = .needsPromotion ∧ ∃ k ∈ Kind.promotions, n = m.promoting k) := by
  unfold listed
  cases p.ruling m <;> simp [eq_comm]

/-- The list of legal moves holds the legal moves that name no promotion, and each choice of a
promotion where one is asked for. -/
theorem mem_legalMoves :
    m ∈ p.legalMoves ↔ (m.promotion = none ∧ ∃ e, p.ruling m = .legal e) ∨
      ((∃ k ∈ Kind.promotions, m.promotion = some k) ∧
        p.ruling { m with promotion := none } = .needsPromotion) := by
  simp only [legalMoves_eq, List.mem_flatMap, mem_listed]
  constructor
  · intro prem
    obtain ⟨n, hn, ⟨rfl, he⟩ | ⟨hneeds, k, hk, rfl⟩⟩ := prem
    · exact .inl ⟨(mem_candidates.mp hn).2.2, he⟩
    · have hnone : n = { n.promoting k with promotion := none } := by
        rw [← (mem_candidates.mp hn).2.2]
        rfl
      exact .inr ⟨⟨k, hk, rfl⟩, hnone ▸ hneeds⟩
  · intro prem
    rcases prem with ⟨hnone, e, he⟩ | ⟨⟨k, hk, hchoice⟩, hneeds⟩
    · exact ⟨m, mem_candidates_of_ruling_ne hnone (by simp [he]), .inl ⟨rfl, e, he⟩⟩
    · refine ⟨_, mem_candidates_of_ruling_ne rfl (by simp [hneeds]), .inr ⟨hneeds, k, hk, ?_⟩⟩
      rw [Move.promoting, ← hchoice]

theorem nodup_all : Square.all.Nodup :=
  List.nodup_range.map fun i j h => by
    rw [← Square.index_ofIndex i, h, Square.index_ofIndex]

theorem nodup_candidates (p : Position) : p.candidates.Nodup := by
  refine List.nodup_flatMap.mpr ⟨fun src _ => nodup_all.map fun s t h => (Move.mk.inj h).2.1, ?_⟩
  apply (nodup_all.filter _).imp
  intro a b hne m ha hb
  obtain ⟨_, _, rfl⟩ := List.mem_map.mp ha
  obtain ⟨_, _, h⟩ := List.mem_map.mp hb
  exact hne (Move.mk.inj h).1.symm

theorem nodup_legalMoves (p : Position) : p.legalMoves.Nodup := by
  have ends {m n : Move} (h : n ∈ p.listed m) : n.src = m.src ∧ n.dst = m.dst := by
    rcases mem_listed.mp h with ⟨rfl, -⟩ | ⟨-, k, -, rfl⟩ <;> exact ⟨rfl, rfl⟩
  rw [legalMoves_eq]
  refine List.nodup_flatMap.mpr ⟨fun m _ => ?_, ?_⟩
  · unfold listed
    split
    · exact List.nodup_nil
    · apply List.Nodup.map _ (by decide)
      intro k k' h
      exact Option.some.inj (Move.mk.inj h).2.2
    · exact List.nodup_singleton m
  · refine (nodup_candidates p).imp_of_mem fun {a b} hma hmb hne n ha hb => hne ?_
    obtain ⟨hsrc, hdst⟩ := ends ha
    obtain ⟨hsrc', hdst'⟩ := ends hb
    have hnone := (mem_candidates.mp hma).2.2.trans (mem_candidates.mp hmb).2.2.symm
    cases a
    cases b
    grind

/-- The search for a reply, with queens for promotions, finds one exactly if any move is legal. -/
theorem hasReply_iff : p.hasReply = true ↔ ∃ m e, p.ruling m = .legal e := by
  have isLegal_iff (r : Ruling) : r.isLegal = true ↔ ∃ e, r = .legal e := by
    cases r <;> simp [Ruling.isLegal]
  simp only [hasReply, List.any_eq_true, isLegal_iff]
  constructor
  · intro prem
    obtain ⟨m, -, h⟩ := prem
    exact ⟨_, h⟩
  · intro prem
    obtain ⟨m, e, h⟩ := prem
    have hmem : { m with promotion := none } ∈ p.candidates := by
      obtain ⟨hsrc, hdst, -, howner, -⟩ := (ruling_eq_legal.mp h).1.1
      exact mem_candidates.mpr ⟨⟨hsrc, howner⟩, hdst, rfl⟩
    refine ⟨_, hmem, ?_⟩
    by_cases hpromotes : p.Promotes m
    · exact ruling_promoting_of_legal (m := m) hpromotes h (by decide)
    · exact ⟨e, (ruling_promotion_irrelevant hpromotes _).trans h⟩

theorem hasReply_iff_legalMoves_ne_nil : p.hasReply = true ↔ p.legalMoves ≠ [] := by
  rw [hasReply_iff]
  constructor
  · intro prem
    obtain ⟨m, e, h⟩ := prem
    by_cases hpromotes : p.Promotes m
    · obtain ⟨k, hk, hchoice⟩ := promotion_of_legal hpromotes h
      refine List.ne_nil_of_mem (mem_legalMoves.mpr (.inr ⟨⟨k, hk, hchoice⟩, ?_⟩))
      refine (ruling_eq_needsPromotion_iff rfl hk).mpr ⟨hpromotes, e, ?_⟩
      rw [← h, Move.promoting, ← hchoice]
    · have hlegal : p.ruling { m with promotion := none } = .legal e := by
        rw [ruling_promotion_irrelevant hpromotes, h]
      exact List.ne_nil_of_mem (mem_legalMoves.mpr (.inl ⟨rfl, e, hlegal⟩))
  · intro hne
    obtain ⟨m, h⟩ := List.exists_mem_of_ne_nil _ hne
    rcases mem_legalMoves.mp h with ⟨-, e, he⟩ | ⟨-, hneeds⟩
    · exact ⟨m, e, he⟩
    · exact ⟨_, (ruling_eq_needsPromotion.mp hneeds).2⟩

end Listing

end Arbiter.Position
