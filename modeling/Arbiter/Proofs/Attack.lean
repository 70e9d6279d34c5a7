import Arbiter.Proofs.Geometry

/-! # What it takes to attack a square

Attacked squares are found by putting a pawn on a vacant square and asking every piece of the
opponent to move there. `attacked_iff` says what this comes to on the board as it is: some piece of
the opponent strikes the square. The counters of the pieces and the clocks have no part in it.
-/

namespace Arbiter

namespace Ruling

@[simp] theorem isLegal_legalIf (c : Prop) [Decidable c] :
    (Ruling.legalIf c).isLegal = true ↔ c := by
  by_cases h : c <;> simp [legalIf, isLegal, h]

theorem legalIf_eq_legal {c : Prop} [Decidable c] {e : Effects} :
    Ruling.legalIf c = .legal e ↔ c ∧ e = {} := by
  by_cases h : c <;> simp [legalIf, h, eq_comm]

theorem legalIf_ne_needsPromotion (c : Prop) [Decidable c] :
    Ruling.legalIf c ≠ .needsPromotion := by
  by_cases h : c <;> simp [legalIf, h]

end Ruling

namespace Position

/-- The piece on one square takes whatever stands on the other, as its kind does. A pawn strikes
diagonally only, and castling strikes nothing. -/
def Strikes (p : Position) (src dst : Square) : Prop :=
  let m : Move := { src, dst }
  match (p.board.get src).kind with
  | .empty => False
  | .pawn => p.PawnDiagonal m
  | .knight => m.KnightJump
  | .bishop => m.Diagonal ∧ p.ClearPath m
  | .rook => m.Straight ∧ p.ClearPath m
  | .queen => (m.Straight ∨ m.Diagonal) ∧ p.ClearPath m
  | .king => m.KingStep

theorem Strikes.occupied {p : Position} {src dst : Square} (h : p.Strikes src dst) :
    ¬ (p.board.get src).IsEmpty := by
  intro hempty
  unfold Strikes at h
  rw [show (p.board.get src).kind = .empty from hempty] at h
  exact h

theorem pawnArrival_isLegal {p : Position} {m : Move} {kind : Kind}
    (hchoice : m.promotion = some kind) (hkind : kind ∈ Kind.promotions)
    (captured : Option Square) : (p.pawnArrival m captured).isLegal = true := by
  unfold pawnArrival arrivalRuling
  split
  · simp [hchoice, hkind, Ruling.isLegal]
  · rfl

theorem ahead_onBoard {p : Position} {m : Move} (hsrc : m.src.OnBoard) (hdst : m.dst.OnBoard)
    (h : p.PawnDiagonal m) : (p.ahead m).OnBoard := by
  have hrow : m.dst.row - m.src.row = Side.forward (p.mover m) := h.2
  simp only [ahead, Square.shift, Square.OnBoard] at *
  omega

theorem not_pawnAdvance {p : Position} {m : Move} (hocc : ¬ (p.board.get m.dst).IsEmpty) :
    ¬ p.PawnAdvance m := by
  intro prem
  obtain ⟨-, hahead, hdst | ⟨-, -, hvacant⟩⟩ := prem
  · exact hocc (hdst ▸ hahead)
  · exact hocc hvacant

theorem movementRuling_isLegal {p : Position} {m : Move} {kind : Kind}
    (hsrc : m.src.OnBoard) (hdst : m.dst.OnBoard) (hocc : ¬ (p.board.get m.dst).IsEmpty)
    (hchoice : m.promotion = some kind) (hkind : kind ∈ Kind.promotions) :
    (p.movementRuling m (p.board.get m.src).kind).isLegal = true ↔ p.Strikes m.src m.dst := by
  unfold movementRuling Strikes
  cases (p.board.get m.src).kind with
  | empty => simp [Ruling.isLegal]
  | pawn =>
      simp only [pawnRuling, if_neg (not_pawnAdvance hocc), if_pos hocc]
      by_cases h : p.PawnDiagonal m
      · have hahead := ahead_onBoard hsrc hdst h
        simp only [hahead, not_true_eq_false, if_false, if_pos h]
        exact iff_of_true (pawnArrival_isLegal hchoice hkind none) h
      · simp only [if_neg h, ite_self]
        exact iff_of_false Bool.false_ne_true h
  | knight => exact Ruling.isLegal_legalIf _
  | bishop => exact Ruling.isLegal_legalIf _
  | rook => exact Ruling.isLegal_legalIf _
  | queen => exact Ruling.isLegal_legalIf _
  | king => exact Ruling.isLegal_legalIf _

section Marking

variable {p : Position} {s t : Square} {side : Side}

theorem get_marked_of_ne (owner : Option Side) (h : t ≠ s) :
    (p.marked s owner).board.get t = p.board.get t := by
  unfold marked
  split
  · exact Board.get_put_of_ne _ h _
  · rfl

theorem get_marked_self (hs : s.OnBoard) :
    ¬ ((p.marked s (some side)).board.get s).IsEmpty ∧
      (((p.marked s (some side)).board.get s).owner ≠ some side.opponent ↔
        ((p.board.get s).IsEmpty ∨ (p.board.get s).owner ≠ some side.opponent)) := by
  unfold marked
  split
  · rename_i h
    rw [Board.get_put_self _ hs]
    refine ⟨by simp [Cell.IsEmpty], iff_of_true ?_ (Or.inl h)⟩
    simpa using (Side.opponent_ne side).symm
  · rename_i h
    simp [h]

theorem clearPath_marked (owner : Option Side) {m : Move} (h : m.dst = s) :
    (p.marked s owner).ClearPath m ↔ p.ClearPath m := by
  apply forall₂_congr
  intro t ht
  have hne : t ≠ s := by
    intro same
    subst same
    exact m.dst_notMem_between (h ▸ ht)
  rw [get_marked_of_ne owner hne]

theorem strikes_marked (owner : Option Side) (h : t ≠ s) :
    (p.marked s owner).Strikes t s ↔ p.Strikes t s := by
  unfold Strikes PawnDiagonal mover
  simp only [get_marked_of_ne owner h, clearPath_marked owner (m := { src := t, dst := s }) rfl]

end Marking

/-- A square is attacked exactly if it holds no piece of the attacker, and a piece of the attacker
strikes it. -/
theorem attacked_iff {p : Position} {s : Square} {side : Side} (hs : s.OnBoard) :
    p.attacked s (some side) = true ↔
      ((p.board.get s).IsEmpty ∨ (p.board.get s).owner ≠ some side.opponent) ∧
        ∃ src, src.OnBoard ∧ (p.board.get src).owner = some side.opponent ∧ p.Strikes src s := by
  obtain ⟨hocc, hfree⟩ := @get_marked_self p s side hs
  have reaches_iff {src : Square} (hsrc : src.OnBoard) :
      (p.marked s (some side)).reaches src s (some side.opponent) = true ↔
        (p.marked s (some side)).Admissible { src, dst := s, promotion := some .queen }
          (some side.opponent) ∧ (p.marked s (some side)).Strikes src s := by
    simp only [reaches, Bool.and_eq_true, decide_eq_true_eq]
    rw [movementRuling_isLegal (m := { src, dst := s, promotion := some .queen }) hsrc hs hocc rfl
      (by decide)]
  simp only [attacked, Option.map_some, List.any_eq_true, Board.mem_squaresOf]
  constructor
  · intro prem
    obtain ⟨src, ⟨hsrc, howner⟩, hreaches⟩ := prem
    obtain ⟨⟨-, -, -, -, htarget⟩, hstrikes⟩ := (reaches_iff hsrc).mp hreaches
    have htarget' := hfree.mp (htarget.resolve_left hocc)
    have hne : src ≠ s := by
      intro same
      subst same
      exact htarget.resolve_left hocc howner
    rw [get_marked_of_ne _ hne] at howner
    exact ⟨htarget', src, hsrc, howner, (strikes_marked _ hne).mp hstrikes⟩
  · intro prem
    obtain ⟨htarget, src, hsrc, howner, hstrikes⟩ := prem
    have hkind := hstrikes.occupied
    have hne : src ≠ s := by
      intro same
      subst same
      exact htarget.elim hkind fun h => h howner
    refine ⟨src, ⟨hsrc, by rwa [get_marked_of_ne _ hne]⟩, (reaches_iff hsrc).mpr ⟨?_, ?_⟩⟩
    · refine ⟨hsrc, hs, ?_, ?_, Or.inr (hfree.mpr htarget)⟩
      · rwa [get_marked_of_ne _ hne]
      · rwa [mover, get_marked_of_ne _ hne]
    · exact (strikes_marked _ hne).mpr hstrikes

/-- Two boards on which the attackers of a side meet the same obstacles: the same squares are
vacant and have the same owners, and the opponent's pieces are of the same kinds. -/
structure SameThreats (a b : Board) (side : Side) : Prop where
  vacant : ∀ s, (a.get s).IsEmpty ↔ (b.get s).IsEmpty
  owner : ∀ s, (a.get s).owner = (b.get s).owner
  attacker : ∀ s, (a.get s).owner = some side.opponent → (a.get s).kind = (b.get s).kind

namespace SameThreats

variable {p q : Position} {side : Side}

theorem strikes_iff (h : SameThreats p.board q.board side) {src dst : Square}
    (howner : (p.board.get src).owner = some side.opponent) :
    p.Strikes src dst ↔ q.Strikes src dst := by
  have hpath (m : Move) : p.ClearPath m ↔ q.ClearPath m :=
    forall₂_congr fun s _ => h.vacant s
  have hmover (m : Move) : p.mover m = q.mover m := h.owner m.src
  simp only [Strikes, ← h.attacker src howner, PawnDiagonal, hpath, hmover]

/-- What is attacked depends on the obstacles and the attackers alone. -/
theorem attacked_eq (h : SameThreats p.board q.board side) {s : Square} (hs : s.OnBoard) :
    p.attacked s (some side) = q.attacked s (some side) := by
  rw [Bool.eq_iff_iff, attacked_iff hs, attacked_iff hs, h.vacant s, h.owner s]
  apply and_congr_right
  intro _
  apply exists_congr
  intro src
  apply and_congr_right
  intro _
  rw [← h.owner src]
  exact and_congr_right fun howner => h.strikes_iff howner

theorem inCheck_eq (h : SameThreats p.board q.board side)
    (hking : ∀ s, (p.board.get s).owner = some side →
      ((p.board.get s).kind = .king ↔ (q.board.get s).kind = .king)) :
    p.inCheck (some side) = q.inCheck (some side) := by
  have hsame : p.board.king? (some side) = q.board.king? (some side) := by
    simp only [Board.king?]
    congr 1
    funext s
    rw [decide_eq_decide, ← h.owner s]
    exact and_congr_left fun howner => hking s howner
  simp only [inCheck]
  rw [← hsame]
  cases hfound : p.board.king? (some side) with
  | none => rfl
  | some s => exact h.attacked_eq (Square.mem_all.mp (List.mem_of_find?_eq_some hfound))

end SameThreats

end Position
end Arbiter
