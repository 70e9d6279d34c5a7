import Arbiter.Proofs.Turns

/-! # What an open game offers

The outcome looks at the clock before it looks for a reply. So a game in progress always has a legal
move, while a game in which a draw is on offer may have none: the mate or stalemate goes unnoticed
until the clock runs out or the draw is claimed.
-/

namespace Arbiter

namespace Position

variable {p : Position}

theorem stuck?_eq_none_iff : p.stuck? = none ↔ p.hasReply = true := by
  simp only [stuck?]
  split_ifs with h <;> simp [h]

theorem stuck?_over {s : Status} (h : p.stuck? = some s) : s.isOver = true := by
  unfold stuck? at h
  split_ifs at h <;> cases h <;> rfl

theorem hasReply_iff_isLegal : p.hasReply = true ↔ ∃ m, (p.ruling m).isLegal = true := by
  rw [hasReply_iff]
  apply exists_congr
  intro m
  cases p.ruling m <;> simp [Ruling.isLegal]

/-- A player with a reply plays on; without one, check makes the difference. -/
theorem stuck?_cases (p : Position) :
    (p.hasReply = true ∧ p.stuck?.getD .inProgress = .inProgress) ∨
      (p.hasReply = false ∧ p.inCheck (some p.toMove) = true ∧
        p.stuck?.getD .inProgress = .checkmate) ∨
      (p.hasReply = false ∧ p.inCheck (some p.toMove) = false ∧
        p.stuck?.getD .inProgress = .stalemate) := by
  unfold stuck?
  cases p.hasReply <;> cases p.inCheck (some p.toMove) <;> simp

theorem outcome_cases (p : Position) :
    (150 ≤ p.quietPlies ∧ p.outcome = .drawByMoveClock) ∨
      ((100 ≤ p.quietPlies ∧ p.quietPlies < 150) ∧ p.outcome = .drawOffered) ∨
      (p.quietPlies < 100 ∧ p.outcome = p.stuck?.getD .inProgress) := by
  unfold outcome drawPlies offerPlies
  split_ifs with h₁ h₂
  · exact .inl ⟨h₁, rfl⟩
  · exact .inr (.inl ⟨⟨h₂, by omega⟩, rfl⟩)
  · exact .inr (.inr ⟨by omega, rfl⟩)

theorem outcome_ne_drawClaimed (p : Position) : p.outcome ≠ .drawClaimed := by
  intro h
  rcases p.outcome_cases with ⟨-, h'⟩ | ⟨-, h'⟩ | ⟨-, h'⟩
  · cases h.symm.trans h'
  · cases h.symm.trans h'
  · rcases p.stuck?_cases with ⟨-, h''⟩ | ⟨-, -, h''⟩ | ⟨-, -, h''⟩ <;>
      cases (h.symm.trans h').trans h''

theorem clock_of_drawOffered (h : p.outcome = .drawOffered) :
    100 ≤ p.quietPlies ∧ p.quietPlies < 150 := by
  rcases p.outcome_cases with ⟨-, h'⟩ | ⟨hclock, -⟩ | ⟨-, h'⟩
  · cases h.symm.trans h'
  · exact hclock
  · rcases p.stuck?_cases with ⟨-, h''⟩ | ⟨-, -, h''⟩ | ⟨-, -, h''⟩ <;>
      cases (h.symm.trans h').trans h''

end Position

namespace Game

variable {g g₀ : Game}

/-- The status of a game that has not been decided by a claim: found from the replies alone, or, if
a draw is on offer or forced, from the clock alone. -/
def StatusFits (g : Game) : Prop :=
  g.status = g.position.stuck?.getD .inProgress ∨
    (150 ≤ g.position.quietPlies ∧ g.status = .drawByMoveClock) ∨
    ((100 ≤ g.position.quietPlies ∧ g.position.quietPlies < 150) ∧ g.status = .drawOffered)

theorem Starts.status (h : Starts g) : g.status = g.position.stuck?.getD .inProgress := by
  rcases h with rfl | ⟨text, h⟩
  · have hreply : Position.initial.hasReply = true := by decide +kernel
    have hstuck : Position.initial.stuck? = none := Position.stuck?_eq_none_iff.mpr hreply
    simp [initial, hstuck]
  · exact (ofDescriptor_eq_ok.mp h).2

theorem Run.statusFits (hstart : Starts g₀) (hrun : Run g₀ g) : g.StatusFits := by
  apply hrun.invariant StatusFits (.inl hstart.status)
  intro a b m e played _
  simp only [StatusFits]
  rw [played.status]
  rcases b.position.outcome_cases with h | h | ⟨-, h⟩
  · exact .inr (.inl h)
  · exact .inr (.inr h)
  · exact .inl h

/-- In every game a game in progress has a legal move. A player without a legal move has lost or
drawn, or is offered a draw with the clock between 100 and 149; and then, and only then, an open
game has no move to offer. -/
theorem open_game_lists_moves (hstart : Starts g₀) (hrun : Run g₀ g) :
    (g.status = .inProgress → ∃ ms, g.legalMoves = .ok ms ∧ ms ≠ []) ∧
      ((∀ m, (g.position.ruling m).isLegal = false) → g.status.isOver = true ∨
        (g.status = .drawOffered ∧ 100 ≤ g.position.quietPlies ∧ g.position.quietPlies < 150)) ∧
      (g.legalMoves = .ok [] ↔
        g.status = .drawOffered ∧ ∀ m, (g.position.ruling m).isLegal = false) := by
  have hfits := Run.statusFits hstart hrun
  have noReply : g.position.hasReply = false ↔
      ∀ m, (g.position.ruling m).isLegal = false := by
    rw [← Bool.not_eq_true, Position.hasReply_iff, not_exists]
    apply forall_congr'
    intro m
    cases g.position.ruling m <;> simp [Ruling.isLegal]
  have noMoves : g.position.legalMoves = [] ↔ g.position.hasReply = false := by
    rw [← Bool.not_eq_true, Position.hasReply_iff_legalMoves_ne_nil, not_not]
  have progress : g.status = .inProgress → g.position.hasReply = true := by
    intro hstatus
    rcases hfits with h | ⟨-, h⟩ | ⟨-, h⟩
    · cases hstuck : g.position.stuck? with
      | none => exact Position.stuck?_eq_none_iff.mp hstuck
      | some s =>
          rw [hstuck, Option.getD_some, hstatus] at h
          cases Position.stuck?_over (h ▸ hstuck)
    · cases hstatus.symm.trans h
    · cases hstatus.symm.trans h
  have stuck : g.position.hasReply = false → g.status.isOver = true ∨ (g.status = .drawOffered ∧
      100 ≤ g.position.quietPlies ∧ g.position.quietPlies < 150) := by
    intro hnone
    rcases hfits with h | ⟨-, h⟩ | ⟨hclock, h⟩
    · cases hstuck : g.position.stuck? with
      | none => cases hnone.symm.trans (Position.stuck?_eq_none_iff.mp hstuck)
      | some s =>
          rw [hstuck, Option.getD_some] at h
          exact .inl (h ▸ Position.stuck?_over hstuck)
    · exact .inl (by rw [h]; rfl)
    · exact .inr ⟨h, hclock⟩
  refine ⟨fun hstatus => ?_, fun hnone => stuck (noReply.mpr hnone), ?_⟩
  · have hopen : g.status.isOver = false := by rw [hstatus]; rfl
    refine ⟨_, legalMoves_of_open hopen, ?_⟩
    exact Position.hasReply_iff_legalMoves_ne_nil.mp (progress hstatus)
  · rw [← noReply, ← noMoves]
    constructor
    · intro hlist
      have hopen : g.status.isOver = false := by
        by_contra hover
        simp [legalMoves, Bool.eq_true_of_not_eq_false hover] at hlist
      have hnil : g.position.legalMoves = [] :=
        Except.ok.inj ((legalMoves_of_open hopen).symm.trans hlist)
      rcases stuck (noMoves.mp hnil) with hover | ⟨hoffered, -⟩
      · cases hopen.symm.trans hover
      · exact ⟨hoffered, hnil⟩
    · intro prem
      obtain ⟨hoffered, hnil⟩ := prem
      simp [legalMoves, hoffered, Status.isOver, hnil]

/-- A mate on the back rank, one capture-free ply before a draw is offered. -/
def mateAtTheOffer : Game where
  position :=
    { board := (((((Board.bare.put ⟨0, 6⟩ { kind := .king, owner := some .black }).put ⟨1, 5⟩
        { kind := .pawn, owner := some .black }).put ⟨1, 6⟩
        { kind := .pawn, owner := some .black }).put ⟨1, 7⟩
        { kind := .pawn, owner := some .black }).put ⟨7, 0⟩
        { kind := .rook, owner := some .white, moves := 1 }).put ⟨7, 6⟩
        { kind := .king, owner := some .white }
      plies := 118
      lastCapture := 19 }

/-- The mating move. -/
def backRankMate : Move := { src := ⟨7, 0⟩, dst := ⟨0, 0⟩ }

theorem mateAtTheOffer_starts : Starts mateAtTheOffer :=
  .inr ⟨"6k1/5ppp/8/8/8/8/8/R5K1 w - - 99 60", by decide +kernel⟩

theorem mateAtTheOffer_run : Run mateAtTheOffer (mateAtTheOffer.play backRankMate).game :=
  have accepted : (mateAtTheOffer.play backRankMate).result = .ok .drawOffered := by
    decide +kernel
  .single (.move accepted)

/-- After the mate the list of legal moves is empty, and so no move is legal. -/
theorem offered_mate_has_no_move :
    (Starts mateAtTheOffer ∧ Run mateAtTheOffer (mateAtTheOffer.play backRankMate).game) ∧
      ∀ m, ((mateAtTheOffer.play backRankMate).game.position.ruling m).isLegal = false :=
  have hlist : (mateAtTheOffer.play backRankMate).game.legalMoves = .ok [] := by decide +kernel
  ⟨⟨mateAtTheOffer_starts, mateAtTheOffer_run⟩,
    ((open_game_lists_moves mateAtTheOffer_starts mateAtTheOffer_run).2.2.mp hlist).2⟩

/-- An open game may have no legal move: its player is mated, and a draw is on offer. -/
theorem open_game_without_moves :
    ∃ g₀ g, Starts g₀ ∧ Run g₀ g ∧ g.status.isOver = false ∧ g.isCheck = true ∧
      g.legalMoves = .ok [] :=
  ⟨mateAtTheOffer, (mateAtTheOffer.play backRankMate).game, mateAtTheOffer_starts,
    mateAtTheOffer_run, by decide +kernel, by decide +kernel, by decide +kernel⟩

end Game
end Arbiter
