import Arbiter.Proofs.OpenGames
import Arbiter.Proofs.Trials

/-! # What the search for a reply finds

The search tries only moves from the player's own squares, and has every pawn become a queen. The
list of legal moves is found without any promotion, and a player may send any move at all. The three
agree on whether there is a legal move, and with them what is said of a player who is stuck.
-/

namespace Arbiter.Position

open Guarded (Trial)

variable {p : Position} {m : Move}

/-- A move, of any squares and with any promotion, that is legal when it is tried out on a copy. -/
def Playable (p : Position) (m : Move) : Prop :=
  ∃ e, Trial.onCopy (Trial.attempt m) p = (.ok (.legal e), p)

theorem playable_iff : p.Playable m ↔ ∃ e, p.ruling m = .legal e := by
  unfold Playable Trial.onCopy
  rw [Guarded.Trial.attempt_eq]
  apply exists_congr
  intro e
  constructor
  · intro h
    exact Except.ok.inj (congrArg Prod.fst h)
  · intro h
    exact congrArg (Prod.mk · p) (congrArg Except.ok h)

theorem playable_iff_tried : p.Playable m ↔ ∃ e q, p.Tried m (.legal e) q := by
  rw [playable_iff]
  apply exists_congr
  intro e
  constructor
  · intro hruling
    have tried := p.tried_attempt m
    rw [show (p.attempt m).1 = .legal e from hruling] at tried
    exact ⟨_, tried⟩
  · intro prem
    obtain ⟨q, tried⟩ := prem
    exact congrArg Prod.fst tried.attempt_eq

theorem hasReply_iff_playable : p.hasReply = true ↔ ∃ m, p.Playable m := by
  rw [hasReply_iff]
  exact exists_congr fun _ => playable_iff.symm

/-- Checkmate is found exactly if no move is playable in check, and stalemate exactly if none is
playable and the king is not in check. -/
theorem stuck?_iff_no_playable (p : Position) :
    (p.stuck? = none ↔ ∃ m, p.Playable m) ∧
      (p.stuck? = some .checkmate ↔ (∀ m, ¬ p.Playable m) ∧ p.inCheck (some p.toMove) = true) ∧
      (p.stuck? = some .stalemate ↔ (∀ m, ¬ p.Playable m) ∧ p.inCheck (some p.toMove) = false) := by
  have hnone : (∀ m, ¬ p.Playable m) ↔ p.hasReply = false := by
    rw [← not_exists, ← hasReply_iff_playable, Bool.not_eq_true]
  rw [← hasReply_iff_playable, hnone, stuck?]
  cases p.hasReply <;> cases p.inCheck (some p.toMove) <;> simp

/-- The search for a reply, the list of legal moves and the trial of every move whatsoever agree on
whether the player to move has one, and a player without one is mated or stalemated. Playable are
the moves that the rules allow and that leave the player's own king safe, no others and no fewer. -/
theorem search_finds_every_reply (p : Position) :
    ∃ (answer check : Bool) (ms : List Move) (found : Option Status),
      (Trial.hasReply p = (.ok answer, p) ∧
        Game.Dealing.legalMoves { position := p } = (.ok (.ok ms), { position := p }) ∧
        Trial.inCheck (some p.toMove) p = (.ok check, p) ∧
        Trial.stuck? p = (.ok found, p)) ∧
      (answer = true ↔ ms ≠ []) ∧
      (answer = true ↔ ∃ m, p.Playable m) ∧
      (found = none ↔ ∃ m, p.Playable m) ∧
      (found = some .checkmate ↔ (∀ m, ¬ p.Playable m) ∧ check = true) ∧
      (found = some .stalemate ↔ (∀ m, ¬ p.Playable m) ∧ check = false) ∧
      ∀ m, p.Playable m ↔ ∃ e q, p.Tried m (.legal e) q := by
  have hlist : Game.Dealing.legalMoves { position := p } =
      (.ok (.ok p.legalMoves), { position := p }) := by
    rw [Game.Dealing.legalMoves_eq, Game.legalMoves_of_open rfl]
  obtain ⟨hstuck, hmate, hstalemate⟩ := p.stuck?_iff_no_playable
  exact ⟨p.hasReply, p.inCheck (some p.toMove), p.legalMoves, p.stuck?,
    ⟨Guarded.Trial.reads_hasReply p, hlist, Guarded.Trial.reads_check p p.toMove,
      Guarded.Trial.reads_stuck? p⟩,
    hasReply_iff_legalMoves_ne_nil, hasReply_iff_playable, hstuck, hmate, hstalemate,
    fun _ => playable_iff_tried⟩

end Arbiter.Position
