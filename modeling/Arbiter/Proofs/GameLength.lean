import Arbiter.Proofs.Endurance
import Arbiter.Proofs.KingSafety

/-! # How many moves a game can have

Nothing counts the moves of a game, and no player has to claim a draw. Yet the clock ends a game 150
plies after the latest capture, each capture leaves a man less, and the kings are never taken. So the
men that a game starts with bound the number of its moves.
-/

namespace Arbiter

theorem Position.Sound.two_le_card_men {p : Position} (hp : p.Sound) : 2 ≤ p.board.men.card := by
  obtain ⟨k, hk, -⟩ := hp.kings .white
  obtain ⟨k', hk', -⟩ := hp.kings .black
  apply Finset.one_lt_card.mpr
  refine ⟨k, mem_men.mpr (Cell.occupied_of_kind hk.1 (by decide)), k',
    mem_men.mpr (Cell.occupied_of_kind hk'.1 (by decide)), ?_⟩
  intro same
  subst same
  cases hk.2.symm.trans hk'.2

namespace Game

variable {g g₀ : Game} {ms : List Move}

/-- At the start the whole budget is left: 150 plies for each man on the board. -/
theorem paced_start (hcaptured : g.position.lastCapture ≤ g.position.plies) :
    g.Paced g.position.plies (g.position.plies + 150 * g.position.board.men.card) := by
  have hlatest : g.position.latestCapture g.position.plies = g.position.plies :=
    max_eq_left hcaptured
  constructor
  · omega
  · omega
  · rw [hlatest]

theorem Run.paced {start budget : Int} (hrun : Run g₀ g) (h : g₀.Paced start budget) :
    g.Paced start budget :=
  hrun.invariant (Paced start budget) h fun played hpaced => hpaced.played played

theorem card_men_initial : Game.initial.position.board.men.card = 32 := by
  decide +kernel

/-- No line of moves that a game accepts is longer than 150 times the number of men that it starts
with, less one: from the initial position 4650 moves. -/
theorem line_bounded_by_men (hstart : FairStart g₀) (line : Line g₀ ms g) :
    ms.length ≤ 150 * (g₀.position.board.men.card - 1) ∧ (g₀ = .initial → ms.length ≤ 4650) := by
  have hpaced := line.run.paced (paced_start hstart.sound.captured)
  have hkings := (line.run.sound hstart).two_le_card_men
  have hlength : ms.length ≤ 150 * (g₀.position.board.men.card - 1) := by
    have hplies := line.plies
    have hquiet := hpaced.quiet.2
    have hcaptures := hpaced.captures
    omega
  refine ⟨hlength, fun hinitial => ?_⟩
  rw [hinitial, card_men_initial] at hlength
  exact hlength

/-- White castles, and black's king steps aside. -/
def castlingLine : List Move := [{ src := ⟨0, 4⟩, dst := ⟨0, 5⟩ }, longCastling]

theorem castlingLine_bounded :
    ∃ g, (FairStart castlingGame ∧ Line castlingGame castlingLine g) ∧
      castlingLine.length ≤ 150 * (castlingGame.position.board.men.card - 1) := by
  have hreplay : (replay castlingGame castlingLine).isSome := by decide +kernel
  obtain ⟨g, hg⟩ := Option.isSome_iff_exists.mp hreplay
  have line : Line castlingGame castlingLine g := line_iff_replay.mpr hg
  exact ⟨g, ⟨castlingGame_fairStart, line⟩, (line_bounded_by_men castlingGame_fairStart line).1⟩

end Game
end Arbiter
