import Arbiter.Proofs.CastlingReplies
import Arbiter.Proofs.OpenGames
import Arbiter.Proofs.Refiling

/-! # Games reopened from their descriptors

A descriptor keeps no status. A game that is taken up from the descriptor of another one is over if
the player to move is stuck, and open if not, whatever the clock says. A game that has been played
on looks at the clock first. So the status of the game is found again exactly as long as fewer than
100 plies have gone by since the latest capture.
-/

namespace Arbiter.Game

variable {g g' g₀ : Game} {m : Move} {ms : List Move}

theorem fits_of_play {s : Status} (h : (g.play m).result = .ok s) :
    Numeral.Fits (g.play m).game.position.plies := by
  obtain ⟨e, played⟩ := played_of_play h
  have hruling := Position.ruling_eq_legal.mpr
    ⟨⟨played.admissible, played.allows⟩, played.safe⟩
  rw [play_of_legal played.wasOpen hruling] at h
  rw [played.position, Position.plies_play]
  by_contra hfits
  rw [if_neg hfits] at h
  cases h

theorem Makes.fits (h : Makes g m g') : Numeral.Fits g'.position.plies := by
  cases h with
  | move accepted => exact fits_of_play accepted
  | notated read accepted =>
      rw [playText_of_ofNotation read] at accepted ⊢
      exact fits_of_play accepted

theorem Starts.fileable (h : Starts g) : g.Fileable := by
  rcases h with rfl | ⟨text, h⟩
  · exact fileable_initial
  · exact fileable_of_text h

theorem Starts.cornered (h : Starts g) : g.position.Cornered := by
  rcases h with rfl | ⟨text, h⟩
  · exact Position.cornered_initial
  · exact Position.cornered_of_text (position_of_ofDescriptor h)

theorem Run.timely (hrun : Run g₀ g) (hstart : Starts g₀) : g.position.Timely :=
  hrun.invariant (·.position.Timely) hstart.fileable.timely fun played h => played.timely h

theorem Run.cornered (hrun : Run g₀ g) (hstart : Starts g₀) : g.position.Cornered :=
  hrun.invariant (·.position.Cornered) hstart.cornered fun played h => by
    rw [played.position]
    exact h.play played.admissible played.allows

theorem fits_turn {p : Position} (hclock : 0 ≤ p.plies) (hfits : Numeral.Fits p.plies) :
    Numeral.Fits p.turn := by
  have hlimit : 9999 < Numeral.limit := Numeral.fits_of_four_digits (n := 9999) (by decide)
  unfold Numeral.Fits at *
  unfold Position.turn
  omega

/-- The game that the descriptor of a played game is taken up as has the status of the replies
alone. -/
theorem taken_up (hrun : Run g₀ g) (hstart : Starts g₀) (hwritable : g.position.Writable) :
    ∃ g', ofDescriptor g.position.text = .ok g' ∧
      g'.status = g.position.stuck?.getD .inProgress := by
  have htimely := hrun.timely hstart
  obtain ⟨q, hposition, hakin, -⟩ := htimely.toLegible.restored hwritable
  refine ⟨⟨q, q.stuck?.getD .inProgress⟩, ofDescriptor_eq_ok.mpr ⟨hposition, rfl⟩, ?_⟩
  rw [hakin.stuck?_eq (hrun.cornered hstart) (Position.cornered_of_text hposition)]

/-- The clock overrules the replies from the offer of a draw on. -/
theorem outcome_eq_replies_iff (p : Position) :
    p.stuck?.getD .inProgress = p.outcome ↔ p.quietPlies < 100 := by
  rcases p.outcome_cases with ⟨hquiet, h⟩ | ⟨⟨hquiet, -⟩, h⟩ | ⟨hquiet, h⟩
  all_goals rw [h]
  · refine iff_of_false ?_ (by omega)
    rcases p.stuck?_cases with ⟨-, hs⟩ | ⟨-, -, hs⟩ | ⟨-, -, hs⟩ <;> simp [hs]
  · refine iff_of_false ?_ (by omega)
    rcases p.stuck?_cases with ⟨-, hs⟩ | ⟨-, -, hs⟩ | ⟨-, -, hs⟩ <;> simp [hs]
  · exact iff_of_true rfl hquiet

/-- After one or more moves, a game with fewer than 100 plies since its latest capture can be
reopened from its descriptor with its own status. Later the reopened game stands as the replies
alone say. -/
theorem reopened_status (hstart : Starts g₀) (line : Line g₀ (m :: ms) g) :
    (g.position.quietPlies < 100 → g.position.Writable) ∧
      (g.position.Writable → ∃ g', ofDescriptor g.position.text = .ok g' ∧
        g'.status = g.position.stuck?.getD .inProgress ∧
        (g'.status = g.status ↔ g.position.quietPlies < 100)) := by
  have hrun := line.run
  have htimely := hrun.timely hstart
  cases line with
  | move before made =>
      obtain ⟨e, played⟩ := made.played
      constructor
      · intro hquiet
        have hcaptured := htimely.captured
        refine ⟨Numeral.fits_of_four_digits ?_, fits_turn htimely.clock made.fits⟩
        unfold Position.quietPlies at *
        omega
      · intro hwritable
        obtain ⟨g', hread, hstatus⟩ := taken_up hrun hstart hwritable
        refine ⟨g', hread, hstatus, ?_⟩
        rw [hstatus, played.status, outcome_eq_replies_iff]

/-- A king and a rook against a king, one ply before the clock ends the game. -/
def lastPlyOfTheClock : Game where
  position :=
    { board := ((Board.bare.put ⟨0, 4⟩ { kind := .king, owner := some .black }).put ⟨7, 0⟩
        { kind := .rook, owner := some .white, moves := 1 }).put ⟨7, 4⟩
        { kind := .king, owner := some .white }
      plies := 158
      lastCapture := 9 }

/-- The rook goes one square ahead. -/
def rookAhead : Move := { src := ⟨7, 0⟩, dst := ⟨6, 0⟩ }

theorem lastPlyOfTheClock_starts : Starts lastPlyOfTheClock :=
  .inr ⟨"4k3/8/8/8/8/8/8/R3K3 w - - 149 80", by decide +kernel⟩

theorem lastPlyOfTheClock_line :
    Line lastPlyOfTheClock [rookAhead] (lastPlyOfTheClock.play rookAhead).game :=
  have accepted : (lastPlyOfTheClock.play rookAhead).result = .ok .drawByMoveClock := by
    decide +kernel
  .move .start (.move accepted)

/-- The game that the clock has ended is not found over again. -/
theorem reopened_after_the_clock :
    (Starts lastPlyOfTheClock ∧
      Line lastPlyOfTheClock [rookAhead] (lastPlyOfTheClock.play rookAhead).game) ∧
      ∃ g', ofDescriptor (lastPlyOfTheClock.play rookAhead).game.position.text = .ok g' ∧
        g'.status ≠ (lastPlyOfTheClock.play rookAhead).game.status := by
  have hwritable : (lastPlyOfTheClock.play rookAhead).game.position.Writable := by
    decide +kernel
  obtain ⟨g', hread, -, hkept⟩ :=
    (reopened_status lastPlyOfTheClock_starts lastPlyOfTheClock_line).2 hwritable
  refine ⟨⟨lastPlyOfTheClock_starts, lastPlyOfTheClock_line⟩, g', hread, ?_⟩
  rw [ne_eq, hkept]
  decide +kernel

/-- A game that is over can be reopened by feeding its own descriptor back in. -/
theorem finished_game_reopened :
    ∃ g₀ m g g', Starts g₀ ∧ Line g₀ [m] g ∧ ofDescriptor g.position.text = .ok g' ∧
      (g.status = .drawByMoveClock ∧ g.status.isOver = true) ∧
      (g'.status = .inProgress ∧ g'.status.isOver = false) := by
  have hwritable : (lastPlyOfTheClock.play rookAhead).game.position.Writable := by
    decide +kernel
  have hreplies :
      (lastPlyOfTheClock.play rookAhead).game.position.stuck?.getD .inProgress = .inProgress := by
    decide +kernel
  obtain ⟨g', hread, hstatus⟩ :=
    taken_up lastPlyOfTheClock_line.run lastPlyOfTheClock_starts hwritable
  rw [hreplies] at hstatus
  exact ⟨lastPlyOfTheClock, rookAhead, _, g', lastPlyOfTheClock_starts, lastPlyOfTheClock_line,
    hread, by decide +kernel, by simp [hstatus, Status.isOver]⟩

end Arbiter.Game
