import Arbiter.Proofs.Endurance
import Arbiter.Proofs.Restoring

/-! # Text and status say all

A game from the initial position that is filed and restored forgets the counters of its pieces, and
yet nothing that can be asked of it afterwards tells the difference. `Twins` relates games that show
the same: their positions play alike, and both are such as arise in games from the initial position.
Every call keeps twins twins, and a reload leads to a twin.
-/

namespace Arbiter.Game

variable {g g' h : Game} {m : Move} {e : Effects}

/-- The game as it is restored from its own record, if its counters can be written. -/
def reload (g : Game) : Option Game :=
  if g.position.Writable then (ofRecord g.record).toOption else none

/-- The games that arise from the initial position by moves, claims and reloads. -/
inductive Reached : Game → Prop where
  | initial : Reached .initial
  | turn {g g' : Game} (before : Reached g) (turn : Turn g g') : Reached g'
  | claim {g : Game} (before : Reached g) (accepted : g.claim.result = .ok ()) :
      Reached g.claim.game
  | reload {g g' : Game} (before : Reached g) (restored : g.reload = some g') : Reached g'

/-- What may be asked of a game. -/
inductive Call where
  | move (m : Move)
  | notated (text : String)
  | claim
  | legalMoves
  | isCheck
  | winner
  | reload
deriving DecidableEq

/-- What a call is answered with: results with their entries in the journal, or what was asked. -/
inductive Answer where
  | moved (result : Except Error Status) (journal : List Entry)
  | claimed (result : Except Error Unit) (journal : List Entry)
  | legalMoves (result : Except Error (List Move))
  | isCheck (check : Bool)
  | winner (side : Option Side)
  | notRestored

/-- The game after a call, and the answer. A reload that succeeds is not answered. -/
def call (g : Game) : Call → Game × Option Answer
  | .move m => ((g.play m).game, some (.moved (g.play m).result (g.play m).journal))
  | .notated text =>
    ((g.playText text).game, some (.moved (g.playText text).result (g.playText text).journal))
  | .claim => (g.claim.game, some (.claimed g.claim.result g.claim.journal))
  | .legalMoves => (g, some (.legalMoves g.legalMoves))
  | .isCheck => (g, some (.isCheck g.isCheck))
  | .winner => (g, some (.winner g.winner))
  | .reload =>
    match g.reload with
    | some g' => (g', none)
    | none => (g, some .notRestored)

/-- What a game shows of itself. -/
structure View where
  status : Status
  winner : Option Side
  text : String
deriving DecidableEq

/-- What the game shows now. -/
def view (g : Game) : View := ⟨g.status, g.winner, g.position.text⟩

/-- The game after calls one after the other. -/
def after (g : Game) : List Call → Game
  | [] => g
  | c :: cs => (g.call c).1.after cs

/-- The answers to calls one after the other, each with what the game shows then. -/
def transcript (g : Game) : List Call → List (Answer × View)
  | [] => []
  | c :: cs => (g.call c).2.toList.map (·, (g.call c).1.view) ++ (g.call c).1.transcript cs

/-- What holds of all games from the initial position. -/
structure Settled (g : Game) : Prop where
  regular : g.position.Regular
  timed : g.Timed 4800

theorem settled_initial : Settled .initial where
  regular := Position.regular_initial
  timed := ⟨by decide, by decide, by decide +kernel⟩

theorem Settled.played (hg : g.Settled) (hplayed : Played g g' m e) : g'.Settled := by
  refine ⟨?_, hg.timed.played hplayed⟩
  rw [hplayed.position]
  exact hg.regular.play hplayed.admissible hplayed.allows hplayed.safe

theorem Settled.fits (hg : g.Settled) : Numeral.Fits (g.position.plies + 1) := by
  have hclock := hg.regular.clock
  have hplies := hg.timed.plies_le
  exact Numeral.fits_of_four_digits (by omega)

theorem Settled.writable (hg : g.Settled) : g.position.Writable := by
  have hclock := hg.regular.clock
  have hplies := hg.timed.plies_le
  have hquiet := hg.timed.quiet
  refine ⟨Numeral.fits_of_four_digits (by omega), Numeral.fits_of_four_digits ?_⟩
  simp only [Position.turn]
  omega

theorem Settled.of_alike (hg : g.Settled) (hregular : h.position.Regular)
    (hlike : Alike g.position h.position)
    (hopen : h.status.isOver = false → g.status.isOver = false) : h.Settled := by
  have hmen : g.position.board.men = h.position.board.men :=
    Finset.filter_congr fun s _ => not_congr (hlike.men.vacant s)
  refine ⟨hregular, ?_, fun h => ?_, ?_⟩
  · rw [← hlike.quietPlies_eq]
    exact hg.timed.quiet
  · rw [← hlike.quietPlies_eq]
    exact hg.timed.running (hopen h)
  · rw [← hlike.lastCapture, ← hmen]
    exact hg.timed.captures

/-- Games that show the same, and always will. -/
structure Twins (g h : Game) : Prop where
  left : g.Settled
  right : h.Settled
  status : g.status = h.status
  alike : Alike g.position h.position

/-- Reactions that look the same, and leave twins. -/
structure TwinReactions {α : Type} (r r' : Reaction α) : Prop where
  result : r.result = r'.result
  journal : r.journal = r'.journal
  game : Twins r.game r'.game

namespace Twins

theorem symm (hgh : Twins g h) : Twins h g :=
  ⟨hgh.right, hgh.left, hgh.status.symm, hgh.alike.symm⟩

theorem trans {i : Game} (hgh : Twins g h) (hhi : Twins h i) : Twins g i :=
  ⟨hgh.left, hhi.right, hgh.status.trans hhi.status, hgh.alike.trans hhi.alike⟩

theorem toMove_eq (hgh : Twins g h) : g.toMove = h.toMove := hgh.alike.toMove_eq

theorem winner_eq (hgh : Twins g h) : g.winner = h.winner := by
  simp only [winner]
  rw [hgh.status, hgh.toMove_eq]

theorem view_eq (hgh : Twins g h) : g.view = h.view := by
  simp only [view]
  rw [hgh.status, hgh.winner_eq, hgh.alike.text_eq]

theorem legalMoves_eq (hgh : Twins g h) : g.legalMoves = h.legalMoves := by
  simp only [legalMoves]
  rw [hgh.status, hgh.alike.legalMoves_eq]

theorem isCheck_eq (hgh : Twins g h) : g.isCheck = h.isCheck := by
  simp only [isCheck]
  rw [hgh.toMove_eq, hgh.alike.men.inCheck_eq]

theorem refuse (hgh : Twins g h) (m : Move) (cause : Error) (journal : List Entry) :
    TwinReactions (g.refuse m cause journal) (h.refuse m cause journal) := by
  simp only [Game.refuse]
  split_ifs
  · exact ⟨rfl, rfl, hgh⟩
  · exact ⟨rfl, rfl, hgh⟩

theorem play (hgh : Twins g h) (m : Move) : TwinReactions (g.play m) (h.play m) := by
  cases hover : g.status.isOver with
  | true =>
      rw [play_of_over hover, play_of_over (hgh.status ▸ hover), hgh.status]
      exact ⟨rfl, rfl, hgh⟩
  | false =>
      have hover' : h.status.isOver = false := hgh.status ▸ hover
      have hruling := hgh.alike.ruling_eq m
      cases hr : g.position.ruling m with
      | needsPromotion =>
          rw [play_of_open hover, play_of_open hover', ← hruling, hr]
          exact hgh.refuse m _ _
      | illegal =>
          rw [play_of_open hover, play_of_open hover', ← hruling, hr, hgh.toMove_eq]
          exact hgh.refuse m _ _
      | legal e =>
          have hr' := hruling.symm.trans hr
          have hplayed := played_of_legal hover hr hgh.left.fits
          have hplayed' := played_of_legal hover' hr' hgh.right.fits
          have hlike : Alike (g.position.play m e) (h.position.play m e) :=
            hgh.left.regular.alike_play hgh.right.regular hgh.alike hplayed.admissible hplayed.allows
          refine ⟨?_, ?_, hgh.left.played hplayed, hgh.right.played hplayed', ?_, ?_⟩
          · rw [play_of_legal hover hr, play_of_legal hover' hr', hlike.outcome_eq,
              hgh.alike.plies]
          · rw [play_of_open hover, play_of_open hover', hr, hr']
            simp only [hgh.left.fits, hgh.right.fits, if_true, moveEntries, hlike.outcome_eq,
              hlike.plies, hgh.toMove_eq]
          · rw [hplayed.status, hplayed'.status, hplayed.position, hplayed'.position,
              hlike.outcome_eq]
          · rwa [hplayed.position, hplayed'.position]

theorem playText (hgh : Twins g h) (text : String) :
    TwinReactions (g.playText text) (h.playText text) := by
  cases hread : Move.ofNotation text with
  | ok m =>
      rw [playText_of_ofNotation hread, playText_of_ofNotation hread]
      exact hgh.play m
  | error cause =>
      simp only [Game.playText]
      rw [hread, hgh.status]
      split_ifs
      · exact ⟨rfl, rfl, hgh⟩
      · exact ⟨rfl, rfl, hgh⟩

theorem claim (hgh : Twins g h) : TwinReactions g.claim h.claim := by
  have claimed {g : Game} (hg : g.Settled) : Settled { g with status := .drawClaimed } :=
    hg.of_alike hg.regular (Alike.refl _) fun hopen => by cases hopen
  simp only [Game.claim]
  rw [hgh.status, hgh.toMove_eq]
  split_ifs
  · exact ⟨rfl, rfl, claimed hgh.left, claimed hgh.right, rfl, hgh.alike⟩
  · exact ⟨rfl, rfl, hgh⟩

/-- Twins answer every call but a reload in the same way, and stay twins. -/
theorem call (hgh : Twins g h) {c : Call} (hc : c ≠ .reload) :
    (g.call c).2 = (h.call c).2 ∧ Twins (g.call c).1 (h.call c).1 := by
  cases c with
  | move m =>
      obtain ⟨hresult, hjournal, hgame⟩ := hgh.play m
      exact ⟨congrArg some (congrArg₂ Answer.moved hresult hjournal), hgame⟩
  | notated text =>
      obtain ⟨hresult, hjournal, hgame⟩ := hgh.playText text
      exact ⟨congrArg some (congrArg₂ Answer.moved hresult hjournal), hgame⟩
  | claim =>
      obtain ⟨hresult, hjournal, hgame⟩ := hgh.claim
      exact ⟨congrArg some (congrArg₂ Answer.claimed hresult hjournal), hgame⟩
  | legalMoves => exact ⟨congrArg (some <| Answer.legalMoves ·) hgh.legalMoves_eq, hgh⟩
  | isCheck => exact ⟨congrArg (some <| Answer.isCheck ·) hgh.isCheck_eq, hgh⟩
  | winner => exact ⟨congrArg (some <| Answer.winner ·) hgh.winner_eq, hgh⟩
  | reload => exact absurd rfl hc

end Twins

/-- A game from the initial position can be reloaded at any time, and is replaced by a twin. -/
theorem Settled.reload (hg : g.Settled) : ∃ g', g.reload = some g' ∧ Twins g g' := by
  obtain ⟨q, hposition, hregular, hlike⟩ := hg.regular.restored hg.writable
  have hreload : g.reload = some ⟨q, g.status⟩ := by
    rw [Game.reload, if_pos hg.writable, ofRecord, record, Status.ofName?_name, hposition]
    rfl
  exact ⟨_, hreload, hg, hg.of_alike hregular hlike id, rfl, hlike⟩

theorem Settled.twins_reload (hg : g.Settled) (restored : g.reload = some g') : Twins g g' := by
  obtain ⟨h, hreload, twins⟩ := hg.reload
  cases hreload.symm.trans restored
  exact twins

theorem Reached.settled (hg : Reached g) : g.Settled := by
  induction hg with
  | initial => exact settled_initial
  | turn _ turn ih =>
      obtain ⟨m, e, played⟩ := turn.played
      exact ih.played played
  | @claim g _ _ ih => exact (Twins.claim ⟨ih, ih, rfl, Alike.refl g.position⟩).game.left
  | reload _ restored ih => exact (ih.twins_reload restored).right

/-- Reloads on one side make no difference to what twins answer. -/
theorem Twins.transcript_eq (hgh : Twins g h) (cs : List Call) :
    g.transcript cs = h.transcript (cs.filter (· ≠ .reload)) ∧
      Twins (g.after cs) (h.after (cs.filter (· ≠ .reload))) := by
  induction cs generalizing g h with
  | nil => exact ⟨rfl, hgh⟩
  | cons c cs ih =>
      by_cases hc : c = .reload
      · -- A reload replaces the game on the left by a twin, and leaves the one on the right alone.
        subst hc
        obtain ⟨g', hreload, twins⟩ := hgh.left.reload
        have hcall : g.call .reload = (g', none) := by
          unfold Game.call
          rw [hreload]
        rw [List.filter_cons_of_neg (by simp)]
        simp only [transcript, after, hcall]
        exact ih (twins.symm.trans hgh)
      · obtain ⟨hanswer, twins⟩ := hgh.call hc
        obtain ⟨hrest, hafter⟩ := ih twins
        rw [List.filter_cons_of_pos (by simpa using hc)]
        refine ⟨?_, hafter⟩
        simp only [transcript, hanswer, twins.view_eq, hrest]

theorem Reached.twins (hg : Reached g) (hh : Reached h)
    (htext : g.position.text = h.position.text) (hstatus : g.status = h.status) : Twins g h := by
  obtain ⟨p, hp, -, hlike⟩ := hg.settled.regular.restored hg.settled.writable
  obtain ⟨q, hq, -, hlike'⟩ := hh.settled.regular.restored hh.settled.writable
  rw [htext, hq] at hp
  cases hp
  exact ⟨hg.settled, hh.settled, hstatus, hlike.trans hlike'.symm⟩

/-- Text and status describe a game from the initial position completely. Two such games with the
same text and status answer all calls alike, with the same results, errors and entries in the
journal, and show the same after each of them, whatever reloads are put in on either side. -/
theorem text_and_status_suffice (hg : Reached g) (hh : Reached h)
    (htext : g.position.text = h.position.text) (hstatus : g.status = h.status)
    {cs ds : List Call} (hcalls : cs.filter (· ≠ .reload) = ds.filter (· ≠ .reload)) :
    g.transcript cs = h.transcript ds ∧ (g.after cs).view = (h.after ds).view := by
  have twins := hg.twins hh htext hstatus
  have left := twins.transcript_eq cs
  have right := (Twins.mk twins.right twins.right rfl (Alike.refl _)).transcript_eq ds
  rw [hcalls] at left
  exact ⟨left.1.trans right.1.symm, left.2.view_eq.trans right.2.view_eq.symm⟩

/-- White has opened with a double step. -/
def opened : Game := (Game.initial.playText "e2e4").game

theorem opened_reached : Reached opened :=
  .turn .initial (.notated (s := .inProgress) (by decide +kernel))

/-- The same game restored from its record, in which most pieces count as moved once. -/
def reopened : Game := opened.reload.getD .initial

/-- The restored game is another one, and answers in the same way. -/
theorem reopened_answers_alike :
    ((Reached opened ∧ Reached reopened) ∧ opened ≠ reopened ∧
      opened.position.text = reopened.position.text ∧ opened.status = reopened.status) ∧
      opened.transcript [.notated "e7e5", .legalMoves] =
        reopened.transcript [.notated "e7e5", .reload, .legalMoves] := by
  obtain ⟨g, hreload, twins⟩ := opened_reached.settled.reload
  have hsame : reopened = g := congrArg (·.getD .initial) hreload
  subst hsame
  have hreached : Reached reopened := .reload opened_reached hreload
  have hother : opened ≠ reopened := by decide +kernel
  have hcalls : [Call.notated "e7e5", .legalMoves].filter (· ≠ .reload) =
      [Call.notated "e7e5", .reload, .legalMoves].filter (· ≠ .reload) := by decide
  exact ⟨⟨⟨opened_reached, hreached⟩, hother, twins.alike.text_eq, twins.status⟩,
    (text_and_status_suffice opened_reached hreached twins.alike.text_eq twins.status hcalls).1⟩

end Arbiter.Game
