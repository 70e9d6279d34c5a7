import Arbiter.Proofs.OpenGames
import Arbiter.Proofs.Resumption

/-! # Status and the history of a game

What is filed of a game is a status and a text with two clocks, and each is kept up on its own: the
executor looks for captures, the outcome looks at the clock, a claim changes the status alone, and a
reload takes the status from one text and the clocks from another. A `Course` logs the plies of a
game as they are seen on the board. The log determines the clocks, and with the position the status.
-/

namespace Arbiter.Game

variable {g g' : Game} {m : Move}

/-- A ply as it is seen on the board: who moved, and whether a man is gone. -/
structure Ply where
  mover : Side
  takes : Bool
deriving Repr, DecidableEq

/-- The plies since the latest one that took a man, or since the start. -/
def quietCount (log : List Ply) : Nat := (log.takeWhile (!·.takes)).length

@[simp] theorem quietCount_cons (ply : Ply) (log : List Ply) :
    quietCount (ply :: log) = if ply.takes then 0 else quietCount log + 1 := by
  cases htakes : ply.takes <;> simp [quietCount, htakes]

/-- The ply that leads from one game to the next. -/
def plyBetween (g g' : Game) : Ply where
  mover := g.toMove
  takes := g'.position.board.men.card < g.position.board.men.card

/-- The games that arise from the initial position by moves, claims and reloads, with the log of
their plies, the latest first. -/
inductive Course : List Ply → Game → Prop where
  | initial : Course [] .initial
  | move {log : List Ply} {g g' : Game} {m : Move} (before : Course log g) (made : Makes g m g') :
      Course (plyBetween g g' :: log) g'
  | claim {log : List Ply} {g : Game} (before : Course log g)
      (accepted : g.claim.result = .ok ()) : Course log g.claim.game
  | reload {log : List Ply} {g g' : Game} (before : Course log g)
      (restored : g.reload = some g') : Course log g'

variable {log : List Ply}

theorem Course.reached (course : Course log g) : Reached g := by
  induction course with
  | initial => exact .initial
  | move _ made ih => exact .turn ih (turn_iff_makes.mpr ⟨_, made⟩)
  | claim _ accepted ih => exact .claim ih accepted
  | reload _ restored ih => exact .reload ih restored

theorem Course.settled (course : Course log g) : g.Settled := course.reached.settled

theorem Settled.takes_iff {e : Effects} (hg : g.Settled) (played : Played g g' m e) :
    (plyBetween g g').takes = true ↔ g.position.Captures m e := by
  rw [plyBetween, decide_eq_true_eq, played.position]
  exact Position.card_men_play_lt_iff played.admissible played.allows fun _ hhop =>
    hg.regular.landing_vacant played.admissible played.allows hhop

/-- The clocks count the plies of the log. -/
theorem Course.clocks (course : Course log g) :
    g.position.plies = log.length ∧ g.position.quietPlies = quietCount log := by
  induction course with
  | initial => decide
  | move before made ih =>
      obtain ⟨hplies, hquiet⟩ := ih
      obtain ⟨e, played⟩ := made.played
      have htakes := before.settled.takes_iff played
      rw [played.position, Position.plies_play, Position.quietPlies_play, quietCount_cons, hplies,
        hquiet]
      refine ⟨by simp, ?_⟩
      simp only [htakes]
      split_ifs <;> simp
  | claim _ accepted ih =>
      rw [(claim_of_ok accepted).2]
      exact ih
  | reload before restored ih =>
      have hlike := (before.settled.twins_reload restored).alike
      rw [← hlike.plies, ← hlike.quietPlies_eq]
      exact ih

/-- Except for a claimed draw the status is the outcome of the position. -/
theorem Course.outcome (course : Course log g) : g.status = g.position.outcome ∨
    (g.status = .drawClaimed ∧ 100 ≤ g.position.quietPlies ∧ g.position.quietPlies < 150) := by
  induction course with
  | initial =>
      left
      rw [Starts.status (.inl rfl)]
      rfl
  | move _ made ih =>
      obtain ⟨e, played⟩ := made.played
      exact .inl played.status
  | @claim log g _ accepted ih =>
      obtain ⟨hoffered, hgame⟩ := claim_of_ok accepted
      rw [hgame]
      rcases ih with houtcome | ⟨hclaimed, -⟩
      · exact .inr ⟨rfl, Position.clock_of_drawOffered (houtcome.symm.trans hoffered)⟩
      · cases hoffered.symm.trans hclaimed
  | reload before restored ih =>
      have twins := before.settled.twins_reload restored
      rw [← twins.status, ← twins.alike.outcome_eq, ← twins.alike.quietPlies_eq]
      exact ih

theorem Course.mated (course : Course log g) (h : g.status = .checkmate) :
    log.head?.map Ply.mover = some g.toMove.opponent := by
  induction course with
  | initial => cases h
  | @move log g g' m _ made _ =>
      obtain ⟨e, played⟩ := made.played
      simp only [toMove, played.position, Position.toMove_play, Side.opponent_opponent]
      rfl
  | claim _ accepted _ =>
      rw [(claim_of_ok accepted).2] at h
      cases h
  | reload before restored ih =>
      have twins := before.settled.twins_reload restored
      rw [← twins.toMove_eq]
      exact ih (twins.status.trans h)

theorem Settled.play_of_error (hg : g.Settled) {cause : Error}
    (h : (g.play m).result = .error cause) : (g.play m).game = g := by
  have refused (cause : Error) (journal : List Entry) : (g.refuse m cause journal).game = g := by
    unfold refuse
    split_ifs <;> rfl
  cases hover : g.status.isOver with
  | true => rw [play_of_over hover]
  | false =>
      cases hruling : g.position.ruling m with
      | illegal =>
          rw [play_of_open hover, hruling]
          exact refused _ _
      | needsPromotion =>
          rw [play_of_open hover, hruling]
          exact refused _ _
      | legal e =>
          rw [play_of_legal hover hruling, if_pos hg.fits] at h
          cases h

/-- What a call can do to a game from the initial position: make a move, claim the draw, reload, or
nothing. -/
theorem Settled.call_cases (hg : g.Settled) (c : Call) :
    (∃ m, Makes g m (g.call c).1) ∨
      (c = .claim ∧ g.claim.result = .ok () ∧ (g.call c).1 = g.claim.game) ∨
      (c = .reload ∧ g.reload = some (g.call c).1) ∨ (g.call c).1 = g := by
  cases c with
  | move m =>
      cases hresult : (g.play m).result with
      | ok s => exact .inl ⟨m, .move hresult⟩
      | error cause => exact .inr (.inr (.inr (hg.play_of_error hresult)))
  | notated text =>
      cases hread : Move.ofNotation text with
      | error cause =>
          have hcall : (g.call (.notated text)).1 = g := playText_of_error hread
          exact .inr (.inr (.inr hcall))
      | ok m =>
          have hcall : (g.call (.notated text)).1 = (g.play m).game :=
            congrArg Reaction.game (playText_of_ofNotation hread)
          rw [hcall]
          cases hresult : (g.play m).result with
          | ok s => exact .inl ⟨m, .move hresult⟩
          | error cause => exact .inr (.inr (.inr (hg.play_of_error hresult)))
  | claim =>
      by_cases hoffered : g.status = .drawOffered
      · exact .inr (.inl ⟨rfl, (claim_of_offered hoffered).1, rfl⟩)
      · have hcall : (g.call .claim).1 = g := congrArg Reaction.game (claim_of_ne hoffered)
        exact .inr (.inr (.inr hcall))
  | reload =>
      obtain ⟨g', hreload, -⟩ := hg.reload
      refine .inr (.inr (.inl ⟨rfl, ?_⟩))
      unfold Game.call
      rw [hreload]
  | legalMoves | isCheck | winner => exact .inr (.inr (.inr rfl))

theorem Course.call (course : Course log g) (c : Call) : ∃ log', Course log' (g.call c).1 := by
  rcases course.settled.call_cases c with ⟨m, made⟩ | ⟨-, accepted, hgame⟩ | ⟨-, restored⟩ | hgame
  · exact ⟨_, course.move made⟩
  · rw [hgame]
    exact ⟨_, course.claim accepted⟩
  · exact ⟨_, course.reload restored⟩
  · rw [hgame]
    exact ⟨_, course⟩

theorem Settled.drawClaimed_of_call (hg : g.Settled) {c : Call}
    (h : (g.call c).1.status = .drawClaimed) :
    g.status = .drawClaimed ∨ (c = .claim ∧ g.status = .drawOffered) := by
  rcases hg.call_cases c with ⟨m, made⟩ | ⟨rfl, accepted, -⟩ | ⟨-, restored⟩ | hgame
  · obtain ⟨e, played⟩ := made.played
    exact absurd (played.status.symm.trans h) (g.call c).1.position.outcome_ne_drawClaimed
  · exact .inr ⟨rfl, (claim_of_ok accepted).1⟩
  · exact .inl ((hg.twins_reload restored).status.trans h)
  · exact .inl (hgame ▸ h)

/-- How a game stands when the last plies, so many of them, took nothing. Early on the replies and
check decide, later on the count alone. -/
structure Standing (count : Nat) (g : Game) : Prop where
  drawn : g.status = .drawByMoveClock ↔ count = 150
  offered : g.status = .drawOffered ∨ g.status = .drawClaimed ↔ 100 ≤ count ∧ count < 150
  mated : count < 100 → (g.status = .checkmate ↔
    (∀ m, (g.position.ruling m).isLegal = false) ∧ g.isCheck = true)
  stalemated : count < 100 → (g.status = .stalemate ↔
    (∀ m, (g.position.ruling m).isLegal = false) ∧ g.isCheck = false)
  running : count < 100 → (g.status = .inProgress ↔ ∃ m, (g.position.ruling m).isLegal = true)

theorem Course.standing (course : Course log g) : g.Standing (quietCount log) := by
  have hquiet := course.clocks.2
  have hbound := course.settled.timed.quiet.2
  have hsome := g.position.hasReply_iff_isLegal.symm
  have hnone : (∀ m, (g.position.ruling m).isLegal = false) ↔ g.position.hasReply = false := by
    rw [← Bool.not_eq_true, ← hsome]
    simp
  rw [hquiet] at hbound
  rcases course.outcome with houtcome | ⟨hclaimed, hclock⟩
  · rcases g.position.outcome_cases with ⟨hclock, h⟩ | ⟨hclock, h⟩ | ⟨hclock, h⟩ <;>
      rw [hquiet] at hclock <;> rw [h] at houtcome
    · constructor <;> simp [houtcome] <;> omega
    · constructor <;> simp [houtcome] <;> omega
    · rcases g.position.stuck?_cases with ⟨hreply, h⟩ | ⟨hreply, hcheck, h⟩ |
        ⟨hreply, hcheck, h⟩ <;> rw [h] at houtcome
      · constructor <;> simp [houtcome, hnone, hsome, hreply] <;> omega
      · constructor <;> simp [houtcome, hnone, hsome, hreply, isCheck, toMove, hcheck] <;> omega
      · constructor <;> simp [houtcome, hnone, hsome, hreply, isCheck, toMove, hcheck] <;> omega
  · rw [hquiet] at hclock
    constructor <;> simp [hclaimed] <;> omega

/-- A finished game refuses moves, claims and lists of moves, and none of its calls changes it.
After a reload it still shows the same men, clocks, text and status. -/
structure Closed (g : Game) : Prop where
  play : ∀ m, g.play m = { game := g, result := .error (.finished g.status) }
  playText : ∀ text, g.playText text = { game := g, result := .error (.finished g.status) }
  legalMoves : g.legalMoves = .error (.finished g.status)
  claim : g.claim = { game := g, result := .error (.noDraw g.status) }
  same : ∀ cs, Call.reload ∉ cs → g.after cs = g
  shows : ∀ cs, (g.after cs).status = g.status ∧
    SameMen (g.after cs).position.board g.position.board ∧
    (g.after cs).position.plies = g.position.plies ∧
    (g.after cs).position.lastCapture = g.position.lastCapture ∧
    (g.after cs).position.text = g.position.text

theorem Settled.call_of_over (hg : g.Settled) (hover : g.status.isOver = true) (c : Call) :
    (g.call c).1 = g ∨ (c = .reload ∧ g.reload = some (g.call c).1) := by
  rcases hg.call_cases c with ⟨m, made⟩ | ⟨-, accepted, -⟩ | hreload | hgame
  · obtain ⟨e, played⟩ := made.played
    cases hover.symm.trans played.wasOpen
  · rw [(claim_of_ok accepted).1] at hover
    cases hover
  · exact .inr hreload
  · exact .inl hgame

theorem Twins.after_of_over {h : Game} (hgh : Twins g h) (hover : g.status.isOver = true)
    (cs : List Call) : Twins g (h.after cs) := by
  induction cs generalizing h with
  | nil => exact hgh
  | cons c cs ih =>
      apply ih
      rcases hgh.right.call_of_over (hgh.status ▸ hover) c with hgame | ⟨-, restored⟩
      · rwa [hgame]
      · exact hgh.trans (hgh.right.twins_reload restored)

theorem Settled.after_of_over (hg : g.Settled) (hover : g.status.isOver = true) {cs : List Call}
    (hcs : Call.reload ∉ cs) : g.after cs = g := by
  induction cs with
  | nil => rfl
  | cons c cs ih =>
      rw [List.mem_cons, not_or] at hcs
      have hgame := (hg.call_of_over hover c).resolve_right fun h => hcs.1 h.1.symm
      rw [after, hgame]
      exact ih hcs.2

theorem Settled.closed (hg : g.Settled) (hover : g.status.isOver = true) : g.Closed where
  play m := play_of_over hover
  playText text := by rw [Game.playText, if_pos hover]
  legalMoves := by rw [Game.legalMoves, if_pos hover]
  claim := by
    apply claim_of_ne
    intro hoffered
    rw [hoffered] at hover
    cases hover
  same cs hcs := hg.after_of_over hover hcs
  shows cs := by
    have twins := (Twins.mk hg hg rfl (Alike.refl _)).after_of_over hover cs
    exact ⟨twins.status.symm, twins.alike.men.symm, twins.alike.plies.symm,
      twins.alike.lastCapture.symm, twins.alike.text_eq.symm⟩

/-- The status and the clocks of a game from the initial position are those of its history, whatever
claims and reloads come between the moves. The clocks count the plies of the log and those since the
latest capture, at most 150; from 100 on the count alone makes the status, and before that the
replies and check. A draw is claimed by a claim alone, where one is on offer, and a claim there is
granted and changes nothing but the status. A finished game stays as it is. Only a mate has a winner:
the player who moved last. And no call, refused or not, leads out of these games. -/
theorem status_follows_history (course : Course log g) :
    (g.position.quietPlies = quietCount log ∧ quietCount log ≤ 150 ∧
        g.position.plies = log.length) ∧
      g.Standing (quietCount log) ∧
      (∀ c, (g.call c).1.status = .drawClaimed →
        g.status = .drawClaimed ∨ (c = .claim ∧ g.status = .drawOffered)) ∧
      (g.status = .drawOffered →
        g.claim.result = .ok () ∧ g.claim.game = { g with status := .drawClaimed }) ∧
      (g.status.isOver = true → g.Closed) ∧
      ((g.winner ≠ none ↔ g.status = .checkmate) ∧
        (g.status = .checkmate → g.winner = log.head?.map Ply.mover)) ∧
      ∀ c, ∃ log', Course log' (g.call c).1 := by
  obtain ⟨hplies, hquiet⟩ := course.clocks
  have hg := course.settled
  have hbound := hg.timed.quiet.2
  refine ⟨⟨hquiet, by omega, hplies⟩, course.standing, fun c => hg.drawClaimed_of_call,
    claim_of_offered, hg.closed, ⟨?_, fun hmate => ?_⟩, course.call⟩
  · simp [winner]
  · rw [course.mated hmate, winner, if_pos hmate]

/-- A game that was filed and restored after its first ply goes on: there is a legal reply. -/
theorem reopened_goes_on : Course [plyBetween .initial opened] reopened ∧
    ∃ m, (reopened.position.ruling m).isLegal = true := by
  have hopened : (Game.initial.playText "e2e4").result = .ok .inProgress ∧
      opened.status = .inProgress := by
    decide +kernel
  have made : Makes .initial { src := ⟨6, 4⟩, dst := ⟨4, 4⟩ } opened :=
    .notated (by decide +kernel) hopened.1
  obtain ⟨g, restored, twins⟩ := opened_reached.settled.reload
  obtain rfl : reopened = g := congrArg (·.getD .initial) restored
  have course : Course [plyBetween .initial opened] reopened :=
    (Course.initial.move made).reload restored
  have hcount : quietCount [plyBetween .initial opened] < 100 := by
    rw [quietCount_cons]
    split_ifs <;> decide
  obtain ⟨-, hstanding, -⟩ := status_follows_history course
  exact ⟨course, (hstanding.running hcount).mp (twins.status.symm.trans hopened.2)⟩

end Arbiter.Game
