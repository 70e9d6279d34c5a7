import Arbiter.Game.Dealing
import Arbiter.Proofs.AttackMap
import Arbiter.Proofs.Turns

/-! # Trials leave no trace

Moves are tried out on the position that the game is played on. Every question puts back what it
changed, a move that turns out to be illegal is taken back as a whole, and the rest happens on
copies: so the work on a position comes to `Position.attempt` and the other rules, and a refused
request leaves the game as it was. `Reads` is the fact about each piece of work that is composed
here; only `settle`, which carries a move out and may take it back, needs more.
-/

namespace Arbiter

namespace Position.Guarded.Trial

variable {p q : Position} {m : Move} {side : Side} {e : Effects} {α β : Type}

/-- The work only looks at the position: it ends in the given way, and the position is as before. -/
def Reads (p : Position) (t : Trial α) (x : Except Fault α) : Prop := t p = (x, p)

namespace Reads

theorem pure (p : Position) (a : α) : Reads p (Pure.pure a) (.ok a) := rfl

theorem ask (p : Position) (question : Position → Except Fault α) :
    Reads p (Trial.ask question) (question p) := rfl

theorem get {next : Position → Trial α} {x : Except Fault α} (h : Reads p (next p) x) :
    Reads p (MonadState.get >>= next) x := h

theorem bind {t : Trial α} {x : Except Fault α} {next : α → Trial β} {y : α → Except Fault β}
    (h : Reads p t x) (hnext : ∀ a, Reads p (next a) (y a)) :
    Reads p (t >>= next) (x >>= y) := by
  unfold Reads at *
  rw [bind_apply, h]
  cases x with
  | error fault => rfl
  | ok a => exact hnext a

theorem next {t : Trial α} {a : α} {x : Except Fault β} {next : α → Trial β}
    (h : Reads p t (.ok a)) (hnext : Reads p (next a) x) : Reads p (t >>= next) x := by
  unfold Reads at *
  rw [bind_apply, h]
  exact hnext

theorem answer_eq {t : Trial α} {a b : α} (h : Reads p t (.ok a)) (hb : t p = (.ok b, q)) :
    a = b :=
  Except.ok.inj (congrArg Prod.fst (h.symm.trans hb))

theorem anyM {f : α → Trial Bool} {g : α → Except Fault Bool} {l : List α}
    (h : ∀ a ∈ l, Reads p (f a) (g a)) : Reads p (l.anyM f) (l.anyM g) := by
  induction l with
  | nil => exact pure p false
  | cons a l ih =>
      rw [List.anyM, List.anyM]
      refine bind (h a List.mem_cons_self) fun answer => ?_
      cases answer with
      | true => exact pure p true
      | false => exact ih fun b hb => h b (List.mem_cons_of_mem a hb)

theorem mapM {f : α → Trial β} {g : α → β} {l : List α}
    (h : ∀ a ∈ l, Reads p (f a) (.ok (g a))) : Reads p (l.mapM f) (.ok (l.map g)) := by
  induction l with
  | nil =>
      rw [List.mapM_nil]
      exact pure p []
  | cons a l ih =>
      rw [List.mapM_cons]
      refine (h a List.mem_cons_self).next ?_
      exact (ih fun b hb => h b (List.mem_cons_of_mem a hb)).next (pure p _)

end Reads

theorem reads_attacked (p : Position) (s : Square) (owner : Option Side) :
    Reads p (attacked s owner) (Guarded.attacked p s owner) :=
  probe_eq p s owner

theorem reads_inCheck (p : Position) (owner : Option Side) :
    Reads p (inCheck owner) (Guarded.inCheck p owner) := by
  unfold inCheck Guarded.inCheck
  apply Reads.get
  cases p.board.king? owner with
  | none => exact .pure p true
  | some s => exact reads_attacked p s owner

theorem reads_castlingRuling (p : Position) (m : Move) :
    Reads p (castlingRuling m) (Guarded.castlingRuling p m) := by
  unfold castlingRuling Guarded.castlingRuling
  refine .bind (.ask p _) fun king => ?_
  split
  · apply Reads.get
    cases p.firstAlongRow m.src m.dCol.sign with
    | none => exact .pure p _
    | some corner =>
        apply Reads.get
        simp only
        split
        · refine .bind (.anyM fun s _ => reads_attacked p s king.owner) fun threatened => ?_
          split
          · exact .pure p _
          · exact .pure p _
        · exact .pure p _
  · exact .pure p _

theorem reads_kingRuling (p : Position) (m : Move) (castling : Bool) :
    Reads p (kingRuling m castling) (Guarded.kingRuling p m castling) := by
  unfold kingRuling Guarded.kingRuling
  split
  · exact .pure p _
  · refine .bind (.ask p _) fun king => ?_
    split
    · exact reads_castlingRuling p m
    · exact .pure p _

theorem reads_pieceRuling (p : Position) (m : Move) (player : Option Side) (castling : Bool) :
    Reads p (pieceRuling m player castling) (Guarded.pieceRuling p m player castling) := by
  unfold pieceRuling Guarded.pieceRuling
  apply Reads.get
  split
  · cases (p.board.get m.src).kind with
    | king => exact reads_kingRuling p m castling
    | _ => exact .ask p _
  · exact .pure p _

theorem reads_rule (p : Position) (m : Move) (side : Side) :
    Reads p (pieceRuling m (some side) true) (.ok (p.pieceRuling m (some side) true)) := by
  rw [← pieceRuling_eq]
  exact reads_pieceRuling p m (some side) true

theorem reads_check (p : Position) (side : Side) :
    Reads p (inCheck (some side)) (.ok (p.inCheck (some side))) := by
  have hcheck : Guarded.inCheck p (some side) = .ok (p.inCheck (some side)) := by
    unfold Guarded.inCheck Position.inCheck
    cases hking : p.board.king? (some side) with
    | none => rfl
    | some s =>
        have hs : s ∈ Square.all := List.mem_of_find?_eq_some hking
        exact attacked_eq p (Square.mem_all.mp hs) side
  rw [← hcheck]
  exact reads_inCheck p (some side)

theorem execute_eq {player : Option Side} (hadm : p.Admissible m player) (h : p.Allows m e) :
    Guarded.play p m e = .ok (p.play m e) := by
  have hapart := apart_of_allows hadm h
  apply play_of_onBoard
  intro s hs
  simp only [touched, List.mem_append, List.mem_cons, List.not_mem_nil, or_false,
    Option.mem_toList] at hs
  rcases hs with ((rfl | rfl) | hcaptured) | hhop
  · exact hapart.src
  · exact hapart.dst
  · exact (hapart.captured s hcaptured).1
  · cases hcastle : e.castle with
    | none => simp [hcastle] at hhop
    | some hop =>
        obtain ⟨⟨hsrc, -⟩, hdst, -⟩ := hapart.castle hop hcastle
        simp only [hcastle, Option.elim_some, List.mem_cons, List.not_mem_nil, or_false] at hhop
        rcases hhop with rfl | rfl
        · exact hsrc
        · exact hdst

/-- A move that the rules allow stays made if the own king is safe, and is taken back otherwise. -/
theorem settle_eq (h : p.pieceRuling m (some p.toMove) true = .legal e) :
    settle m e p = match p.settle m e with
      | some q => (.ok (.legal e), q)
      | none => (.ok .illegal, p) := by
  obtain ⟨hadm, hallows⟩ := pieceRuling_eq_legal.mp h
  have hplay : execute m e p = (.ok (), p.play m e) := by
    rw [execute, execute_eq hadm hallows]
  have hcheck := reads_check (p.play m e) p.toMove
  change (execute m e >>= _) p = _
  rw [bind_apply, hplay]
  change (inCheck (some p.toMove) >>= _) (p.play m e) = _
  rw [bind_apply, hcheck, Position.settle]
  cases (p.play m e).inCheck (some p.toMove) <;> rfl

theorem attempt_of_decided (h : p.pieceRuling m (some p.toMove) true ≠ .needsPromotion) :
    attempt m p = (.ok (p.attempt m).1, (p.attempt m).2) := by
  have hrule := reads_rule p m p.toMove
  rw [attempt, hrule, Position.attempt]
  cases hpiece : p.pieceRuling m (some p.toMove) true with
  | illegal => rfl
  | needsPromotion => exact absurd hpiece h
  | legal e =>
      simp only
      rw [settle_eq hpiece]
      cases p.settle m e <;> rfl

theorem ruling_of_attempt (h : attempt m p = (.ok (p.attempt m).1, (p.attempt m).2)) :
    Reads p (ruling m) (.ok (p.ruling m)) := by
  have hrule := reads_rule p m p.toMove
  unfold Reads
  rw [ruling, hrule]
  cases hpiece : p.pieceRuling m (some p.toMove) true with
  | illegal => simp [Position.ruling, Position.attempt, hpiece]
  | _ => simp only [onCopy, h, Position.ruling]

theorem attempt_eq (p : Position) (m : Move) :
    attempt m p = (.ok (p.attempt m).1, (p.attempt m).2) := by
  by_cases h : p.pieceRuling m (some p.toMove) true = .needsPromotion
  · have hqueen : p.pieceRuling (m.promoting .queen) (some p.toMove) true ≠ .needsPromotion :=
      fun hasked => (pieceRuling_eq_needsPromotion.mp hasked).2.2.2 .queen (by decide) rfl
    have hcopy := ruling_of_attempt (attempt_of_decided hqueen)
    have hrule := reads_rule p m p.toMove
    rw [h] at hrule
    rw [attempt, hrule]
    simp only
    rw [hcopy]
    simp only [Position.ruling, Position.attempt, h]
    cases hpiece : p.pieceRuling (m.promoting .queen) (some p.toMove) true with
    | illegal => rfl
    | needsPromotion => exact absurd hpiece hqueen
    | legal e => cases hsettle : p.settle (m.promoting .queen) e <;> simp [hsettle]
  · exact attempt_of_decided h

theorem reads_ruling (p : Position) (m : Move) : Reads p (ruling m) (.ok (p.ruling m)) :=
  ruling_of_attempt (attempt_eq p m)

theorem reads_hasReply (p : Position) : Reads p hasReply (.ok p.hasReply) := by
  have asked (m : Move) : Reads p (do return (← ruling (m.promoting .queen)).isLegal)
      (.ok (p.ruling (m.promoting .queen)).isLegal) :=
    (reads_ruling p _).next (.pure p _)
  unfold hasReply Position.hasReply
  apply Reads.get
  rw [← anyM_eq fun m _ => rfl]
  exact .anyM fun m _ => asked m

theorem reads_legalMoves (p : Position) : Reads p legalMoves (.ok p.legalMoves) := by
  rw [legalMoves_eq, List.flatMap_def]
  unfold legalMoves
  apply Reads.get
  refine .next (.mapM (g := p.listed) fun m _ => (reads_ruling p m).next ?_) (.pure p _)
  unfold listed
  cases p.ruling m <;> exact .pure p _

theorem reads_stuck? (p : Position) : Reads p stuck? (.ok p.stuck?) := by
  unfold stuck? Position.stuck?
  refine (reads_hasReply p).next ?_
  cases p.hasReply with
  | true => exact .pure p _
  | false =>
      refine Reads.get ((reads_check p p.toMove).next ?_)
      cases p.inCheck (some p.toMove) <;> exact .pure p _

theorem reads_outcome (p : Position) : Reads p outcome (.ok p.outcome) := by
  unfold outcome Position.outcome
  apply Reads.get
  split
  · exact .pure p _
  split
  · exact .pure p _
  · exact (reads_stuck? p).next (.pure p _)

end Position.Guarded.Trial

theorem Position.attempt_of_not_legal {p q : Position} {m : Move} {r : Ruling}
    (h : p.attempt m = (r, q)) (hr : r.isLegal = false) : q = p := by
  unfold attempt at h
  split at h
  · cases h
    rfl
  · split at h
    · cases h
      cases hr
    · cases h
      rfl
  · split at h
    · split_ifs at h <;> cases h <;> rfl
    · cases h
      rfl

namespace Game.Dealing

open Position.Guarded (Trial)
open Position.Guarded.Trial (Reads)

variable {g : Game} {m : Move} {α β : Type}

theorem bind_apply (d : Dealing α) (next : α → Dealing β) (g : Game) :
    (d >>= next) g = match d g with
      | (.ok (.ok a), h) => next a h
      | (.ok (.error e), h) => (.ok (.error e), h)
      | (.error fault, h) => (.error fault, h) := by
  change ExceptT.bindCont (ExceptT.bindCont next) (d g).1 (d g).2 = _
  rcases d g with ⟨_ | _ | _, h⟩ <;> rfl

theorem onPosition_of_reads {t : Trial α} {a : α} (h : Reads g.position t (.ok a)) :
    onPosition t g = (.ok (.ok a), g) := by
  unfold onPosition
  rw [h]
  rfl

theorem mustGoOn_bind (next : Unit → Dealing β) (g : Game) :
    (mustGoOn >>= next) g =
      if g.status.isOver then (.ok (.error (.finished g.status)), g) else next () g := by
  have hguard : mustGoOn g =
      if g.status.isOver then (.ok (.error (.finished g.status)), g) else (.ok (.ok ()), g) := by
    change (if g.status.isOver then throw (.finished g.status) else Pure.pure () :
      Dealing Unit) g = _
    split <;> rfl
  rw [bind_apply, hguard]
  cases g.status.isOver <;> rfl

theorem refuse_eq (g : Game) (m : Move) (e : Error) (journal : List Entry) :
    refuse m e g = (.ok (g.refuse m e journal).result, (g.refuse m e journal).game) := by
  unfold refuse Game.refuse
  split <;> rfl

theorem play_eq (g : Game) (m : Move) :
    play m g = (.ok (g.play m).result, (g.play m).game) := by
  unfold play Game.play
  rw [mustGoOn_bind]
  split
  · rfl
  rw [bind_apply, onPosition, Trial.attempt_eq]
  cases hattempt : g.position.attempt m with
  | mk r p =>
      cases r with
      | illegal =>
          cases Position.attempt_of_not_legal hattempt rfl
          exact refuse_eq g m _ _
      | needsPromotion =>
          cases Position.attempt_of_not_legal hattempt rfl
          exact refuse_eq g m _ _
      | legal e =>
          have houtcome := onPosition_of_reads (g := { g with position := p })
            (Trial.reads_outcome p)
          simp only [Except.map]
          rw [bind_apply]
          change (if Numeral.Fits p.plies then _ else _ : Dealing Status) _ = _
          split
          · rw [bind_apply, houtcome]
            rfl
          · rfl

theorem playText_eq (g : Game) (text : String) :
    playText text g = (.ok (g.playText text).result, (g.playText text).game) := by
  unfold playText Game.playText
  rw [mustGoOn_bind]
  split
  · rfl
  cases Move.ofNotation text with
  | error cause => rfl
  | ok m => exact play_eq g m

theorem legalMoves_eq (g : Game) : legalMoves g = (.ok g.legalMoves, g) := by
  unfold legalMoves Game.legalMoves
  rw [mustGoOn_bind]
  split
  · rfl
  · exact onPosition_of_reads (Trial.reads_legalMoves g.position)

theorem isCheck_eq (g : Game) : isCheck g = (.ok (.ok g.isCheck), g) :=
  onPosition_of_reads (Trial.reads_check g.position g.toMove)

end Game.Dealing

/-- How a trial of a move may end: the move is refused and the position is as it was, or the rules
allow it, it has been carried out once, and the player's own king is safe. -/
inductive Position.Tried (p : Position) (m : Move) : Ruling → Position → Prop where
  | refused {r : Ruling} (notLegal : r.isLegal = false) : Tried p m r p
  | made {e : Effects} {q : Position}
      (allowed : Guarded.Trial.pieceRuling m (some p.toMove) true p = (.ok (.legal e), p))
      (carriedOut : Guarded.play p m e = .ok q)
      (safe : Guarded.Trial.inCheck (some p.toMove) q = (.ok false, q)) : Tried p m (.legal e) q

theorem Position.tried_attempt (p : Position) (m : Move) :
    p.Tried m (p.attempt m).1 (p.attempt m).2 := by
  cases hattempt : p.attempt m with
  | mk r q =>
      cases r with
      | illegal | needsPromotion =>
          rw [attempt_of_not_legal hattempt rfl]
          exact .refused rfl
      | legal e =>
          obtain ⟨⟨hpiece, hsafe⟩, rfl⟩ := attempt_eq_legal.mp hattempt
          obtain ⟨hadm, hallows⟩ := pieceRuling_eq_legal.mp hpiece
          have hrule := Guarded.Trial.reads_rule p m p.toMove
          have hcheck := Guarded.Trial.reads_check (p.play m e) p.toMove
          rw [hpiece] at hrule
          rw [hsafe] at hcheck
          exact .made hrule (Guarded.Trial.execute_eq hadm hallows) hcheck

/-- A move that the rules allow is made if it leaves the player's own king safe. -/
theorem Position.Tried.attempt_eq {p q : Position} {m : Move} {e : Effects}
    (tried : p.Tried m (.legal e) q) : p.attempt m = (.legal e, q) := by
  cases tried with
  | refused notLegal => cases notLegal
  | made allowed carriedOut safe =>
      have hpiece : p.pieceRuling m (some p.toMove) true = .legal e :=
        (Guarded.Trial.reads_rule p m p.toMove).answer_eq allowed
      obtain ⟨hadm, hallows⟩ := pieceRuling_eq_legal.mp hpiece
      have hplay : p.play m e = q :=
        Except.ok.inj ((Guarded.Trial.execute_eq hadm hallows).symm.trans carriedOut)
      have hsafe : q.inCheck (some p.toMove) = false :=
        (Guarded.Trial.reads_check q p.toMove).answer_eq safe
      subst hplay
      exact attempt_eq_legal.mpr ⟨⟨hpiece, hsafe⟩, rfl⟩

namespace Game

open Position.Guarded (Trial)
open Position.Guarded.Trial (Reads)

/-- How a request for a move may end: the move has been made and the outcome found, or the request
is refused and the game is as it was. -/
inductive Dealt (g : Game) (m : Move) : Except Error Status → Game → Prop where
  | accepted (e : Effects) (g' : Game) (tried : g.position.Tried m (.legal e) g'.position)
      (outcome : Reads g'.position Trial.outcome (.ok g'.status)) : Dealt g m (.ok g'.status) g'
  | refused (e : Error) : Dealt g m (.error e) g

theorem dealt_refuse (g : Game) (m : Move) (e : Error) (journal : List Entry) :
    Dealt g m (g.refuse m e journal).result (g.refuse m e journal).game := by
  unfold refuse
  by_cases hname : m.HasNotation
  · rw [if_pos hname]
    exact .refused e
  · rw [if_neg hname]
    exact .refused _

theorem dealt_play {g : Game} (hfits : Numeral.Fits (g.position.plies + 1)) (m : Move) :
    Dealt g m (g.play m).result (g.play m).game := by
  cases hover : g.status.isOver with
  | true =>
      rw [play_of_over hover]
      exact .refused _
  | false =>
      rw [play_of_open hover]
      have htried := g.position.tried_attempt m
      cases hruling : g.position.ruling m with
      | illegal => exact dealt_refuse g m _ _
      | needsPromotion => exact dealt_refuse g m _ _
      | legal e =>
          rw [Position.attempt_eq_legal.mpr
            ⟨Position.pieceRuling_legal_of_ruling hruling, rfl⟩] at htried
          simp only
          rw [if_pos hfits]
          exact .accepted e ⟨g.position.play m e, _⟩ htried (Trial.reads_outcome _)

theorem dealt_playText {g : Game} (hfits : Numeral.Fits (g.position.plies + 1)) (text : String) :
    (∃ n, Move.ofNotation text = .ok n ∧
        Dealt g n (g.playText text).result (g.playText text).game) ∨
      ∃ e, (g.playText text).result = .error e ∧ (g.playText text).game = g := by
  cases hread : Move.ofNotation text with
  | ok n =>
      rw [playText_of_ofNotation hread]
      exact .inl ⟨n, rfl, dealt_play hfits n⟩
  | error cause =>
      right
      unfold playText
      rw [hread]
      cases g.status.isOver with
      | true => exact ⟨_, rfl, rfl⟩
      | false => exact ⟨_, rfl, rfl⟩

theorem play_of_tried {g : Game} {m : Move} {e : Effects} {q : Position}
    (hopen : g.status.isOver = false) (hfits : Numeral.Fits (g.position.plies + 1))
    (tried : g.position.Tried m (.legal e) q) :
    (g.play m).result = .ok q.outcome ∧ (g.play m).game = ⟨q, q.outcome⟩ := by
  have hattempt := tried.attempt_eq
  obtain ⟨-, rfl⟩ := Position.attempt_eq_legal.mp hattempt
  have hruling : g.position.ruling m = .legal e := congrArg Prod.fst hattempt
  rw [play_of_open hopen, hruling]
  simp only
  rw [if_pos hfits]
  exact ⟨rfl, rfl⟩

/-- Whatever is asked of a game, it comes to an end without a fault. A move that is refused, for
whatever reason, leaves every square, counter and clock and the status as they were, and one that is
accepted has been carried out once; the other requests change nothing at all. And no move is refused
that the rules allow and that leaves the player's own king safe, as long as the game goes on. -/
theorem refusals_leave_no_trace (g : Game) (m : Move) (text : String) :
    ((∃ r q, Trial.attempt m g.position = (.ok r, q) ∧ g.position.Tried m r q ∧
          Trial.ruling m g.position = (.ok r, g.position)) ∧
        ∀ e q, g.position.Tried m (.legal e) q →
          Trial.attempt m g.position = (.ok (.legal e), q)) ∧
      (Numeral.Fits (g.position.plies + 1) →
        (∃ result g', Dealing.play m g = (.ok result, g') ∧ Dealt g m result g') ∧
        (∃ result g', Dealing.playText text g = (.ok result, g') ∧
          ((∃ n, Move.ofNotation text = .ok n ∧ Dealt g n result g') ∨
            ∃ e, result = .error e ∧ g' = g)) ∧
        (g.status.isOver = false → ∀ e q, g.position.Tried m (.legal e) q →
          ∃ status, Dealing.play m g = (.ok (.ok status), ⟨q, status⟩))) ∧
      (∃ ms, Dealing.legalMoves g = (.ok ms, g)) ∧
      (∃ answer, Dealing.isCheck g = (.ok (.ok answer), g)) ∧
      (∃ answer, Reads g.position Trial.hasReply (.ok answer)) ∧
      ∃ status, Reads g.position Trial.outcome (.ok status) := by
  have trial := Trial.attempt_eq g.position m
  refine ⟨⟨⟨_, _, trial, g.position.tried_attempt m, Trial.reads_ruling g.position m⟩, ?_⟩,
    fun hfits => ⟨⟨_, _, Dealing.play_eq g m, dealt_play hfits m⟩,
      ⟨_, _, Dealing.playText_eq g text, dealt_playText hfits text⟩, ?_⟩,
    ⟨_, Dealing.legalMoves_eq g⟩, ⟨_, Dealing.isCheck_eq g⟩, ⟨_, Trial.reads_hasReply g.position⟩,
    ⟨_, Trial.reads_outcome g.position⟩⟩
  · intro e q tried
    rw [trial, tried.attempt_eq]
  · intro hopen e q tried
    obtain ⟨hresult, hgame⟩ := play_of_tried hopen hfits tried
    refine ⟨q.outcome, ?_⟩
    rw [Dealing.play_eq, hresult, hgame]

/-- White may take in passing by the rules for the pieces, but both pawns would leave the row on
which black's rook looks at the king. -/
def bareRow : Game where
  position :=
    { board := ((((Board.bare.put ⟨0, 7⟩ { kind := .king, owner := some .black }).put ⟨3, 0⟩
        { kind := .king, owner := some .white }).put ⟨3, 1⟩
        { kind := .pawn, owner := some .white, moves := 3, lastMove := 38 }).put ⟨3, 2⟩
        { kind := .pawn, owner := some .black, moves := 1, lastMove := 40 }).put ⟨3, 7⟩
        { kind := .rook, owner := some .black }
      plies := 40 }

def bareRowCapture : Move := { src := ⟨3, 1⟩, dst := ⟨2, 2⟩ }

/-- The king leaves the row. -/
def offTheRow : Move := { src := ⟨3, 0⟩, dst := ⟨2, 0⟩ }

/-- The capture is carried out and taken back: both pawns and the clocks are as before. The step of
the king stands. -/
theorem bareRowCapture_taken_back :
    Numeral.Fits (bareRow.position.plies + 1) ∧
      bareRow.position.pieceRuling bareRowCapture (some .white) true =
        .legal { captured := some ⟨3, 2⟩ } ∧
      Dealing.play bareRowCapture bareRow =
        (.ok (.error (.illegal bareRowCapture)), bareRow) ∧
      ∃ status, Dealing.play offTheRow bareRow =
        (.ok (.ok status), ⟨bareRow.position.play offTheRow {}, status⟩) := by
  have hfits : Numeral.Fits (bareRow.position.plies + 1) := Numeral.fits_of_four_digits (by decide)
  have hrefused : (bareRow.play bareRowCapture).result = .error (.illegal bareRowCapture) := by
    decide +kernel
  obtain ⟨⟨result, g', hplay, dealt⟩, -⟩ :=
    (refusals_leave_no_trace bareRow bareRowCapture "").2.1 hfits
  have hresult : result = .error (.illegal bareRowCapture) := by
    rw [Dealing.play_eq, hrefused] at hplay
    exact (Except.ok.inj (congrArg Prod.fst hplay)).symm
  have hstep : bareRow.position.attempt offTheRow =
      (.legal {}, bareRow.position.play offTheRow {}) := by
    decide +kernel
  have tried := bareRow.position.tried_attempt offTheRow
  rw [hstep] at tried
  have made := ((refusals_leave_no_trace bareRow offTheRow "").2.1 hfits).2.2 rfl _ _ tried
  rw [hresult] at hplay dealt
  cases dealt with
  | refused => exact ⟨hfits, by decide +kernel, hplay, made⟩

end Game
end Arbiter
