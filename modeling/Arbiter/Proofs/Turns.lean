import Arbiter.Game.Turn
import Arbiter.Proofs.Legality
import Mathlib.Logic.Relation

/-! # Turns and runs

What a game does with a move is told by the ruling on it. A turn is a move that a game accepts, and
a run is any number of turns; `Turn.played` is the one fact about a turn from which invariants of
runs are proved.
-/

namespace Arbiter.Game

variable {g g' : Game} {m : Move}

theorem legalMoves_of_open (hopen : g.status.isOver = false) :
    g.legalMoves = .ok g.position.legalMoves := by
  simp [legalMoves, hopen]

theorem play_of_over (hover : g.status.isOver = true) :
    g.play m = { game := g, result := .error (.finished g.status) } := by
  rw [play, if_pos hover]

theorem play_of_open (hopen : g.status.isOver = false) :
    g.play m = match g.position.ruling m with
      | .needsPromotion => g.refuse m (.promotionMissing m) []
      | .illegal =>
        g.refuse m (.illegal m)
          [⟨.debug, "Rejected " ++ g.toMove.name ++ " move " ++ m.notationText⟩]
      | .legal e =>
        if Numeral.Fits (g.position.plies + 1) then
          { game := ⟨g.position.play m e, (g.position.play m e).outcome⟩
            result := .ok (g.position.play m e).outcome
            journal := moveEntries g.toMove m (g.position.play m e) (g.position.play m e).outcome }
        else { game := { g with position := g.position.play m e }, result := .error .countTooLong } := by
  rw [play, hopen, if_neg (by decide)]
  cases hattempt : g.position.attempt m with
  | mk r q =>
      have hruling : g.position.ruling m = r := congrArg Prod.fst hattempt
      rw [hruling]
      cases r with
      | illegal => rfl
      | needsPromotion => rfl
      | legal e =>
          obtain ⟨-, rfl⟩ := Position.attempt_eq_legal.mp hattempt
          rfl

theorem play_of_legal {e : Effects} (hopen : g.status.isOver = false)
    (h : g.position.ruling m = .legal e) :
    (g.play m).result = if Numeral.Fits (g.position.plies + 1)
      then .ok (g.position.play m e).outcome else .error .countTooLong := by
  rw [play_of_open hopen, h]
  by_cases hfits : Numeral.Fits (g.position.plies + 1) <;> simp [hfits]

theorem play_of_needsPromotion (hopen : g.status.isOver = false)
    (h : g.position.ruling m = .needsPromotion) :
    (g.play m).result = .error (.promotionMissing m) := by
  have hadm := Position.admissible_of_ruling_ne (p := g.position) (m := m) (by simp [h])
  have hname : m.HasNotation :=
    ⟨Square.hasName_of_onBoard hadm.src_onBoard, Square.hasName_of_onBoard hadm.dst_onBoard⟩
  rw [play_of_open hopen, h]
  simp [refuse, hname]

theorem play_of_illegal (hopen : g.status.isOver = false)
    (h : g.position.ruling m = .illegal) :
    (g.play m).result = .error (if m.HasNotation then .illegal m else .unnamedMove) := by
  rw [play_of_open hopen, h]
  by_cases hname : m.HasNotation <;> simp [refuse, hname]

theorem playText_of_ofNotation {text : String} (h : Move.ofNotation text = .ok m) :
    g.playText text = g.play m := by
  simp only [playText]
  rw [h]
  split
  · rename_i hover
    simp [play, hover]
  · rfl

theorem playText_of_error {text : String} {cause : Move.NotationError}
    (h : Move.ofNotation text = .error cause) : (g.playText text).game = g := by
  unfold playText
  rw [h]
  split
  · rfl
  · rfl

theorem claim_of_ne (h : g.status ≠ .drawOffered) :
    g.claim = { game := g, result := .error (.noDraw g.status) } := by
  rw [claim, if_neg h]

theorem claim_of_offered (h : g.status = .drawOffered) :
    g.claim.result = .ok () ∧ g.claim.game = { g with status := .drawClaimed } := by
  rw [claim, if_pos h]
  exact ⟨rfl, rfl⟩

theorem claim_of_ok (h : g.claim.result = .ok ()) :
    g.status = .drawOffered ∧ g.claim.game = { g with status := .drawClaimed } := by
  unfold claim at h ⊢
  split_ifs at h ⊢ with hoffered
  exact ⟨hoffered, rfl⟩

/-- What an accepted move establishes: the rules allow it, it is safe, and the game continues from
the position after it with the outcome found there. -/
structure Played (g g' : Game) (m : Move) (e : Effects) : Prop where
  wasOpen : g.status.isOver = false
  admissible : g.position.Admissible m (some g.position.toMove)
  allows : g.position.Allows m e
  safe : g.position.Safe m e
  position : g'.position = g.position.play m e
  status : g'.status = g'.position.outcome

theorem played_of_legal {e : Effects} (hopen : g.status.isOver = false)
    (h : g.position.ruling m = .legal e) (hfits : Numeral.Fits (g.position.plies + 1)) :
    Played g (g.play m).game m e := by
  obtain ⟨⟨hadm, hallows⟩, hsafe⟩ := Position.ruling_eq_legal.mp h
  have hgame : (g.play m).game = ⟨g.position.play m e, (g.position.play m e).outcome⟩ := by
    rw [play_of_open hopen, h]
    simp [hfits]
  exact ⟨hopen, hadm, hallows, hsafe, by rw [hgame], by rw [hgame]⟩

theorem played_of_play {s : Status} (h : (g.play m).result = .ok s) :
    ∃ e, Played g (g.play m).game m e := by
  have hopen : g.status.isOver = false := by
    by_contra hover
    simp [play, Bool.eq_true_of_not_eq_false hover] at h
  cases hruling : g.position.ruling m with
  | illegal => simp [play_of_illegal hopen hruling] at h
  | needsPromotion => simp [play_of_needsPromotion hopen hruling] at h
  | legal e =>
      refine ⟨e, played_of_legal hopen hruling ?_⟩
      by_contra hfits
      simp [play_of_legal hopen hruling, hfits] at h

/-- A turn: the game accepts a move, given by its squares or by its notation. -/
inductive Turn : Game → Game → Prop where
  | move {g : Game} {m : Move} {s : Status} (accepted : (g.play m).result = .ok s) :
      Turn g (g.play m).game
  | notated {g : Game} {text : String} {s : Status}
      (accepted : (g.playText text).result = .ok s) : Turn g (g.playText text).game

/-- The game accepts a move, given by its squares or by its notation. -/
inductive Makes : Game → Move → Game → Prop where
  | move {g : Game} {m : Move} {s : Status} (accepted : (g.play m).result = .ok s) :
      Makes g m (g.play m).game
  | notated {g : Game} {text : String} {m : Move} {s : Status}
      (read : Move.ofNotation text = .ok m) (accepted : (g.playText text).result = .ok s) :
      Makes g m (g.playText text).game

theorem Makes.played (h : Makes g m g') : ∃ e, Played g g' m e := by
  cases h with
  | move accepted => exact played_of_play accepted
  | notated read accepted =>
      rw [playText_of_ofNotation read] at accepted ⊢
      exact played_of_play accepted

theorem turn_iff_makes : Turn g g' ↔ ∃ m, Makes g m g' := by
  constructor
  · intro h
    cases h with
    | move accepted => exact ⟨_, .move accepted⟩
    | @notated text _ accepted =>
        cases hread : Move.ofNotation text with
        | ok m => exact ⟨m, .notated hread accepted⟩
        | error cause =>
            unfold playText at accepted
            split at accepted
            · cases accepted
            · rw [hread] at accepted
              cases accepted
  · intro prem
    obtain ⟨m, h⟩ := prem
    cases h with
    | move accepted => exact .move accepted
    | notated _ accepted => exact .notated accepted

theorem Turn.played (h : Turn g g') : ∃ m e, Played g g' m e := by
  obtain ⟨m, made⟩ := turn_iff_makes.mp h
  exact ⟨m, made.played⟩

/-- Any number of turns. -/
abbrev Run : Game → Game → Prop := Relation.ReflTransGen Turn

/-- The moves that lead from one game to another, the latest first. -/
inductive Line (g₀ : Game) : List Move → Game → Prop where
  | start : Line g₀ [] g₀
  | move {ms : List Move} {g g' : Game} {m : Move} (before : Line g₀ ms g)
      (made : Makes g m g') : Line g₀ (m :: ms) g'

/-- The game after moves, the latest first, if it accepts them all. -/
def replay (g₀ : Game) : List Move → Option Game
  | [] => some g₀
  | m :: ms => (replay g₀ ms).bind fun g => (g.play m).result.toOption.map fun _ => (g.play m).game

theorem makes_iff : Makes g m g' ↔ (g.play m).result.toOption.map (fun _ => (g.play m).game) =
    some g' := by
  constructor
  · intro h
    cases h with
    | move accepted => rw [accepted]; rfl
    | notated read accepted =>
        rw [playText_of_ofNotation read] at accepted ⊢
        rw [accepted]
        rfl
  · intro h
    cases hresult : (g.play m).result with
    | error cause =>
        rw [hresult] at h
        cases h
    | ok s =>
        rw [hresult] at h
        cases h
        exact .move hresult

theorem line_iff_replay {g₀ : Game} {ms : List Move} : Line g₀ ms g ↔ replay g₀ ms = some g := by
  induction ms generalizing g with
  | nil =>
      constructor
      · intro h
        cases h
        rfl
      · intro h
        cases h
        exact .start
  | cons m ms ih =>
      rw [replay, Option.bind_eq_some_iff]
      constructor
      · intro h
        cases h with
        | move before made => exact ⟨_, ih.mp before, makes_iff.mp made⟩
      · intro prem
        obtain ⟨h, before, made⟩ := prem
        exact .move (ih.mpr before) (makes_iff.mpr made)

instance (g₀ : Game) (ms : List Move) (g : Game) : Decidable (Line g₀ ms g) :=
  decidable_of_iff _ line_iff_replay.symm

theorem Line.run {g₀ : Game} {ms : List Move} (line : Line g₀ ms g) : Run g₀ g := by
  induction line with
  | start => exact .refl
  | move _ made ih => exact ih.tail (turn_iff_makes.mpr ⟨_, made⟩)

theorem Line.plies {g₀ : Game} {ms : List Move} (line : Line g₀ ms g) :
    g.position.plies = g₀.position.plies + ms.length := by
  induction line with
  | start => exact (Int.add_zero _).symm
  | move _ made ih =>
      obtain ⟨e, played⟩ := made.played
      rw [played.position, Position.plies_play, ih, List.length_cons, Int.natCast_succ,
        Int.add_assoc]

/-- A game as it starts: from the initial position or from a descriptor. -/
def Starts (g : Game) : Prop :=
  g = .initial ∨ ∃ text, ofDescriptor text = .ok g

theorem ofDescriptor_eq_ok {text : String} : ofDescriptor text = .ok g ↔
    Descriptor.position text = .ok g.position ∧
      g.status = g.position.stuck?.getD .inProgress := by
  obtain ⟨p, status⟩ := g
  unfold ofDescriptor
  cases Descriptor.position text with
  | error cause =>
      constructor
      · intro h
        cases h
      · intro prem
        cases prem.1
  | ok q =>
      constructor
      · intro h
        cases h
        exact ⟨rfl, rfl⟩
      · intro prem
        obtain ⟨h, hstatus⟩ := prem
        cases h
        change status = p.stuck?.getD .inProgress at hstatus
        rw [hstatus]
        rfl

theorem position_of_ofDescriptor {text : String} (h : ofDescriptor text = .ok g) :
    Descriptor.position text = .ok g.position :=
  (ofDescriptor_eq_ok.mp h).1

/-- What every turn preserves holds after every run. -/
theorem Run.invariant (h : Run g g') (inv : Game → Prop) (start : inv g)
    (step : ∀ {a b : Game} {m : Move} {e : Effects}, Played a b m e → inv a → inv b) :
    inv g' := by
  induction h with
  | refl => exact start
  | tail _ turn ih =>
      obtain ⟨m, e, played⟩ := turn.played
      exact step played ih

end Arbiter.Game
