import Arbiter.Proofs.DoubleSteps
import Arbiter.Proofs.KingSafety
import Arbiter.Proofs.Likeness

/-! # What the counters tell

In a game from the initial position the counters of the pieces that matter to the rules can be told
from the board: a pawn has not moved exactly if it stands on its home row, and a king and a rook
that have not moved stand at the home squares of a right. A position of which this holds is
`Regular`. Moves keep positions regular, and keep alike regular positions alike.
-/

namespace Arbiter.Position

open Descriptor (JustDoubled)

variable {p q : Position} {m : Move} {e : Effects} {side : Side} {s t : Square}

/-- A sound position whose counters agree with its board. -/
structure Regular (p : Position) : Prop extends p.Sound where
  owned : ∀ s, (p.board.get s).IsEmpty ↔ (p.board.get s).owner = none
  pawns : ∀ s side, (p.board.get s).kind = .pawn → (p.board.get s).owner = some side →
    0 ≤ (s.row - side.homeRow) * Side.forward (some side) ∧
      ((p.board.get s).moves = 0 ↔ s.row = side.homeRow)
  home : ∀ side king rook, Ready p.board side king rook →
    ∃ right : CastlingRight, right.side = side ∧ right.kingHome = king ∧ right.rookHome = rook
  single : ∀ s t, JustDoubled p s → JustDoubled p t → s = t

theorem Sound.not_touches_of_unmoved (hp : p.Sound) (hapart : Apart m e)
    (hocc : ¬ ((p.play m e).board.get s).IsEmpty) (hmoves : ((p.play m e).board.get s).moves = 0) :
    ¬ Touches m e s := by
  rcases hapart.get_play_cases (p := p) s with ⟨-, hget⟩ | ⟨hop, -, -, hget⟩ | ⟨-, hget⟩ |
    ⟨htouches, -⟩
  · rw [hget] at hmoves
    exact absurd hmoves (hp.moved_ne_zero m.src)
  · rw [hget] at hmoves
    exact absurd hmoves (hp.moved_ne_zero hop.src)
  · rw [hget] at hocc
    exact absurd rfl hocc
  · exact htouches

theorem Sound.ready_play (hp : p.Sound) (hapart : Apart m e) {king rook : Square} :
    Ready (p.play m e).board side king rook ↔
      (¬ Touches m e king ∧ ¬ Touches m e rook) ∧ Ready p.board side king rook := by
  constructor
  · intro h
    have hking := hp.not_touches_of_unmoved hapart (Cell.occupied_of_kind h.1.1 (by decide)) h.1.2.2
    have hrook := hp.not_touches_of_unmoved hapart (Cell.occupied_of_kind h.2.1 (by decide)) h.2.2.2
    refine ⟨⟨hking, hrook⟩, ?_⟩
    simp only [Ready] at h ⊢
    rwa [get_play_of_not_touches hking, get_play_of_not_touches hrook] at h
  · intro prem
    obtain ⟨⟨hking, hrook⟩, h⟩ := prem
    simp only [Ready]
    rwa [get_play_of_not_touches hking, get_play_of_not_touches hrook]

theorem Regular.tracked (hp : p.Regular) : p.Tracked where
  clock := hp.clock
  stamps := hp.stamps
  counts := hp.counts
  pawns := hp.pawns

theorem Regular.play (hp : p.Regular) (hadm : p.Admissible m (some p.toMove)) (h : p.Allows m e)
    (hsafe : p.Safe m e) : (p.play m e).Regular where
  toSound := hp.toSound.play hadm h hsafe
  owned := h.owned_play hadm hp.owned
  pawns := (hp.tracked.play hadm h).pawns
  home side king rook hready :=
    hp.home side king rook ((hp.toSound.ready_play (apart_of_allows hadm h)).mp hready).2
  single _ _ hs ht :=
    ((hp.tracked.justDoubled_play hadm h).mp hs).1.trans
      ((hp.tracked.justDoubled_play hadm h).mp ht).1.symm

/-- The same move keeps alike positions alike. -/
theorem Regular.alike_play (hp : p.Regular) (hq : q.Regular) (hlike : Alike p q)
    (hadm : p.Admissible m (some p.toMove)) (h : p.Allows m e) :
    Alike (p.play m e) (q.play m e) := by
  have hapart := apart_of_allows hadm h
  have hadm' : q.Admissible m (some q.toMove) := hlike.toMove_eq ▸ hlike.men.admissible hadm
  have h' := hlike.allows hadm h
  refine ⟨?_, ?_, hlike.men.play hapart, fun side king rook => ?_, fun s => ?_⟩
  · rw [plies_play, plies_play, hlike.plies]
  · have hcaptures : p.Captures m e ↔ q.Captures m e :=
      or_congr_left (not_congr (hlike.men.vacant m.dst))
    simp only [Position.play, hcaptures, hlike.plies, hlike.lastCapture]
  · rw [hp.toSound.ready_play hapart, hq.toSound.ready_play hapart, hlike.ready]
  · rw [hp.tracked.justDoubled_play hadm h, hq.tracked.justDoubled_play hadm' h', DoubleStep,
      DoubleStep, hlike.men.kind, hlike.toMove_eq]

theorem home_initial (side : Side) (howner : (Position.initial.board.get s).owner = some side) :
    ((Position.initial.board.get s).kind = .pawn → s.row = side.homeRow) ∧
      ((Position.initial.board.get s).kind = .king →
        ∀ wing, (CastlingRight.mk side wing).kingHome = s) ∧
      ((Position.initial.board.get s).kind = .rook →
        ∃ wing, (CastlingRight.mk side wing).rookHome = s) := by
  have hs : s.OnBoard := by
    by_contra hoff
    rw [Board.get_of_not_onBoard _ hoff] at howner
    cases howner
  have all (side : Side) : ∀ s ∈ Square.all, (Position.initial.board.get s).owner = some side →
      ((Position.initial.board.get s).kind = .pawn → s.row = side.homeRow) ∧
        ((Position.initial.board.get s).kind = .king →
          (CastlingRight.mk side .kingSide).kingHome = s) ∧
        ((Position.initial.board.get s).kind = .rook →
          (CastlingRight.mk side .kingSide).rookHome = s ∨
            (CastlingRight.mk side .queenSide).rookHome = s) := by
    cases side <;> decide +kernel
  obtain ⟨hpawn, hking, hrook⟩ := all side s (Square.mem_all.mpr hs) howner
  refine ⟨hpawn, fun h wing => hking h, fun h => ?_⟩
  rcases hrook h with h | h <;> exact ⟨_, h⟩

theorem regular_initial : Position.initial.Regular where
  toSound := sound_initial
  owned := by
    refine Board.forall_get (P := fun _ c => c.IsEmpty ↔ c.owner = none)
      (fun _ => iff_of_true rfl rfl) ?_
    decide +kernel
  pawns s side hkind howner := by
    have hrow := (home_initial side howner).1 hkind
    exact ⟨by simp [hrow], iff_of_true (unmoved_initial s).1.1 hrow⟩
  home side king rook hready := by
    obtain ⟨⟨hking, hkingOwner, -⟩, hrook, hrookOwner, -⟩ := hready
    obtain ⟨wing, hwing⟩ := (home_initial side hrookOwner).2.2 hrook
    exact ⟨⟨side, wing⟩, rfl, (home_initial side hkingOwner).2.1 hking wing, hwing⟩
  single s _ hs := by
    have hmoves := hs.2.2.2.1
    rw [(unmoved_initial s).1.1] at hmoves
    cases hmoves

end Arbiter.Position
