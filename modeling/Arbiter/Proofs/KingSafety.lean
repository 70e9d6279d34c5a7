import Arbiter.Proofs.Setup
import Arbiter.Proofs.Turns

/-! # Kings are safe throughout a game

A legal move takes no king: whatever may move onto the square of a king attacks it, and the player
who has just moved is not in check. `Sound` collects what makes this an invariant. Its last two
parts are there for castling, whose rook is found by looking along the row: an unmoved rook stands
in a corner file, so that the king castles over vacant squares only.
-/

namespace Arbiter.Position

variable {p : Position} {m : Move} {e : Effects} {player : Option Side} {side : Side}
variable {s t corner : Square}

/-- A king of the player stands on the square. -/
def KingAt (p : Position) (side : Side) (s : Square) : Prop :=
  (p.board.get s).kind = .king ∧ (p.board.get s).owner = some side

instance (p : Position) (side : Side) (s : Square) : Decidable (p.KingAt side s) := by
  unfold KingAt; infer_instance

/-- The player has exactly one king. -/
def OneKing (p : Position) (side : Side) : Prop := ∃! s, p.KingAt side s

/-- No pawn stands on either back row. -/
def PawnsInside (p : Position) : Prop :=
  ∀ s, (p.board.get s).kind = .pawn → s.row ≠ 0 ∧ s.row ≠ 7

theorem KingAt.onBoard (h : p.KingAt side s) : s.OnBoard :=
  onBoard_of_occupied (Cell.occupied_of_kind h.1 (by decide))

theorem kingAt_of_king? (h : p.board.king? (some side) = some s) : p.KingAt side s := by
  simpa [KingAt] using List.find?_some h

theorem king?_eq_none_iff : p.board.king? (some side) = none ↔ ∀ s, ¬ p.KingAt side s := by
  constructor
  · intro h s hking
    exact List.find?_eq_none.mp h s (Square.mem_all.mpr hking.onBoard) (decide_eq_true hking)
  · intro h
    apply List.find?_eq_none.mpr
    intro s _ hking
    exact h s (of_decide_eq_true hking)

theorem king?_eq_some (hking : p.KingAt side s) (honly : ∀ t, p.KingAt side t → t = s) :
    p.board.king? (some side) = some s := by
  cases hfound : p.board.king? (some side) with
  | none => exact absurd hking (king?_eq_none_iff.mp hfound s)
  | some t => rw [honly t (kingAt_of_king? hfound)]

theorem not_strikes_king (hone : p.OneKing side) (hsafe : p.inCheck (some side) = false)
    (hking : p.KingAt side s) (howner : (p.board.get t).owner = some side.opponent) :
    ¬ p.Strikes t s := by
  intro hstrikes
  have hfound : p.board.king? (some side) = some s :=
    king?_eq_some hking fun t ht => hone.unique ht hking
  have hattacked : p.attacked s (some side) = true := by
    have hother : (p.board.get s).owner ≠ some side.opponent := by
      rw [hking.2]
      exact fun h => Side.opponent_ne side (Option.some.inj h).symm
    exact (attacked_iff hking.onBoard).mpr
      ⟨.inr hother, t, onBoard_of_occupied hstrikes.occupied, howner, hstrikes⟩
  simp only [inCheck, hfound, hattacked, Bool.true_eq_false] at hsafe

theorem Castles.path_vacant (h : p.Castles m corner) (hadm : p.Admissible m player)
    (hcorner : corner.col = 0 ∨ corner.col = 7) :
    (p.board.get (rookHop m corner).dst).IsEmpty ∧ (p.board.get m.dst).IsEmpty := by
  obtain ⟨k, -, hk, before⟩ := h.corner_spec
  have hne := h.corner_ne_dst hadm
  obtain ⟨hsrc, hdst, -⟩ := hadm
  have hfar : 2 ≤ k := by
    have hsign := h.sign
    have hend := h.dst_eq
    simp only [Square.ext_iff, Square.shift, Square.OnBoard, ne_eq] at *
    rcases hsign with ⟨hsign, -⟩ | ⟨hsign, -⟩ <;> rw [hsign] at hk <;> omega
  constructor
  · simpa [rookHop] using before 0 (by omega)
  · rw [h.dst_eq]
    exact before 1 (by omega)

theorem kingAt_play (hadm : p.Admissible m player) (h : p.Allows m e) :
    (p.play m e).KingAt side t ↔
      (t = m.dst ∧ p.KingAt side m.src) ∨ (¬ Touches m e t ∧ p.KingAt side t) := by
  have hapart := apart_of_allows hadm h
  simp only [KingAt]
  constructor
  · intro prem
    obtain ⟨hkind, howner⟩ := prem
    rcases hapart.get_play_cases (p := p) t with ⟨ht, hget⟩ | ⟨hop, hhop, -, hget⟩ | ⟨-, hget⟩ |
      ⟨htouches, hget⟩
    · rw [hget] at hkind howner
      exact .inl ⟨ht, h.king_arrives.mp hkind, howner⟩
    · rw [hget] at hkind
      cases (h.hop_rook hhop).1.symm.trans hkind
    · rw [hget] at hkind
      cases hkind
    · rw [hget] at hkind howner
      exact .inr ⟨htouches, hkind, howner⟩
  · intro prem
    rcases prem with ⟨rfl, hkind, howner⟩ | ⟨htouches, hking⟩
    · rw [hapart.get_play_dst]
      exact ⟨h.king_arrives.mpr hkind, howner⟩
    · rwa [get_play_of_not_touches htouches]

/-- What holds throughout a game that starts with one king on each side. -/
structure Sound (p : Position) : Prop where
  kings : ∀ side, p.OneKing side
  waiting : p.inCheck (some p.toMove.opponent) = false
  clock : 0 ≤ p.plies
  captured : p.lastCapture ≤ p.plies
  stamps : ∀ s, (p.board.get s).lastMove ≤ p.plies
  counts : ∀ s, 0 ≤ (p.board.get s).moves
  corners : ∀ s, (p.board.get s).kind = .rook → (p.board.get s).moves = 0 → s.col = 0 ∨ s.col = 7

theorem Sound.moved_ne_zero (hp : p.Sound) (s : Square) : (p.board.get s).moves + 1 ≠ 0 := by
  have := hp.counts s
  omega

theorem Sound.landing_vacant (hp : p.Sound) (hadm : p.Admissible m player) (h : p.Allows m e)
    {hop : Move} (hhop : e.castle = some hop) : (p.board.get hop.dst).IsEmpty := by
  obtain ⟨way, hrook⟩ := h.castles hhop
  rw [hrook]
  exact (way.path_vacant hadm (hp.corners _ way.rook way.rookUnmoved)).1

/-- A square that an allowed move touches, other than its origin, is vacant or holds a piece that is
struck, a pawn taken in passing, or the castling rook. -/
theorem Sound.touched (hp : p.Sound) (hadm : p.Admissible m player) (h : p.Allows m e)
    (htouches : Touches m e s) (hne : s ≠ m.src) :
    (p.board.get s).IsEmpty ∨ (s = m.dst ∧ p.Strikes m.src s) ∨
      (p.board.get s).kind = .pawn ∨ (p.board.get s).kind = .rook := by
  rcases htouches with hs | rfl | hs | ⟨hop, hhop, hs⟩
  · exact absurd hs hne
  · cases h with
    | strike _ way => exact .inr (.inl ⟨rfl, way⟩)
    | castle way =>
        exact .inl (way.path_vacant hadm (hp.corners _ way.rook way.rookUnmoved)).2
    | pawn piece _ way =>
        cases way with
        | advance hway =>
            by_contra hocc
            exact not_pawnAdvance (fun hempty => hocc (.inl hempty)) hway
        | take hway =>
            refine .inr (.inl ⟨rfl, ?_⟩)
            simp only [Strikes]
            rw [piece]
            exact hway
        | pass _ hvacant => exact .inl hvacant
  · exact .inr (.inr (.inl (h.captured_pawn hs)))
  · rcases hs with rfl | rfl
    · exact .inr (.inr (.inr (h.hop_rook hhop).1))
    · exact .inl (hp.landing_vacant hadm h hhop)

theorem Sound.king_untouched (hp : p.Sound) (hadm : p.Admissible m (some p.toMove))
    (h : p.Allows m e) (hking : p.KingAt side s) (hne : s ≠ m.src) : ¬ Touches m e s := by
  intro htouches
  rcases hp.touched hadm h htouches hne with hempty | ⟨rfl, hstrikes⟩ | hkind | hkind
  · exact absurd hempty (Cell.occupied_of_kind hking.1 (by decide))
  · have hmover : (p.board.get m.src).owner = some p.toMove := hadm.owner
    have hside : side = p.toMove.opponent := by
      have hother : (p.board.get m.dst).owner ≠ some p.toMove :=
        hadm.target.resolve_left (Cell.occupied_of_kind hking.1 (by decide))
      rw [hking.2] at hother
      revert hother
      cases side <;> cases p.toMove <;> simp [Side.opponent]
    subst hside
    refine not_strikes_king (hp.kings _) hp.waiting hking ?_ hstrikes
    rwa [Side.opponent_opponent]
  · cases hkind.symm.trans hking.1
  · cases hkind.symm.trans hking.1

theorem Sound.oneKing_play (hp : p.Sound) (hadm : p.Admissible m (some p.toMove))
    (h : p.Allows m e) (side : Side) : (p.play m e).OneKing side := by
  obtain ⟨k, hk, honly⟩ := hp.kings side
  rcases eq_or_ne k m.src with rfl | hne
  · refine ⟨m.dst, (kingAt_play hadm h).mpr (.inl ⟨rfl, hk⟩), fun t ht => ?_⟩
    rcases (kingAt_play hadm h).mp ht with ⟨ht, -⟩ | ⟨htouches, ht⟩
    · exact ht
    · exact absurd (.inl (honly t ht)) htouches
  · have huntouched := hp.king_untouched hadm h hk hne
    refine ⟨k, (kingAt_play hadm h).mpr (.inr ⟨huntouched, hk⟩), fun t ht => ?_⟩
    rcases (kingAt_play hadm h).mp ht with ⟨-, hsrc⟩ | ⟨-, ht⟩
    · exact absurd (honly _ hsrc).symm hne
    · exact honly t ht

/-- A safe move that the rules allow leads from a sound position to a sound one. -/
theorem Sound.play (hp : p.Sound) (hadm : p.Admissible m (some p.toMove)) (h : p.Allows m e)
    (hsafe : p.Safe m e) : (p.play m e).Sound where
  kings := hp.oneKing_play hadm h
  waiting := by rwa [toMove_play, Side.opponent_opponent]
  clock := by
    have := hp.clock
    rw [plies_play]
    omega
  captured := by
    have := hp.captured
    simp only [Position.play]
    split_ifs <;> omega
  stamps := (apart_of_allows hadm h).stamps_play hp.clock hp.stamps
  counts := (apart_of_allows hadm h).counts_play hp.counts
  corners := by
    refine (apart_of_allows hadm h).forall_cells
      (fun s c => c.kind = .rook → c.moves = 0 → s.col = 0 ∨ s.col = 7) hp.corners
      (fun _ hrook => ?_) ?_ fun hop _ => ?_
    · cases hrook
    · exact fun _ hmoves => absurd hmoves (hp.moved_ne_zero m.src)
    · exact fun _ hmoves => absurd hmoves (hp.moved_ne_zero hop.src)

theorem PawnsInside.play (hp : p.PawnsInside) (hadm : p.Admissible m (some p.toMove))
    (h : p.Allows m e) : (p.play m e).PawnsInside := by
  refine (apart_of_allows hadm h).forall_cells
    (fun s c => c.kind = .pawn → s.row ≠ 0 ∧ s.row ≠ 7) hp (fun _ hpawn => ?_) (fun hpawn => ?_)
    fun hop hhop hpawn => ?_
  · cases hpawn
  · obtain ⟨hsrc, hrow⟩ := h.pawn_arrives hpawn
    have hahead := h.pawn_ahead hsrc
    obtain ⟨hon, -, -, hmover, -⟩ := hadm
    rw [hmover] at hahead hrow
    unfold Move.dRow at hahead
    unfold Square.OnBoard at hon
    cases hside : p.toMove <;> simp only [hside, Side.forward, Side.lastRow] at hahead hrow <;>
      simp at hahead hrow <;> omega
  · cases (h.hop_rook hhop).1.symm.trans hpawn

theorem sound_of_text {text : String} (h : Descriptor.position text = .ok p)
    (kings : ∀ side, p.OneKing side) (waiting : p.inCheck (some p.toMove.opponent) = false) :
    p.Sound := by
  obtain ⟨d, hread, hsetup⟩ := Descriptor.position_eq_ok.mp h
  obtain ⟨hplies, hcapture⟩ := Descriptor.clocks_of_setup hsetup
  have hquiet := (Descriptor.counters_of_read hread).1
  have hclock := Descriptor.plies_nonneg hread
  refine ⟨kings, waiting, by omega, by omega, Descriptor.stamps_of_setup hsetup (by omega),
    Descriptor.counts_of_setup hsetup, fun s hrook hmoves => ?_⟩
  obtain ⟨right, -, rfl⟩ := Descriptor.right_of_unmoved_rook hsetup hrook hmoves
  rcases right with ⟨_ | _, _ | _⟩ <;> simp [CastlingRight.rookHome]

theorem oneKing_of_all (h : ∀ t ∈ Square.all, p.KingAt side t ↔ t = s) (hs : s.OnBoard) :
    p.OneKing side :=
  ⟨s, (h s (Square.mem_all.mpr hs)).mpr rfl, fun t ht =>
    (h t (Square.mem_all.mpr ht.onBoard)).mp ht⟩

theorem oneKing_initial (side : Side) : Position.initial.OneKing side := by
  cases side with
  | white => exact oneKing_of_all (s := ⟨7, 4⟩) (by decide +kernel) (by decide)
  | black => exact oneKing_of_all (s := ⟨0, 4⟩) (by decide +kernel) (by decide)

theorem unmoved_initial (s : Square) :
    ((Position.initial.board.get s).moves = 0 ∧ (Position.initial.board.get s).lastMove = -1) ∧
      ((Position.initial.board.get s).kind = .rook → s.col = 0 ∨ s.col = 7) := by
  revert s
  refine Board.forall_get (P := fun s c => (c.moves = 0 ∧ c.lastMove = -1) ∧
    (c.kind = .rook → s.col = 0 ∨ s.col = 7)) (fun s => ⟨⟨rfl, rfl⟩, fun h => by cases h⟩) ?_
  decide +kernel

theorem sound_initial : Position.initial.Sound where
  kings := oneKing_initial
  waiting := by decide +kernel
  clock := le_rfl
  captured := le_rfl
  stamps s := by
    rw [(unmoved_initial s).1.2]
    decide
  counts s := (unmoved_initial s).1.1.ge
  corners s hrook _ := (unmoved_initial s).2 hrook

end Arbiter.Position

namespace Arbiter.Game

variable {g g₀ : Game}

/-- A game starts fairly from the initial position, and from a descriptor whose position has one
king on each side and leaves the player not to move out of check. -/
inductive FairStart : Game → Prop where
  | initial : FairStart .initial
  | text {text : String} {g : Game} (read : ofDescriptor text = .ok g)
      (kings : ∀ side, g.position.OneKing side)
      (waiting : g.position.inCheck (some g.toMove.opponent) = false) : FairStart g

theorem FairStart.sound (h : FairStart g) : g.position.Sound := by
  cases h with
  | initial => exact Position.sound_initial
  | text read kings waiting =>
      exact Position.sound_of_text (position_of_ofDescriptor read) kings waiting

theorem Run.sound (hstart : FairStart g₀) (hrun : Run g₀ g) : g.position.Sound :=
  hrun.invariant (fun g => g.position.Sound) hstart.sound fun {a b m e} played hsound => by
    rw [played.position]
    exact hsound.play played.admissible played.allows played.safe

theorem Run.pawnsInside (hrun : Run g₀ g) (h : g₀.position.PawnsInside) :
    g.position.PawnsInside :=
  hrun.invariant (fun g => g.position.PawnsInside) h fun {a b m e} played hpawns => by
    rw [played.position]
    exact hpawns.play played.admissible played.allows

/-- Throughout a game that starts fairly each player has exactly one king, and the player who has
just moved is not in check. No capture and no move of a piece is dated later than the latest ply,
and no pawn comes to stand on a back row unless one did from the start. -/
theorem kings_safe_throughout (hstart : FairStart g₀) (hrun : Run g₀ g) :
    (∀ side, g.position.OneKing side) ∧
      g.position.inCheck (some g.toMove.opponent) = false ∧
      g.position.lastCapture ≤ g.position.plies ∧
      (∀ s, (g.position.board.get s).lastMove ≤ g.position.plies) ∧
      (g₀.position.PawnsInside → g.position.PawnsInside) :=
  have hsound := Run.sound hstart hrun
  ⟨hsound.kings, hsound.waiting, hsound.captured, hsound.stamps, Run.pawnsInside hrun⟩

/-- White may castle on either side. -/
def castlingGame : Game :=
  (ofDescriptor "4k3/8/8/8/8/8/8/R3K2R w KQ - 3 20").toOption.getD .initial

/-- Castling on the queen's side. -/
def longCastling : Move := { src := ⟨7, 4⟩, dst := ⟨7, 2⟩ }

theorem castlingGame_fairStart : FairStart castlingGame := by
  have hread : ofDescriptor "4k3/8/8/8/8/8/8/R3K2R w KQ - 3 20" = .ok castlingGame := by
    decide +kernel
  refine .text hread (fun side => ?_) (by decide +kernel)
  cases side with
  | white => exact Position.oneKing_of_all (s := ⟨7, 4⟩) (by decide +kernel) (by decide)
  | black => exact Position.oneKing_of_all (s := ⟨0, 4⟩) (by decide +kernel) (by decide)

theorem kings_safe_after_castling :
    (FairStart castlingGame ∧ Run castlingGame (castlingGame.play longCastling).game) ∧
      ∀ side, (castlingGame.play longCastling).game.position.OneKing side :=
  have accepted : (castlingGame.play longCastling).result = .ok .inProgress := by decide +kernel
  have hrun : Run castlingGame (castlingGame.play longCastling).game := .single (.move accepted)
  ⟨⟨castlingGame_fairStart, hrun⟩, (kings_safe_throughout castlingGame_fairStart hrun).1⟩

end Arbiter.Game
