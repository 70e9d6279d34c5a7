import Arbiter.Proofs.Placement
import Arbiter.Proofs.Trials
import Mathlib.Data.Finset.Card

/-! # What a move does to the men

A move is carried out without any checks, so that none is lost or doubled rests on the rules: the
squares of a move that they allow do not collide, and the rook of a castling king lands on a vacant
square or on its own. The men of each player after the move are told as sets of squares, and counted
from these.
-/

namespace Arbiter.Position

variable {p : Position} {m : Move} {e : Effects} {side : Side} {s t : Square}

theorem Allows.captured_passes (h : p.Allows m e) (hcaptured : e.captured = some s) :
    ((p.board.get s).kind = .pawn ∧ (p.board.get s).owner = (p.mover m).map Side.opponent) ∧
      (p.board.get m.dst).IsEmpty := by
  cases h with
  | strike => cases hcaptured
  | castle => cases hcaptured
  | pawn _ _ way =>
      cases way with
      | advance => cases hcaptured
      | take => cases hcaptured
      | pass _ vacant victim =>
          cases hcaptured
          exact ⟨⟨victim.1, victim.2.1⟩, vacant⟩

theorem Castles.landing {corner : Square} (h : p.Castles m corner) :
    (rookHop m corner).dst = corner ∨ (p.board.get (rookHop m corner).dst).IsEmpty := by
  obtain ⟨k, -, hcorner, hempty⟩ := h.corner_spec
  cases k with
  | zero =>
      left
      rw [hcorner]
      simp [rookHop]
  | succ k =>
      right
      simpa [rookHop] using hempty 0 k.succ_pos

theorem Allows.landing (h : p.Allows m e) {hop : Move} (hhop : e.castle = some hop) :
    hop.dst = hop.src ∨ (p.board.get hop.dst).IsEmpty := by
  obtain ⟨way, hhop'⟩ := h.castles hhop
  rw [hhop']
  exact way.landing

instance (p : Position) (side : Side) (s : Square) : Decidable (p.Own side s) :=
  inferInstanceAs (Decidable (¬ (p.board.get s).IsEmpty ∧ (p.board.get s).owner = some side))

/-- The squares on which a player's pieces stand. -/
def menOf (p : Position) (side : Side) : Finset Square :=
  Square.all.toFinset.filter (p.Own side)

theorem mem_menOf : s ∈ p.menOf side ↔ p.Own side s := by
  simp only [menOf, Finset.mem_filter, List.mem_toFinset, Square.mem_all, and_iff_right_iff_imp]
  exact fun hown => onBoard_of_occupied hown.1

/-- The square on which a move takes a piece. -/
def taken (p : Position) (m : Move) (e : Effects) : Option Square :=
  if (p.board.get m.dst).IsEmpty then e.captured else some m.dst

theorem captures_iff_taken : p.Captures m e ↔ (p.taken m e).isSome := by
  unfold Captures taken
  by_cases hdst : (p.board.get m.dst).IsEmpty <;> simp [hdst]

theorem card_relocated {S : Finset Square} (hs : s ∈ S) (ht : t ∈ S → t = s) :
    (insert t (S.erase s)).card = S.card := by
  have hnew : t ∉ S.erase s := fun hmem =>
    (Finset.mem_erase.mp hmem).1 (ht (Finset.mem_of_mem_erase hmem))
  rw [Finset.card_insert_of_notMem hnew, Finset.card_erase_add_one hs]

section Men

variable (hadm : p.Admissible m (some side)) (h : p.Allows m e)
include hadm

theorem own_src : p.Own side m.src := ⟨hadm.occupied, hadm.owner⟩

theorem not_own_dst : ¬ p.Own side m.dst :=
  fun hown => hadm.target.elim hown.1 fun hne => hne hown.2

include h

theorem own_hop {hop : Move} (hhop : e.castle = some hop) : p.Own side hop.src := by
  obtain ⟨hrook, howner⟩ := h.hop_rook hhop
  exact ⟨Cell.occupied_of_kind hrook (by decide), howner.trans hadm.owner⟩

theorem own_captured (hcaptured : e.captured = some s) : p.Own side.opponent s := by
  obtain ⟨⟨hpawn, howner⟩, -⟩ := h.captured_passes hcaptured
  rw [show p.mover m = some side from hadm.owner] at howner
  exact ⟨Cell.occupied_of_kind hpawn (by decide), howner⟩

/-- After a move a player's piece stands where the move has put one of its own, or where one stood
that the move did not touch. -/
theorem own_play_iff {player : Side} : (p.play m e).Own player t ↔
    (player = side ∧ (t = m.dst ∨ ∃ hop, e.castle = some hop ∧ t = hop.dst)) ∨
      p.Own player t ∧ ¬ Touches m e t := by
  have hapart := apart_of_allows hadm h
  have arrives {c : Cell} (hocc : ¬ c.IsEmpty) (howner : c.owner = some side) :
      ¬ c.IsEmpty ∧ c.owner = some player ↔ player = side := by
    simp [hocc, howner, eq_comm]
  by_cases hdst : t = m.dst
  · subst hdst
    have htouched : Touches m e m.dst := .inr (.inl rfl)
    simp only [Own, hapart.get_play_dst, htouched, not_true, and_false, or_false, true_or, and_true]
    exact arrives (h.arrival_occupied hadm) hadm.owner
  by_cases hhop : ∃ hop, e.castle = some hop ∧ t = hop.dst
  · obtain ⟨hop, hcastle, rfl⟩ := hhop
    have htouched : Touches m e hop.dst := .inr (.inr (.inr ⟨hop, hcastle, .inr rfl⟩))
    have hrook := own_hop hadm h hcastle
    have hlands : hop.dst = m.dst ∨ ∃ hop', e.castle = some hop' ∧ hop.dst = hop'.dst :=
      .inr ⟨hop, hcastle, rfl⟩
    simp only [Own, hapart.get_play_hop hcastle, htouched, not_true, and_false, or_false, hlands,
      and_true]
    exact arrives (c := (p.board.get hop.src).moved (p.plies + 1)) hrook.1 hrook.2
  · rcases hapart.get_play_cases (p := p) t with ⟨ht, -⟩ | ⟨hop, hcastle, ht, -⟩ |
      ⟨htouches, hget⟩ | ⟨htouches, hget⟩
    · exact absurd ht hdst
    · exact absurd ⟨hop, hcastle, ht⟩ hhop
    · simp [Own, hget, htouches, hdst, hhop]
    · simp [Own, hget, htouches, hdst, hhop]

theorem card_menOf_mover : ((p.play m e).menOf side).card = (p.menOf side).card := by
  have hapart := apart_of_allows hadm h
  have hdst : ¬ p.Own side m.dst := not_own_dst hadm
  have hcaptured : ∀ t, p.Own side t → e.captured ≠ some t := fun t hown hc =>
    not_own_opponent hown.2 (own_captured hadm h hc)
  have hmoved : (insert m.dst ((p.menOf side).erase m.src)).card = (p.menOf side).card :=
    card_relocated (mem_menOf.mpr (own_src hadm)) fun hmem => absurd (mem_menOf.mp hmem) hdst
  cases hcastle : e.castle with
  | none =>
      have hset : (p.play m e).menOf side = insert m.dst ((p.menOf side).erase m.src) := by
        ext t
        simp only [mem_menOf, own_play_iff hadm h, Finset.mem_insert, Finset.mem_erase, Touches,
          hcastle]
        grind
      rw [hset, hmoved]
  | some hop =>
      obtain ⟨⟨-, hsrc, hdst'⟩, -, -, hne⟩ := hapart.castle hop hcastle
      have hrook := own_hop hadm h hcastle
      have hset : (p.play m e).menOf side =
          insert hop.dst ((insert m.dst ((p.menOf side).erase m.src)).erase hop.src) := by
        ext t
        simp only [mem_menOf, own_play_iff hadm h, Finset.mem_insert, Finset.mem_erase, Touches,
          hcastle]
        grind
      rw [hset, card_relocated, hmoved]
      · simp [mem_menOf, hrook, hsrc]
      · intro hmem
        have hown : p.Own side hop.dst := by
          simp only [Finset.mem_insert, Finset.mem_erase, mem_menOf, hne, false_or] at hmem
          exact hmem.2
        exact (h.landing hcastle).resolve_right hown.1

theorem own_taken (hown : p.board.Owned) (htaken : p.taken m e = some s) :
    p.Own side.opponent s := by
  unfold taken at htaken
  split_ifs at htaken with hdst
  · exact own_captured hadm h htaken
  · cases htaken
    obtain ⟨owner, howner⟩ := Option.isSome_iff_exists.mp (hown m.dst hdst)
    have hother : owner ≠ side := fun hsame => not_own_dst hadm ⟨hdst, hsame ▸ howner⟩
    refine ⟨hdst, howner.trans (congrArg some ?_)⟩
    revert hother
    cases owner <;> cases side <;> simp [Side.opponent]

/-- A move touches no man of the opponent but the one that it takes. -/
theorem touches_opponent_iff (hman : p.Own side.opponent t) :
    Touches m e t ↔ p.taken m e = some t := by
  have notMine : ¬ p.Own side t := fun hmine => not_own_opponent hmine.2 hman
  have hsrc : t ≠ m.src := fun ht => notMine (ht ▸ own_src hadm)
  have hhop : ¬ ∃ hop, e.castle = some hop ∧ (t = hop.src ∨ t = hop.dst) := by
    rintro ⟨hop, hcastle, rfl | rfl⟩
    · exact notMine (own_hop hadm h hcastle)
    · rcases h.landing hcastle with hsame | hvacant
      · exact notMine (hsame ▸ own_hop hadm h hcastle)
      · exact hman.1 hvacant
  simp only [Touches, hsrc, hhop, false_or, or_false]
  unfold taken
  split_ifs with hdst
  · exact or_iff_right fun ht => hman.1 (ht ▸ hdst)
  · rw [Option.some.injEq, eq_comm (a := m.dst)]
    exact or_iff_left fun hcaptured => hdst (h.captured_passes hcaptured).2

theorem menOf_opponent_play :
    (p.play m e).menOf side.opponent =
      (p.menOf side.opponent).filter fun s => p.taken m e ≠ some s := by
  ext t
  rw [Finset.mem_filter, mem_menOf, mem_menOf, own_play_iff hadm h]
  simp only [Side.opponent_ne, false_and, false_or]
  exact and_congr_right fun hman => not_congr (touches_opponent_iff hadm h hman)

theorem card_menOf_opponent (hown : p.board.Owned) :
    ((p.play m e).menOf side.opponent).card + (if p.Captures m e then 1 else 0) =
      (p.menOf side.opponent).card := by
  rw [menOf_opponent_play hadm h]
  cases htaken : p.taken m e with
  | none => simp [captures_iff_taken, htaken]
  | some s =>
      have hmem : s ∈ p.menOf side.opponent := mem_menOf.mpr (own_taken hadm h hown htaken)
      have hset : ((p.menOf side.opponent).filter fun t => some s ≠ some t) =
          (p.menOf side.opponent).erase s := by
        ext t
        simp [eq_comm, and_comm]
      rw [hset, if_pos (captures_iff_taken.mpr (by simp [htaken]))]
      exact Finset.card_erase_add_one hmem

end Men

/-- What carrying out a move with its effects has done to a position. -/
structure Executed (p : Position) (m : Move) (e : Effects) (q : Position) : Prop where
  /-- Only the squares of the move and of its effects may have changed. -/
  frame : ∀ s, ¬ Touches m e s → q.board.get s = p.board.get s
  origin : q.board.get m.src = .vacant
  /-- The player's piece is on its target, counted and dated, and of another kind only if it was
  promoted. -/
  target : (p.board.get m.src).owner = some p.toMove ∧
    q.board.get m.dst = { p.board.get m.src with
      kind := e.promotion.getD (p.board.get m.src).kind
      moves := (p.board.get m.src).moves + 1
      lastMove := q.plies }
  captured : ∀ s, e.captured = some s → q.board.get s = .vacant
  /-- The player's castling rook has arrived, counted and dated, and has left its corner unless it
  stood on its target already. -/
  rook : ∀ hop, e.castle = some hop →
    ((p.board.get hop.src).kind = .rook ∧ (p.board.get hop.src).owner = some p.toMove) ∧
      q.board.get hop.dst = { p.board.get hop.src with
        moves := (p.board.get hop.src).moves + 1
        lastMove := q.plies } ∧
      (hop.src ≠ hop.dst → q.board.get hop.src = .vacant)
  movers : (q.menOf p.toMove).card = (p.menOf p.toMove).card
  opponents : (q.menOf p.toMove.opponent).card + (if p.Captures m e then 1 else 0) =
    (p.menOf p.toMove.opponent).card
  plies : q.plies = p.plies + 1
  lastCapture : q.lastCapture = if p.Captures m e then q.plies else p.lastCapture

theorem executed_play (hown : p.board.Owned) (hadm : p.Admissible m (some p.toMove))
    (h : p.Allows m e) : Executed p m e (p.play m e) := by
  have hapart := apart_of_allows hadm h
  have howner : (p.board.get m.src).owner = some p.toMove := hadm.owner
  have vacated {s : Square} (htouched : Touches m e s) (hdst : s ≠ m.dst)
      (hhop : ∀ hop, e.castle = some hop → s ≠ hop.dst) :
      (p.play m e).board.get s = .vacant := by
    rcases hapart.get_play_cases (p := p) s with ⟨hs, -⟩ | ⟨hop, hcastle, hs, -⟩ | ⟨-, hget⟩ |
      ⟨hkept, -⟩
    · exact absurd hs hdst
    · exact absurd hs (hhop hop hcastle)
    · exact hget
    · exact absurd htouched hkept
  exact {
    frame := fun s hs => get_play_of_not_touches hs
    origin := vacated (.inl rfl) hapart.ne fun hop hcastle =>
      (hapart.castle hop hcastle).2.2.1.symm
    target := ⟨howner, hapart.get_play_dst⟩
    captured := fun s hs => by
      obtain ⟨-, -, hdst⟩ := hapart.captured s hs
      refine vacated (.inr (.inr (.inl hs))) hdst fun hop hcastle => ?_
      cases hs.symm.trans (hapart.alone (by simp [hcastle])).1
    rook := fun hop hcastle => by
      obtain ⟨hrook, hrookOwner⟩ := h.hop_rook hcastle
      refine ⟨⟨hrook, hrookOwner.trans howner⟩, hapart.get_play_hop hcastle, fun hne => ?_⟩
      refine vacated (.inr (.inr (.inr ⟨hop, hcastle, .inl rfl⟩)))
        (hapart.castle hop hcastle).1.2.2 fun hop' hcastle' => ?_
      cases hcastle.symm.trans hcastle'
      exact hne
    movers := card_menOf_mover hadm h
    opponents := card_menOf_opponent hadm h hown
    plies := rfl
    lastCapture := rfl }

/-- A move that the rules allow its player is carried out to its end. It changes only the squares
involved, its player's men are as many as before, and of the opponent's men it takes one or none. -/
theorem execution_conserves_material (hown : p.board.Owned)
    (h : Guarded.pieceRuling p m (some p.toMove) true = .ok (.legal e)) :
    ∃ q, Guarded.play p m e = .ok q ∧ Executed p m e q := by
  rw [Guarded.pieceRuling_eq] at h
  obtain ⟨hadm, hallows⟩ := pieceRuling_eq_legal.mp (Except.ok.inj h)
  exact ⟨p.play m e, Guarded.Trial.execute_eq hadm hallows, executed_play hown hadm hallows⟩

/-- White's rook stands next to the king, and beyond it a knight of black's. -/
def tightCorner : Position where
  board := (((Board.bare.put ⟨0, 7⟩ { kind := .king, owner := some .black }).put ⟨7, 3⟩
    { kind := .king, owner := some .white }).put ⟨7, 4⟩
    { kind := .rook, owner := some .white }).put ⟨7, 5⟩
    { kind := .knight, owner := some .black, moves := 6, lastMove := 38 }
  plies := 40
  lastCapture := 9

def tightCastling : Move := { src := ⟨7, 3⟩, dst := ⟨7, 5⟩ }

/-- The king castles over the rook onto the knight: the rook hops on its own square, and the knight
is all that is lost. -/
theorem tightCastling_executed :
    (tightCorner.board.Owned ∧
      Guarded.pieceRuling tightCorner tightCastling (some .white) true =
        .ok (.legal { castle := some { src := ⟨7, 4⟩, dst := ⟨7, 4⟩ } })) ∧
      ∃ q, Guarded.play tightCorner tightCastling
          { castle := some { src := ⟨7, 4⟩, dst := ⟨7, 4⟩ } } = .ok q ∧
        q.board.get ⟨7, 4⟩ = { kind := .rook, owner := some .white, moves := 1, lastMove := 41 } ∧
        (q.menOf .white).card = 2 ∧ (q.menOf .black).card = 1 ∧ q.lastCapture = 41 := by
  have hall : ∀ s ∈ Square.all, ¬ (tightCorner.board.get s).IsEmpty →
      (tightCorner.board.get s).owner.isSome := by
    decide +kernel
  have hown : tightCorner.board.Owned := fun s hocc =>
    hall s (Square.mem_all.mpr (onBoard_of_occupied hocc)) hocc
  have hrule : Guarded.pieceRuling tightCorner tightCastling (some tightCorner.toMove) true =
      .ok (.legal { castle := some { src := ⟨7, 4⟩, dst := ⟨7, 4⟩ } }) := by
    decide +kernel
  obtain ⟨q, hplay, executed⟩ := execution_conserves_material hown hrule
  have hcaptures : tightCorner.Captures tightCastling
      { castle := some { src := ⟨7, 4⟩, dst := ⟨7, 4⟩ } } := .inl (by decide +kernel)
  have hplies : q.plies = 41 := executed.plies
  refine ⟨⟨hown, hrule⟩, q, hplay, ?_, executed.movers.trans (by decide +kernel), ?_, ?_⟩
  · rw [(executed.rook _ rfl).2.1, hplies]
    decide +kernel
  · have hcount : (tightCorner.menOf .black).card = 2 := by decide +kernel
    have hfewer := executed.opponents
    rw [if_pos hcaptures] at hfewer
    exact Nat.succ.inj (hfewer.trans hcount)
  · rw [executed.lastCapture, if_pos hcaptures, hplies]

end Arbiter.Position
