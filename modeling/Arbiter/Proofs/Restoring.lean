import Arbiter.Proofs.DescriptorText
import Arbiter.Proofs.Placement
import Arbiter.Proofs.Regular

/-! # Restoring a position from its descriptor

The descriptor of a position forgets the counters of its pieces, and setting it up guesses them
again. A `Legible` position is set up again with the same men and clocks, and with the same pawn to
be taken in passing; its rooks count as unmoved exactly in the corners of its castling rights. For a
regular position this guess is good enough: the restored position is regular as well, and plays
alike.
-/

namespace Arbiter

theorem CastlingRight.eq_of_rookHome {r r' : CastlingRight} (hside : r.side = r'.side)
    (hrook : r.rookHome = r'.rookHome) : r = r' := by
  rcases r with ⟨side, _ | _⟩ <;> rcases r' with ⟨side', _ | _⟩ <;> cases hside
  · rfl
  · simp [rookHome] at hrook
  · simp [rookHome] at hrook
  · rfl

namespace Position

open Descriptor (JustDoubled HasRight ofPosition)

variable {p q : Position} {s : Square}

/-- A position whose descriptor can be set up: the squares with a piece are those with an owner, no
clock is negative, and at most one pawn seems to have just made a double step. -/
structure Legible (p : Position) : Prop where
  owned : ∀ s, (p.board.get s).IsEmpty ↔ (p.board.get s).owner = none
  clock : 0 ≤ p.plies
  captured : p.lastCapture ≤ p.plies
  single : ∀ s t, JustDoubled p s → JustDoubled p t → s = t

theorem Regular.legible (hp : p.Regular) : p.Legible :=
  ⟨hp.owned, hp.clock, hp.captured, hp.single⟩

theorem legible_of_text {text : String} (h : Descriptor.position text = .ok p) : p.Legible := by
  obtain ⟨d, hread, hsetup⟩ := Descriptor.position_eq_ok.mp h
  obtain ⟨hplies, hcapture⟩ := Descriptor.clocks_of_setup hsetup
  have hclock := Descriptor.plies_nonneg hread
  have hquiet := (Descriptor.counters_of_read hread).1
  refine ⟨?_, by omega, by omega, fun s t hs ht => ?_⟩
  · refine Descriptor.forall_cells_of_setup hsetup (fun _ c => c.IsEmpty ↔ c.owner = none)
      (fun _ => iff_of_true rfl rfl) fun s c hc => iff_of_false hc.owned.1 fun hnone => ?_
    have howner := hc.owned.2
    rw [hnone] at howner
    cases howner
  · have stamped {u : Square} (hu : JustDoubled p u) : (p.board.get u).lastMove ≠ -1 := by
      have hstamp := hu.2.2.2.2
      omega
    obtain ⟨behind, side, hpassing, hmove, rfl⟩ := Descriptor.stamped_of_setup hsetup (stamped hs)
    obtain ⟨behind', side', hpassing', hmove', rfl⟩ :=
      Descriptor.stamped_of_setup hsetup (stamped ht)
    cases hpassing.symm.trans hpassing'
    cases hmove.symm.trans hmove'
    rfl

/-- What is restored on a square: the settled piece, a rook at the home of a right as never moved,
and a pawn that has just made a double step with its date. -/
def restoredCell (p : Position) (s : Square) : Cell :=
  let c := (p.board.get s).settled s.row.toNat
  { c with
    moves := if ∃ right ∈ (ofPosition p).castling, right.rookHome = s then 0 else c.moves
    lastMove := if JustDoubled p s then p.plies else c.lastMove }

theorem mem_castling {right : CastlingRight} :
    right ∈ (ofPosition p).castling ↔ HasRight p.board right := by
  simp [ofPosition]

theorem Legible.board_owned (hp : p.Legible) : p.board.Owned := fun s hocc =>
  Option.isSome_iff_ne_none.mpr fun hnone => hocc ((hp.owned s).mpr hnone)

theorem behindDouble_of_justDoubled (h : JustDoubled p s) :
    Descriptor.BehindDouble (s.shift (-Side.forward (some p.toMove.opponent)) 0) := by
  have hon : s.OnBoard := onBoard_of_occupied (Cell.occupied_of_kind h.1 (by decide))
  have hrow := h.2.2.1
  simp only [Descriptor.BehindDouble, Square.OnBoard, Square.shift] at hon ⊢
  revert hrow
  cases p.toMove <;> simp [Side.opponent, Side.forward, Side.homeRow] <;> omega

theorem passingSquare_eq_some (h : Descriptor.passingSquare p = some s) :
    ∃ t, JustDoubled p t ∧ s = t.shift (-Side.forward (some p.toMove.opponent)) 0 := by
  obtain ⟨t, ht, rfl⟩ := Option.map_eq_some_iff.mp h
  exact ⟨t, by simpa using List.find?_some ht, rfl⟩

theorem behindDouble_passingSquare (h : Descriptor.passingSquare p = some s) :
    Descriptor.BehindDouble s := by
  obtain ⟨t, ht, rfl⟩ := passingSquare_eq_some h
  exact behindDouble_of_justDoubled ht

theorem passingSquare_eq_none (h : Descriptor.passingSquare p = none) : ¬ JustDoubled p s := by
  intro hs
  have hon : s.OnBoard := onBoard_of_occupied (Cell.occupied_of_kind hs.1 (by decide))
  have hnone := List.find?_eq_none.mp (Option.map_eq_none_iff.mp h) s (Square.mem_all.mpr hon)
  exact hnone (decide_eq_true hs)

theorem fields_text (p : Position) : Text.fields ' ' p.text.toList = (ofPosition p).parts :=
  Descriptor.fields_write (Placement.write_notMem p.board) List.filter_sublist fun _ =>
    behindDouble_passingSquare

theorem Legible.plain (hp : p.Legible) (hw : p.Writable) : (ofPosition p).Plain where
  placement := Placement.write_notMem p.board
  player := rfl
  castling := List.filter_sublist
  passing _ := behindDouble_passingSquare
  quietPlies := ⟨Int.sub_nonneg_of_le hp.captured, hw.1⟩
  turn := by
    have hclock := hp.clock
    refine ⟨?_, hw.2⟩
    change 1 ≤ p.plies / 2 + 1
    omega

theorem plies_ofPosition (p : Position) : (ofPosition p).plies = p.plies := by
  simp only [Descriptor.plies, ofPosition, turn, toMove]
  grind

theorem get_rested_settled (p : Position) (s : Square) :
    (Descriptor.rested p.board.settled (ofPosition p).castling).get s =
      { (p.board.get s).settled s.row.toNat with
        moves := if ∃ right ∈ (ofPosition p).castling, right.rookHome = s then 0
          else ((p.board.get s).settled s.row.toNat).moves } := by
  rw [Descriptor.get_rested, p.board.get_settled s]
  split_ifs <;> rfl

theorem Legible.readyPawn (hp : p.Legible) : ∃ b, (ofPosition p).readyPawn
    (Descriptor.rested p.board.settled (ofPosition p).castling) = .ok b ∧
      ∀ s, b.get s = p.restoredCell s := by
  cases hpassing : (ofPosition p).passing with
  | none =>
      refine ⟨_, Descriptor.readyPawn_eq_ok.mpr (.inl ⟨hpassing, rfl⟩), fun s => ?_⟩
      rw [get_rested_settled, restoredCell, if_neg (passingSquare_eq_none hpassing)]
  | some behind =>
      obtain ⟨t, ht, rfl⟩ := passingSquare_eq_some hpassing
      have hbehind := behindDouble_of_justDoubled ht
      have hback : (t.shift (-Side.forward (some p.toMove.opponent)) 0).shift
          (Side.forward (some p.toMove.opponent)) 0 = t := by
        simp [Square.shift]
      have hon : t.OnBoard := onBoard_of_occupied (Cell.occupied_of_kind ht.1 (by decide))
      have hcell := get_rested_settled p t
      have hover : Descriptor.PassedOver (ofPosition p)
          (Descriptor.rested p.board.settled (ofPosition p).castling)
          (t.shift (-Side.forward (some p.toMove.opponent)) 0) p.toMove := by
        refine ⟨hpassing, rfl, Square.hasName_of_onBoard hbehind.1, ?_, ?_, ?_⟩
        · have hrow := ht.2.2.1
          simp only [Square.shift, hrow]
          cases p.toMove <;> decide
        · rwa [hback]
        · rw [hback, hcell]
          have hocc : ¬ (p.board.get t).IsEmpty := Cell.occupied_of_kind ht.1 (by decide)
          exact ⟨(Cell.settled_kind _ _).trans ht.1,
            (Cell.settled_owner (fun hempty => absurd hempty hocc)).trans ht.2.1⟩
      refine ⟨_, Descriptor.readyPawn_eq_ok.mpr (.inr ⟨_, p.toMove, hover, rfl⟩), fun s => ?_⟩
      rw [hback, Board.get_put _ hon, plies_ofPosition, restoredCell]
      by_cases hs : s = t
      · rw [if_pos hs, hs, if_pos ht, hcell]
      · rw [if_neg hs, if_neg fun h => hs (hp.single s t h ht), get_rested_settled]

/-- The descriptor of a legible position is set up again, square by square. -/
theorem Legible.setup (hp : p.Legible) :
    ∃ q, (ofPosition p).setup = .ok q ∧ (q.plies = p.plies ∧ q.lastCapture = p.lastCapture) ∧
      ∀ s, q.board.get s = p.restoredCell s := by
  have hboard : Placement.read (ofPosition p).placement = .ok p.board.settled :=
    Placement.read_write hp.board_owned
  have hrooks : ∀ right ∈ (ofPosition p).castling,
      Descriptor.RookHome p.board.settled right := by
    intro right hright
    obtain ⟨-, hrook, howner, -⟩ := mem_castling.mp hright
    have hocc : ¬ (p.board.get right.rookHome).IsEmpty := Cell.occupied_of_kind hrook (by decide)
    simp only [Descriptor.RookHome]
    rw [p.board.get_settled right.rookHome]
    exact ⟨(Cell.settled_kind _ _).trans hrook,
      (Cell.settled_owner fun hempty => absurd hempty hocc).trans howner⟩
  obtain ⟨b, hpawn, hcells⟩ := hp.readyPawn
  have hsetup := Descriptor.setup_eq_ok.mpr ⟨p.board.settled, b, hboard, hrooks, hpawn, rfl⟩
  refine ⟨_, hsetup, ⟨plies_ofPosition p, ?_⟩, hcells⟩
  rw [plies_ofPosition]
  change p.plies - (p.plies - p.lastCapture) = p.lastCapture
  omega

theorem Legible.position_text (hp : p.Legible) (hw : p.Writable) :
    Descriptor.position p.text = (ofPosition p).setup := by
  have hread : Descriptor.read p.text = .ok (ofPosition p) := Descriptor.read_write (hp.plain hw)
  rw [Descriptor.position, hread]
  rfl

section Restored

variable (hp : p.Legible) (hplies : q.plies = p.plies)
  (hcells : ∀ s, q.board.get s = p.restoredCell s)

include hp hcells

theorem Legible.restored_men : SameMen q.board p.board := by
  constructor
  · intro s
    rw [hcells s]
    exact Cell.settled_kind _ _
  · intro s
    rw [hcells s]
    exact Cell.settled_owner (hp.owned s).mp

theorem Legible.restored_ready {side : Side} {king rook : Square} :
    Ready q.board side king rook ↔ p.KingAt side king ∧
      ∃ right : CastlingRight, right.side = side ∧ right.rookHome = rook ∧
        HasRight p.board right := by
  have hmen := hp.restored_men hcells
  simp only [Ready, KingAt]
  rw [hmen.kind, hmen.kind, hmen.owner, hmen.owner]
  constructor
  · intro prem
    obtain ⟨⟨hking, hkingOwner, -⟩, hrook, hrookOwner, hmoves⟩ := prem
    have hocc : ¬ (p.board.get rook).IsEmpty := Cell.occupied_of_kind hrook (by decide)
    rw [hcells rook] at hmoves
    simp only [restoredCell, Cell.settled_of_occupied hocc, Cell.presumedMoves, hrook] at hmoves
    split_ifs at hmoves with hright
    · obtain ⟨right, hright, rfl⟩ := hright
      have hready := mem_castling.mp hright
      have hside : right.side = side := Option.some.inj (hready.2.2.1.symm.trans hrookOwner)
      exact ⟨⟨hking, hkingOwner⟩, right, hside, rfl, hready⟩
    · exact absurd hmoves (by decide)
  · intro prem
    obtain ⟨⟨hking, hkingOwner⟩, right, rfl, rfl, hready⟩ := prem
    have hright : ∃ r ∈ (ofPosition p).castling, r.rookHome = right.rookHome :=
      ⟨right, mem_castling.mpr hready, rfl⟩
    obtain ⟨-, hrook, hrookOwner, -⟩ := hready
    have hocc : ¬ (p.board.get king).IsEmpty := Cell.occupied_of_kind hking (by decide)
    refine ⟨⟨hking, hkingOwner, ?_⟩, hrook, hrookOwner, ?_⟩
    · rw [hcells]
      simp [restoredCell, Cell.settled_of_occupied hocc, Cell.presumedMoves, hking]
    · rw [hcells]
      exact if_pos hright

theorem Legible.restored_pawns {side : Side} (hkind : (q.board.get s).kind = .pawn)
    (howner : (q.board.get s).owner = some side) :
    (q.board.get s).moves = if s.row = side.homeRow then 0 else 1 := by
  have hmen := hp.restored_men hcells
  rw [hmen.kind] at hkind
  rw [hmen.owner] at howner
  have hocc : ¬ (p.board.get s).IsEmpty := Cell.occupied_of_kind hkind (by decide)
  have hon : s.OnBoard := onBoard_of_occupied hocc
  have hnoRook : ¬ ∃ right ∈ (ofPosition p).castling, right.rookHome = s := by
    intro prem
    obtain ⟨right, hright, rfl⟩ := prem
    cases (mem_castling.mp hright).2.1.symm.trans hkind
  have hrow : ((s.row.toNat : Nat) : Int) = s.row := Int.toNat_of_nonneg hon.1.1
  rw [hcells]
  simp only [restoredCell, if_neg hnoRook, Cell.settled_of_occupied hocc, Cell.presumedMoves,
    hkind, howner, Option.map_some, Option.some.injEq, hrow, eq_comm (a := side.homeRow)]

include hplies

theorem Legible.restored_doubled : JustDoubled q s ↔ JustDoubled p s := by
  have hmen := hp.restored_men hcells
  have hmove : q.toMove = p.toMove := by rw [toMove, toMove, hplies]
  constructor
  · intro h
    by_contra hno
    have hstamp := h.2.2.2.2
    have hclock := hp.clock
    rw [hcells, hplies] at hstamp
    simp only [restoredCell, if_neg hno, Cell.settled_lastMove] at hstamp
    omega
  · intro h
    have hkind := (hmen.kind s).trans h.1
    have howner := (hmen.owner s).trans h.2.1
    refine ⟨hkind, hmove ▸ howner, hmove ▸ h.2.2.1, ?_, ?_⟩
    · rw [hp.restored_pawns hcells hkind howner, if_neg]
      rw [h.2.2.1]
      cases p.toMove <;> decide
    · rw [hcells, hplies]
      exact if_pos h

omit hplies in
theorem Legible.restored_rights (right : CastlingRight) :
    HasRight p.board right ↔ HasRight q.board right := by
  rw [hasRight_iff_ready (b := q.board), hp.restored_ready hcells]
  constructor
  · intro hright
    exact ⟨⟨hright.1.1, hright.1.2.1⟩, right, rfl, rfl, hright⟩
  · intro prem
    obtain ⟨-, right', hside, hrook, hright⟩ := prem
    rwa [← CastlingRight.eq_of_rookHome hside hrook]

end Restored

theorem Legible.setup_akin (hp : p.Legible) :
    ∃ q, (ofPosition p).setup = .ok q ∧ Akin p q ∧ ∀ s, q.board.get s = p.restoredCell s := by
  obtain ⟨q, hsetup, ⟨hplies, hcapture⟩, hcells⟩ := hp.setup
  exact ⟨q, hsetup, ⟨hplies.symm, hcapture.symm, (hp.restored_men hcells).symm,
    fun _ => (hp.restored_doubled hplies hcells).symm⟩, hcells⟩

theorem Regular.ready_iff {side : Side} {king rook : Square} (hp : p.Regular) :
    Ready p.board side king rook ↔ p.KingAt side king ∧
      ∃ right : CastlingRight, right.side = side ∧ right.rookHome = rook ∧
        HasRight p.board right := by
  constructor
  · intro hready
    obtain ⟨right, rfl, rfl, rfl⟩ := hp.home side king rook hready
    exact ⟨⟨hready.1.1, hready.1.2.1⟩, right, rfl, rfl, hready⟩
  · intro prem
    obtain ⟨hking, right, rfl, rfl, hright⟩ := prem
    have hhome := (hp.kings _).unique ⟨hright.1.1, hright.1.2.1⟩ hking
    rw [← hhome]
    exact hright

/-- What is restored from the text of a regular position is regular, and plays alike. -/
theorem Regular.restored (hp : p.Regular) (hw : p.Writable) :
    ∃ q, Descriptor.position p.text = .ok q ∧ q.Regular ∧ Alike p q := by
  have hlegible := hp.legible
  obtain ⟨q, hsetup, hakin, hcells⟩ := hlegible.setup_akin
  have hposition := (hlegible.position_text hw).trans hsetup
  have hmen := hakin.men.symm
  have hready (side : Side) (king rook : Square) :
      Ready p.board side king rook ↔ Ready q.board side king rook :=
    hp.ready_iff.trans (hlegible.restored_ready hcells).symm
  have hlike : Alike p q := ⟨hakin.plies, hakin.lastCapture, hakin.men, hready, hakin.doubled⟩
  have hkings (side : Side) : q.OneKing side := by
    obtain ⟨k, hk, honly⟩ := hp.kings side
    have same (s : Square) : q.KingAt side s ↔ p.KingAt side s := by
      simp only [KingAt]
      rw [hmen.kind, hmen.owner]
    exact ⟨k, (same k).mpr hk, fun s hs => honly s ((same s).mp hs)⟩
  have hwaiting : q.inCheck (some q.toMove.opponent) = false := by
    rw [← hlike.toMove_eq, ← hlike.men.inCheck_eq]
    exact hp.waiting
  refine ⟨q, hposition, ⟨sound_of_text hposition hkings hwaiting, fun s => ?_,
    fun s side hkind howner => ⟨?_, ?_⟩, fun side king rook h => ?_, fun s t hs ht => ?_⟩, hlike⟩
  · rw [hmen.vacant, hmen.owner]
    exact hp.owned s
  · exact (hp.pawns s side (hmen.kind s ▸ hkind) (hmen.owner s ▸ howner)).1
  · rw [hlegible.restored_pawns hcells hkind howner]
    split_ifs with hrow <;> simp [hrow]
  · exact hp.home side king rook ((hready side king rook).mpr h)
  · exact hp.single s t ((hakin.doubled s).mpr hs) ((hakin.doubled t).mpr ht)

end Position
end Arbiter
