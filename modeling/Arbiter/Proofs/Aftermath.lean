import Arbiter.Proofs.Rulings

/-! # The board after a move

A move touches its own squares, the square of a pawn taken in passing, and the two squares of a
castling rook. For a move that the rules allow these do not collide (`apart_of_allows`), and so each
square holds after the move what it should: the piece that moved, the castled rook, nothing, or
what it held before.
-/

namespace Arbiter.Position

/-- The squares that a move with its effects may change. -/
def Touches (m : Move) (e : Effects) (s : Square) : Prop :=
  s = m.src ∨ s = m.dst ∨ e.captured = some s ∨
    ∃ hop, e.castle = some hop ∧ (s = hop.src ∨ s = hop.dst)

/-- What arrives on the target: the piece that moved, counted once more and perhaps promoted. -/
def arrival (p : Position) (m : Move) (e : Effects) : Cell :=
  let c := (p.board.get m.src).moved (p.plies + 1)
  { c with kind := e.promotion.getD c.kind }

/-- The squares of a move and of its effects are distinct squares of the board, and castling is
the only effect of its move. -/
structure Apart (m : Move) (e : Effects) : Prop where
  src : m.src.OnBoard
  dst : m.dst.OnBoard
  ne : m.src ≠ m.dst
  captured : ∀ s, e.captured = some s → s.OnBoard ∧ s ≠ m.src ∧ s ≠ m.dst
  castle : ∀ hop, e.castle = some hop →
    (hop.src.OnBoard ∧ hop.src ≠ m.src ∧ hop.src ≠ m.dst) ∧
      (hop.dst.OnBoard ∧ hop.dst ≠ m.src ∧ hop.dst ≠ m.dst)
  alone : e.castle.isSome → e.captured = none ∧ e.promotion = none

variable {p : Position} {m : Move} {player : Option Side} {e : Effects} {s : Square}

theorem Admissible.src_ne_dst (h : p.Admissible m player) : m.src ≠ m.dst := by
  obtain ⟨-, -, hocc, howner, htarget⟩ := h
  intro hsame
  rw [← hsame] at htarget
  exact htarget.elim hocc fun hne => hne howner

theorem onBoard_of_occupied (h : ¬ (p.board.get s).IsEmpty) : s.OnBoard := by
  by_contra hoff
  rw [Board.get_of_not_onBoard _ hoff] at h
  exact h rfl

section Castling

variable {corner : Square}

theorem Castles.sign (h : p.Castles m corner) :
    (m.dCol.sign = 1 ∧ m.dst.col = m.src.col + 2) ∨
      (m.dCol.sign = -1 ∧ m.dst.col = m.src.col - 2) := by
  have htwo := h.twoSteps
  simp only [Move.dCol] at htwo ⊢
  rcases Int.natAbs_eq (m.dst.col - m.src.col) with hcol | hcol
  · exact .inl ⟨by rw [hcol, htwo]; rfl, by omega⟩
  · exact .inr ⟨by rw [hcol, htwo]; rfl, by omega⟩

theorem Castles.dst_eq (h : p.Castles m corner) : m.dst = m.src.shift 0 (m.dCol.sign * 2) := by
  have hrow := h.sameRow
  have hsign := h.sign
  simp only [Square.ext_iff, Square.shift, Move.dRow] at *
  omega

theorem Castles.corner_spec (h : p.Castles m corner) :
    ∃ k : Nat, k < 7 ∧ corner = m.src.shift 0 (m.dCol.sign * (k + 1 : Nat)) ∧
      ∀ j : Nat, j < k → (p.board.get (m.src.shift 0 (m.dCol.sign * (j + 1 : Nat)))).IsEmpty :=
  (firstAlongRow_eq_some_iff.mp h.found).2

theorem Castles.corner_occupied (h : p.Castles m corner) : ¬ (p.board.get corner).IsEmpty :=
  (firstAlongRow_eq_some_iff.mp h.found).1

theorem Castles.corner_ne_src (h : p.Castles m corner) : corner ≠ m.src := by
  intro hsame
  have hking := h.king
  rw [← hsame, h.rook] at hking
  cases hking

theorem Castles.corner_ne_dst (h : p.Castles m corner) (hadm : p.Admissible m player) :
    corner ≠ m.dst := by
  intro same
  subst same
  exact hadm.target.elim h.corner_occupied fun hne => hne (h.rookOwner.trans hadm.owner)

theorem Castles.kingPath_onBoard (h : p.Castles m corner) (hadm : p.Admissible m player) :
    ∀ s ∈ kingPath m, s.OnBoard := by
  intro s hs
  obtain ⟨k, hk, rfl⟩ := List.mem_map.mp hs
  have hk3 : k < 3 := List.mem_range.mp hk
  have hsrc := hadm.src_onBoard
  have hdst := hadm.dst_onBoard
  have hrow := h.sameRow
  simp only [Square.OnBoard, Square.shift, Move.dRow] at *
  rcases h.sign with ⟨hsign, hcol⟩ | ⟨hsign, hcol⟩ <;> rw [hsign] <;> omega

theorem Castles.apart (h : p.Castles m corner) (hadm : p.Admissible m player) :
    Apart m { castle := some (rookHop m corner) } where
  src := hadm.src_onBoard
  dst := hadm.dst_onBoard
  ne := hadm.src_ne_dst
  captured := by simp
  castle := by
    rintro _ ⟨⟩
    refine ⟨⟨onBoard_of_occupied h.corner_occupied, h.corner_ne_src, h.corner_ne_dst hadm⟩, ?_⟩
    have hsrc := hadm.src_onBoard
    have hdst := hadm.dst_onBoard
    have hsign := h.sign
    simp only [rookHop, Square.shift, Square.OnBoard, ne_eq, Square.ext_iff] at *
    omega
  alone := fun _ => ⟨rfl, rfl⟩

end Castling

theorem apart_of_pawnGoes {captured : Option Square} {choice : Option Kind}
    (hadm : p.Admissible m player) (way : p.PawnGoes m captured) :
    Apart m { captured, promotion := choice } where
  src := hadm.src_onBoard
  dst := hadm.dst_onBoard
  ne := hadm.src_ne_dst
  captured := by
    rintro s rfl
    cases way with
    | pass hway =>
        obtain ⟨hcol, hrow⟩ := hway
        have hforward : Side.forward (p.mover m) = -1 ∨ Side.forward (p.mover m) = 1 := by
          unfold Side.forward
          split <;> simp
        have hsrc := hadm.src_onBoard
        have hdst := hadm.dst_onBoard
        simp only [passedSquare, Square.OnBoard, Move.dCol, Move.dRow, ne_eq,
          Square.ext_iff] at *
        omega
  castle := by simp
  alone := by simp

/-- The squares of a move that the rules allow do not collide. -/
theorem apart_of_allows (hadm : p.Admissible m player) (h : p.Allows m e) : Apart m e := by
  cases h with
  | strike => exact ⟨hadm.src_onBoard, hadm.dst_onBoard, hadm.src_ne_dst, by simp, by simp, by simp⟩
  | castle way => exact way.apart hadm
  | pawn _ _ way => exact apart_of_pawnGoes hadm way

theorem kind_of_mem_promotions {k : Kind} (h : k ∈ Kind.promotions) :
    k ≠ .empty ∧ k ≠ .pawn ∧ k ≠ .king := by
  revert k
  decide

theorem Allows.arrival_kind (h : p.Allows m e) :
    (p.arrival m e).kind = (p.board.get m.src).kind ∧
        ((p.board.get m.src).kind = .pawn → m.dst.row ≠ Side.lastRow (p.mover m)) ∨
      ((p.board.get m.src).kind = .pawn ∧ m.dst.row = Side.lastRow (p.mover m)) ∧
        (p.arrival m e).kind ∈ Kind.promotions := by
  cases h with
  | strike piece => exact .inl ⟨rfl, fun h => absurd h piece⟩
  | castle way => exact .inl ⟨rfl, fun h => by cases way.king.symm.trans h⟩
  | pawn piece _ _ becomes =>
      unfold Becomes at becomes
      split_ifs at becomes with hrow
      · obtain ⟨kind, hkind, -, rfl⟩ := becomes
        exact .inr ⟨⟨piece, hrow⟩, hkind⟩
      · subst becomes
        exact .inl ⟨rfl, fun _ => hrow⟩

theorem Allows.arrival_occupied (h : p.Allows m e) (hadm : p.Admissible m player) :
    ¬ (p.arrival m e).IsEmpty := by
  rcases h.arrival_kind with ⟨hkind, -⟩ | ⟨-, hkind⟩
  · rw [Cell.IsEmpty, hkind]
    exact hadm.occupied
  · exact (kind_of_mem_promotions hkind).1

theorem Allows.pawn_arrives (h : p.Allows m e) (hpawn : (p.arrival m e).kind = .pawn) :
    (p.board.get m.src).kind = .pawn ∧ m.dst.row ≠ Side.lastRow (p.mover m) := by
  rcases h.arrival_kind with ⟨hkind, hrow⟩ | ⟨-, hkind⟩
  · have hsrc := hkind.symm.trans hpawn
    exact ⟨hsrc, hrow hsrc⟩
  · exact absurd hpawn (kind_of_mem_promotions hkind).2.1

theorem Allows.king_arrives (h : p.Allows m e) :
    (p.arrival m e).kind = .king ↔ (p.board.get m.src).kind = .king := by
  rcases h.arrival_kind with ⟨hkind, -⟩ | ⟨⟨hpawn, -⟩, hkind⟩
  · rw [hkind]
  · simp [hpawn, (kind_of_mem_promotions hkind).2.2]

theorem Allows.castles (h : p.Allows m e) {hop : Move} (hhop : e.castle = some hop) :
    p.Castles m hop.src ∧ hop = rookHop m hop.src := by
  cases h with
  | strike => cases hhop
  | pawn => cases hhop
  | castle way =>
      cases hhop
      exact ⟨way, rfl⟩

theorem Allows.hop_rook (h : p.Allows m e) {hop : Move} (hhop : e.castle = some hop) :
    (p.board.get hop.src).kind = .rook ∧ (p.board.get hop.src).owner = p.mover m :=
  ⟨(h.castles hhop).1.rook, (h.castles hhop).1.rookOwner⟩

theorem Allows.captured_pawn (h : p.Allows m e) (hcaptured : e.captured = some s) :
    (p.board.get s).kind = .pawn := by
  cases h with
  | strike => cases hcaptured
  | castle => cases hcaptured
  | pawn _ _ way =>
      cases way with
      | advance => cases hcaptured
      | take => cases hcaptured
      | pass _ _ victim =>
          cases hcaptured
          exact victim.1

theorem Allows.pawn_ahead (h : p.Allows m e) (hpawn : (p.board.get m.src).kind = .pawn) :
    m.dRow = Side.forward (p.mover m) ∨ m.dRow = 2 * Side.forward (p.mover m) := by
  cases h with
  | strike piece => exact absurd hpawn piece
  | castle way => cases way.king.symm.trans hpawn
  | pawn _ _ way =>
      cases way with
      | advance hway =>
          obtain ⟨-, -, hdst | ⟨hrow, -⟩⟩ := hway
          · have : m.dst.row = m.src.row + Side.forward (p.mover m) := congrArg Square.row hdst
            left
            simp only [Move.dRow]
            omega
          · exact .inr hrow
      | take hway => exact .inl hway.2
      | pass hway => exact .inl hway.2

theorem get_play_of_not_touches (h : ¬ Touches m e s) :
    (p.play m e).board.get s = p.board.get s := by
  simp only [Touches, not_or, not_exists, not_and] at h
  obtain ⟨hsrc, hdst, hcaptured, hcastle⟩ := h
  obtain ⟨captured, castle, choice⟩ := e
  have hrelocate (b : Board) (src dst : Square) (now : Int) (h₁ : s ≠ src) (h₂ : s ≠ dst) :
      (b.relocate src dst now).get s = b.get s := by
    rw [Board.relocate, Board.get_put_of_ne _ h₂, Board.get_put_of_ne _ h₁]
  have hremove : (captured.elim p.board fun t => p.board.put t .vacant).get s =
      p.board.get s := by
    cases captured with
    | none => rfl
    | some t => exact Board.get_put_of_ne _ (fun h => hcaptured (congrArg some h.symm)) _
  have hpromote (b : Board) : (choice.elim b fun kind => b.promote m.dst kind).get s = b.get s := by
    cases choice with
    | none => rfl
    | some kind => exact Board.get_put_of_ne _ hdst _
  simp only [play, boardAfter]
  cases castle with
  | none => rw [Option.elim_none, hpromote, hrelocate _ _ _ _ hsrc hdst, hremove]
  | some hop =>
      obtain ⟨h₁, h₂⟩ := hcastle hop rfl
      rw [Option.elim_some, hrelocate _ _ _ _ h₁ h₂, hpromote, hrelocate _ _ _ _ hsrc hdst, hremove]

namespace Apart

theorem get_arrived (h : Apart m e) (s : Square) :
    (boardAfter p.board m { e with castle := none } (p.plies + 1)).get s =
      if s = m.dst then p.arrival m e
      else if s = m.src ∨ e.captured = some s then .vacant
      else p.board.get s := by
  obtain ⟨captured, castle, choice⟩ := e
  have hremove (t : Square) : (captured.elim p.board fun u => p.board.put u .vacant).get t =
      if captured = some t then .vacant else p.board.get t := by
    cases captured with
    | none => rfl
    | some u =>
        rw [Option.elim_some, Board.get_put _ (h.captured u rfl).1]
        simp only [Option.some.injEq, eq_comm]
  have hkept : ¬ captured = some m.src := fun hc => (h.captured m.src hc).2.1 rfl
  have hrelocate : ((captured.elim p.board fun u => p.board.put u .vacant).relocate m.src m.dst
      (p.plies + 1)).get s = if s = m.dst then (p.board.get m.src).moved (p.plies + 1)
        else if s = m.src ∨ captured = some s then .vacant else p.board.get s := by
    rw [Board.relocate, Board.get_put _ h.dst, Board.get_put _ h.src, hremove, hremove,
      if_neg hkept]
    grind
  simp only [boardAfter, Option.elim_none]
  cases choice with
  | none => exact hrelocate
  | some kind =>
      rw [Option.elim_some, Board.promote, Board.get_put _ h.dst]
      by_cases hs : s = m.dst
      · subst hs
        simp only [if_true] at hrelocate ⊢
        rw [hrelocate]
        rfl
      · simpa only [if_neg hs] using hrelocate

theorem get_play_of_castle_eq_none (h : Apart m e) (hnone : e.castle = none) (s : Square) :
    (p.play m e).board.get s =
      if s = m.dst then p.arrival m e
      else if s = m.src ∨ e.captured = some s then .vacant
      else p.board.get s := by
  rw [← h.get_arrived, ← hnone]
  rfl

theorem get_play_of_castle_eq_some (h : Apart m e) {hop : Move} (hsome : e.castle = some hop)
    (s : Square) :
    (p.play m e).board.get s =
      if s = hop.dst then (p.board.get hop.src).moved (p.plies + 1)
      else if s = m.dst then p.arrival m e
      else if s = m.src ∨ s = hop.src then .vacant
      else p.board.get s := by
  obtain ⟨⟨hsrc, hsrc₁, hsrc₂⟩, hdst, -, -⟩ := h.castle hop hsome
  obtain ⟨hcaptured, hchoice⟩ := h.alone (by simp [hsome])
  have hplay : (p.play m e).board =
      (boardAfter p.board m { e with castle := none } (p.plies + 1)).relocate hop.src hop.dst
        (p.plies + 1) := by
    simp only [play, boardAfter, hsome, Option.elim_some, Option.elim_none]
  have hcorner : ¬ (hop.src = m.src ∨ e.captured = some hop.src) := by
    simp [hsrc₁, hcaptured]
  rw [hplay, Board.relocate, Board.get_put _ hdst, Board.get_put _ hsrc, h.get_arrived,
    h.get_arrived, if_neg hsrc₂, if_neg hcorner, hcaptured]
  grind

theorem get_play_dst (h : Apart m e) : (p.play m e).board.get m.dst = p.arrival m e := by
  cases hcastle : e.castle with
  | none => simp [h.get_play_of_castle_eq_none hcastle]
  | some hop =>
      have hne : m.dst ≠ hop.dst := (h.castle hop hcastle).2.2.2.symm
      simp [h.get_play_of_castle_eq_some hcastle, hne]

theorem get_play_hop (h : Apart m e) {hop : Move} (hsome : e.castle = some hop) :
    (p.play m e).board.get hop.dst = (p.board.get hop.src).moved (p.plies + 1) := by
  simp [h.get_play_of_castle_eq_some hsome]

/-- On every square stands after a move the piece that moved, the castled rook, nothing, or, if the
move did not touch it, what stood there before. -/
theorem get_play_cases (h : Apart m e) (s : Square) :
    (s = m.dst ∧ (p.play m e).board.get s = p.arrival m e) ∨
      (∃ hop, e.castle = some hop ∧ s = hop.dst ∧
        (p.play m e).board.get s = (p.board.get hop.src).moved (p.plies + 1)) ∨
      (Touches m e s ∧ (p.play m e).board.get s = .vacant) ∨
      (¬ Touches m e s ∧ (p.play m e).board.get s = p.board.get s) := by
  by_cases hdst : s = m.dst
  · subst hdst
    exact .inl ⟨rfl, h.get_play_dst⟩
  by_cases htouches : Touches m e s
  · cases hcastle : e.castle with
    | none =>
        refine .inr (.inr (.inl ⟨htouches, ?_⟩))
        rw [h.get_play_of_castle_eq_none hcastle, if_neg hdst, if_pos]
        rcases htouches with hs | hs | hs | ⟨hop, hs, -⟩
        · exact .inl hs
        · exact absurd hs hdst
        · exact .inr hs
        · cases hcastle.symm.trans hs
    | some hop =>
        by_cases hhop : s = hop.dst
        · subst hhop
          exact .inr (.inl ⟨hop, rfl, rfl, h.get_play_hop hcastle⟩)
        refine .inr (.inr (.inl ⟨htouches, ?_⟩))
        rw [h.get_play_of_castle_eq_some hcastle, if_neg hhop, if_neg hdst, if_pos]
        rcases htouches with hs | hs | hs | ⟨hop', hs, hs' | hs'⟩
        · exact .inl hs
        · exact absurd hs hdst
        · rw [(h.alone (by simp [hcastle])).1] at hs
          cases hs
        · cases hcastle.symm.trans hs
          exact .inr hs'
        · cases hcastle.symm.trans hs
          exact absurd hs' hhop
  · exact .inr (.inr (.inr ⟨htouches, get_play_of_not_touches htouches⟩))

/-- What holds of every square, and still holds of what a move puts down or leaves behind, holds of
every square after the move. -/
theorem forall_cells (h : Apart m e) (P : Square → Cell → Prop)
    (kept : ∀ s, P s (p.board.get s)) (vacated : ∀ s, P s .vacant)
    (arrives : P m.dst (p.arrival m e))
    (hops : ∀ hop, e.castle = some hop → P hop.dst ((p.board.get hop.src).moved (p.plies + 1))) :
    ∀ s, P s ((p.play m e).board.get s) := by
  intro s
  rcases h.get_play_cases (p := p) s with ⟨rfl, hget⟩ | ⟨hop, hhop, rfl, hget⟩ | ⟨-, hget⟩ |
    ⟨-, hget⟩ <;> rw [hget]
  · exact arrives
  · exact hops hop hhop
  · exact vacated s
  · exact kept s

theorem stamps_play (h : Apart m e) (hclock : 0 ≤ p.plies)
    (hstamps : ∀ s, (p.board.get s).lastMove ≤ p.plies) :
    ∀ s, ((p.play m e).board.get s).lastMove ≤ (p.play m e).plies := by
  refine h.forall_cells (fun _ c => c.lastMove ≤ p.plies + 1) (fun s => ?_) (fun _ => ?_) ?_
    fun hop _ => ?_
  · exact (hstamps s).trans (by omega)
  · exact (by omega : (-1 : Int) ≤ p.plies + 1)
  · exact le_rfl
  · exact le_rfl

theorem counts_play (h : Apart m e) (hcounts : ∀ s, 0 ≤ (p.board.get s).moves) :
    ∀ s, 0 ≤ ((p.play m e).board.get s).moves := by
  refine h.forall_cells (fun _ c => 0 ≤ c.moves) hcounts (fun _ => le_rfl) ?_ fun hop _ => ?_
  · exact Int.add_nonneg (hcounts m.src) (by decide)
  · exact Int.add_nonneg (hcounts hop.src) (by decide)

end Apart

theorem Allows.owned_play {side : Side} (h : p.Allows m e) (hadm : p.Admissible m (some side))
    (howned : ∀ s, (p.board.get s).IsEmpty ↔ (p.board.get s).owner = none) (s : Square) :
    ((p.play m e).board.get s).IsEmpty ↔ ((p.play m e).board.get s).owner = none := by
  have hmover : (p.board.get m.src).owner = some side := hadm.owner
  have holds {c : Cell} (hkind : c.kind ≠ .empty) (howner : c.owner = some side) :
      c.IsEmpty ↔ c.owner = none :=
    iff_of_false hkind (by simp [howner])
  refine (apart_of_allows hadm h).forall_cells (fun _ c => c.IsEmpty ↔ c.owner = none) howned
    (fun _ => iff_of_true rfl rfl) ?_ (fun hop hhop => ?_) s
  · exact holds (h.arrival_occupied hadm) hmover
  · obtain ⟨hkind, howner⟩ := h.hop_rook hhop
    exact holds (c := (p.board.get hop.src).moved (p.plies + 1))
      (Cell.occupied_of_kind hkind (by decide)) (howner.trans hmover)

end Arbiter.Position
