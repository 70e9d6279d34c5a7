import Arbiter.Descriptor.Setup
import Mathlib.Algebra.Order.Ring.Int
import Mathlib.Tactic.SplitIfs

/-! # What setting up a position establishes

A descriptor is set up in three steps: the placement is read, the rooks of the castling rights are
marked, and the pawn that may be taken in passing is marked. Each step is described by an equation
here, and `setup_eq_ok` puts them together.
-/

namespace Arbiter

theorem Board.forall_get {b : Board} {P : Square → Cell → Prop} (hvacant : ∀ s, P s .vacant)
    (h : ∀ s ∈ Square.all, P s (b.get s)) (s : Square) : P s (b.get s) := by
  by_cases hs : s.OnBoard
  · exact h s (Square.mem_all.mpr hs)
  · rw [get_of_not_onBoard _ hs]
    exact hvacant s

theorem Cell.presumedMoves_nonneg (c : Cell) (row : Nat) : 0 ≤ c.presumedMoves row := by
  unfold presumedMoves
  split
  · decide
  · split_ifs <;> decide
  · decide

namespace Placement

/-- What reading puts on a square of a row: nothing, or a piece of a player with its presumed
number of moves. -/
def Fresh (row : Nat) (c : Cell) : Prop :=
  c = .vacant ∨
    ((c.kind ≠ .empty ∧ c.owner.isSome) ∧ c.moves = c.presumedMoves row ∧ c.lastMove = -1)

theorem ofLetter?_eq_some {l : Char} {c : Cell} (h : Cell.ofLetter? l = some c) :
    (c.kind ≠ .empty ∧ c.owner.isSome) ∧ c.lastMove = -1 := by
  simp only [Cell.ofLetter?, Option.bind_eq_bind, Option.bind_eq_some_iff] at h
  obtain ⟨lower, -, kind, hkind, hc⟩ := h
  cases hc
  refine ⟨⟨?_, rfl⟩, rfl⟩
  intro same
  subst same
  cases Kind.ofLetter?_eq_some_iff.mp hkind

/-- A row is read character by character: a digit stands for a run of vacant squares that fits into
the row, a letter for a piece on the next square. -/
theorem readCells_cons_eq_ok {row : Nat} {text : String} {col : Nat} {l : Char} {cs : List Char}
    {cells : List Cell} :
    readCells row text col (l :: cs) = .ok cells ↔
      (l.isDigit = true ∧ col + (l.toNat - 48) ≤ 8 ∧
        ∃ rest, readCells row text (col + (l.toNat - 48)) cs = .ok rest ∧
          cells = List.replicate (l.toNat - 48) .vacant ++ rest) ∨
      (l.isDigit = false ∧ col < 8 ∧ ∃ piece, Cell.ofLetter? l = some piece ∧
        ∃ rest, readCells row text (col + 1) cs = .ok rest ∧
          cells = { piece with moves := piece.presumedMoves row } :: rest) := by
  have map_eq_ok {α β : Type} {x : Except Error α} {f : α → β} {b : β} :
      x.map f = .ok b ↔ ∃ a, x = .ok a ∧ b = f a := by
    cases x <;> simp [Except.map, eq_comm]
  rw [readCells]
  cases hdigit : l.isDigit with
  | true =>
      by_cases hrun : 8 < col + (l.toNat - 48)
      · simp [hrun, Nat.not_le.mpr hrun]
      · simp [hrun, map_eq_ok, Nat.not_lt.mp hrun]
  | false =>
      cases hpiece : Cell.ofLetter? l with
      | none => simp
      | some piece =>
          by_cases hcol : 8 ≤ col
          · simp [hcol, Nat.not_lt.mpr hcol]
          · simp [hcol, map_eq_ok, Nat.not_le.mp hcol]

theorem fresh_of_readCells {row : Nat} {text : String} {cs : List Char} {col : Nat}
    {cells : List Cell} (h : readCells row text col cs = .ok cells) :
    ∀ c ∈ cells, Fresh row c := by
  induction cs generalizing col cells with
  | nil =>
      unfold readCells at h
      split_ifs at h
      cases h
      simp
  | cons l cs ih =>
      rcases readCells_cons_eq_ok.mp h with ⟨-, -, rest, hrest, rfl⟩ |
        ⟨-, -, piece, hpiece, rest, hrest, rfl⟩
      · intro c hc
        rcases List.mem_append.mp hc with hc | hc
        · exact .inl (List.eq_of_mem_replicate hc)
        · exact ih hrest c hc
      · obtain ⟨hsome, hstamp⟩ := ofLetter?_eq_some hpiece
        exact List.forall_mem_cons.mpr ⟨.inr ⟨hsome, rfl, hstamp⟩, ih hrest⟩

theorem fresh_of_readRows {texts : List (List Char)} {row : Nat} {rows : List (List Cell)}
    (h : readRows row texts = .ok rows) :
    ∀ i cells, rows[i]? = some cells → ∀ c ∈ cells, Fresh (row + i) c := by
  induction texts generalizing row rows with
  | nil =>
      cases h
      simp
  | cons cs texts ih =>
      simp only [readRows, bind, Except.bind] at h
      cases hcells : readCells row (String.ofList cs) 0 cs with
      | error e => simp [hcells] at h
      | ok cells =>
          cases hrest : readRows (row + 1) texts with
          | error e => simp [hcells, hrest] at h
          | ok rest =>
              simp only [hcells, hrest] at h
              cases h
              intro i cells' hi c hc
              cases i with
              | zero =>
                  cases hi
                  exact fresh_of_readCells hcells c hc
              | succ i =>
                  rw [← Nat.succ_add_eq_add_succ]
                  exact ih hrest i cells' hi c hc

theorem fresh_of_read {text : String} {b : Board} (h : read text = .ok b) {s : Square}
    (hs : s.OnBoard) : Fresh s.row.toNat (b.get s) := by
  unfold read at h
  simp only at h
  split_ifs at h
  cases hrows : readRows 0 (Text.fields '/' text.toList) with
  | error e => simp [hrows, Except.map] at h
  | ok rows =>
      simp only [hrows, Except.map, Except.ok.injEq] at h
      subst h
      rw [ofRows, Board.get_ofFn _ hs]
      cases hrow : rows[s.row.toNat]? with
      | none => exact .inl rfl
      | some cells =>
          cases hcell : cells[s.col.toNat]? with
          | none => exact .inl (by simp [hcell])
          | some c =>
              have := fresh_of_readRows hrows _ _ hrow c (List.mem_of_getElem? hcell)
              simpa [hcell] using this

end Placement

namespace Descriptor

/-- The rook of a right stands at home. -/
def RookHome (b : Board) (right : CastlingRight) : Prop :=
  (b.get right.rookHome).kind = .rook ∧ (b.get right.rookHome).owner = some right.side

/-- The board on which the rooks of some rights have not moved. -/
def rested (b : Board) (rights : List CastlingRight) : Board :=
  .ofFn fun s =>
    if ∃ right ∈ rights, right.rookHome = s then { b.get s with moves := 0 } else b.get s

theorem rookHome_onBoard (right : CastlingRight) : right.rookHome.OnBoard := by
  rcases right with ⟨_ | _, _ | _⟩ <;> decide

theorem get_rested (b : Board) (rights : List CastlingRight) (s : Square) :
    (rested b rights).get s =
      if ∃ right ∈ rights, right.rookHome = s then { b.get s with moves := 0 } else b.get s := by
  by_cases hs : s.OnBoard
  · exact Board.get_ofFn _ hs
  · rw [Board.get_of_not_onBoard _ hs, Board.get_of_not_onBoard _ hs, if_neg]
    intro prem
    obtain ⟨right, -, rfl⟩ := prem
    exact hs (rookHome_onBoard right)

theorem foldlM_readyRook {rights : List CastlingRight} {b b' : Board} :
    rights.foldlM readyRook b = .ok b' ↔
      (∀ right ∈ rights, RookHome b right) ∧ b' = rested b rights := by
  induction rights generalizing b with
  | nil =>
      have hnil : rested b [] = b := Board.ext_get fun s _ => by simp [get_rested]
      simp only [List.foldlM_nil, hnil, List.not_mem_nil, false_implies, implies_true, true_and]
      exact ⟨fun h => (Except.ok.inj h).symm, fun h => congrArg Except.ok h.symm⟩
  | cons right rights ih =>
      rw [List.foldlM_cons]
      by_cases hrook : RookHome b right
      · have hready : readyRook b right =
            .ok (b.put right.rookHome { b.get right.rookHome with moves := 0 }) := if_pos hrook
        have hget (s : Square) :
            (b.put right.rookHome { b.get right.rookHome with moves := 0 }).get s =
              if s = right.rookHome then { b.get s with moves := 0 } else b.get s := by
          rw [Board.get_put _ (rookHome_onBoard right)]
          by_cases hs : s = right.rookHome
          · rw [if_pos hs, if_pos hs, hs]
          · rw [if_neg hs, if_neg hs]
        have hhome (r : CastlingRight) :
            RookHome (b.put right.rookHome { b.get right.rookHome with moves := 0 }) r ↔
              RookHome b r := by
          simp only [RookHome]
          rw [hget]
          split_ifs <;> rfl
        have hboard : rested (b.put right.rookHome { b.get right.rookHome with moves := 0 }) rights
            = rested b (right :: rights) := by
          apply Board.ext_get
          intro s _
          simp only [get_rested, hget, List.mem_cons, exists_eq_or_imp, eq_comm (a := s)]
          by_cases h₁ : right.rookHome = s <;> by_cases h₂ : ∃ r ∈ rights, r.rookHome = s <;>
            simp [h₁, h₂]
        rw [hready]
        apply ih.trans
        rw [hboard, List.forall_mem_cons, and_iff_right hrook]
        simp only [hhome]
      · have hready : readyRook b right = .error (.noRook right) := if_neg hrook
        rw [hready]
        refine iff_of_false (fun h => by cases h) fun h => hrook (h.1 right List.mem_cons_self)

/-- The landing square of the double step behind which a square may be passed over, if the square
is named with the rank that it must have. -/
structure PassedOver (d : Descriptor) (b : Board) (s : Square) (side : Side) : Prop where
  passing : d.passing = some s
  player : d.toMove = some side
  named : s.HasName
  rank : (Numeral.ofInt (8 - s.row)).toList.head? = some (passingRank side.opponent)
  onBoard : (s.shift (Side.forward (some side.opponent)) 0).OnBoard
  pawn : (b.get (s.shift (Side.forward (some side.opponent)) 0)).kind = .pawn ∧
    (b.get (s.shift (Side.forward (some side.opponent)) 0)).owner = some side.opponent

theorem readyPawn_eq_ok {d : Descriptor} {b b' : Board} :
    d.readyPawn b = .ok b' ↔ (d.passing = none ∧ b' = b) ∨ ∃ s side, PassedOver d b s side ∧
      b' = b.put (s.shift (Side.forward (some side.opponent)) 0)
        { b.get (s.shift (Side.forward (some side.opponent)) 0) with lastMove := d.plies } := by
  unfold readyPawn
  constructor
  · intro h
    split at h
    · rename_i hnone
      exact .inl ⟨hnone, (Except.ok.inj h).symm⟩
    · rename_i s hsome
      split_ifs at h with hname
      split at h
      · cases h
      · rename_i side hside
        simp only at h
        split_ifs at h with hrank hoff hpawn
        exact .inr ⟨s, side, ⟨hsome, hside, hname, not_not.mp hrank, hoff, hpawn⟩,
          (Except.ok.inj h).symm⟩
  · intro prem
    rcases prem with ⟨hnone, rfl⟩ | ⟨s, side, ⟨hsome, hside, hname, hrank, hon, hpawn⟩, rfl⟩
    · rw [hnone]
    · rw [hsome]
      simp only [not_true_eq_false, if_false, hname, hside, hrank, hon, hpawn, and_self, if_true,
        ne_eq]

/-- Setting up a descriptor: the board that its placement describes, with rooks and pawn marked, and
the clocks that its counters stand for. -/
theorem setup_eq_ok {d : Descriptor} {p : Position} :
    d.setup = .ok p ↔ ∃ b b', Placement.read d.placement = .ok b ∧
      (∀ right ∈ d.castling, RookHome b right) ∧ d.readyPawn (rested b d.castling) = .ok b' ∧
      p = { board := b', plies := d.plies, lastCapture := d.plies - d.quietPlies } := by
  cases hread : Placement.read d.placement with
  | error e =>
      have hfail : d.setup = .error (.placement e) := by
        rw [setup, hread]
        rfl
      simp [hfail]
  | ok b =>
      have hrest : d.setup = (d.castling.foldlM readyRook b).bind fun b => d.readyPawn b |>.bind
          fun b => .ok { board := b, plies := d.plies, lastCapture := d.plies - d.quietPlies } := by
        rw [setup, hread]
        rfl
      simp only [hrest, Except.ok.injEq, exists_and_left, exists_eq_left']
      cases hrooks : d.castling.foldlM readyRook b with
      | error e =>
          have hno : ¬ ∀ right ∈ d.castling, RookHome b right := fun h => by
            cases hrooks.symm.trans (foldlM_readyRook.mpr ⟨h, rfl⟩)
          simp [hno, Except.bind]
      | ok b₁ =>
          obtain ⟨hhome, rfl⟩ := foldlM_readyRook.mp hrooks
          rw [and_iff_right hhome]
          cases hpawn : d.readyPawn (rested b d.castling) with
          | error e => simp [hpawn, Except.bind]
          | ok b' => simp [hpawn, Except.bind, eq_comm]

theorem ofParts_eq_ok {text : String} {parts : List (List Char)} {d : Descriptor} :
    ofParts text parts = .ok d ↔ ∃ placement player rights square counters side quietPlies turn,
      parts = placement :: player :: rights :: square :: counters ∧
      (counters.length ≤ 2 ∧ toMove? player = some side ∧ CastlingRight.isField rights = true ∧
        isPassingField square = true ∧ counters.all Numeral.isNumeral = true) ∧
      (readCounter counters 0 0 = .ok quietPlies ∧ readCounter counters 1 1 = .ok turn ∧
        1 ≤ turn) ∧
      d = { placement := String.ofList placement, toMove := some side
            castling := CastlingRight.read rights, passing := readPassing square
            quietPlies := (quietPlies : Nat), turn := (turn : Nat) } := by
  simp only [ofParts]
  constructor
  · intro h
    split at h
    · rename_i placement player rights square counters
      cases hside : toMove? player with
      | none =>
          simp only [hside] at h
          split_ifs at h
      | some side =>
          simp only [hside, bind, Except.bind] at h
          split_ifs at h with hlength hrights hsquare hcounters
          cases hquiet : readCounter counters 0 0 with
          | error e => simp [hquiet] at h
          | ok quietPlies =>
              cases hturn : readCounter counters 1 1 with
              | error e => simp [hquiet, hturn] at h
              | ok turn =>
                  simp only [hquiet, hturn] at h
                  split_ifs at h with hpos
                  exact ⟨placement, player, rights, square, counters, side, quietPlies, turn, rfl,
                    ⟨by omega, hside, hrights, hsquare, hcounters⟩, ⟨hquiet, hturn, by omega⟩,
                    (Except.ok.inj h).symm⟩
    · cases h
  · rintro ⟨placement, player, rights, square, counters, side, quietPlies, turn, rfl,
      ⟨hlength, hside, hrights, hsquare, hcounters⟩, ⟨hquiet, hturn, hpos⟩, rfl⟩
    have h₁ : ¬ 2 < counters.length := by omega
    have h₂ : ¬ turn < 1 := by omega
    simp only [h₁, hside, hrights, hsquare, hcounters, hquiet, hturn, h₂, bind, Except.bind,
      if_false, not_true_eq_false]

theorem counters_of_read {text : String} {d : Descriptor} (h : read text = .ok d) :
    0 ≤ d.quietPlies ∧ 1 ≤ d.turn := by
  obtain ⟨_, _, _, _, _, _, quietPlies, turn, -, -, ⟨-, -, hpos⟩, rfl⟩ := ofParts_eq_ok.mp h
  exact ⟨Int.natCast_nonneg _, Int.ofNat_le.mpr hpos⟩

theorem plies_nonneg {text : String} {d : Descriptor} (h : read text = .ok d) : 0 ≤ d.plies := by
  have := (counters_of_read h).2
  simp only [plies]
  split_ifs <;> omega

/-- The pieces that a descriptor puts on a square: as its placement says, but a rook at the home of a
right has not moved, and a pawn that may be taken in passing moved on the latest ply. -/
structure SetUp (d : Descriptor) (s : Square) (c : Cell) : Prop where
  owned : c.kind ≠ .empty ∧ c.owner.isSome
  moves : c.moves = c.presumedMoves s.row.toNat ∨
    c.moves = 0 ∧ ∃ right ∈ d.castling, right.rookHome = s
  stamp : c.lastMove = -1 ∨ c.lastMove = d.plies

theorem clocks_of_setup {d : Descriptor} {p : Position} (h : d.setup = .ok p) :
    p.plies = d.plies ∧ p.lastCapture = d.plies - d.quietPlies := by
  obtain ⟨b, b', -, -, -, rfl⟩ := setup_eq_ok.mp h
  exact ⟨rfl, rfl⟩

theorem counters_of_setup {d : Descriptor} {p : Position} (h : d.setup = .ok p) :
    p.quietPlies = d.quietPlies ∧ p.turn = d.turn := by
  obtain ⟨hplies, hcapture⟩ := clocks_of_setup h
  constructor
  · unfold Position.quietPlies
    omega
  · unfold Position.turn
    rw [hplies, plies]
    split_ifs <;> omega

theorem toMove_of_setup {d : Descriptor} {p : Position} {side : Side} (h : d.setup = .ok p)
    (hplayer : d.toMove = some side) : p.toMove = side := by
  unfold Position.toMove
  rw [(clocks_of_setup h).1, plies, hplayer]
  cases side with
  | white => simp only [if_true, show (2 * (d.turn - 1) + 0) % 2 = 0 by omega]
  | black =>
      simp only [Option.some.injEq, reduceCtorEq, if_false,
        show (2 * (d.turn - 1) + 1) % 2 ≠ 0 by omega]

theorem setUp_of_setup {d : Descriptor} {p : Position} (h : d.setup = .ok p) {s : Square}
    (hs : s.OnBoard) : p.board.get s = .vacant ∨ SetUp d s (p.board.get s) := by
  obtain ⟨b, b', hread, -, hpawn, rfl⟩ := setup_eq_ok.mp h
  have hrested : (rested b d.castling).get s = .vacant ∨
      SetUp d s ((rested b d.castling).get s) := by
    rw [get_rested]
    rcases Placement.fresh_of_read hread hs with hvacant | ⟨howned, hmoves, hstamp⟩
    · rw [hvacant]
      exact .inl (ite_self _)
    · split_ifs with hright
      · exact .inr ⟨howned, .inr ⟨rfl, hright⟩, .inl hstamp⟩
      · exact .inr ⟨howned, .inl hmoves, .inl hstamp⟩
  rcases readyPawn_eq_ok.mp hpawn with ⟨-, rfl⟩ | ⟨t, side, hpassed, rfl⟩
  · exact hrested
  · rw [Board.get_put _ hpassed.onBoard]
    split_ifs with ht
    · subst ht
      rcases hrested with hvacant | hset
      · cases (congrArg Cell.kind hvacant).symm.trans hpassed.pawn.1
      · exact .inr ⟨hset.owned, hset.moves, .inr rfl⟩
    · exact hrested

section Cells

variable {d : Descriptor} {p : Position} {s : Square}

/-- What holds of empty squares and of all pieces that a descriptor puts on the board holds of every
square of the position. -/
theorem forall_cells_of_setup (h : d.setup = .ok p) (P : Square → Cell → Prop)
    (vacant : ∀ s, P s .vacant) (piece : ∀ s c, SetUp d s c → P s c) (s : Square) :
    P s (p.board.get s) := by
  revert s
  apply Board.forall_get vacant
  intro s hs
  rcases setUp_of_setup h (Square.mem_all.mp hs) with hnone | hsome
  · exact hnone ▸ vacant s
  · exact piece s _ hsome

theorem stamps_of_setup (h : d.setup = .ok p) (hclock : 0 ≤ p.plies) :
    ∀ s, (p.board.get s).lastMove ≤ p.plies := by
  have hplies := (clocks_of_setup h).1
  refine forall_cells_of_setup h (fun _ c => c.lastMove ≤ p.plies) (fun _ => ?_) fun s c hc => ?_
  · exact (by omega : (-1 : Int) ≤ p.plies)
  · rcases hc.stamp with h | h <;> omega

theorem counts_of_setup (h : d.setup = .ok p) : ∀ s, 0 ≤ (p.board.get s).moves := by
  refine forall_cells_of_setup h (fun _ c => 0 ≤ c.moves) (fun _ => le_rfl) fun s c hc => ?_
  rcases hc.moves with h | ⟨h, -⟩
  · rw [h]
    exact Cell.presumedMoves_nonneg _ _
  · exact h.ge

theorem right_of_unmoved_rook (h : d.setup = .ok p) (hrook : (p.board.get s).kind = .rook)
    (hmoves : (p.board.get s).moves = 0) : ∃ right ∈ d.castling, right.rookHome = s := by
  revert hrook hmoves
  refine forall_cells_of_setup h
    (fun s c => c.kind = .rook → c.moves = 0 → ∃ right ∈ d.castling, right.rookHome = s)
    (fun _ hrook => by cases hrook) (fun s c hc hrook hmoves => ?_) s
  rcases hc.moves with h | ⟨-, hright⟩
  · rw [Cell.presumedMoves, hrook, hmoves] at h
    cases h
  · exact hright

theorem restedRook_of_setup (h : d.setup = .ok p) {right : CastlingRight}
    (hright : right ∈ d.castling) :
    RookHome p.board right ∧ (p.board.get right.rookHome).moves = 0 := by
  obtain ⟨b, b', -, hhome, hpawn, rfl⟩ := setup_eq_ok.mp h
  have hrested : (rested b d.castling).get right.rookHome =
      { b.get right.rookHome with moves := 0 } := by
    rw [get_rested, if_pos ⟨right, hright, rfl⟩]
  have hkept : b'.get right.rookHome = (rested b d.castling).get right.rookHome := by
    rcases readyPawn_eq_ok.mp hpawn with ⟨-, rfl⟩ | ⟨t, side, hpassed, rfl⟩
    · rfl
    · have hne : right.rookHome ≠ t.shift (Side.forward (some side.opponent)) 0 := fun same => by
        have hkind := hpassed.pawn.1
        rw [← same, hrested] at hkind
        cases (hhome right hright).1.symm.trans hkind
      exact Board.get_put_of_ne _ hne _
  simp only [RookHome]
  rw [hkept, hrested]
  exact ⟨hhome right hright, rfl⟩

theorem rookHome_of_setup (h : d.setup = .ok p) {right : CastlingRight}
    (hright : right ∈ d.castling) : RookHome p.board right :=
  (restedRook_of_setup h hright).1

theorem moves_of_setup (h : d.setup = .ok p) (hs : s.OnBoard) (hocc : ¬ (p.board.get s).IsEmpty)
    (hkind : (p.board.get s).kind ≠ .rook) :
    (p.board.get s).moves = (p.board.get s).presumedMoves s.row.toNat := by
  rcases setUp_of_setup h hs with hvacant | hset
  · exact absurd (congrArg Cell.kind hvacant) hocc
  · refine hset.moves.resolve_right ?_
    rintro ⟨-, right, hright, rfl⟩
    exact hkind (rookHome_of_setup h hright).1

theorem stamped_of_setup (h : d.setup = .ok p) (hstamp : (p.board.get s).lastMove ≠ -1) :
    ∃ behind side, d.passing = some behind ∧ d.toMove = some side ∧
      s = behind.shift (Side.forward (some side.opponent)) 0 := by
  obtain ⟨b, b', hread, -, hpawn, rfl⟩ := setup_eq_ok.mp h
  have hfresh : (b.get s).lastMove = -1 := by
    by_cases hs : s.OnBoard
    · rcases Placement.fresh_of_read hread hs with hvacant | ⟨-, -, hnone⟩
      · rw [hvacant]
        rfl
      · exact hnone
    · rw [Board.get_of_not_onBoard _ hs]
      rfl
  have hrested : ((rested b d.castling).get s).lastMove = -1 := by
    rw [get_rested]
    split_ifs <;> exact hfresh
  rcases readyPawn_eq_ok.mp hpawn with ⟨-, rfl⟩ | ⟨t, side, hpassed, rfl⟩
  · exact absurd hrested hstamp
  · refine ⟨t, side, hpassed.passing, hpassed.player, ?_⟩
    by_contra hne
    rw [Board.get_put_of_ne _ hne] at hstamp
    exact hstamp hrested

end Cells

theorem position_eq_ok {text : String} {p : Position} :
    position text = .ok p ↔ ∃ d, read text = .ok d ∧ d.setup = .ok p := by
  simp only [position, bind, Except.bind]
  cases read text <;> simp

end Descriptor
end Arbiter
