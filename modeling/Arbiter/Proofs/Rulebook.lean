import Arbiter.Proofs.AttackMap

/-! # The rulebook

What a player's move is ruled to be, told by squares, lines and distances: how a pawn goes, when a
king castles, and where a promotion must be named. The rules as they are computed follow the book
for every position and every move, also one that leaves the board.
-/

namespace Arbiter.Position

/-- The ways of a player's pawn, with the square of a pawn that it takes in passing. -/
inductive PawnStep (p : Position) (side : Side) (a b : Square) : Option Square → Prop where
  /-- One step ahead onto an empty square. -/
  | single (target : b = a.shift (Side.forward (some side)) 0)
      (vacant : (p.board.get b).IsEmpty) : PawnStep p side a b none
  /-- Two steps ahead from the home row, over and onto empty squares. -/
  | double (home : a.row = side.homeRow) (target : b = a.shift (2 * Side.forward (some side)) 0)
      (crossed : (p.board.get (a.shift (Side.forward (some side)) 0)).IsEmpty)
      (vacant : (p.board.get b).IsEmpty) : PawnStep p side a b none
  /-- Diagonally ahead onto somebody else's piece. -/
  | take (target : Square.PawnTakes (some side) a b) (occupied : ¬ (p.board.get b).IsEmpty)
      (foreign : (p.board.get b).owner ≠ some side) : PawnStep p side a b none
  /-- Diagonally ahead onto an empty square, past an enemy pawn that made its only move, the double
  step, on the previous ply. -/
  | pass (target : Square.PawnTakes (some side) a b) (vacant : (p.board.get b).IsEmpty)
      (row : a.row = side.passingRow)
      (pawn : (p.board.get ⟨a.row, b.col⟩).kind = .pawn)
      (enemy : (p.board.get ⟨a.row, b.col⟩).owner = some side.opponent)
      (once : (p.board.get ⟨a.row, b.col⟩).moves = 1)
      (justNow : (p.board.get ⟨a.row, b.col⟩).lastMove = p.plies) :
      PawnStep p side a b (some ⟨a.row, b.col⟩)

/-- A player's king castles from one square to another with the rook on a third. -/
structure CastlesWith (p : Position) (side : Side) (a b rook : Square) (step : Int) : Prop where
  wing : step = 1 ∨ step = -1
  target : b = a.shift 0 (step * 2)
  kingUnmoved : (p.board.get a).moves = 0
  /-- The rook stands further along the row, and nothing stands before it. -/
  inRow : rook.row = a.row
  beyond : 0 < step * (rook.col - a.col)
  clear : p.Open a rook
  kind : (p.board.get rook).kind = .rook
  owner : (p.board.get rook).owner = some side
  rookUnmoved : (p.board.get rook).moves = 0
  safe : ∀ k : Nat, k ≤ 2 → p.attacked (a.shift 0 (step * k)) (some side) = false

/-- The ways of a player's pieces from one square to another, with what each does besides. Pieces
other than pawns go where they attack; a king castles too, if castling is considered. -/
inductive Goes (p : Position) (side : Side) (castling : Bool) (a b : Square) : Effects → Prop where
  | piece (notPawn : (p.board.get a).kind ≠ .pawn) (way : p.Attacks a b) :
      Goes p side castling a b {}
  | castle (considered : castling = true) (king : (p.board.get a).kind = .king) {rook : Square}
      {step : Int} (way : p.CastlesWith side a b rook step) :
      Goes p side castling a b { castle := some { src := rook, dst := a.shift 0 step } }
  | pawn (piece : (p.board.get a).kind = .pawn) {captured : Option Square}
      (way : p.PawnStep side a b captured) : Goes p side castling a b { captured }

/-- Both squares are on the board, a piece of the player stands on the first, and none on the
second. -/
structure Eligible (p : Position) (side : Side) (a b : Square) : Prop where
  src : a.OnBoard
  dst : b.OnBoard
  own : p.Own side a
  target : ¬ p.Own side b

/-- A pawn on its way to the last row of the player's pawns. -/
def Arrives (p : Position) (side : Side) (m : Move) : Prop :=
  (p.board.get m.src).kind = .pawn ∧ m.dst.row = Side.lastRow (some side)

/-- What the book says about a move of the player, with or without castling. -/
inductive ByTheBook (p : Position) (side : Side) (castling : Bool) (m : Move) : Ruling → Prop where
  | barred (h : ¬ (p.Eligible side m.src m.dst ∧ ∃ e, p.Goes side castling m.src m.dst e)) :
      ByTheBook p side castling m .illegal
  | plain (eligible : p.Eligible side m.src m.dst) {e : Effects}
      (way : p.Goes side castling m.src m.dst e) (under : ¬ p.Arrives side m) :
      ByTheBook p side castling m (.legal e)
  | promoted (eligible : p.Eligible side m.src m.dst) {e : Effects}
      (way : p.Goes side castling m.src m.dst e) (last : p.Arrives side m) {kind : Kind}
      (offered : kind ∈ Kind.promotions) (choice : m.promotion = some kind) :
      ByTheBook p side castling m (.legal { e with promotion := some kind })
  | unnamed (eligible : p.Eligible side m.src m.dst) {e : Effects}
      (way : p.Goes side castling m.src m.dst e) (last : p.Arrives side m)
      (choice : ∀ kind ∈ Kind.promotions, m.promotion ≠ some kind) :
      ByTheBook p side castling m .needsPromotion

variable {p : Position} {side : Side} {castling : Bool} {m : Move} {e : Effects} {r : Ruling}

theorem admissible_iff_eligible :
    p.Admissible m (some side) ↔ p.Eligible side m.src m.dst := by
  constructor
  · intro h
    exact ⟨h.src_onBoard, h.dst_onBoard, ⟨h.occupied, h.owner⟩, fun hown =>
      h.target.elim hown.1 fun hne => hne hown.2⟩
  · intro h
    exact ⟨h.src, h.dst, h.own.1, h.own.2, by
      have := h.target
      rwa [Own, not_and_or, not_not] at this⟩

theorem pawnGoes_iff {captured : Option Square} (hadm : p.Admissible m (some side)) :
    p.PawnGoes m captured ↔ p.PawnStep side m.src m.dst captured := by
  have howner : p.mover m = some side := hadm.owner
  have hahead : p.ahead m = m.src.shift (Side.forward (some side)) 0 := by rw [ahead, howner]
  have hdiagonal : p.PawnDiagonal m ↔ Square.PawnTakes (some side) m.src m.dst := by
    rw [pawnDiagonal_iff, howner]
  have hdouble : m.dCol = 0 ∧ m.dRow = 2 * Side.forward (some side) ↔
      m.dst = m.src.shift (2 * Side.forward (some side)) 0 := by
    simp only [Square.ext_iff, Square.shift, Move.dRow, Move.dCol]
    omega
  constructor
  · intro h
    cases h with
    | advance way =>
        obtain ⟨hcol, hover, hsingle | ⟨hrow, hhome, hvacant⟩⟩ := way
        · rw [hahead] at hover hsingle
          exact .single hsingle (hsingle ▸ hover)
        · rw [hahead] at hover
          rw [howner] at hrow hhome
          exact .double (Option.some.inj hhome).symm (hdouble.mp ⟨hcol, hrow⟩) hover hvacant
    | take way occupied =>
        exact .take (hdiagonal.mp way) occupied (hadm.target.resolve_left occupied)
    | pass way vacant victim =>
        obtain ⟨hpawn, henemy, honce, hnow, hrow⟩ := victim
        rw [howner] at henemy hrow
        exact .pass (hdiagonal.mp way) vacant (Option.some.inj hrow).symm hpawn henemy honce hnow
  · intro h
    cases h with
    | single target vacant =>
        have hcol : m.dCol = 0 := by simp [Move.dCol, target, Square.shift]
        rw [← hahead] at target
        exact .advance ⟨hcol, target ▸ vacant, .inl target⟩
    | double home target crossed vacant =>
        obtain ⟨hcol, hrow⟩ := hdouble.mpr target
        refine .advance ⟨hcol, hahead ▸ crossed, .inr ⟨howner ▸ hrow, ?_, vacant⟩⟩
        rw [howner, home, Option.map_some]
    | take target occupied foreign => exact .take (hdiagonal.mpr target) occupied
    | pass target vacant row pawn enemy once justNow =>
        refine .pass (hdiagonal.mpr target) vacant ⟨pawn, ?_, once, justNow, ?_⟩
        · rw [howner]
          exact enemy
        · rw [howner, row, Option.map_some]

theorem mem_kingPath {s : Square} :
    s ∈ kingPath m ↔ ∃ k : Nat, k ≤ 2 ∧ m.src.shift 0 (m.dCol.sign * k) = s := by
  simp only [kingPath, List.mem_map, List.mem_range, Nat.lt_succ_iff]

theorem CastlesWith.step_eq {rook : Square} {step : Int}
    (h : p.CastlesWith side m.src m.dst rook step) : step = m.dCol.sign := by
  have htarget := congrArg Square.col h.target
  simp only [Move.dCol, htarget, Square.shift]
  rcases h.wing with rfl | rfl
  · rw [show m.src.col + 1 * 2 - m.src.col = 2 by omega]
    rfl
  · rw [show m.src.col + -1 * 2 - m.src.col = -2 by omega]
    rfl

theorem firstAlongRow_iff_open {a corner : Square} {step : Int} (hstep : step = 1 ∨ step = -1)
    (ha : a.OnBoard) :
    p.firstAlongRow a step = some corner ↔ ¬ (p.board.get corner).IsEmpty ∧
      corner.row = a.row ∧ 0 < step * (corner.col - a.col) ∧ p.Open a corner := by
  rw [firstAlongRow_eq_some_iff]
  apply and_congr_right
  intro hoccupied
  have hcorner := onBoard_of_occupied hoccupied
  constructor
  · intro prem
    obtain ⟨k, -, rfl, before⟩ := prem
    refine ⟨add_zero _, ?_, ?_⟩
    · simp only [Square.shift]
      rcases hstep with rfl | rfl <;> omega
    · intro t ht
      obtain ⟨j, hpos, hj, rfl⟩ := (Square.between_along_row hstep).mp ht
      obtain ⟨i, rfl⟩ := Nat.exists_eq_add_one_of_ne_zero hpos.ne'
      exact before i (Nat.lt_of_succ_lt_succ hj)
  · intro prem
    obtain ⟨hrow, hbeyond, hopen⟩ := prem
    obtain ⟨k, hk⟩ : ∃ k : Nat, corner = a.shift 0 (step * (k + 1 : Nat)) := by
      refine ⟨(corner.col - a.col).natAbs - 1, ?_⟩
      simp only [Square.ext_iff, Square.shift]
      rcases hstep with rfl | rfl <;> omega
    refine ⟨k, ?_, hk, ?_⟩
    · simp only [Square.ext_iff, Square.shift, Square.OnBoard] at *
      rcases hstep with rfl | rfl <;> omega
    · intro j hj
      rw [hk] at hopen
      exact hopen _ ((Square.between_along_row hstep).mpr
        ⟨j + 1, j.succ_pos, Nat.succ_lt_succ hj, rfl⟩)

theorem Castles.wing {corner : Square} (h : p.Castles m corner) :
    m.dCol.sign = 1 ∨ m.dCol.sign = -1 :=
  h.sign.imp And.left And.left

theorem Castles.corner_found {corner : Square} (h : p.Castles m corner) (hsrc : m.src.OnBoard) :
    ¬ (p.board.get corner).IsEmpty ∧ corner.row = m.src.row ∧
      0 < m.dCol.sign * (corner.col - m.src.col) ∧ p.Open m.src corner :=
  (firstAlongRow_iff_open h.wing hsrc).mp h.found

theorem castles_iff_castlesWith {corner : Square} (hadm : p.Admissible m (some side)) :
    p.Castles m corner ↔ (p.board.get m.src).kind = .king ∧
      p.CastlesWith side m.src m.dst corner m.dCol.sign := by
  have howner : p.mover m = some side := hadm.owner
  constructor
  · intro h
    obtain ⟨-, hrow, hbeyond, hopen⟩ := h.corner_found hadm.src_onBoard
    refine ⟨h.king, h.wing, h.dst_eq, h.kingUnmoved, hrow, hbeyond, hopen, h.rook,
      h.rookOwner.trans howner, h.rookUnmoved, ?_⟩
    intro k hk
    have hsafe := h.safe _ (mem_kingPath.mpr ⟨k, hk, rfl⟩)
    rwa [howner] at hsafe
  · intro prem
    obtain ⟨king, h⟩ := prem
    have htarget := h.target
    have hoccupied : ¬ (p.board.get corner).IsEmpty := Cell.occupied_of_kind h.kind (by simp)
    refine ⟨king, h.kingUnmoved, ?_, ?_, ?_, h.kind, h.owner.trans howner.symm, h.rookUnmoved, ?_⟩
    · simp [Move.dRow, htarget, Square.shift]
    · have hcol := congrArg Square.col htarget
      have hwing := h.wing
      simp only [Square.shift] at hcol
      rcases hwing with hsign | hsign <;> rw [hsign] at hcol <;> simp only [Move.dCol] <;> omega
    · exact (firstAlongRow_iff_open h.wing hadm.src_onBoard).mpr
        ⟨hoccupied, h.inRow, h.beyond, h.clear⟩
    · intro s hs
      obtain ⟨k, hk, rfl⟩ := mem_kingPath.mp hs
      rw [howner]
      exact h.safe k hk

theorem castlingRuling_cases (p : Position) (m : Move) :
    p.castlingRuling m = .illegal ∨ ∃ hop, p.castlingRuling m = .legal { castle := some hop } := by
  unfold castlingRuling
  simp only
  split_ifs
  · split
    · exact .inl rfl
    · split_ifs
      · exact .inr ⟨_, rfl⟩
      · exact .inl rfl
  · exact .inl rfl

theorem pieceRuling_without_castling (p : Position) (m : Move) (player : Option Side) :
    (p.pieceRuling m player false = p.pieceRuling m player true ∧
      ∀ e, p.pieceRuling m player true = .legal e → e.castle = none) ∨
    (p.pieceRuling m player false = .illegal ∧
      ∃ hop, p.pieceRuling m player true = .legal { castle := some hop }) := by
  by_cases hking : (p.board.get m.src).kind = .king
  · simp only [pieceRuling, hking, kingRuling, Bool.false_eq_true, if_false, if_true]
    split_ifs
    · simp
    · rcases castlingRuling_cases p m with hill | hlegal
      · left
        simp [hill]
      · right
        exact ⟨rfl, hlegal⟩
    · simp
  · left
    constructor
    · simp only [pieceRuling]
    · intro e h
      cases (pieceRuling_eq_legal.mp h).2 with
      | strike => rfl
      | castle way => exact absurd way.king hking
      | pawn => rfl

theorem pieceRuling_eq_legal_iff :
    p.pieceRuling m (some side) castling = .legal e ↔
      p.pieceRuling m (some side) true = .legal e ∧ (castling = true ∨ e.castle = none) := by
  cases castling with
  | true => simp
  | false =>
      rcases pieceRuling_without_castling p m (some side) with ⟨hsame, hnone⟩ | ⟨hill, hop, hlegal⟩
      · rw [hsame]
        simpa using hnone e
      · rw [hill, hlegal]
        simp only [reduceCtorEq, Ruling.legal.injEq, Bool.false_eq_true, false_or, false_iff]
        intro prem
        obtain ⟨rfl, hnone⟩ := prem
        cases hnone

theorem pieceRuling_eq_needsPromotion_iff :
    p.pieceRuling m (some side) castling = .needsPromotion ↔
      p.pieceRuling m (some side) true = .needsPromotion := by
  cases castling with
  | true => rfl
  | false =>
      rcases pieceRuling_without_castling p m (some side) with ⟨hsame, -⟩ | ⟨hill, hop, hlegal⟩
      · rw [hsame]
      · simp [hill, hlegal]

/-- What the rules allow is in the book, with the promotion that the move names on the last row. -/
theorem byTheBook_of_legal (h : p.pieceRuling m (some side) castling = .legal e) :
    p.ByTheBook side castling m (.legal e) := by
  obtain ⟨hlegal, hcastling⟩ := pieceRuling_eq_legal_iff.mp h
  obtain ⟨hadm, hallows⟩ := pieceRuling_eq_legal.mp hlegal
  have hel := admissible_iff_eligible.mp hadm
  cases hallows with
  | strike piece way =>
      have hattacks := (strikes_iff_attacks hadm.src_ne_dst).mp way
      exact .plain hel (.piece piece hattacks) fun last => piece last.1
  | castle way =>
      obtain ⟨king, hwith⟩ := (castles_iff_castlesWith hadm).mp way
      have hconsidered : castling = true := hcastling.resolve_right (by simp)
      exact .plain hel (.castle hconsidered king hwith) fun last => by
        cases king.symm.trans last.1
  | pawn piece onward way becomes =>
      have hstep := (pawnGoes_iff hadm).mp way
      have howner : p.mover m = some side := hadm.owner
      unfold Becomes at becomes
      rw [howner] at becomes
      split at becomes
      · rename_i hrow
        obtain ⟨kind, offered, choice, rfl⟩ := becomes
        exact .promoted hel (.pawn piece hstep) ⟨piece, hrow⟩ offered choice
      · rename_i hrow
        subst becomes
        exact .plain hel (.pawn piece hstep) fun last => hrow last.2

theorem byTheBook_of_needsPromotion (h : p.pieceRuling m (some side) castling = .needsPromotion) :
    p.ByTheBook side castling m .needsPromotion := by
  obtain ⟨hadm, ⟨piece, hrow⟩, ⟨-, captured, way⟩, choice⟩ :=
    pieceRuling_eq_needsPromotion.mp (pieceRuling_eq_needsPromotion_iff.mp h)
  have howner : p.mover m = some side := hadm.owner
  rw [howner] at hrow
  exact .unnamed (admissible_iff_eligible.mp hadm) (.pawn piece ((pawnGoes_iff hadm).mp way))
    ⟨piece, hrow⟩ choice

theorem PawnStep.onward {captured : Option Square} (hadm : p.Admissible m (some side))
    (h : p.PawnStep side m.src m.dst captured) : (p.ahead m).OnBoard := by
  have howner : p.mover m = some side := hadm.owner
  have hsrc := hadm.src_onBoard
  have hdst := hadm.dst_onBoard
  rw [ahead, howner]
  cases h with
  | single target => exact target ▸ hdst
  | double home =>
      simp only [Square.OnBoard, Square.shift, home] at *
      cases side <;> simp only [Side.homeRow, Side.forward] at * <;> simp <;> omega
  | take target | pass target =>
      simp only [Square.OnBoard, Square.shift, ← target.1, add_zero]
      exact ⟨hdst.1, hsrc.2⟩

theorem ruling_of_plain (hadm : p.Admissible m (some side))
    (way : p.Goes side castling m.src m.dst e) (under : ¬ p.Arrives side m) :
    p.pieceRuling m (some side) castling = .legal e := by
  rw [pieceRuling_eq_legal_iff, pieceRuling_eq_legal]
  cases way with
  | piece notPawn way =>
      exact ⟨⟨hadm, .strike notPawn ((strikes_iff_attacks hadm.src_ne_dst).mpr way)⟩, .inr rfl⟩
  | castle considered king way =>
      have hstep := way.step_eq
      subst hstep
      exact ⟨⟨hadm, .castle ((castles_iff_castlesWith hadm).mpr ⟨king, way⟩)⟩, .inl considered⟩
  | pawn piece way =>
      have howner : p.mover m = some side := hadm.owner
      have hrow : ¬ m.dst.row = Side.lastRow (p.mover m) := fun h => under ⟨piece, howner ▸ h⟩
      have hbecomes : p.Becomes m none := by
        rw [Becomes, if_neg hrow]
      exact ⟨⟨hadm, .pawn piece (way.onward hadm) ((pawnGoes_iff hadm).mpr way) hbecomes⟩, .inr rfl⟩

theorem Goes.pawnStep (way : p.Goes side castling m.src m.dst e) (last : p.Arrives side m) :
    ∃ captured, p.PawnStep side m.src m.dst captured ∧ e = { captured } := by
  cases way with
  | piece notPawn => exact absurd last.1 notPawn
  | castle considered king => cases king.symm.trans last.1
  | pawn piece way => exact ⟨_, way, rfl⟩

theorem ruling_of_promoted (hadm : p.Admissible m (some side))
    (way : p.Goes side castling m.src m.dst e) (last : p.Arrives side m) {kind : Kind}
    (offered : kind ∈ Kind.promotions) (choice : m.promotion = some kind) :
    p.pieceRuling m (some side) castling = .legal { e with promotion := some kind } := by
  obtain ⟨captured, hstep, rfl⟩ := way.pawnStep last
  have howner : p.mover m = some side := hadm.owner
  have hrow : m.dst.row = Side.lastRow (p.mover m) := howner ▸ last.2
  have hbecomes : p.Becomes m (some kind) := by
    rw [Becomes, if_pos hrow]
    exact ⟨kind, offered, choice, rfl⟩
  rw [pieceRuling_eq_legal_iff, pieceRuling_eq_legal]
  exact ⟨⟨hadm, .pawn last.1 (hstep.onward hadm) ((pawnGoes_iff hadm).mpr hstep) hbecomes⟩,
    .inr rfl⟩

theorem ruling_of_unnamed (hadm : p.Admissible m (some side))
    (way : p.Goes side castling m.src m.dst e) (last : p.Arrives side m)
    (choice : ∀ kind ∈ Kind.promotions, m.promotion ≠ some kind) :
    p.pieceRuling m (some side) castling = .needsPromotion := by
  obtain ⟨captured, hstep, -⟩ := way.pawnStep last
  have howner : p.mover m = some side := hadm.owner
  rw [pieceRuling_eq_needsPromotion_iff, pieceRuling_eq_needsPromotion]
  exact ⟨hadm, ⟨last.1, howner ▸ last.2⟩,
    ⟨hstep.onward hadm, captured, (pawnGoes_iff hadm).mpr hstep⟩, choice⟩

theorem ruling_ne_illegal (hadm : p.Admissible m (some side))
    (way : p.Goes side castling m.src m.dst e) :
    p.pieceRuling m (some side) castling ≠ .illegal := by
  by_cases last : p.Arrives side m
  · by_cases choice : ∃ kind ∈ Kind.promotions, m.promotion = some kind
    · obtain ⟨kind, offered, hchoice⟩ := choice
      rw [ruling_of_promoted hadm way last offered hchoice]
      simp
    · rw [ruling_of_unnamed hadm way last fun kind offered h => choice ⟨kind, offered, h⟩]
      simp
  · rw [ruling_of_plain hadm way last]
    simp

theorem ByTheBook.goes (h : p.ByTheBook side castling m r) (hr : r ≠ .illegal) :
    p.Eligible side m.src m.dst ∧ ∃ e, p.Goes side castling m.src m.dst e := by
  cases h with
  | barred => exact absurd rfl hr
  | plain eligible way | promoted eligible way | unnamed eligible way => exact ⟨eligible, _, way⟩

/-- The rules rule as the book says, and the book is silent about no move. -/
theorem pieceRuling_eq_iff_byTheBook :
    p.pieceRuling m (some side) castling = r ↔ p.ByTheBook side castling m r := by
  have hbook : ∀ r, r ≠ .illegal → p.pieceRuling m (some side) castling = r →
      p.ByTheBook side castling m r := by
    intro r hr h
    cases r with
    | illegal => exact absurd rfl hr
    | needsPromotion => exact byTheBook_of_needsPromotion h
    | legal e => exact byTheBook_of_legal h
  constructor
  · intro h
    by_cases hr : r = .illegal
    · subst hr
      refine .barred fun prem => ?_
      obtain ⟨eligible, e, way⟩ := prem
      exact ruling_ne_illegal (admissible_iff_eligible.mpr eligible) way h
    · exact hbook r hr h
  · intro h
    cases h with
    | barred h =>
        by_contra hne
        exact h ((hbook _ hne rfl).goes hne)
    | plain eligible way under =>
        exact ruling_of_plain (admissible_iff_eligible.mpr eligible) way under
    | promoted eligible way last offered choice =>
        exact ruling_of_promoted (admissible_iff_eligible.mpr eligible) way last offered choice
    | unnamed eligible way last choice =>
        exact ruling_of_unnamed (admissible_iff_eligible.mpr eligible) way last choice

/-- Whatever move is asked about, on the board or beyond it, the rules answer with the one ruling
that the book gives. -/
theorem rules_follow_the_book (p : Position) (side : Side) (castling : Bool) (m : Move)
    (r : Ruling) :
    (Guarded.pieceRuling p m (some side) castling = .ok r ↔ p.ByTheBook side castling m r) ∧
      (p.pieceRuling m (some side) castling = r ↔ p.ByTheBook side castling m r) := by
  rw [Guarded.pieceRuling_eq, Except.ok.injEq]
  exact ⟨pieceRuling_eq_iff_byTheBook, pieceRuling_eq_iff_byTheBook⟩

end Arbiter.Position
