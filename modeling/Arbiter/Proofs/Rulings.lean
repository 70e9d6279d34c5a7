import Arbiter.Proofs.Attack
import Mathlib.Tactic.SplitIfs

/-! # What the rules for the pieces allow

The rulings are computed branch by branch. `Allows` lists the ways in which a move may be allowed,
each with its effects, and `pieceRuling_eq_legal` says that these are all. Later arguments about
legal moves go through its three cases and never open the rules again.
-/

namespace Arbiter.Position

/-- How a pawn may reach its target, with the square of a pawn that it takes in passing. -/
inductive PawnGoes (p : Position) (m : Move) : Option Square → Prop where
  | advance (way : p.PawnAdvance m) : PawnGoes p m none
  | take (way : p.PawnDiagonal m) (occupied : ¬ (p.board.get m.dst).IsEmpty) : PawnGoes p m none
  | pass (way : p.PawnDiagonal m) (vacant : (p.board.get m.dst).IsEmpty)
      (victim : p.PawnPasses m) : PawnGoes p m (some (passedSquare m))

/-- What becomes of a pawn at its target: on its last row what the move chooses, elsewhere
nothing new. -/
def Becomes (p : Position) (m : Move) (choice : Option Kind) : Prop :=
  if m.dst.row = Side.lastRow (p.mover m) then
    ∃ kind ∈ Kind.promotions, m.promotion = some kind ∧ choice = some kind
  else choice = none

/-- The conditions for castling, with the corner where the rook was found. -/
structure Castles (p : Position) (m : Move) (corner : Square) : Prop where
  king : (p.board.get m.src).kind = .king
  kingUnmoved : (p.board.get m.src).moves = 0
  sameRow : m.dRow = 0
  twoSteps : m.dCol.natAbs = 2
  found : p.firstAlongRow m.src m.dCol.sign = some corner
  rook : (p.board.get corner).kind = .rook
  rookOwner : (p.board.get corner).owner = p.mover m
  rookUnmoved : (p.board.get corner).moves = 0
  safe : ∀ s ∈ kingPath m, p.attacked s (p.mover m) = false

/-- The rook's part of castling: from its corner to the square that the king crosses. -/
def rookHop (m : Move) (corner : Square) : Move :=
  { src := corner, dst := m.src.shift 0 m.dCol.sign }

/-- The ways in which the rules for the pieces allow a move, with the effects of each. -/
inductive Allows (p : Position) (m : Move) : Effects → Prop where
  | strike (piece : (p.board.get m.src).kind ≠ .pawn) (way : p.Strikes m.src m.dst) :
      Allows p m {}
  | castle {corner : Square} (way : p.Castles m corner) :
      Allows p m { castle := some (rookHop m corner) }
  | pawn {captured : Option Square} {choice : Option Kind}
      (piece : (p.board.get m.src).kind = .pawn) (onward : (p.ahead m).OnBoard)
      (way : p.PawnGoes m captured) (becomes : p.Becomes m choice) :
      Allows p m { captured, promotion := choice }

variable {p : Position} {m : Move} {player : Option Side} {e : Effects}

namespace Admissible

theorem src_onBoard (h : p.Admissible m player) : m.src.OnBoard := h.1

theorem dst_onBoard (h : p.Admissible m player) : m.dst.OnBoard := h.2.1

theorem occupied (h : p.Admissible m player) : ¬ (p.board.get m.src).IsEmpty := h.2.2.1

theorem owner (h : p.Admissible m player) : (p.board.get m.src).owner = player := h.2.2.2.1

theorem target (h : p.Admissible m player) :
    (p.board.get m.dst).IsEmpty ∨ (p.board.get m.dst).owner ≠ player :=
  h.2.2.2.2

end Admissible

theorem pawnRuling_of_goes {captured : Option Square} (onward : (p.ahead m).OnBoard)
    (h : p.PawnGoes m captured) : p.pawnRuling m = p.pawnArrival m captured := by
  have straight_of_advance : p.PawnAdvance m → ¬ p.PawnDiagonal m := by
    intro hadvance hdiagonal
    have hstraight := hadvance.1
    have haside := hdiagonal.1
    omega
  cases h with
  | advance way => simp [pawnRuling, onward, way]
  | take way occupied =>
      have hadvance : ¬ p.PawnAdvance m := fun h => straight_of_advance h way
      simp [pawnRuling, onward, hadvance, way, occupied]
  | pass way vacant victim =>
      have hadvance : ¬ p.PawnAdvance m := fun h => straight_of_advance h way
      simp [pawnRuling, onward, hadvance, way, vacant, victim]

theorem pawnRuling_cases (p : Position) (m : Move) :
    p.pawnRuling m = .illegal ∨ (p.ahead m).OnBoard ∧ ∃ captured, p.PawnGoes m captured := by
  by_cases onward : (p.ahead m).OnBoard
  · by_cases hadvance : p.PawnAdvance m
    · exact .inr ⟨onward, none, .advance hadvance⟩
    by_cases hdiagonal : p.PawnDiagonal m
    · by_cases hdst : (p.board.get m.dst).IsEmpty
      · by_cases hpass : p.PawnPasses m
        · exact .inr ⟨onward, _, .pass hdiagonal hdst hpass⟩
        · simp [pawnRuling, hadvance, hdst, hpass]
      · exact .inr ⟨onward, none, .take hdiagonal hdst⟩
    · simp [pawnRuling, hadvance, hdiagonal]
  · simp [pawnRuling, onward]

theorem pawnArrival_eq_legal {captured : Option Square} :
    p.pawnArrival m captured = .legal e ↔
      ∃ choice, p.Becomes m choice ∧ e = { captured, promotion := choice } := by
  unfold pawnArrival arrivalRuling Becomes
  split
  · cases hm : m.promotion with
    | none => simp
    | some kind =>
        by_cases hk : kind ∈ Kind.promotions
        · simp only [if_pos hk, Ruling.legal.injEq, Option.some.injEq]
          constructor
          · intro same
            subst same
            exact ⟨some kind, ⟨kind, hk, rfl, rfl⟩, rfl⟩
          · intro prem
            obtain ⟨_, ⟨_, -, rfl, rfl⟩, rfl⟩ := prem
            rfl
        · simp only [if_neg hk, reduceCtorEq, Option.some.injEq, false_iff]
          intro prem
          obtain ⟨_, ⟨_, hk', rfl, -⟩, -⟩ := prem
          exact hk hk'
  · simp [eq_comm]

theorem pawnRuling_eq_legal :
    p.pawnRuling m = .legal e ↔ (p.ahead m).OnBoard ∧ ∃ captured choice,
      p.PawnGoes m captured ∧ p.Becomes m choice ∧ e = { captured, promotion := choice } := by
  constructor
  · intro h
    rcases pawnRuling_cases p m with hill | ⟨onward, captured, way⟩
    · cases hill.symm.trans h
    · rw [pawnRuling_of_goes onward way] at h
      obtain ⟨choice, becomes, he⟩ := pawnArrival_eq_legal.mp h
      exact ⟨onward, captured, choice, way, becomes, he⟩
  · intro prem
    obtain ⟨onward, captured, choice, way, becomes, he⟩ := prem
    rw [pawnRuling_of_goes onward way]
    exact pawnArrival_eq_legal.mpr ⟨choice, becomes, he⟩

theorem castlingRuling_eq_legal (hking : (p.board.get m.src).kind = .king) :
    p.castlingRuling m = .legal e ↔
      ∃ corner, p.Castles m corner ∧ e = { castle := some (rookHop m corner) } := by
  unfold castlingRuling
  constructor
  · intro h
    simp only at h
    split at h
    · rename_i hk
      split at h
      · cases h
      · rename_i corner hfound
        split at h
        · rename_i hr
          refine ⟨corner, ?_, (Ruling.legal.inj h).symm⟩
          exact ⟨hking, hk.1, hk.2.1, hk.2.2, hfound, hr.1, hr.2.1, hr.2.2.1, hr.2.2.2⟩
        · cases h
    · cases h
  · intro prem
    obtain ⟨corner, way, rfl⟩ := prem
    have hk := And.intro way.kingUnmoved (And.intro way.sameRow way.twoSteps)
    have hr := And.intro way.rook (And.intro way.rookOwner (And.intro way.rookUnmoved way.safe))
    simp only [if_pos hk, way.found]
    exact if_pos hr

theorem Castles.not_kingStep {corner : Square} (h : p.Castles m corner) : ¬ m.KingStep := by
  have := h.twoSteps
  intro prem
  obtain ⟨-, hcol⟩ := prem
  omega

theorem kingRuling_eq_legal (hking : (p.board.get m.src).kind = .king) :
    p.kingRuling m true = .legal e ↔ (m.KingStep ∧ e = {}) ∨
      ∃ corner, p.Castles m corner ∧ e = { castle := some (rookHop m corner) } := by
  unfold kingRuling
  by_cases hstep : m.KingStep
  · rw [if_pos hstep, Ruling.legal.injEq]
    constructor
    · intro same
      subst same
      exact .inl ⟨hstep, rfl⟩
    · intro prem
      rcases prem with ⟨-, rfl⟩ | ⟨corner, way, -⟩
      · rfl
      · exact absurd hstep way.not_kingStep
  · rw [if_neg hstep, if_pos rfl, castlingRuling_eq_legal hking]
    exact (or_iff_right fun h => hstep h.1).symm

/-- The rules for the pieces allow an admissible move in the listed ways, and in no other. -/
theorem pieceRuling_eq_legal :
    p.pieceRuling m player true = .legal e ↔ p.Admissible m player ∧ p.Allows m e := by
  simp only [pieceRuling]
  by_cases hadm : p.Admissible m player
  · rw [if_pos hadm, and_iff_right hadm]
    cases hkind : (p.board.get m.src).kind with
    | empty => exact absurd hkind hadm.occupied
    | pawn =>
        simp only [movementRuling]
        rw [pawnRuling_eq_legal]
        constructor
        · intro prem
          obtain ⟨onward, captured, choice, way, becomes, rfl⟩ := prem
          exact .pawn hkind onward way becomes
        · intro prem
          rcases prem with ⟨hne, -⟩ | ⟨way⟩ | ⟨-, onward, way, becomes⟩
          · exact absurd hkind hne
          · cases hkind.symm.trans way.king
          · exact ⟨onward, _, _, way, becomes, rfl⟩
    | king =>
        have hstep : p.Strikes m.src m.dst ↔ m.KingStep := by
          simp only [Strikes, hkind]
          rfl
        simp only
        rw [kingRuling_eq_legal hkind]
        constructor
        · intro prem
          rcases prem with ⟨way, rfl⟩ | ⟨corner, way, rfl⟩
          · exact .strike (by simp [hkind]) (hstep.mpr way)
          · exact .castle way
        · intro prem
          rcases prem with ⟨-, way⟩ | ⟨way⟩ | ⟨hpawn, -⟩
          · exact .inl ⟨hstep.mp way, rfl⟩
          · exact .inr ⟨_, way, rfl⟩
          · cases hkind.symm.trans hpawn
    | knight | bishop | rook | queen =>
        have hway : ∀ c : Prop, [Decidable c] → (p.Strikes m.src m.dst ↔ c) →
            (Ruling.legalIf c = .legal e ↔ p.Allows m e) := by
          intro c _ hc
          rw [Ruling.legalIf_eq_legal]
          constructor
          · intro prem
            obtain ⟨h, rfl⟩ := prem
            exact .strike (by simp [hkind]) (hc.mpr h)
          · intro prem
            rcases prem with ⟨-, hstrikes⟩ | ⟨way⟩ | ⟨hpawn, -⟩
            · exact ⟨hc.mp hstrikes, rfl⟩
            · cases hkind.symm.trans way.king
            · cases hkind.symm.trans hpawn
        exact hway _ (by simp only [Strikes, hkind]; rfl)
  · simp [hadm]

/-- A promotion is asked for exactly if the pawn may go to its last row and no choice is named. -/
theorem pieceRuling_eq_needsPromotion :
    p.pieceRuling m player true = .needsPromotion ↔ p.Admissible m player ∧
      ((p.board.get m.src).kind = .pawn ∧ m.dst.row = Side.lastRow (p.mover m)) ∧
      ((p.ahead m).OnBoard ∧ ∃ captured, p.PawnGoes m captured) ∧
      ∀ kind ∈ Kind.promotions, m.promotion ≠ some kind := by
  have arrival (captured : Option Square) : p.pawnArrival m captured = .needsPromotion ↔
      m.dst.row = Side.lastRow (p.mover m) ∧ ∀ kind ∈ Kind.promotions, m.promotion ≠ some kind := by
    unfold pawnArrival arrivalRuling
    split
    · rename_i hrow
      cases hm : m.promotion with
      | none => simp [hrow]
      | some kind =>
          have hchoice : (∀ k ∈ Kind.promotions, some kind ≠ some k) ↔ kind ∉ Kind.promotions :=
            ⟨fun h hk => h kind hk rfl, fun hk k hk' hsame => hk (Option.some.inj hsame ▸ hk')⟩
          rw [hchoice]
          by_cases hk : kind ∈ Kind.promotions <;> simp [hrow, hk]
    · rename_i hrow
      simp [hrow]
  unfold pieceRuling
  by_cases hadm : p.Admissible m player
  · rw [if_pos hadm, and_iff_right hadm]
    cases hkind : (p.board.get m.src).kind with
    | empty => exact absurd hkind hadm.occupied
    | pawn =>
        simp only [movementRuling, true_and]
        constructor
        · intro h
          rcases pawnRuling_cases p m with hill | ⟨onward, captured, way⟩
          · cases hill.symm.trans h
          · rw [pawnRuling_of_goes onward way] at h
            obtain ⟨hrow, hchoice⟩ := (arrival captured).mp h
            exact ⟨hrow, ⟨onward, captured, way⟩, hchoice⟩
        · intro prem
          obtain ⟨hrow, ⟨onward, captured, way⟩, hchoice⟩ := prem
          rw [pawnRuling_of_goes onward way]
          exact (arrival captured).mpr ⟨hrow, hchoice⟩
    | king =>
        simp only [kingRuling, castlingRuling, if_true, reduceCtorEq, false_and, iff_false]
        split_ifs
        · simp
        · split
          · simp
          · split_ifs <;> simp
        · simp
    | knight | bishop | rook | queen =>
        simp only [reduceCtorEq, false_and, iff_false]
        exact Ruling.legalIf_ne_needsPromotion _
  · simp [hadm]

theorem pieceRuling_promotion_irrelevant
    (h : ¬ ((p.board.get m.src).kind = .pawn ∧ m.dst.row = Side.lastRow (p.mover m)))
    (choice : Option Kind) (castling : Bool) :
    p.pieceRuling { m with promotion := choice } player castling =
      p.pieceRuling m player castling := by
  simp only [pieceRuling]
  by_cases hadm : p.Admissible m player
  · have hadm' : p.Admissible { m with promotion := choice } player := hadm
    rw [if_pos hadm, if_pos hadm']
    cases hkind : (p.board.get m.src).kind with
    | pawn =>
        have hrow : ¬ m.dst.row = Side.lastRow (p.mover m) := fun hrow => h ⟨hkind, hrow⟩
        have arrival (captured : Option Square) :
            p.pawnArrival { m with promotion := choice } captured =
              p.pawnArrival m captured := by
          rw [pawnArrival, pawnArrival, arrivalRuling, arrivalRuling, if_neg hrow]
          exact if_neg hrow
        simp only [movementRuling, pawnRuling, arrival]
        rfl
    | _ => rfl
  · have hadm' : ¬ p.Admissible { m with promotion := choice } player := hadm
    rw [if_neg hadm, if_neg hadm']

end Arbiter.Position
