import Arbiter.Proofs.GuardedRules
import Arbiter.Proofs.Likeness
import Arbiter.Rules.Guarded.Probe

/-! # The attack map

Which squares are attacked, told by squares, lines and distances, with no step of the computation
in it. The rules find attacked squares by marking a vacant square with a pawn, asking every piece of
the opponent for a move onto it, and putting back what stood there. `attacked_iff_attacks` says that
this comes to the map, and `probe_eq` that the position is as before in every case.
-/

namespace Arbiter

namespace Square

/-- Two squares one way and one the other. -/
def KnightApart (a b : Square) : Prop :=
  (b.row - a.row).natAbs = 1 ∧ (b.col - a.col).natAbs = 2 ∨
    (b.row - a.row).natAbs = 2 ∧ (b.col - a.col).natAbs = 1

/-- One of the eight neighbours. -/
def Adjacent (a b : Square) : Prop :=
  a ≠ b ∧ (b.row - a.row).natAbs ≤ 1 ∧ (b.col - a.col).natAbs ≤ 1

/-- One row ahead as the owner's pawns go, and one column to the side. -/
def PawnTakes (owner : Option Side) (a b : Square) : Prop :=
  b.row = a.row + Side.forward owner ∧ (b.col = a.col - 1 ∨ b.col = a.col + 1)

end Square

namespace Position

/-- Every square strictly between two squares is empty. -/
def Open (p : Position) (a b : Square) : Prop :=
  ∀ t, Square.Between a t b → (p.board.get t).IsEmpty

/-- The piece on one square attacks another, whatever stands there. -/
inductive Attacks (p : Position) (a b : Square) : Prop where
  | pawn (piece : (p.board.get a).kind = .pawn)
      (way : Square.PawnTakes (p.board.get a).owner a b)
  | knight (piece : (p.board.get a).kind = .knight) (way : Square.KnightApart a b)
  | bishop (piece : (p.board.get a).kind = .bishop) (way : Square.SameDiagonal a b)
      (clear : p.Open a b)
  | rook (piece : (p.board.get a).kind = .rook) (way : Square.SameLine a b) (clear : p.Open a b)
  | queen (piece : (p.board.get a).kind = .queen)
      (way : Square.SameLine a b ∨ Square.SameDiagonal a b) (clear : p.Open a b)
  | king (piece : (p.board.get a).kind = .king) (way : Square.Adjacent a b)

/-- A piece of the player stands on the square. -/
def Own (p : Position) (side : Side) (s : Square) : Prop :=
  ¬ (p.board.get s).IsEmpty ∧ (p.board.get s).owner = some side

variable {p q : Position} {a b s : Square} {side : Side}

theorem not_own_opponent (h : (p.board.get s).owner = some side) : ¬ p.Own side.opponent s := by
  intro prem
  have := h.symm.trans prem.2
  exact Side.opponent_ne side (Option.some.inj this).symm

theorem clearPath_iff_open {m : Move} (h : m.Lined) : p.ClearPath m ↔ p.Open m.src m.dst := by
  simp only [ClearPath, Open, h.mem_between_iff]

theorem pawnDiagonal_iff {m : Move} :
    p.PawnDiagonal m ↔ Square.PawnTakes (p.mover m) m.src m.dst := by
  simp only [PawnDiagonal, Square.PawnTakes, Move.dRow, Move.dCol]
  omega

theorem straight_clear_iff {m : Move} : m.Straight ∧ p.ClearPath m ↔
    Square.SameLine m.src m.dst ∧ p.Open m.src m.dst := by
  rw [← Move.straight_iff]
  exact and_congr_right fun h => clearPath_iff_open (.inl h)

theorem diagonal_clear_iff {m : Move} : m.Diagonal ∧ p.ClearPath m ↔
    Square.SameDiagonal m.src m.dst ∧ p.Open m.src m.dst := by
  rw [← Move.diagonal_iff]
  exact and_congr_right fun h => clearPath_iff_open (.inr h)

theorem strikes_iff_attacks (hne : a ≠ b) : p.Strikes a b ↔ p.Attacks a b := by
  constructor
  · intro h
    unfold Strikes at h
    cases hkind : (p.board.get a).kind with
    | empty => simp only [hkind] at h
    | pawn =>
        simp only [hkind] at h
        exact .pawn hkind (pawnDiagonal_iff.mp h)
    | knight =>
        simp only [hkind] at h
        exact .knight hkind h
    | bishop =>
        simp only [hkind] at h
        obtain ⟨way, clear⟩ := diagonal_clear_iff.mp h
        exact .bishop hkind way clear
    | rook =>
        simp only [hkind] at h
        obtain ⟨way, clear⟩ := straight_clear_iff.mp h
        exact .rook hkind way clear
    | queen =>
        simp only [hkind, or_and_right, straight_clear_iff, diagonal_clear_iff] at h
        rw [← or_and_right] at h
        exact .queen hkind h.1 h.2
    | king =>
        simp only [hkind] at h
        exact .king hkind ⟨hne, h⟩
  · intro h
    unfold Strikes
    cases h with
    | pawn piece way =>
        simp only [piece]
        exact pawnDiagonal_iff.mpr way
    | knight piece way =>
        simp only [piece]
        exact way
    | bishop piece way clear =>
        simp only [piece]
        exact diagonal_clear_iff.mpr ⟨way, clear⟩
    | rook piece way clear =>
        simp only [piece]
        exact straight_clear_iff.mpr ⟨way, clear⟩
    | queen piece way clear =>
        simp only [piece, or_and_right, straight_clear_iff, diagonal_clear_iff]
        rw [← or_and_right]
        exact ⟨way, clear⟩
    | king piece way =>
        simp only [piece]
        exact way.2

/-- On the board, a square is attacked exactly if it holds no piece of the opponent and some piece
of the opponent attacks it. -/
theorem attacked_iff_attacks (hs : s.OnBoard) : p.attacked s (some side) = true ↔
    ¬ p.Own side.opponent s ∧ ∃ a, a ≠ s ∧ p.Own side.opponent a ∧ p.Attacks a s := by
  rw [attacked_iff hs]
  have hfree : ((p.board.get s).IsEmpty ∨ (p.board.get s).owner ≠ some side.opponent) ↔
      ¬ p.Own side.opponent s := by
    rw [Own, not_and_or, not_not]
  rw [hfree]
  apply and_congr_right
  intro hown
  constructor
  · intro prem
    obtain ⟨a, -, howner, hstrikes⟩ := prem
    have hne : a ≠ s := by
      intro same
      subst same
      exact hown ⟨hstrikes.occupied, howner⟩
    exact ⟨a, hne, ⟨hstrikes.occupied, howner⟩, (strikes_iff_attacks hne).mp hstrikes⟩
  · intro prem
    obtain ⟨a, hne, ⟨hoccupied, howner⟩, hattacks⟩ := prem
    exact ⟨a, onBoard_of_occupied hoccupied, howner, (strikes_iff_attacks hne).mpr hattacks⟩

theorem unmark (p : Position) (s : Square) (owner : Option Side) :
    { p.marked s owner with board := (p.marked s owner).board.put s (p.board.get s) } = p := by
  have hboard : (p.marked s owner).board.put s (p.board.get s) = p.board := by
    apply Board.ext_get
    intro t ht
    by_cases hts : t = s
    · subst hts
      exact Board.get_put_self _ ht _
    · rw [Board.get_put_of_ne _ hts]
      exact get_marked_of_ne owner hts
  rw [hboard]
  unfold marked
  split <;> rfl

namespace Guarded

theorem askInTurn_eq (target : Square) (attacker : Option Side) (squares : List Square)
    (q : Position) :
    askInTurn target attacker squares q = (squares.anyM (reaches q target attacker), q) := by
  induction squares with
  | nil => rfl
  | cons src squares ih =>
      rw [askInTurn, List.anyM]
      cases reaches q target attacker src with
      | error fault => rfl
      | ok answer =>
          cases answer with
          | true => rfl
          | false => exact ih

/-- Asked on the board itself, the question has the same answer, or stops with the same fault, and
in every case the position is as it was. -/
theorem probe_eq (p : Position) (s : Square) (owner : Option Side) :
    probe p s owner = (attacked p s owner, p) := by
  unfold probe attacked
  cases hlook : look p s with
  | error fault => rfl
  | ok original =>
      have horiginal : original = p.board.get s := by
        unfold look at hlook
        split at hlook
        · exact (Except.ok.inj hlook).symm
        · cases hlook
      subst horiginal
      simp only [askInTurn_eq]
      exact Prod.ext rfl (unmark p s owner)

end Guarded

/-- On every square of the board the question whether it is attacked is answered: by the attack map,
which knows nothing of counters and clocks, and with the position left as it was. -/
theorem attack_map_correct (p : Position) (side : Side) (hs : s.OnBoard) :
    ∃ answer : Bool, Guarded.attacked p s (some side) = .ok answer ∧
      (answer = true ↔
        ¬ p.Own side.opponent s ∧ ∃ a, a ≠ s ∧ p.Own side.opponent a ∧ p.Attacks a s) ∧
      (∀ q : Position, SameMen p.board q.board → Guarded.attacked q s (some side) = .ok answer) ∧
      Guarded.probe p s (some side) = (.ok answer, p) := by
  have hanswer := Guarded.attacked_eq p hs side
  refine ⟨p.attacked s (some side), hanswer, attacked_iff_attacks hs, ?_, ?_⟩
  · intro q hmen
    rw [Guarded.attacked_eq q hs side, (hmen.threats side).attacked_eq hs]
  · rw [Guarded.probe_eq, hanswer]

/-- In the initial position white's pawns attack the whole third rank, also where nothing stands. -/
theorem attack_map_correct_initial :
    (⟨5, 4⟩ : Square).OnBoard ∧ Guarded.attacked initial ⟨5, 4⟩ (some .black) = .ok true ∧
      (¬ initial.Own .white ⟨5, 4⟩ ∧
        ∃ a, a ≠ ⟨5, 4⟩ ∧ initial.Own .white a ∧ initial.Attacks a ⟨5, 4⟩) ∧
      (∀ q : Position, SameMen initial.board q.board →
        Guarded.attacked q ⟨5, 4⟩ (some .black) = .ok true) ∧
      Guarded.probe initial ⟨5, 4⟩ (some .black) = (.ok true, initial) := by
  have hs : (⟨5, 4⟩ : Square).OnBoard := by decide
  have hattacked : Guarded.attacked initial ⟨5, 4⟩ (some .black) = .ok true := by decide +kernel
  obtain ⟨answer, hanswer, hmap, hmen, hprobe⟩ := attack_map_correct initial .black hs
  obtain rfl : true = answer := Except.ok.inj (hattacked.symm.trans hanswer)
  exact ⟨hs, hattacked, hmap.mp rfl, hmen, hprobe⟩

end Position
end Arbiter
