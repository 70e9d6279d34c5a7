/-! # Squares -/

namespace Arbiter

/-- A place by row and column, counted from black's back rank and from the a-file. Places beyond
the edges are squares too: a move may name them, and the rules turn it down. -/
@[ext]
structure Square where
  row : Int
  col : Int
deriving Repr, DecidableEq, Inhabited

namespace Square

/-- The square so many rows and columns further on. -/
def shift (s : Square) (dRow dCol : Int) : Square :=
  ⟨s.row + dRow, s.col + dCol⟩

/-- One of the 64 squares. -/
def OnBoard (s : Square) : Prop :=
  (0 ≤ s.row ∧ s.row < 8) ∧ (0 ≤ s.col ∧ s.col < 8)

instance (s : Square) : Decidable s.OnBoard :=
  inferInstanceAs (Decidable ((0 ≤ s.row ∧ s.row < 8) ∧ (0 ≤ s.col ∧ s.col < 8)))

def index (s : Square) : Nat :=
  (s.row * 8 + s.col).toNat

def ofIndex (i : Nat) : Square :=
  ⟨(i / 8 : Nat), (i % 8 : Nat)⟩

/-- The squares of the board, row by row: a8, b8, …, h1. -/
def all : List Square :=
  (List.range 64).map ofIndex

theorem index_lt {s : Square} (h : s.OnBoard) : s.index < 64 := by
  unfold OnBoard at h
  unfold index
  omega

theorem ofIndex_index {s : Square} (h : s.OnBoard) : ofIndex s.index = s := by
  cases s
  simp only [OnBoard] at h
  simp only [ofIndex, index, mk.injEq]
  omega

theorem index_inj {s t : Square} (hs : s.OnBoard) (ht : t.OnBoard) :
    s.index = t.index ↔ s = t :=
  ⟨fun h => by rw [← ofIndex_index hs, h, ofIndex_index ht], fun h => h ▸ rfl⟩

theorem onBoard_ofIndex {i : Nat} (h : i < 64) : (ofIndex i).OnBoard := by
  simp only [OnBoard, ofIndex]
  omega

theorem index_ofIndex (i : Nat) : (ofIndex i).index = i := by
  simp only [index, ofIndex]
  omega

@[simp] theorem mem_all {s : Square} : s ∈ all ↔ s.OnBoard := by
  simp only [all, List.mem_map, List.mem_range]
  constructor
  · intro prem
    obtain ⟨i, hi, rfl⟩ := prem
    exact onBoard_ofIndex hi
  · exact fun h => ⟨s.index, index_lt h, ofIndex_index h⟩

end Square
end Arbiter
