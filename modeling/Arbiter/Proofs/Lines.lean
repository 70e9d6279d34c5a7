import Arbiter.Proofs.Geometry
import Mathlib.Tactic.Ring

/-! # Lines, seen from their ends

The squares between the ends of a move are computed by counting steps from its start. Here they are
described by the ends alone, as the squares of the segment that joins them. `waypoint` is the walk
that leads from the one description to the other.
-/

namespace Arbiter

namespace Square

/-- The squares share a row or a column. -/
def SameLine (a b : Square) : Prop := a.row = b.row ∨ a.col = b.col

/-- The squares lie on one of the two diagonals through either. -/
def SameDiagonal (a b : Square) : Prop :=
  a.row - a.col = b.row - b.col ∨ a.row + a.col = b.row + b.col

/-- A square lies on the segment that joins two others, and is neither of them. -/
structure Between (a t b : Square) : Prop where
  collinear : (t.row - a.row) * (b.col - a.col) = (t.col - a.col) * (b.row - a.row)
  rows : min a.row b.row ≤ t.row ∧ t.row ≤ max a.row b.row
  cols : min a.col b.col ≤ t.col ∧ t.col ≤ max a.col b.col
  ne_start : t ≠ a
  ne_end : t ≠ b

theorem Between.onBoard {a t b : Square} (h : Between a t b) (ha : a.OnBoard) (hb : b.OnBoard) :
    t.OnBoard := by
  have hrows := h.rows
  have hcols := h.cols
  unfold OnBoard at *
  omega

/-- A segment inside the board meets an outer row only at its ends, or runs along it. -/
theorem Between.along_edge {a t b : Square} (h : Between a t b) (ha : a.OnBoard) (hb : b.OnBoard)
    (hedge : t.row = 0 ∨ t.row = 7) :
    a.row = t.row ∧ b.row = t.row ∧
      (a.col < t.col ∧ t.col < b.col ∨ b.col < t.col ∧ t.col < a.col) := by
  obtain ⟨hcollinear, hrows, hcols, hstart, hend⟩ := h
  simp only [ne_eq, Square.ext_iff] at hstart hend
  unfold OnBoard at ha hb
  by_cases hflat : a.row = b.row
  · omega
  · have hslope : b.row - a.row ≠ 0 := by omega
    have hend_row : t.row = a.row ∨ t.row = b.row := by omega
    rcases hend_row with hrow | hrow
    · rw [hrow, sub_self, zero_mul] at hcollinear
      have := (mul_eq_zero.mp hcollinear.symm).resolve_right hslope
      omega
    · rw [hrow, mul_comm] at hcollinear
      have := mul_right_cancel₀ hslope hcollinear
      omega

theorem between_of_row {a t b : Square} (ht : t.row = a.row) (hb : b.row = a.row)
    (hcols : a.col < t.col ∧ t.col < b.col ∨ b.col < t.col ∧ t.col < a.col) : Between a t b where
  collinear := by simp [ht, hb]
  rows := by omega
  cols := by omega
  ne_start := by
    rintro rfl
    omega
  ne_end := by
    rintro rfl
    omega

theorem between_along_row {a t : Square} {step : Int} {n : Nat} (hstep : step = 1 ∨ step = -1) :
    Between a t (a.shift 0 (step * n)) ↔
      ∃ j : Nat, 0 < j ∧ j < n ∧ a.shift 0 (step * j) = t := by
  constructor
  · intro h
    obtain ⟨-, hrows, hcols, hstart, hend⟩ := h
    refine ⟨(t.col - a.col).natAbs, ?_⟩
    simp only [Square.ext_iff, shift, ne_eq] at *
    rcases hstep with rfl | rfl <;> omega
  · intro prem
    obtain ⟨j, hpos, hj, rfl⟩ := prem
    apply between_of_row (add_zero _) (add_zero _)
    simp only [shift]
    rcases hstep with rfl | rfl <;> omega

end Square

namespace Move

/-- How many steps the move takes along its line. -/
def length (m : Move) : Nat := max m.dRow.natAbs m.dCol.natAbs

/-- The square reached after some steps towards the target. -/
def waypoint (m : Move) (k : Nat) : Square := m.src.shift (m.dRow.sign * k) (m.dCol.sign * k)

/-- Along a row, a column or a diagonal. -/
def Lined (m : Move) : Prop := m.Straight ∨ m.Diagonal

variable {m : Move}

theorem straight_iff : m.Straight ↔ Square.SameLine m.src m.dst := by
  simp only [Straight, Square.SameLine, dRow, dCol]
  omega

theorem diagonal_iff : m.Diagonal ↔ Square.SameDiagonal m.src m.dst := by
  simp only [Diagonal, Square.SameDiagonal, dRow, dCol]
  omega

theorem waypoint_succ (m : Move) (k : Nat) :
    (m.waypoint k).shift m.dRow.sign m.dCol.sign = m.waypoint (k + 1) := by
  simp only [waypoint, Square.shift, Square.ext_iff]
  push_cast
  constructor <;> ring

theorem mem_between_waypoint {s : Square} :
    s ∈ m.between ↔ ∃ k, 0 < k ∧ k < m.length ∧ m.waypoint k = s := by
  rw [mem_between]
  constructor
  · intro prem
    obtain ⟨k, hk, rfl⟩ := prem
    exact ⟨k + 1, k.succ_pos, hk, rfl⟩
  · intro prem
    obtain ⟨k, hpos, hk, rfl⟩ := prem
    obtain ⟨j, rfl⟩ := Nat.exists_eq_add_one_of_ne_zero hpos.ne'
    exact ⟨j, hk, rfl⟩

theorem sign_cases (d : Int) :
    d.sign = 0 ∧ d = 0 ∨ d.sign = 1 ∧ 0 < d ∨ d.sign = -1 ∧ d < 0 := by
  rcases Int.lt_trichotomy d 0 with hd | rfl | hd
  · exact .inr (.inr ⟨Int.sign_eq_neg_one_of_neg hd, hd⟩)
  · exact .inl ⟨rfl, rfl⟩
  · exact .inr (.inl ⟨Int.sign_eq_one_of_pos hd, hd⟩)

theorem coordinate_steps {d : Int} {n : Nat} (h : d = 0 ∨ d.natAbs = n) : d = d.sign * n := by
  rcases h with rfl | rfl
  · simp
  · exact (Int.sign_mul_natAbs d).symm

theorem Lined.deltas (h : m.Lined) :
    m.dRow = m.dRow.sign * m.length ∧ m.dCol = m.dCol.sign * m.length := by
  have still_or_all : (m.dRow = 0 ∨ m.dRow.natAbs = m.length) ∧
      (m.dCol = 0 ∨ m.dCol.natAbs = m.length) := by
    simp only [Lined, Straight, Diagonal, length] at *
    omega
  exact ⟨coordinate_steps still_or_all.1, coordinate_steps still_or_all.2⟩

theorem waypoint_row (m : Move) (k : Nat) :
    (m.waypoint k).row = m.src.row + m.dRow.sign * k := rfl

theorem waypoint_col (m : Move) (k : Nat) :
    (m.waypoint k).col = m.src.col + m.dCol.sign * k := rfl

theorem Lined.waypoint_length (h : m.Lined) : m.waypoint m.length = m.dst := by
  apply Square.ext
  · rw [waypoint_row, ← h.deltas.1]
    exact add_sub_cancel _ _
  · rw [waypoint_col, ← h.deltas.2]
    exact add_sub_cancel _ _

theorem length_eq_zero_iff : m.length = 0 ↔ m.src = m.dst := by
  simp only [length, dRow, dCol, Square.ext_iff]
  omega

theorem waypoint_ne_dst {k : Nat} (hpos : 0 < k) (hk : k < m.length) : m.waypoint k ≠ m.dst :=
  fun h => m.dst_notMem_between (mem_between_waypoint.mpr ⟨k, hpos, hk, h⟩)

theorem waypoint_ne_src {k : Nat} (hpos : 0 < k) (hk : k < m.length) : m.waypoint k ≠ m.src := by
  intro prem
  have hrow : m.dRow.sign * (k : Int) = 0 := add_eq_left.mp (congrArg Square.row prem)
  have hcol : m.dCol.sign * (k : Int) = 0 := add_eq_left.mp (congrArg Square.col prem)
  have hk0 : (k : Int) ≠ 0 := Int.natCast_ne_zero.mpr hpos.ne'
  have hr := Int.sign_eq_zero_iff_zero.mp ((mul_eq_zero.mp hrow).resolve_right hk0)
  have hc := Int.sign_eq_zero_iff_zero.mp ((mul_eq_zero.mp hcol).resolve_right hk0)
  simp only [length, hr, hc] at hk
  omega

theorem coordinate_between {a d : Int} {k n : Nat} (hd : d = d.sign * n) (hk : k ≤ n) :
    min a (a + d) ≤ a + d.sign * k ∧ a + d.sign * k ≤ max a (a + d) := by
  rcases sign_cases d with ⟨hs, -⟩ | ⟨hs, -⟩ | ⟨hs, -⟩ <;> rw [hs] at hd ⊢ <;> omega

theorem Lined.between_waypoint (h : m.Lined) {k : Nat} (hpos : 0 < k) (hk : k < m.length) :
    Square.Between m.src (m.waypoint k) m.dst where
  collinear := by
    have hrow : m.dst.row - m.src.row = m.dRow.sign * m.length := h.deltas.1
    have hcol : m.dst.col - m.src.col = m.dCol.sign * m.length := h.deltas.2
    rw [waypoint_row, waypoint_col, hrow, hcol]
    ring
  rows := by
    have hrows := coordinate_between (a := m.src.row) h.deltas.1 hk.le
    rwa [show m.src.row + m.dRow = m.dst.row from add_sub_cancel _ _] at hrows
  cols := by
    have hcols := coordinate_between (a := m.src.col) h.deltas.2 hk.le
    rwa [show m.src.col + m.dCol = m.dst.col from add_sub_cancel _ _] at hcols
  ne_start := waypoint_ne_src hpos hk
  ne_end := waypoint_ne_dst hpos hk

theorem coordinate_reached {a d x : Int} {n : Nat} (hd : d = d.sign * n)
    (hx : min a (a + d) ≤ x ∧ x ≤ max a (a + d)) : ∃ k : Nat, k ≤ n ∧ a + d.sign * k = x := by
  refine ⟨(x - a).natAbs, ?_⟩
  rcases sign_cases d with ⟨hs, -⟩ | ⟨hs, -⟩ | ⟨hs, -⟩ <;> rw [hs] at hd ⊢ <;> omega

theorem Lined.col_of_row (h : m.Lined) {s : Square} {k : Nat} (hmoves : m.dRow ≠ 0)
    (hcollinear : (s.row - m.src.row) * m.dCol = (s.col - m.src.col) * m.dRow)
    (hrow : m.src.row + m.dRow.sign * k = s.row) : m.src.col + m.dCol.sign * k = s.col := by
  have hcross : m.dCol.sign * k * m.dRow = (s.col - m.src.col) * m.dRow := by
    calc m.dCol.sign * k * m.dRow
        = m.dCol.sign * k * (m.dRow.sign * m.length) := by rw [← h.deltas.1]
      _ = m.dRow.sign * k * (m.dCol.sign * m.length) := by ring
      _ = (s.row - m.src.row) * m.dCol := by rw [← h.deltas.2, ← hrow, add_sub_cancel_left]
      _ = (s.col - m.src.col) * m.dRow := hcollinear
  rw [mul_right_cancel₀ hmoves hcross]
  exact add_sub_cancel _ _

theorem Lined.exists_waypoint (h : m.Lined) {s : Square} (hs : Square.Between m.src s m.dst) :
    ∃ k, 0 < k ∧ k < m.length ∧ m.waypoint k = s := by
  have hdstRow : m.src.row + m.dRow = m.dst.row := add_sub_cancel _ _
  have hdstCol : m.src.col + m.dCol = m.dst.col := add_sub_cancel _ _
  obtain ⟨i, hi, hrow⟩ := coordinate_reached h.deltas.1 (hdstRow ▸ hs.rows)
  obtain ⟨j, hj, hcol⟩ := coordinate_reached h.deltas.2 (hdstCol ▸ hs.cols)
  have reached : ∃ k, k ≤ m.length ∧ m.waypoint k = s := by
    by_cases hflat : m.dRow = 0
    · refine ⟨j, hj, Square.ext ?_ hcol⟩
      rw [hflat] at hrow
      rw [waypoint_row, hflat]
      simpa using hrow
    · exact ⟨i, hi, Square.ext hrow (h.col_of_row hflat hs.collinear hrow)⟩
  obtain ⟨k, hk, rfl⟩ := reached
  refine ⟨k, Nat.pos_of_ne_zero ?_, hk.lt_of_ne ?_, rfl⟩
  · rintro rfl
    exact hs.ne_start (by simp [waypoint, Square.shift])
  · rintro rfl
    exact hs.ne_end h.waypoint_length

/-- The squares passed on the way are those of the segment between the ends. -/
theorem Lined.mem_between_iff (h : m.Lined) {s : Square} :
    s ∈ m.between ↔ Square.Between m.src s m.dst := by
  rw [mem_between_waypoint]
  constructor
  · intro prem
    obtain ⟨k, hpos, hk, rfl⟩ := prem
    exact h.between_waypoint hpos hk
  · exact h.exists_waypoint

theorem Lined.waypoint_onBoard (h : m.Lined) (hsrc : m.src.OnBoard) (hdst : m.dst.OnBoard)
    {k : Nat} (hpos : 0 < k) (hk : k < m.length) : (m.waypoint k).OnBoard :=
  (h.between_waypoint hpos hk).onBoard hsrc hdst

end Move
end Arbiter
