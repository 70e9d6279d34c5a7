import Arbiter.Rules.Castling
import Mathlib.Algebra.Order.Ring.Int

/-! # Lines between squares

Where the squares between the ends of a move lie, and what looking along a row finds.
-/

namespace Arbiter

namespace Move

theorem mem_between {m : Move} {s : Square} :
    s ∈ m.between ↔ ∃ k : Nat, k + 1 < max m.dRow.natAbs m.dCol.natAbs ∧
      m.src.shift (m.dRow.sign * (k + 1 : Nat)) (m.dCol.sign * (k + 1 : Nat)) = s := by
  simp only [between, List.mem_map, List.mem_range, Nat.lt_sub_iff_add_lt]

theorem dst_notMem_between (m : Move) : m.dst ∉ m.between := by
  rw [mem_between]
  intro prem
  obtain ⟨k, hk, hs⟩ := prem
  have hrow : m.dRow.sign * (k + 1 : Nat) = m.dRow :=
    eq_sub_of_add_eq' (congrArg Square.row hs)
  have hcol : m.dCol.sign * (k + 1 : Nat) = m.dCol :=
    eq_sub_of_add_eq' (congrArg Square.col hs)
  have abs_le {d : Int} (h : d.sign * (k + 1 : Nat) = d) : d.natAbs ≤ k + 1 := by
    rcases Int.lt_trichotomy d 0 with hd | rfl | hd
    · rw [Int.sign_eq_neg_one_of_neg hd] at h
      omega
    · simp
    · rw [Int.sign_eq_one_of_pos hd] at h
      omega
  have := abs_le hrow
  have := abs_le hcol
  omega

end Move

namespace Position

theorem firstAlongRow_eq_some_iff {p : Position} {s t : Square} {step : Int} :
    p.firstAlongRow s step = some t ↔
      ¬ (p.board.get t).IsEmpty ∧ ∃ k : Nat, k < 7 ∧ t = s.shift 0 (step * (k + 1 : Nat)) ∧
        ∀ j : Nat, j < k → (p.board.get (s.shift 0 (step * (j + 1 : Nat)))).IsEmpty := by
  have hlength : (alongRow s step).length = 7 := by simp [alongRow]
  unfold firstAlongRow
  rw [List.find?_eq_some_iff_getElem]
  simp only [decide_eq_true_eq, hlength]
  refine and_congr_right fun _ => exists_congr fun k => ?_
  constructor
  · intro prem
    obtain ⟨hk, hkt, before⟩ := prem
    refine ⟨hk, by simpa [alongRow] using hkt.symm, fun j hj => ?_⟩
    simpa [alongRow] using before j hj
  · intro prem
    obtain ⟨hk, rfl, before⟩ := prem
    refine ⟨hk, by simp [alongRow], fun j hj => ?_⟩
    simpa [alongRow] using before j hj

end Position
end Arbiter
