import Arbiter.Proofs.Setup
import Mathlib.Order.Basic
import Mathlib.Tactic.IntervalCases

/-! # Reading back a written board

Writing a board forgets how its pieces have moved. Reading the text back gives every piece in its
place, with a presumed number of moves instead.
-/

namespace Arbiter

/-- What is left of a piece when it is written and read back in a row. -/
def Cell.settled (row : Nat) (c : Cell) : Cell :=
  if c.IsEmpty then .vacant else { c with moves := c.presumedMoves row, lastMove := -1 }

namespace Cell

variable {c : Cell}

theorem settled_of_occupied {row : Nat} (h : ¬ c.IsEmpty) :
    c.settled row = { c with moves := c.presumedMoves row, lastMove := -1 } := if_neg h

theorem settled_kind (c : Cell) (row : Nat) : (c.settled row).kind = c.kind := by
  simp only [settled]
  split_ifs with h
  · exact h.symm
  · rfl

theorem settled_lastMove (c : Cell) (row : Nat) : (c.settled row).lastMove = -1 := by
  simp only [settled]
  split_ifs <;> rfl

theorem settled_owner {row : Nat} (h : c.IsEmpty → c.owner = none) :
    (c.settled row).owner = c.owner := by
  simp only [settled]
  split_ifs with hempty
  · exact (h hempty).symm
  · rfl

end Cell

/-- The board with every piece settled in its row. -/
def Board.settled (b : Board) : Board :=
  .ofFn fun s => (b.get s).settled s.row.toNat

/-- Every piece on the board belongs to a player. -/
def Board.Owned (b : Board) : Prop :=
  ∀ s, ¬ (b.get s).IsEmpty → (b.get s).owner.isSome

theorem Board.get_settled (b : Board) (s : Square) :
    b.settled.get s = (b.get s).settled s.row.toNat := by
  by_cases hs : s.OnBoard
  · exact get_ofFn _ hs
  · rw [get_of_not_onBoard _ hs, get_of_not_onBoard _ hs]
    rfl

namespace Placement

variable {i col run : Nat} {text : String}

theorem letter?_eq_none_iff {c : Cell} : c.letter? = none ↔ c.IsEmpty := by
  unfold Cell.letter? Cell.IsEmpty
  cases c.kind <;> simp [Kind.letter?]

theorem letter_of_owned {c : Cell} {l : Char} (h : c.letter? = some l) (howner : c.owner.isSome) :
    l.isDigit = false ∧ Cell.ofLetter? l = some { kind := c.kind, owner := c.owner } := by
  have table (kind : Kind) (side : Side) : ∀ l, (Cell.mk kind (some side) 0 (-1)).letter? = some l →
      l.isDigit = false ∧ Cell.ofLetter? l = some { kind, owner := some side } := by
    cases kind <;> cases side <;> rintro l ⟨⟩ <;> decide +kernel
  obtain ⟨side, hside⟩ := Option.isSome_iff_exists.mp howner
  have hplain : c.letter? = (Cell.mk c.kind (some side) 0 (-1)).letter? := by
    rw [Cell.letter?, hside]
    rfl
  rw [hside]
  exact table c.kind side l (hplain ▸ h)

theorem readCells_writeRun {cs : List Char} {cells : List Cell} (hfits : col + run ≤ 8)
    (h : readCells i text (col + run) cs = .ok cells) :
    readCells i text col (writeRun run ++ cs) = .ok (List.replicate run .vacant ++ cells) := by
  simp only [writeRun]
  split_ifs with hrun
  · subst hrun
    exact h
  · have hdigit : (Nat.digitChar run).isDigit = true ∧ (Nat.digitChar run).toNat - 48 = run := by
      have : run < 9 := by omega
      interval_cases run <;> decide
    rw [Nat.toDigits_of_lt_base (by omega), List.singleton_append]
    refine readCells_cons_eq_ok.mpr (.inl ⟨hdigit.1, ?_, cells, ?_, ?_⟩) <;> rw [hdigit.2]
    · exact hfits
    · exact h

theorem readCells_writeCells {cells : List Cell}
    (howned : ∀ c ∈ cells, ¬ c.IsEmpty → c.owner.isSome) (hlength : col + run + cells.length = 8) :
    readCells i text col (writeCells run cells) =
      .ok (List.replicate run .vacant ++ cells.map (Cell.settled i)) := by
  induction cells generalizing run col with
  | nil =>
      have hend : readCells i text (col + run) [] = .ok [] := if_pos hlength
      rw [writeCells, ← List.append_nil (writeRun run)]
      exact readCells_writeRun hlength.le hend
  | cons c cs ih =>
      rw [List.length_cons] at hlength
      obtain ⟨hfirst, hrest⟩ := List.forall_mem_cons.mp howned
      cases hletter : c.letter? with
      | none =>
          have hsettled : c.settled i = .vacant := if_pos (letter?_eq_none_iff.mp hletter)
          simp only [writeCells, hletter]
          rw [ih hrest (by omega), List.map_cons, hsettled, List.replicate_succ', List.append_assoc]
          rfl
      | some l =>
          have hocc : ¬ c.IsEmpty := fun h => by
            cases (letter?_eq_none_iff.mpr h).symm.trans hletter
          obtain ⟨hdigit, hpiece⟩ := letter_of_owned hletter (hfirst hocc)
          have hsettled : c.settled i = { c with moves := c.presumedMoves i, lastMove := -1 } :=
            if_neg hocc
          simp only [writeCells, hletter]
          refine readCells_writeRun (by omega) (readCells_cons_eq_ok.mpr (.inr ?_))
          have hcells := @ih (col + run + 1) 0 hrest (by omega)
          refine ⟨hdigit, by omega, _, hpiece, _, hcells, ?_⟩
          rw [List.map_cons, hsettled]
          rfl

theorem readRows_map {f : Nat → List Char} {g : Nat → List Cell} {n : Nat}
    (h : ∀ i, readCells i (String.ofList (f i)) 0 (f i) = .ok (g i)) (start : Nat) :
    readRows start ((List.range' start n).map f) = .ok ((List.range' start n).map g) := by
  induction n generalizing start with
  | zero => rfl
  | succ n ih =>
      simp only [List.range'_succ, List.map_cons, readRows, h start, ih (start + 1), bind,
        Except.bind, pure, Except.pure]

theorem letter?_mem {c : Cell} {l : Char} (h : c.letter? = some l) :
    l ∈ ['p', 'n', 'b', 'r', 'q', 'k'] ++ ['P', 'N', 'B', 'R', 'Q', 'K'] := by
  unfold Cell.letter? at h
  by_cases howner : c.owner = some .white <;> cases hkind : c.kind <;>
    simp only [hkind, howner, Kind.letter?, Option.map_some, Option.map_none, if_true, if_false,
      Option.some.injEq, reduceCtorEq] at h <;> subst h <;> decide

theorem letter?_ne_separator {c : Cell} {l : Char} (h : c.letter? = some l) : l ≠ '/' ∧ l ≠ ' ' := by
  have table : ∀ l ∈ ['p', 'n', 'b', 'r', 'q', 'k'] ++ ['P', 'N', 'B', 'R', 'Q', 'K'],
      l ≠ '/' ∧ l ≠ ' ' := by
    decide
  exact table l (letter?_mem h)

theorem writeCells_notMem {cells : List Cell} {sep : Char} (hsep : sep = '/' ∨ sep = ' ') :
    sep ∉ writeCells run cells := by
  have hrun (n : Nat) : sep ∉ writeRun n := by
    simp only [writeRun]
    split_ifs
    · exact List.not_mem_nil
    · intro hmem
      have hdigit := Nat.isDigit_of_mem_toDigits (by decide) (by decide) hmem
      rcases hsep with rfl | rfl <;> cases hdigit
  induction cells generalizing run with
  | nil => exact hrun run
  | cons c cs ih =>
      cases hletter : c.letter? with
      | none =>
          simp only [writeCells, hletter]
          exact ih
      | some l =>
          obtain ⟨hslash, hblank⟩ := letter?_ne_separator hletter
          have hne : sep ≠ l := by
            rcases hsep with rfl | rfl
            · exact hslash.symm
            · exact hblank.symm
          simp only [writeCells, hletter, List.mem_append, List.mem_cons, not_or]
          exact ⟨hrun run, hne, ih⟩

theorem row_owned {b : Board} (h : b.Owned) (i : Nat) :
    ∀ c ∈ row b i, ¬ c.IsEmpty → c.owner.isSome := by
  intro c hc
  obtain ⟨j, -, rfl⟩ := List.mem_map.mp hc
  exact h _

theorem fields_write (b : Board) :
    Text.fields '/' (write b).toList = (List.range 8).map fun i => writeCells 0 (row b i) := by
  rw [write, String.toList_ofList, Text.fields_joinFields (by simp)]
  intro field hfield
  obtain ⟨i, -, rfl⟩ := List.mem_map.mp hfield
  exact writeCells_notMem (.inl rfl)

/-- A written board is read back with its pieces settled. -/
theorem read_write {b : Board} (h : b.Owned) : read (write b) = .ok b.settled := by
  have hrows : readRows 0 ((List.range 8).map fun i => writeCells 0 (row b i)) =
      .ok ((List.range 8).map fun i => (row b i).map (Cell.settled i)) := by
    rw [List.range_eq_range']
    refine readRows_map (fun i => ?_) 0
    refine (readCells_writeCells (row_owned h i) ?_).trans rfl
    simp [row]
  have hboard : ofRows ((List.range 8).map fun i => (row b i).map (Cell.settled i)) = b.settled := by
    apply Board.ext_get
    intro s hs
    rw [ofRows, Board.get_ofFn _ hs, b.get_settled s]
    obtain ⟨⟨hrow, hrow'⟩, hcol, hcol'⟩ := hs
    have hrowLt : s.row.toNat < 8 := by omega
    have hcolLt : s.col.toNat < 8 := by omega
    simp [row, hrowLt, hcolLt, hrow, hcol]
  unfold read
  simp only [fields_write, List.length_map, List.length_range, if_true, hrows, Except.map, hboard]

theorem forall_mem_write {b : Board} {P : Char → Prop} (slash : P '/')
    (rows : ∀ i, ∀ c ∈ writeCells 0 (row b i), P c) : ∀ c ∈ (write b).toList, P c := by
  intro c hc
  rw [write, String.toList_ofList] at hc
  rcases Text.mem_joinFields hc with rfl | ⟨field, hfield, hmem⟩
  · exact slash
  · obtain ⟨i, -, rfl⟩ := List.mem_map.mp hfield
    exact rows i c hmem

theorem write_notMem (b : Board) : ' ' ∉ (write b).toList := fun hblank =>
  forall_mem_write (P := (· ≠ ' ')) (by decide)
    (fun _ _ hc same => writeCells_notMem (.inr rfl) (same ▸ hc)) ' ' hblank rfl

end Placement
end Arbiter
