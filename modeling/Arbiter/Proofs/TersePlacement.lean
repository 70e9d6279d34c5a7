import Arbiter.Proofs.Grammar
import Arbiter.Proofs.Likeness
import Arbiter.Proofs.Placement
import Mathlib.Data.List.Chain

/-! # The shortest placement of a board

A placement may cut a run of vacant squares into several digits, hold zeros, and name a king by the
sign of the kelvin. What is written does none of this, its rows are `Terse`. Any other text of ASCII
characters that puts the same men on the board is longer (`write_abridges`).
-/

namespace Arbiter

namespace Text

def Ascii (cs : List Char) : Prop := ∀ c ∈ cs, c.toNat < 128

instance (cs : List Char) : Decidable (Ascii cs) :=
  inferInstanceAs (Decidable (∀ c ∈ cs, c.toNat < 128))

/-- The first text is the second one, or shorter. -/
def Abridges (cs ds : List Char) : Prop := cs = ds ∨ cs.length < ds.length

namespace Abridges

variable {as bs cs ds : List Char}

theorem refl (cs : List Char) : Abridges cs cs := .inl rfl

theorem length_le (h : Abridges cs ds) : cs.length ≤ ds.length := by
  rcases h with rfl | h
  · exact le_rfl
  · exact h.le

theorem trans (h : Abridges as bs) (h' : Abridges bs cs) : Abridges as cs := by
  rcases h with rfl | h
  · exact h'
  · exact .inr (h.trans_le h'.length_le)

theorem append (h : Abridges as bs) (h' : Abridges cs ds) : Abridges (as ++ cs) (bs ++ ds) := by
  have hfirst := h.length_le
  have hsecond := h'.length_le
  rcases h with rfl | h
  · rcases h' with rfl | h'
    · exact .refl _
    · exact .inr (by simp only [List.length_append]; omega)
  · exact .inr (by simp only [List.length_append]; omega)

theorem joinFields {sep : Char} {fs gs : List (List Char)} (h : List.Forall₂ Abridges fs gs) :
    Abridges (Text.joinFields sep fs) (Text.joinFields sep gs) := by
  induction h with
  | nil => exact .refl []
  | cons hfirst hrest ih =>
      cases hrest with
      | nil => exact hfirst
      | cons => exact hfirst.append ((refl [sep]).append ih)

end Abridges
end Text

namespace Grammar

/-- A row of ASCII letters in which each run of vacant squares is one digit. -/
structure Terse (row : List Char) : Prop where
  runs : row.IsChain fun c d => ¬ (c.isDigit = true ∧ d.isDigit = true)
  nonzero : '0' ∉ row
  ascii : Text.Ascii row

theorem Terse.append {cs ds : List Char} (h : Terse cs) (h' : Terse ds)
    (apart : ∀ c ∈ cs.getLast?, ∀ d ∈ ds.head?, ¬ (c.isDigit = true ∧ d.isDigit = true)) :
    Terse (cs ++ ds) where
  runs := h.runs.append h'.runs apart
  nonzero := by
    rw [List.mem_append, not_or]
    exact ⟨h.nonzero, h'.nonzero⟩
  ascii := List.forall_mem_append.mpr ⟨h.ascii, h'.ascii⟩

end Grammar

/-- A square is empty if it is nobody's, and holds a piece if it is a player's. -/
def Board.Proper (b : Board) : Prop :=
  ∀ s, (b.get s).IsEmpty ↔ (b.get s).owner = none

theorem Board.Proper.owned {b : Board} (h : b.Proper) : b.Owned := fun s hocc =>
  Option.isSome_iff_ne_none.mpr fun hnone => hocc ((h s).mpr hnone)

theorem Board.Proper.settled_men {b : Board} (h : b.Proper) : SameMen b.settled b := by
  constructor
  · intro s
    rw [b.get_settled s, Cell.settled_kind]
  · intro s
    rw [b.get_settled s, Cell.settled_owner (h s).mp]

namespace Placement

open Grammar

variable {run i : Nat} {c : Char} {cs : List Char} {cells : List Cell} {text : String} {b : Board}

theorem writeRun_of_pos (hpos : 0 < run) (hfits : run < 10) :
    writeRun run = [Nat.digitChar run] := by
  rw [writeRun, if_neg hpos.ne', Nat.toDigits_of_lt_base hfits]

theorem digitChar_of_digit (h : c.isDigit = true) : Nat.digitChar (c.toNat - 48) = c := by
  obtain ⟨hlow, hhigh⟩ := Char.isDigit_iff_toNat.mp h
  rw [← Char.ofNat_toNat c]
  generalize c.toNat = n at hlow hhigh
  change 48 ≤ n at hlow
  change n ≤ 57 at hhigh
  interval_cases n <;> decide

theorem writeRun_abridges (hdigit : c.isDigit = true) (hfits : run + (c.toNat - 48) < 10) :
    Text.Abridges (writeRun (run + (c.toNat - 48))) (writeRun run ++ [c]) := by
  rcases Nat.eq_zero_or_pos run with rfl | hrun
  · rw [Nat.zero_add] at hfits ⊢
    rcases Nat.eq_zero_or_pos (c.toNat - 48) with hzero | hpos
    · rw [hzero]
      exact .inr Nat.one_pos
    · rw [writeRun_of_pos hpos hfits, digitChar_of_digit hdigit]
      exact .refl [c]
  · rw [writeRun_of_pos (Nat.add_pos_left hrun _) hfits, writeRun_of_pos hrun (by omega)]
    exact .inr Nat.one_lt_two

theorem terse_writeRun (hfits : run < 10) : Terse (writeRun run) := by
  rcases Nat.eq_zero_or_pos run with rfl | hpos
  · exact ⟨.nil, List.not_mem_nil, nofun⟩
  · rw [writeRun_of_pos hpos hfits]
    have hdigit : '0' ∉ [Nat.digitChar run] ∧ Text.Ascii [Nat.digitChar run] := by
      interval_cases run <;> decide
    exact ⟨.singleton _, hdigit.1, hdigit.2⟩

theorem terse_writeCells (hfits : run + cells.length < 10) : Terse (writeCells run cells) := by
  induction cells generalizing run with
  | nil => exact terse_writeRun hfits
  | cons c cs ih =>
      rw [List.length_cons] at hfits
      cases hletter : c.letter? with
      | none =>
          simp only [writeCells, hletter]
          exact ih (by omega)
      | some l =>
          have table : ∀ l ∈ ['p', 'n', 'b', 'r', 'q', 'k'] ++ ['P', 'N', 'B', 'R', 'Q', 'K'],
              l.isDigit = false ∧ '0' ∉ [l] ∧ Text.Ascii [l] := by
            decide
          obtain ⟨hdigit, hzero, hascii⟩ := table l (letter?_mem hletter)
          have hfirst : Terse [l] := ⟨.singleton l, hzero, hascii⟩
          have hrest : Terse (l :: writeCells 0 cs) := by
            refine hfirst.append (ih (by omega)) ?_
            rintro _ ⟨⟩ d - ⟨hl, -⟩
            cases hdigit.symm.trans hl
          simp only [writeCells, hletter]
          refine (terse_writeRun (by omega)).append hrest ?_
          rintro d - _ ⟨⟩ ⟨-, hl⟩
          cases hdigit.symm.trans hl

theorem letter?_standing (hsymbol : Symbol c) (hletter : c.isDigit = false)
    (hascii : c.toNat < 128) : (standing i (some c)).letter? = some c := by
  have table : ∀ c ∈ ['p', 'n', 'b', 'r', 'q', 'k'] ++ ['P', 'N', 'B', 'R', 'Q', 'K', '\u212a'],
      c.toNat < 128 → (Cell.ofLetter? c).bind Cell.letter? = some c := by
    decide +kernel
  have hmem := (symbol_iff.mp hsymbol).resolve_left (by simp [hletter])
  obtain ⟨piece, hpiece, hwritten⟩ := Option.bind_eq_some_iff.mp (table c hmem hascii)
  rw [standing, hpiece]
  exact hwritten

theorem writeCells_replicate (run k : Nat) (cells : List Cell) :
    writeCells run (List.replicate k .vacant ++ cells) = writeCells (run + k) cells := by
  induction k generalizing run with
  | zero => rfl
  | succ k ih =>
      rw [List.replicate_succ, List.cons_append, Nat.add_comm k 1, ← Nat.add_assoc]
      exact ih (run + 1)

/-- Writing what has been read from a row gives the row itself, or a shorter one. -/
theorem writeCells_abridges (hsymbols : ∀ c ∈ cs, Symbol c) (hascii : Text.Ascii cs)
    (hfits : run + (squares cs).length < 10) :
    Text.Abridges (writeCells run ((squares cs).map (standing i))) (writeRun run ++ cs) := by
  induction cs generalizing run with
  | nil =>
      rw [List.append_nil]
      exact .refl _
  | cons c cs ih =>
      obtain ⟨hsymbol, hrest⟩ := List.forall_mem_cons.mp hsymbols
      obtain ⟨hfirst, hrest'⟩ := List.forall_mem_cons.mp hascii
      simp only [squares, List.flatMap_cons, List.length_append] at hfits
      simp only [squares, List.flatMap_cons, List.map_append]
      cases hdigit : c.isDigit with
      | true =>
          rw [spread_of_digit hdigit] at hfits ⊢
          rw [List.length_replicate, ← Nat.add_assoc] at hfits
          rw [List.map_replicate]
          have hrun := writeRun_abridges hdigit (Nat.lt_of_le_of_lt (Nat.le_add_right _ _) hfits)
          have hcells := (ih hrest hrest' hfits).trans (hrun.append (.refl cs))
          rw [List.append_assoc] at hcells
          rwa [← writeCells_replicate] at hcells
      | false =>
          rw [spread_of_letter hdigit] at hfits ⊢
          have hcells := @ih 0 hrest hrest' (by simp only [squares]; omega)
          simp only [List.map_singleton, List.singleton_append, writeCells,
            letter?_standing hsymbol hdigit hfirst]
          exact (Text.Abridges.refl _).append ((Text.Abridges.refl [c]).append hcells)

theorem row_of_read (h : read text = .ok b) (hrow : (Text.fields '/' text.toList)[i]? = some cs) :
    row b i = (squares cs).map (standing i) := by
  obtain ⟨⟨hheight, hrows⟩, -⟩ := read_eq_ok_iff.mp h
  have hi : i < 8 := hheight ▸ (List.getElem?_eq_some_iff.mp hrow).1
  have hfull := (hrows cs (List.mem_of_getElem? hrow)).full
  apply List.ext_getElem
  · rw [row, List.length_map, List.length_range, List.length_map, hfull]
  · intro j hj hj'
    rw [row, List.length_map, List.length_range] at hj
    have hon : (⟨i, j⟩ : Square).OnBoard := by
      simp only [Square.OnBoard]
      omega
    simp only [row, List.getElem_map, List.getElem_range]
    rw [get_of_read h hon]
    simp only [Int.toNat_natCast, hrow, Option.bind_some]
    rw [List.getElem?_eq_getElem (by omega), Option.join_some]

theorem write_abridges (h : read text = .ok b) (hascii : Text.Ascii text.toList) :
    Text.Abridges (write b).toList text.toList := by
  obtain ⟨⟨hheight, hrows⟩, -⟩ := read_eq_ok_iff.mp h
  rw [write, String.toList_ofList]
  rw [← Text.joinFields_fields '/' text.toList]
  refine Text.Abridges.joinFields (List.forall₂_iff_get.mpr ⟨by simp [hheight], fun i hi hi' => ?_⟩)
  have hrow := List.getElem?_eq_getElem hi'
  have hrowOk := hrows _ (List.getElem_mem hi')
  have hrowAscii : Text.Ascii ((Text.fields '/' text.toList)[i]) := fun c hc => by
    apply hascii
    rw [← Text.joinFields_fields '/' text.toList]
    exact Text.mem_joinFields_of_mem (List.getElem_mem hi') hc
  simp only [List.get_eq_getElem, List.getElem_map, List.getElem_range, row_of_read h hrow]
  exact writeCells_abridges hrowOk.symbols hrowAscii (by rw [hrowOk.full]; decide)

theorem terse_row (b : Board) (i : Nat) : Terse (writeCells 0 (row b i)) :=
  terse_writeCells (by simp [row])

theorem ascii_write (b : Board) : Text.Ascii (write b).toList :=
  forall_mem_write (by decide) fun i => (terse_row b i).ascii

theorem proper_of_read (h : read text = .ok b) : b.Proper := by
  intro s
  by_cases hs : s.OnBoard
  · rcases fresh_of_read h hs with hvacant | ⟨⟨hkind, howner⟩, -⟩
    · rw [hvacant]
      exact iff_of_true rfl rfl
    · exact iff_of_false hkind (Option.isSome_iff_ne_none.mp howner)
  · rw [Board.get_of_not_onBoard _ hs]
    exact iff_of_true rfl rfl

theorem settled_of_read (h : read text = .ok b) : b.settled = b := by
  apply Board.ext_get
  intro s hs
  rw [b.get_settled s]
  rcases fresh_of_read h hs with hvacant | ⟨⟨hkind, -⟩, hmoves, hstamp⟩
  · rw [hvacant]
    exact if_pos rfl
  · rw [Cell.settled_of_occupied hkind, ← hmoves, ← hstamp]

theorem read_write_of_read (h : read text = .ok b) : read (write b) = .ok b := by
  rw [read_write (proper_of_read h).owned, settled_of_read h]

theorem write_eq_iff {b c : Board} (hb : b.Proper) (hc : c.Proper) :
    write b = write c ↔ SameMen b c := by
  constructor
  · intro h
    have hsettled : b.settled = c.settled := by
      have hread := read_write hb.owned
      rw [h, read_write hc.owned] at hread
      exact (Except.ok.inj hread).symm
    have hmen := hb.settled_men
    rw [hsettled] at hmen
    exact hmen.symm.trans hc.settled_men
  · exact SameMen.write_eq

/-- Of the texts of ASCII characters that put the same men on the board, the written one is the
shortest, and no other is as short. -/
theorem write_shortest {c : Board} {other : String} (h : read other = .ok c)
    (hascii : Text.Ascii other.toList) (hmen : SameMen c b) :
    other = write b ∨ (write b).length < other.length := by
  have habridges := write_abridges h hascii
  rw [hmen.write_eq] at habridges
  rcases habridges with hsame | hshorter
  · exact .inl (String.toList_inj.mp hsame).symm
  · exact .inr (by rwa [String.length_toList, String.length_toList] at hshorter)

/-- A board is read back from what is written for it with the same men on all squares, settled in
their rows, so what is written tells how the men stand and nothing else. What is written for the
board that a text is read as is the shortest of all texts of ASCII characters for its men, and the
only one of its length; it is read as the same board. -/
theorem placement_lossless_and_shortest :
    (∀ b : Board, b.Proper → ∃ c, read (write b) = .ok c ∧ SameMen c b ∧
      ∀ s, (c.get s).lastMove = -1 ∧
        (¬ (b.get s).IsEmpty → (c.get s).moves = (b.get s).presumedMoves s.row.toNat)) ∧
      (∀ b c : Board, b.Proper → c.Proper → (write b = write c ↔ SameMen b c)) ∧
      ∀ (text : String) (b : Board), read text = .ok b →
        (Text.Ascii (write b).toList ∧ read (write b) = .ok b) ∧
          ∀ (other : String) (c : Board), Text.Ascii other.toList → read other = .ok c →
            SameMen c b → other = write b ∨ (write b).length < other.length := by
  refine ⟨fun b hb => ⟨b.settled, read_write hb.owned, hb.settled_men, fun s => ?_⟩,
    fun b c => write_eq_iff, fun text b h => ⟨⟨ascii_write b, read_write_of_read h⟩,
      fun other c hascii hother => write_shortest hother hascii⟩⟩
  rw [b.get_settled s]
  constructor
  · exact Cell.settled_lastMove _ _
  · intro hocc
    rw [Cell.settled_of_occupied hocc]

/-- Runs in pieces, rows of zeros, and a white king by the sign of the kelvin. -/
def loosePlacement : String := "rnbq\u212abnr/ppp1pppp/08/2001p400/44/80/PPPPPPPP/RNBQKBNR"

/-- The same men, in ASCII and with fewer digits, but not with the fewest. -/
def plainPlacement : String := "rnbqKbnr/ppp1pppp/8/3p4/44/8/PPPPPPPP/RNBQKBNR"

def looseBoard : Board := (read loosePlacement).toOption.getD .bare

theorem loosePlacement_rewritten :
    ((read loosePlacement = .ok looseBoard ∧ looseBoard.Proper) ∧
      (Text.Ascii plainPlacement.toList ∧ read plainPlacement = .ok looseBoard)) ∧
      (∃ c, read (write looseBoard) = .ok c ∧ SameMen c looseBoard) ∧
      read (write looseBoard) = .ok looseBoard ∧
      (write looseBoard).length < plainPlacement.length := by
  have hread : read loosePlacement = .ok looseBoard := by decide +kernel
  have hascii : Text.Ascii plainPlacement.toList := by decide +kernel
  have hplain : read plainPlacement = .ok looseBoard := by decide +kernel
  have hproper := proper_of_read hread
  obtain ⟨back, -, forth⟩ := placement_lossless_and_shortest
  obtain ⟨c, hagain, hmen, -⟩ := back looseBoard hproper
  obtain ⟨⟨-, hsame⟩, shortest⟩ := forth loosePlacement looseBoard hread
  have hother : plainPlacement ≠ write looseBoard := by decide +kernel
  exact ⟨⟨⟨hread, hproper⟩, hascii, hplain⟩, ⟨c, hagain, hmen⟩, hsame,
    (shortest plainPlacement looseBoard hascii hplain (.refl _)).resolve_left hother⟩

end Placement
end Arbiter
