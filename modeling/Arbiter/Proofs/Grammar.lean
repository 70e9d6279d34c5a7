import Arbiter.Proofs.Setup

/-! # The grammar of descriptors

Which texts state a position, told without reading them character by character. `Stands` says what a
placement puts on a square, and the parts that speak of the board are told through it. A placement is
read exactly if all its rows are in order (`read_eq_ok_iff`), and the board then holds what stands in
the text (`stands_iff`).
-/

namespace Arbiter

namespace Grammar

/-- The character is the letter of a player's piece: its lower case is the letter of the kind, and
black's letters are in lower case already. -/
def Letter (c : Char) (kind : Kind) (side : Side) : Prop :=
  ∃ l, Text.lower? c = some l ∧ kind.letter? = some l ∧ (side = .black ↔ l = c)

/-- A digit, or a character whose lower case is the letter of a piece. -/
def Symbol (c : Char) : Prop :=
  c.isDigit = true ∨ ∃ l ∈ ['p', 'n', 'b', 'r', 'q', 'k'], Text.lower? c = some l

/-- The squares that a character of a row covers: a digit so many vacant ones, and a letter its
own. -/
def spread (c : Char) : List (Option Char) :=
  if c.isDigit then List.replicate (c.toNat - '0'.toNat) none else [some c]

/-- The squares of a row, with the letters that stand there. -/
def squares (row : List Char) : List (Option Char) := row.flatMap spread

/-- A row is made of symbols and covers eight squares. -/
structure Row (row : List Char) : Prop where
  symbols : ∀ c ∈ row, Symbol c
  full : (squares row).length = 8

/-- The rows put a player's piece on a square. -/
def Stands (rows : List (List Char)) (row col : Nat) (kind : Kind) (side : Side) : Prop :=
  ∃ cs c, rows[row]? = some cs ∧ (squares cs)[col]? = some (some c) ∧ Letter c kind side

inductive Player : Side → List Char → Prop where
  | white : Player .white ['w']
  | black : Player .black ['b']

/-- The corner for the letter of a castling right, and the player. -/
inductive Corner : Char → Nat → Nat → Side → Prop where
  | whiteShort : Corner 'K' 7 7 .white
  | whiteLong : Corner 'Q' 7 0 .white
  | blackShort : Corner 'k' 0 7 .black
  | blackLong : Corner 'q' 0 0 .black

/-- A dash, or different letters, at least one, each for a corner with a rook of the player's. -/
inductive Rights (rows : List (List Char)) : List Char → Prop where
  | none : Rights rows ['-']
  | some {letters : List Char} (nonempty : letters ≠ []) (distinct : letters.Nodup)
      (rooks : ∀ c ∈ letters, ∃ row col side, Corner c row col side ∧
        Stands rows row col .rook side) : Rights rows letters

/-- A dash, or a square on the rank that a pawn of the player who just moved has passed, with that
pawn one row further on. -/
inductive Passing (rows : List (List Char)) : Side → List Char → Prop where
  | none {side : Side} : Passing rows side ['-']
  | behindBlack {file : Char} (named : 'a' ≤ file ∧ file ≤ 'h')
      (pawn : Stands rows 3 (file.toNat - 'a'.toNat) .pawn .black) : Passing rows .white [file, '6']
  | behindWhite {file : Char} (named : 'a' ≤ file ∧ file ≤ 'h')
      (pawn : Stands rows 4 (file.toNat - 'a'.toNat) .pawn .white) : Passing rows .black [file, '3']

/-- At most two runs of digits, and the second is not zero. -/
structure Counters (parts : List (List Char)) : Prop where
  number : parts.length ≤ 2
  digits : ∀ part ∈ parts, part ≠ [] ∧ ∀ c ∈ part, c.isDigit = true
  turn : ∀ part, parts[1]? = some part → ∃ c ∈ part, c ≠ '0'

end Grammar

open Grammar in
/-- The text belongs to the grammar of descriptors: four to six parts between blanks, of which the
first is eight rows between slashes. -/
inductive Grammatical (text : String) : Prop where
  | intro {placement player rights passing : List Char} {counters rows : List (List Char)}
      {side : Side}
      (parts : Text.fields ' ' text.toList = placement :: player :: rights :: passing :: counters)
      (cut : Text.fields '/' placement = rows) (height : rows.length = 8)
      (rowByRow : ∀ row ∈ rows, Row row) (player : Player side player)
      (rights : Rights rows rights) (passing : Passing rows side passing)
      (counters : Counters counters) : Grammatical text

open Grammar in
/-- The parts after the first one have their shapes, whatever stands on the board, but there is a
counter of more digits than are read. -/
inductive Overlong (text : String) : Prop where
  | intro {placement player rights passing : List Char} {counters : List (List Char)} {side : Side}
      (parts : Text.fields ' ' text.toList = placement :: player :: rights :: passing :: counters)
      (number : counters.length ≤ 2) (player : Player side player)
      (rights : rights = ['-'] ∨
        (rights ≠ [] ∧ rights.Nodup ∧ ∀ c ∈ rights, ∃ row col side, Corner c row col side))
      (passing : passing = ['-'] ∨
        ∃ file, ('a' ≤ file ∧ file ≤ 'h') ∧ (passing = [file, '6'] ∨ passing = [file, '3']))
      (digits : ∀ part ∈ counters, part ≠ [] ∧ ∀ c ∈ part, c.isDigit = true)
      (overlong : ∃ part ∈ counters, Numeral.maxDigits < part.length) : Overlong text

namespace Text

/-- The code point that a run would take to a character. -/
def CaseRun.origin (r : CaseRun) (l : Char) : Nat := ((l.toNat : Int) - r.shift).toNat

theorem lower?_cases {c l : Char} (h : lower? c = some l) (hl : 0 < l.toNat) : c = l ∨
    ∃ r ∈ caseRuns, r.contains (r.origin l) = true ∧ c = Char.ofNat (r.origin l) := by
  unfold lower? at h
  split_ifs at h
  split at h
  · rename_i r hr
    have hchar : Char.ofNat (r.lower c.toNat) = l := Option.some.inj h
    have hvalue : r.lower c.toNat = l.toNat := by
      by_cases hvalid : (r.lower c.toNat).isValidChar
      · rw [← hchar, Char.ofNat, dif_pos hvalid]
        rfl
      · have hzero : l.toNat = 0 := by
          rw [← hchar, Char.ofNat, dif_neg hvalid]
          rfl
        exact absurd hzero hl.ne'
    have horigin : r.origin l = c.toNat := by
      unfold CaseRun.lower at hvalue
      unfold CaseRun.origin
      omega
    have hcontains := List.find?_some hr
    rw [← horigin] at hcontains
    refine .inr ⟨r, List.mem_of_find?_eq_some hr, hcontains, ?_⟩
    rw [horigin, Char.ofNat_toNat]
  · exact .inl (Option.some.inj h)

end Text

namespace Grammar

/-- The symbols are the digits, the letters of both players, and one more: the sign of the kelvin is
a k in lower case, and so a king of white's. -/
theorem symbol_iff {c : Char} : Symbol c ↔ c.isDigit = true ∨
    c ∈ ['p', 'n', 'b', 'r', 'q', 'k'] ++ ['P', 'N', 'B', 'R', 'Q', 'K', '\u212a'] := by
  have table : ∀ r ∈ Text.caseRuns, ∀ l ∈ ['p', 'n', 'b', 'r', 'q', 'k'],
      r.contains (r.origin l) = true →
        Char.ofNat (r.origin l) ∈ ['P', 'N', 'B', 'R', 'Q', 'K', '\u212a'] := by
    decide +kernel
  have lowered : ∀ c ∈ ['p', 'n', 'b', 'r', 'q', 'k'] ++ ['P', 'N', 'B', 'R', 'Q', 'K', '\u212a'],
      ∃ l ∈ ['p', 'n', 'b', 'r', 'q', 'k'], Text.lower? c = some l := by
    decide +kernel
  have positive : ∀ l ∈ ['p', 'n', 'b', 'r', 'q', 'k'], 0 < l.toNat := by simp
  apply or_congr_right
  constructor
  · rintro ⟨l, hl, hlower⟩
    rcases Text.lower?_cases hlower (positive l hl) with rfl | ⟨r, hr, hcontains, rfl⟩
    · exact List.mem_append_left _ hl
    · exact List.mem_append_right _ (table r hr l hl hcontains)
  · exact lowered c

theorem exists_letter_iff {c : Char} : (∃ kind side, Letter c kind side) ↔
    ∃ l ∈ ['p', 'n', 'b', 'r', 'q', 'k'], Text.lower? c = some l := by
  constructor
  · intro prem
    obtain ⟨kind, side, l, hlower, hkind, -⟩ := prem
    refine ⟨l, ?_, hlower⟩
    cases kind <;> cases hkind <;> simp
  · intro prem
    obtain ⟨l, hl, hlower⟩ := prem
    have hkind : ∃ kind : Kind, kind.letter? = some l := by
      simp only [List.mem_cons, List.not_mem_nil, or_false] at hl
      rcases hl with rfl | rfl | rfl | rfl | rfl | rfl
      exacts [⟨.pawn, rfl⟩, ⟨.knight, rfl⟩, ⟨.bishop, rfl⟩, ⟨.rook, rfl⟩, ⟨.queen, rfl⟩,
        ⟨.king, rfl⟩]
    obtain ⟨kind, hkind⟩ := hkind
    by_cases hc : l = c
    · exact ⟨kind, .black, l, hlower, hkind, iff_of_true rfl hc⟩
    · exact ⟨kind, .white, l, hlower, hkind, iff_of_false (by decide) hc⟩

theorem ofLetter?_eq_some_iff {c : Char} {piece : Cell} :
    Cell.ofLetter? c = some piece ↔
      ∃ kind side, Letter c kind side ∧ piece = { kind, owner := some side } := by
  simp only [Cell.ofLetter?, Option.bind_eq_bind, Option.bind_eq_some_iff,
    Kind.ofLetter?_eq_some_iff, Letter]
  constructor
  · rintro ⟨l, hlower, kind, hkind, hpiece⟩
    cases hpiece
    refine ⟨kind, _, ⟨l, hlower, hkind, ?_⟩, rfl⟩
    split_ifs with hc <;> simp [hc]
  · rintro ⟨kind, side, ⟨l, hlower, hkind, hside⟩, rfl⟩
    refine ⟨l, hlower, kind, hkind, ?_⟩
    split_ifs with hc
    · rw [hside.mpr hc]
    · cases side with
      | white => rfl
      | black => exact absurd (hside.mp rfl) hc

/-- What reading puts on a square of a row. -/
def standing (row : Nat) : Option Char → Cell
  | none => .vacant
  | some c => (Cell.ofLetter? c).elim .vacant fun piece =>
      { piece with moves := piece.presumedMoves row }

theorem spread_of_digit {c : Char} (h : c.isDigit = true) :
    spread c = List.replicate (c.toNat - 48) none := if_pos h

theorem spread_of_letter {c : Char} (h : c.isDigit = false) : spread c = [some c] :=
  if_neg (by simp [h])

theorem symbol_of_letter {c : Char} (h : c.isDigit = false) :
    Symbol c ↔ ∃ piece, Cell.ofLetter? c = some piece := by
  simp only [Symbol, h, Bool.false_eq_true, false_or, ← exists_letter_iff, ofLetter?_eq_some_iff]
  constructor
  · rintro ⟨kind, side, hletter⟩
    exact ⟨_, kind, side, hletter, rfl⟩
  · rintro ⟨_, kind, side, hletter, -⟩
    exact ⟨kind, side, hletter⟩

/-- A row is read exactly if its symbols cover what is left of it, and read as they say. -/
theorem readCells_eq_ok_iff {row col : Nat} {text : String} {cs : List Char} {cells : List Cell} :
    Placement.readCells row text col cs = .ok cells ↔
      ((∀ c ∈ cs, Symbol c) ∧ col + (squares cs).length = 8) ∧
        cells = (squares cs).map (standing row) := by
  induction cs generalizing col cells with
  | nil =>
      simp only [Placement.readCells, squares, List.flatMap_nil, List.length_nil, List.map_nil,
        List.not_mem_nil, false_implies, implies_true, true_and, Nat.add_zero]
      split_ifs with hcol <;> simp [hcol, eq_comm]
  | cons c cs ih =>
      rw [Placement.readCells_cons_eq_ok, List.forall_mem_cons]
      simp only [ih, squares, List.flatMap_cons, List.length_append, List.map_append]
      cases hdigit : c.isDigit with
      | true =>
          have hsymbol : Symbol c := .inl hdigit
          rw [spread_of_digit hdigit, List.length_replicate, List.map_replicate]
          constructor
          · rintro (⟨-, -, rest, ⟨⟨hsymbols, hfull⟩, rfl⟩, rfl⟩ | ⟨hletter, -⟩)
            · exact ⟨⟨⟨hsymbol, hsymbols⟩, by omega⟩, rfl⟩
            · cases hletter
          · rintro ⟨⟨⟨-, hsymbols⟩, hfull⟩, rfl⟩
            exact .inl ⟨rfl, by omega, _, ⟨⟨hsymbols, by omega⟩, rfl⟩, rfl⟩
      | false =>
          rw [spread_of_letter hdigit, symbol_of_letter hdigit, List.length_singleton,
            List.map_singleton]
          constructor
          · rintro (⟨hdigit', -⟩ | ⟨-, -, piece, hpiece, rest, ⟨⟨hsymbols, hfull⟩, rfl⟩, rfl⟩)
            · cases hdigit'
            · refine ⟨⟨⟨⟨piece, hpiece⟩, hsymbols⟩, by omega⟩, ?_⟩
              rw [standing, hpiece]
              rfl
          · rintro ⟨⟨⟨⟨piece, hpiece⟩, hsymbols⟩, hfull⟩, rfl⟩
            refine .inr ⟨rfl, by omega, piece, hpiece, _, ⟨⟨hsymbols, by omega⟩, rfl⟩, ?_⟩
            rw [standing, hpiece]
            rfl

theorem readCells_row_iff {i : Nat} {text : String} {row : List Char} {cells : List Cell} :
    Placement.readCells i text 0 row = .ok cells ↔
      Row row ∧ cells = (squares row).map (standing i) := by
  rw [readCells_eq_ok_iff, Nat.zero_add]
  exact and_congr_left' ⟨fun h => ⟨h.1, h.2⟩, fun h => ⟨h.symbols, h.full⟩⟩

theorem readRows_eq_ok_iff {start : Nat} {rows : List (List Char)} {cells : List (List Cell)} :
    Placement.readRows start rows = .ok cells ↔ (∀ row ∈ rows, Row row) ∧
      cells = rows.mapIdx fun i row => (squares row).map (standing (start + i)) := by
  induction rows generalizing start cells with
  | nil => simp [Placement.readRows, eq_comm]
  | cons row rows ih =>
      rw [Placement.readRows, List.forall_mem_cons, List.mapIdx_cons]
      simp only [← Nat.add_assoc, Nat.add_right_comm start _ 1]
      constructor
      · intro h
        cases hrow : Placement.readCells start (String.ofList row) 0 row with
        | error e =>
            rw [hrow] at h
            cases h
        | ok first =>
            cases hrows : Placement.readRows (start + 1) rows with
            | error e =>
                rw [hrow, hrows] at h
                cases h
            | ok others =>
                rw [hrow, hrows] at h
                cases h
                obtain ⟨hfirst, rfl⟩ := readCells_row_iff.mp hrow
                obtain ⟨hothers, rfl⟩ := ih.mp hrows
                exact ⟨⟨hfirst, hothers⟩, rfl⟩
      · rintro ⟨⟨hrow, hrows⟩, rfl⟩
        rw [readCells_row_iff.mpr ⟨hrow, rfl⟩, ih.mpr ⟨hrows, rfl⟩]
        rfl

theorem read_eq_ok_iff {text : String} {b : Board} : Placement.read text = .ok b ↔
    ((Text.fields '/' text.toList).length = 8 ∧ ∀ row ∈ Text.fields '/' text.toList, Row row) ∧
      b = Placement.ofRows ((Text.fields '/' text.toList).mapIdx fun i row =>
        (squares row).map (standing i)) := by
  unfold Placement.read
  simp only
  split_ifs with hheight
  · rw [and_iff_right hheight]
    cases hrows : Placement.readRows 0 (Text.fields '/' text.toList) with
    | error e =>
        refine iff_of_false nofun fun prem => ?_
        cases hrows.symm.trans (readRows_eq_ok_iff.mpr ⟨prem.1, rfl⟩)
    | ok cells =>
        obtain ⟨hrow, rfl⟩ := readRows_eq_ok_iff.mp hrows
        simp only [Nat.zero_add, Except.map, Except.ok.injEq, and_iff_right hrow, eq_comm]
  · exact iff_of_false nofun fun prem => hheight prem.1.1

theorem standing_iff {i : Nat} {symbol : Option Char} {kind : Kind} {side : Side} :
    (standing i symbol).kind = kind ∧ (standing i symbol).owner = some side ↔
      ∃ c, symbol = some c ∧ Letter c kind side := by
  have vacant : ¬ (Cell.vacant.kind = kind ∧ Cell.vacant.owner = some side) := nofun
  cases symbol with
  | none => exact iff_of_false vacant nofun
  | some c =>
      simp only [Option.some.injEq, exists_eq_left']
      constructor
      · intro h
        cases hpiece : Cell.ofLetter? c with
        | none =>
            rw [standing, hpiece] at h
            exact absurd h vacant
        | some piece =>
            obtain ⟨kind', side', hletter, rfl⟩ := ofLetter?_eq_some_iff.mp hpiece
            rw [standing, hpiece] at h
            obtain ⟨hkind, hside⟩ := h
            cases hkind
            cases hside
            exact hletter
      · intro hletter
        rw [standing, ofLetter?_eq_some_iff.mpr ⟨kind, side, hletter, rfl⟩]
        exact ⟨rfl, rfl⟩

theorem get_of_read {text : String} {b : Board} (h : Placement.read text = .ok b) {s : Square}
    (hs : s.OnBoard) : b.get s = standing s.row.toNat
      ((Text.fields '/' text.toList)[s.row.toNat]?.bind fun row =>
        (squares row)[s.col.toNat]?.join) := by
  obtain ⟨-, rfl⟩ := read_eq_ok_iff.mp h
  rw [Placement.ofRows, Board.get_ofFn _ hs, List.getElem?_mapIdx]
  cases (Text.fields '/' text.toList)[s.row.toNat]? with
  | none => rfl
  | some row =>
      simp only [Option.map_some, Option.bind_some, List.getElem?_map]
      cases (squares row)[s.col.toNat]? <;> rfl

/-- What a placement puts on a square is found there on the board. -/
theorem stands_iff {text : String} {b : Board} (h : Placement.read text = .ok b) {s : Square}
    (hs : s.OnBoard) {kind : Kind} {side : Side} :
    (b.get s).kind = kind ∧ (b.get s).owner = some side ↔
      Stands (Text.fields '/' text.toList) s.row.toNat s.col.toNat kind side := by
  rw [get_of_read h hs, standing_iff, Stands]
  simp only [Option.bind_eq_some_iff, Option.join_eq_some_iff]
  constructor
  · rintro ⟨c, ⟨row, hrow, hc⟩, hletter⟩
    exact ⟨row, c, hrow, hc, hletter⟩
  · rintro ⟨row, c, hrow, hc, hletter⟩
    exact ⟨c, ⟨row, hrow, hc⟩, hletter⟩

end Grammar
end Arbiter
