import Arbiter.Proofs.DeclaredFaults
import Arbiter.Proofs.Grammar
import Mathlib.Tactic.IntervalCases

/-! # Recognising descriptors

Reading and setting up a descriptor accepts the texts of the grammar and refuses all others. The
parts are compared with the grammar one by one, those that speak of the board through `stands_iff`.
A text outside the grammar is refused with a message, so there is an answer for every text with
counters short enough to be read.
-/

namespace Arbiter

namespace Grammar

theorem toMove?_eq_some_iff {part : List Char} {side : Side} :
    Descriptor.toMove? part = some side ↔ Player side part := by
  constructor
  · intro h
    unfold Descriptor.toMove? at h
    split at h
    · cases h
      exact .white
    · cases h
      exact .black
    · cases h
  · intro h
    cases h <;> rfl

theorem corner_of_right (right : CastlingRight) :
    Corner right.letter right.rookHome.row.toNat right.rookHome.col.toNat right.side := by
  rcases right with ⟨_ | _, _ | _⟩
  exacts [.whiteShort, .whiteLong, .blackShort, .blackLong]

theorem Corner.exists_right {c : Char} {row col : Nat} {side : Side}
    (h : Corner c row col side) : ∃ right : CastlingRight,
      right.letter = c ∧ right.rookHome = ⟨row, col⟩ ∧ right.side = side := by
  cases h
  exacts [⟨⟨.white, .kingSide⟩, rfl, rfl, rfl⟩, ⟨⟨.white, .queenSide⟩, rfl, rfl, rfl⟩,
    ⟨⟨.black, .kingSide⟩, rfl, rfl, rfl⟩, ⟨⟨.black, .queenSide⟩, rfl, rfl, rfl⟩]

theorem isField_iff {part : List Char} : CastlingRight.isField part = true ↔ part = ['-'] ∨
    (part ≠ [] ∧ part.Nodup ∧ ∀ c ∈ part, ∃ row col side, Corner c row col side) := by
  have corner (c : Char) : (∃ right : CastlingRight, right.letter = c) ↔
      ∃ row col side, Corner c row col side := by
    constructor
    · rintro ⟨right, rfl⟩
      exact ⟨_, _, _, corner_of_right right⟩
    · rintro ⟨_, _, _, h⟩
      obtain ⟨right, hletter, -⟩ := h.exists_right
      exact ⟨right, hletter⟩
  simp only [CastlingRight.isField, Bool.or_eq_true, Bool.and_eq_true, beq_iff_eq, List.all_eq_true,
    List.any_eq_true, Bool.not_eq_true', List.isEmpty_eq_false_iff, decide_eq_true_eq,
    CastlingRight.mem_all, true_and, corner]
  exact or_congr_right ⟨fun h => ⟨h.1.1, h.2, h.1.2⟩, fun h => ⟨⟨h.1, h.2.2⟩, h.2.1⟩⟩

theorem letter_injective : Function.Injective CastlingRight.letter := by
  rintro ⟨_ | _, _ | _⟩ ⟨_ | _, _ | _⟩ h <;> first | rfl | cases h

theorem mem_files {file : Char} : 'a' ≤ file ∧ file ≤ 'h' ↔
    file ∈ ['a', 'b', 'c', 'd', 'e', 'f', 'g', 'h'] := by
  constructor
  · rintro ⟨hlow, hhigh⟩
    have hlow' : 97 ≤ file.toNat := hlow
    have hhigh' : file.toNat ≤ 104 := hhigh
    have hfile : file = Char.ofNat file.toNat := (Char.ofNat_toNat file).symm
    rw [hfile]
    generalize file.toNat = n at hlow' hhigh'
    interval_cases n <;> decide
  · intro hmem
    simp only [List.mem_cons, List.not_mem_nil, or_false] at hmem
    rcases hmem with rfl | rfl | rfl | rfl | rfl | rfl | rfl | rfl <;> decide

/-- The row of the square to pass over, by the player who is to move. -/
def passingRow : Side → Int
  | .white => 2
  | .black => 5

/-- The row of the pawn beyond it. -/
def pawnRow : Side → Nat
  | .white => 3
  | .black => 4

theorem isPassingField_iff {part : List Char} : Descriptor.isPassingField part = true ↔
    part = ['-'] ∨
      ∃ file, ('a' ≤ file ∧ file ≤ 'h') ∧ (part = [file, '6'] ∨ part = [file, '3']) := by
  simp only [Descriptor.isPassingField, Bool.or_eq_true, Bool.and_eq_true, beq_iff_eq]
  apply or_congr_right
  constructor
  · rintro ⟨hname, hrank⟩
    unfold Descriptor.isSquareName at hname
    split at hname
    · rename_i file rank
      simp only [Bool.and_eq_true, decide_eq_true_eq] at hname
      refine ⟨file, hname.1, ?_⟩
      rcases hrank with hrank | hrank <;> cases hrank
      · exact .inr rfl
      · exact .inl rfl
    · cases hname
  · rintro ⟨file, hfile, rfl | rfl⟩
    · simp [Descriptor.isSquareName, hfile]
    · simp [Descriptor.isSquareName, hfile]

theorem readPassing_file {file : Char} (h : 'a' ≤ file ∧ file ≤ 'h') :
    (Descriptor.readPassing [file, '6'] = some ⟨2, (file.toNat - 97 : Nat)⟩ ∧
      Descriptor.readPassing [file, '3'] = some ⟨5, (file.toNat - 97 : Nat)⟩) ∧
      file.toNat - 97 < 8 := by
  have hmem := mem_files.mp h
  simp only [List.mem_cons, List.not_mem_nil, or_false] at hmem
  rcases hmem with rfl | rfl | rfl | rfl | rfl | rfl | rfl | rfl <;> decide +kernel

theorem behindDouble {row : Int} {col : Nat} (hrow : row = 2 ∨ row = 5) (hcol : col < 8) :
    Descriptor.BehindDouble ⟨row, col⟩ :=
  ⟨⟨by simp only; omega, by simp only; omega⟩, hrow⟩

theorem onBoard_pawnRow (side : Side) {col : Int} (hcol : 0 ≤ col ∧ col < 8) :
    (⟨pawnRow side, col⟩ : Square).OnBoard := by
  have hrow : pawnRow side < 8 := by cases side <;> decide
  exact ⟨⟨Int.natCast_nonneg _, Int.ofNat_lt.mpr hrow⟩, hcol⟩

theorem shift_passingRow {s : Square} {side : Side} (h : s.row = passingRow side) :
    s.shift (Side.forward (some side.opponent)) 0 = ⟨pawnRow side, s.col⟩ := by
  rw [Square.shift, h, Int.add_zero]
  cases side <;> rfl

/-- A square behind a double step is in order exactly if it lies on the player's rank and the pawn
stands beyond it. -/
theorem exists_readyPawn_iff {d : Descriptor} {b : Board} {s : Square} {side : Side}
    (hpassing : d.passing = some s) (hplayer : d.toMove = some side)
    (hs : Descriptor.BehindDouble s) : (∃ b', d.readyPawn b = .ok b') ↔ s.row = passingRow side ∧
      (b.get ⟨pawnRow side, s.col⟩).kind = .pawn ∧
      (b.get ⟨pawnRow side, s.col⟩).owner = some side.opponent := by
  have hrank : (Numeral.ofInt (8 - s.row)).toList.head? =
      some (Descriptor.passingRank side.opponent) ↔ s.row = passingRow side := by
    rcases hs.2 with hrow | hrow <;> rw [hrow] <;> cases side <;> decide +kernel
  simp only [Descriptor.readyPawn_eq_ok, hpassing, reduceCtorEq, false_and, false_or]
  constructor
  · rintro ⟨_, s', side', passed, -⟩
    cases hpassing.symm.trans passed.passing
    cases hplayer.symm.trans passed.player
    have hrow := hrank.mp passed.rank
    refine ⟨hrow, ?_⟩
    rw [← shift_passingRow hrow]
    exact passed.pawn
  · rintro ⟨hrow, hpawn⟩
    have hon : (⟨pawnRow side, s.col⟩ : Square).OnBoard := onBoard_pawnRow side hs.1.2
    rw [← shift_passingRow hrow] at hpawn hon
    exact ⟨_, s, side, ⟨hpassing, hplayer, Square.hasName_of_onBoard hs.1, hrank.mpr hrow, hon,
      hpawn⟩, rfl⟩

section Board

variable {text : String} {b : Board} (h : Placement.read text = .ok b)
include h

theorem rights_iff {part : List Char} :
    CastlingRight.isField part = true ∧
        (∀ right ∈ CastlingRight.read part, Descriptor.RookHome b right) ↔
      Rights (Text.fields '/' text.toList) part := by
  have home (right : CastlingRight) : Descriptor.RookHome b right ↔
      Stands (Text.fields '/' text.toList) right.rookHome.row.toNat right.rookHome.col.toNat .rook
        right.side :=
    stands_iff h (Descriptor.rookHome_onBoard right)
  rw [isField_iff]
  simp only [CastlingRight.mem_read, home]
  constructor
  · rintro ⟨rfl | ⟨hne, hnodup, hcorners⟩, hrooks⟩
    · exact .none
    · refine .some hne hnodup fun c hc => ?_
      obtain ⟨_, _, _, corner⟩ := hcorners c hc
      obtain ⟨right, rfl, -, -⟩ := corner.exists_right
      exact ⟨_, _, _, corner_of_right right, hrooks right hc⟩
  · intro hrights
    cases hrights with
    | none =>
        refine ⟨.inl rfl, fun right hright => ?_⟩
        rcases right with ⟨_ | _, _ | _⟩ <;> simp [CastlingRight.letter] at hright
    | some nonempty distinct rooks =>
        refine ⟨.inr ⟨nonempty, distinct, fun c hc => ?_⟩, fun right hright => ?_⟩
        · obtain ⟨row, col, side, corner, -⟩ := rooks c hc
          exact ⟨row, col, side, corner⟩
        · obtain ⟨_, _, _, corner, hstands⟩ := rooks _ hright
          obtain ⟨right', hletter, hhome, rfl⟩ := corner.exists_right
          cases letter_injective hletter
          rw [hhome]
          exact hstands

theorem passing_iff {d : Descriptor} {part : List Char} {side : Side}
    {rights : List CastlingRight} (hplayer : d.toMove = some side)
    (hpassing : d.passing = Descriptor.readPassing part) :
    Descriptor.isPassingField part = true ∧
        (∃ b', d.readyPawn (Descriptor.rested b rights) = .ok b') ↔
      Passing (Text.fields '/' text.toList) side part := by
  have ready {row : Int} {col : Nat} (hrow : row = 2 ∨ row = 5) (hcol : col < 8)
      (hsquare : Descriptor.readPassing part = some ⟨row, col⟩) :
      (∃ b', d.readyPawn (Descriptor.rested b rights) = .ok b') ↔ row = passingRow side ∧
        Stands (Text.fields '/' text.toList) (pawnRow side) col .pawn side.opponent := by
    have hon : (⟨pawnRow side, col⟩ : Square).OnBoard := onBoard_pawnRow side (by omega)
    have hstands : (b.get ⟨pawnRow side, col⟩).kind = .pawn ∧
        (b.get ⟨pawnRow side, col⟩).owner = some side.opponent ↔
          Stands (Text.fields '/' text.toList) (pawnRow side) col .pawn side.opponent :=
      stands_iff h hon
    rw [exists_readyPawn_iff (hpassing.trans hsquare) hplayer (behindDouble hrow hcol), ← hstands,
      Descriptor.get_rested]
    split_ifs <;> rfl
  rw [isPassingField_iff]
  constructor
  · rintro ⟨rfl | ⟨file, hfile, rfl | rfl⟩, hready⟩
    · exact .none
    · obtain ⟨⟨hsix, -⟩, hcol⟩ := readPassing_file hfile
      obtain ⟨hrow, hpawn⟩ := (ready (.inl rfl) hcol hsix).mp hready
      cases side with
      | white => exact .behindBlack hfile hpawn
      | black => cases hrow
    · obtain ⟨⟨-, hthree⟩, hcol⟩ := readPassing_file hfile
      obtain ⟨hrow, hpawn⟩ := (ready (.inr rfl) hcol hthree).mp hready
      cases side with
      | white => cases hrow
      | black => exact .behindWhite hfile hpawn
  · intro hpart
    cases hpart with
    | none => exact ⟨.inl rfl, _, Descriptor.readyPawn_eq_ok.mpr (.inl ⟨hpassing, rfl⟩)⟩
    | behindBlack named pawn =>
        obtain ⟨⟨hsix, -⟩, hcol⟩ := readPassing_file named
        exact ⟨.inr ⟨_, named, .inl rfl⟩, (ready (.inl rfl) hcol hsix).mpr ⟨rfl, pawn⟩⟩
    | behindWhite named pawn =>
        obtain ⟨⟨-, hthree⟩, hcol⟩ := readPassing_file named
        exact ⟨.inr ⟨_, named, .inr rfl⟩, (ready (.inr rfl) hcol hthree).mpr ⟨rfl, pawn⟩⟩

end Board

theorem value_eq_zero_iff {cs : List Char} (h : ∀ c ∈ cs, c.isDigit = true) :
    Numeral.value cs = 0 ↔ ∀ c ∈ cs, c = '0' := by
  unfold Numeral.value
  induction cs with
  | nil => simp
  | cons c cs ih =>
      obtain ⟨hfirst, hrest⟩ := List.forall_mem_cons.mp h
      have hzero : c.toNat - '0'.toNat = 0 ↔ c = '0' := by
        have hlow : 48 ≤ c.toNat := (Char.isDigit_iff_toNat.mp hfirst).1
        change c.toNat - 48 = 0 ↔ _
        rw [← Char.toNat_inj]
        change _ ↔ c.toNat = 48
        omega
      rw [Nat.ofDigitChars_cons, Nat.ofDigitChars_eq_ofDigitChars_zero, Nat.mul_zero, Nat.zero_add,
        List.forall_mem_cons, Nat.add_eq_zero_iff, ih hrest, Nat.mul_eq_zero, hzero]
      simp

/-- None of the parts is a numeral too long to be read. -/
def Short (counters : List (List Char)) : Prop :=
  ∀ part ∈ counters, Numeral.isNumeral part = true → part.length ≤ Numeral.maxDigits

theorem isNumeral_iff {part : List Char} :
    Numeral.isNumeral part = true ↔ part ≠ [] ∧ ∀ c ∈ part, c.isDigit = true := by
  simp [Numeral.isNumeral]

theorem isNumeral_all_iff {parts : List (List Char)} : parts.all Numeral.isNumeral = true ↔
    ∀ part ∈ parts, part ≠ [] ∧ ∀ c ∈ part, c.isDigit = true := by
  simp only [List.all_eq_true, isNumeral_iff]

theorem readCounter_of_short {counters : List (List Char)} (hshort : Short counters)
    (hnumerals : counters.all Numeral.isNumeral = true) (place absent : Nat) :
    Descriptor.readCounter counters place absent =
      .ok ((counters[place]?.map Numeral.value).getD absent) := by
  unfold Descriptor.readCounter
  cases hpart : counters[place]? with
  | none => rfl
  | some part =>
      have hmem := List.mem_of_getElem? hpart
      have hlength := hshort part hmem (List.all_eq_true.mp hnumerals part hmem)
      simp only [Numeral.read?, if_pos hlength]
      rfl

theorem counters_iff {counters : List (List Char)} (hshort : Short counters) :
    (counters.length ≤ 2 ∧ counters.all Numeral.isNumeral = true ∧ ∃ quietPlies turn,
      Descriptor.readCounter counters 0 0 = .ok quietPlies ∧
        Descriptor.readCounter counters 1 1 = .ok turn ∧ 1 ≤ turn) ↔ Counters counters := by
  have hturn (hnumerals : counters.all Numeral.isNumeral = true) :
      1 ≤ (counters[1]?.map Numeral.value).getD 1 ↔
        ∀ part, counters[1]? = some part → ∃ c ∈ part, c ≠ '0' := by
    cases hpart : counters[1]? with
    | none => simp
    | some part =>
        have hdigits := (isNumeral_all_iff.mp hnumerals part (List.mem_of_getElem? hpart)).2
        have hpositive := not_congr (value_eq_zero_iff hdigits)
        simp only [not_forall, exists_prop] at hpositive
        simp only [Option.map_some, Option.getD_some, Option.some.injEq, forall_eq']
        rw [← hpositive, Nat.one_le_iff_ne_zero]
  constructor
  · rintro ⟨hnumber, hnumerals, _, turn, -, hread, hpositive⟩
    rw [readCounter_of_short hshort hnumerals] at hread
    cases hread
    exact ⟨hnumber, isNumeral_all_iff.mp hnumerals, (hturn hnumerals).mp hpositive⟩
  · rintro ⟨hnumber, hdigits, hpositive⟩
    have hnumerals := isNumeral_all_iff.mpr hdigits
    exact ⟨hnumber, hnumerals, _, _, readCounter_of_short hshort hnumerals 0 0,
      readCounter_of_short hshort hnumerals 1 1, (hturn hnumerals).mpr hpositive⟩

end Grammar

namespace Descriptor

open Grammar

variable {text : String}

/-- The texts that state a position are those of the grammar. -/
theorem exists_position_iff (hshort : Short ((Text.fields ' ' text.toList).drop 4)) :
    (∃ p, position text = .ok p) ↔ Grammatical text := by
  constructor
  · rintro ⟨p, hposition⟩
    obtain ⟨d, hread, hsetup⟩ := position_eq_ok.mp hposition
    obtain ⟨placement, player, rights, square, counters, side, quietPlies, turn, hparts,
      ⟨hnumber, hplayer, hrights, hsquare, hnumerals⟩, ⟨hquiet, hturn, hpositive⟩, rfl⟩ :=
      ofParts_eq_ok.mp hread
    obtain ⟨b, b', hplacement, hrooks, hready, -⟩ := setup_eq_ok.mp hsetup
    rw [hparts] at hshort
    have hrows := (read_eq_ok_iff.mp hplacement).1
    have hrights' := (rights_iff hplacement).mp ⟨hrights, hrooks⟩
    have hpassing' := (passing_iff hplacement rfl rfl).mp ⟨hsquare, b', hready⟩
    rw [String.toList_ofList] at hrows hrights' hpassing'
    exact .intro hparts rfl hrows.1 hrows.2 (toMove?_eq_some_iff.mp hplayer) hrights' hpassing'
      ((counters_iff hshort).mp ⟨hnumber, hnumerals, _, _, hquiet, hturn, hpositive⟩)
  · rintro ⟨hparts, rfl, hheight, hrows, hplayer, hrights, hpassing, hcounters⟩
    rename_i placement player rights square counters side
    rw [hparts] at hshort
    obtain ⟨hnumber, hnumerals, quietPlies, turn, hquiet, hturn, hpositive⟩ :=
      (counters_iff hshort).mpr hcounters
    have htext : (String.ofList placement).toList = placement := String.toList_ofList
    rw [← htext] at hheight hrows hrights hpassing
    have hplacement := read_eq_ok_iff.mpr ⟨⟨hheight, hrows⟩, rfl⟩
    obtain ⟨hfield, hrooks⟩ := (rights_iff hplacement).mpr hrights
    let d : Descriptor :=
      { placement := String.ofList placement, toMove := some side,
        castling := CastlingRight.read rights, passing := readPassing square,
        quietPlies := quietPlies, turn := turn }
    obtain ⟨hsquare, b', hready⟩ : isPassingField square = true ∧
        ∃ b', d.readyPawn (rested _ d.castling) = .ok b' :=
      (passing_iff hplacement rfl rfl).mpr hpassing
    have hread : read text = .ok d :=
      ofParts_eq_ok.mpr ⟨placement, player, rights, square, counters, side, quietPlies, turn,
        hparts, ⟨hnumber, toMove?_eq_some_iff.mpr hplayer, hfield, hsquare, hnumerals⟩,
        ⟨hquiet, hturn, hpositive⟩, rfl⟩
    have hsetup : d.setup = .ok _ := setup_eq_ok.mpr ⟨_, b', hplacement, hrooks, hready, rfl⟩
    exact ⟨_, position_eq_ok.mpr ⟨d, hread, hsetup⟩⟩

/-- The fault has a message, so that the text is refused. -/
def Error.Told (e : Error) : Prop := ∃ message, e.message? = some message

theorem readCounter_eq_error {counters : List (List Char)} {place absent : Nat} {e : Error} :
    readCounter counters place absent = .error e ↔ e = .counterTooLong ∧
      ∃ part, counters[place]? = some part ∧ Numeral.maxDigits < part.length := by
  unfold readCounter
  cases hpart : counters[place]? with
  | none => simp
  | some part =>
      by_cases hlength : part.length ≤ Numeral.maxDigits
      · simp [Numeral.read?, hlength, Nat.not_lt.mpr hlength]
      · simp [Numeral.read?, hlength, Nat.lt_of_not_le hlength, eq_comm]

/-- Reading fails without a message only on an overlong counter. -/
theorem read_cases (text : String) :
    Overlong text ∧ read text = .error .counterTooLong ∨ Answered Error.Told (read text) := by
  unfold read ofParts
  split
  · rename_i placement player rights square counters hparts
    by_cases hnumber : 2 < counters.length
    · rw [if_pos hnumber]
      exact .inr (.failed ⟨_, rfl⟩)
    rw [if_neg hnumber]
    cases hplayer : toMove? player with
    | none => exact .inr (.failed ⟨_, rfl⟩)
    | some side =>
        simp only
        split_ifs with hrights hsquare hnumerals
        · have overlong {place : Nat} (h : ∃ part, counters[place]? = some part ∧
              Numeral.maxDigits < part.length) : Overlong text := by
            obtain ⟨part, hpart, hlong⟩ := h
            exact .intro hparts (by omega) (toMove?_eq_some_iff.mp hplayer) (isField_iff.mp hrights)
              (isPassingField_iff.mp hsquare) (isNumeral_all_iff.mp hnumerals)
              ⟨part, List.mem_of_getElem? hpart, hlong⟩
          cases hquiet : readCounter counters 0 0 with
          | error e =>
              obtain ⟨rfl, hlong⟩ := readCounter_eq_error.mp hquiet
              exact .inl ⟨overlong hlong, rfl⟩
          | ok quietPlies =>
              cases hturn : readCounter counters 1 1 with
              | error e =>
                  obtain ⟨rfl, hlong⟩ := readCounter_eq_error.mp hturn
                  exact .inl ⟨overlong hlong, rfl⟩
              | ok turn =>
                  simp only [bind, Except.bind]
                  split_ifs
                  · exact .inr (.failed ⟨_, rfl⟩)
                  · exact .inr (.granted _)
        · exact .inr (.failed ⟨_, rfl⟩)
        · exact .inr (.failed ⟨_, rfl⟩)
        · exact .inr (.failed ⟨_, rfl⟩)
  · exact .inr (.failed ⟨_, rfl⟩)

theorem read_answered (hshort : Short ((Text.fields ' ' text.toList).drop 4)) :
    Answered Error.Told (read text) := by
  refine (read_cases text).resolve_left fun prem => ?_
  obtain ⟨hparts, -, -, -, -, hdigits, part, hmem, hlong⟩ := prem.1
  rw [hparts] at hshort
  exact absurd (hshort part hmem (isNumeral_iff.mpr (hdigits part hmem))) (Nat.not_le.mpr hlong)

theorem read_spec {d : Descriptor} (hread : read text = .ok d) :
    (∃ side, d.toMove = some side) ∧ ∀ s, d.passing = some s → BehindDouble s := by
  obtain ⟨_, _, _, square, _, side, _, _, -, ⟨-, -, -, hsquare, -⟩, -, rfl⟩ :=
    ofParts_eq_ok.mp hread
  refine ⟨⟨side, rfl⟩, fun s hs => ?_⟩
  rcases isPassingField_iff.mp hsquare with rfl | ⟨file, hfile, rfl | rfl⟩
  · cases hs
  · obtain ⟨⟨hsix, -⟩, hcol⟩ := readPassing_file hfile
    cases hsix.symm.trans hs
    exact behindDouble (.inl rfl) hcol
  · obtain ⟨⟨-, hthree⟩, hcol⟩ := readPassing_file hfile
    cases hthree.symm.trans hs
    exact behindDouble (.inr rfl) hcol

theorem readyPawn_answered {d : Descriptor} {side : Side} (hplayer : d.toMove = some side)
    (hpassing : ∀ s, d.passing = some s → BehindDouble s) (b : Board) :
    Answered Error.Told (d.readyPawn b) := by
  unfold readyPawn
  split
  · exact .granted _
  · rename_i s hs
    have hbehind := hpassing s hs
    rw [if_neg (not_not.mpr (Square.hasName_of_onBoard hbehind.1)), hplayer]
    simp only
    have hon : (s.shift (Side.forward (some side.opponent)) 0).OnBoard := by
      have hforward : Side.forward (some side.opponent) = 1 ∨
          Side.forward (some side.opponent) = -1 := by
        cases side <;> decide
      obtain ⟨⟨-, hcol⟩, hrow⟩ := hbehind
      simp only [Square.OnBoard, Square.shift]
      omega
    rw [if_neg (not_not.mpr hon)]
    split_ifs
    · exact .failed ⟨_, rfl⟩
    · exact .granted _
    · exact .failed ⟨_, rfl⟩

theorem readyRooks_answered (rights : List CastlingRight) (b : Board) :
    Answered Error.Told (rights.foldlM readyRook b) := by
  induction rights generalizing b with
  | nil => exact .granted b
  | cons right rights ih =>
      rw [List.foldlM_cons]
      have hrook : Answered Error.Told (readyRook b right) := by
        unfold readyRook
        simp only
        split_ifs
        · exact .granted _
        · exact .failed ⟨_, rfl⟩
      exact hrook.bind fun _ => ih _

theorem setup_answered {d : Descriptor} (hread : read text = .ok d) :
    Answered Error.Told d.setup := by
  obtain ⟨⟨side, hplayer⟩, hpassing⟩ := read_spec hread
  have hplacement : Answered Error.Told ((Placement.read d.placement).mapError .placement) := by
    cases Placement.read d.placement with
    | error cause => exact .failed ⟨_, rfl⟩
    | ok b => exact .granted b
  unfold setup
  refine hplacement.bind fun _ => (readyRooks_answered d.castling _).bind fun _ => ?_
  exact (readyPawn_answered hplayer hpassing _).bind fun _ => .granted _

theorem position_answered (hshort : Short ((Text.fields ' ' text.toList).drop 4)) :
    Answered Error.Told (position text) :=
  (read_answered hshort).bind setup_answered

/-- A text is accepted if it belongs to the grammar, and refused if it does not. -/
theorem accepts_exactly_grammatical
    (hshort : ∀ counter ∈ (Text.fields ' ' text.toList).drop 4,
      Numeral.isNumeral counter = true → counter.length ≤ 4300) :
    (isValid? text = some true ↔ Grammatical text) ∧
      (isValid? text = some false ↔ ¬ Grammatical text) := by
  have haccepted : isValid? text = some true ↔ Grammatical text :=
    isValid?_eq_true.trans (exists_position_iff hshort)
  refine ⟨haccepted, ?_⟩
  rw [← haccepted]
  unfold isValid?
  cases hposition : position text with
  | ok p => simp
  | error e =>
      obtain ⟨message, hmessage⟩ := (position_answered hshort).fault hposition
      simp [hmessage]

/-- Rows of zeros and of many short runs, a white king written with the sign of the kelvin, rights
in any order, and counters with leading zeros. -/
def oddText : String := "rnbq\u212abnr/ppp1pppp/08/2001p400/44/80/PPPPPPPP/RNBQKBNR w kQ d6 007 01"

theorem oddText_accepted :
    (∀ counter ∈ (Text.fields ' ' oddText.toList).drop 4,
      Numeral.isNumeral counter = true → counter.length ≤ 4300) ∧
      isValid? oddText = some true ∧ Grammatical oddText := by
  have hshort : ∀ counter ∈ (Text.fields ' ' oddText.toList).drop 4,
      Numeral.isNumeral counter = true → counter.length ≤ 4300 := by
    decide +kernel
  have haccepted : isValid? oddText = some true := by decide +kernel
  exact ⟨hshort, haccepted, (accepts_exactly_grammatical hshort).1.mp haccepted⟩

end Descriptor
end Arbiter
