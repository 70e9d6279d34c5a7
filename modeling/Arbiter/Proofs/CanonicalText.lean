import Arbiter.Proofs.Recognition
import Arbiter.Proofs.Redescribing
import Arbiter.Proofs.TersePlacement

/-! # The canonical form of a descriptor

A text that states a position may be written in many ways. `CanonicalForm` says in which way the
position's own descriptor is written, in terms of the parts of the text alone: tersely, with the
rights in order, and with numerals without leading zeros. The player to move, the square to pass over
and the counters are found again in what the position keeps of them (`toMove_of_setup`,
`passingSquare_of_setup`, `counters_of_setup`). Of the rights only those are left whose kings stand
at home (`hasRight_of_setup_iff`). What is written in canonical form stays as it is.
-/

namespace Arbiter

/-- The digits of a number, without leading zeros. -/
structure Numeral.Bare (cs : List Char) (n : Nat) : Prop where
  digits : isNumeral cs = true
  value : Numeral.value cs = n
  leading : cs.head? = some '0' → cs = ['0']

theorem Numeral.bare_toDigits (n : Nat) : Bare (Nat.toDigits 10 n) n where
  digits := isNumeral_toDigits n
  value := value_toDigits n
  leading hzero := by
    obtain ⟨cs, hcs⟩ := List.head?_eq_some_iff.mp hzero
    have hvalue : Numeral.value cs = n := by
      rw [← value_toDigits n, hcs]
      rfl
    cases cs with
    | nil => exact hcs
    | cons c cs =>
        have hdigits : ∀ d ∈ c :: cs, d.isDigit = true := fun d hd =>
          Nat.isDigit_of_mem_toDigits (b := 10) (n := n) (by decide) (by decide)
            (hcs ▸ List.mem_cons_of_mem '0' hd)
        have hless := value_lt hdigits
        rw [hvalue] at hless
        have hlength := (Nat.length_toDigits_le_iff (by decide) (Nat.succ_pos _)).mpr hless
        rw [hcs] at hlength
        exact absurd hlength (Nat.not_succ_le_self _)

theorem Numeral.bare_ofInt (n : Nat) : Bare (ofInt n).toList n := by
  rw [toList_ofInt_of_nonneg (Int.natCast_nonneg n)]
  exact bare_toDigits n

namespace Grammar

variable {rows : List (List Char)} {row col : Nat} {kind : Kind} {side : Side}

/-- The player to whom the letter of a right belongs has a king at home. -/
def KingHome (rows : List (List Char)) (c : Char) : Prop :=
  ∃ row col side, Corner c row col side ∧ Stands rows row 4 .king side

/-- Of the letters for castling rights those are kept, in a fixed order, whose kings stand at home.
A dash stands for none. -/
inductive Kept (rows : List (List Char)) (rights : List Char) : List Char → Prop where
  | none (lost : ∀ c ∈ rights, ¬ KingHome rows c) : Kept rows rights ['-']
  | some {letters : List Char} (nonempty : letters ≠ [])
      (ordered : letters.Sublist ['K', 'Q', 'k', 'q'])
      (kept : ∀ c, c ∈ letters ↔ c ∈ rights ∧ KingHome rows c) : Kept rows rights letters

/-- The same pieces in eight rows that are written tersely. -/
structure Restated (rows rows' : List (List Char)) : Prop where
  height : rows'.length = 8
  terse : ∀ row ∈ rows', Row row ∧ Terse row
  pieces : ∀ row col kind side, Stands rows' row col kind side ↔ Stands rows row col kind side

theorem Stands.inside (h : Stands rows row col kind side) (hheight : rows.length = 8)
    (hrows : ∀ row ∈ rows, Row row) : row < 8 ∧ col < 8 := by
  obtain ⟨cs, c, hrow, hcol, -⟩ := h
  have hfull := (hrows cs (List.mem_of_getElem? hrow)).full
  exact ⟨hheight ▸ (List.getElem?_eq_some_iff.mp hrow).1,
    hfull ▸ (List.getElem?_eq_some_iff.mp hcol).1⟩

theorem stands_congr {text other : String} {b c : Board} (hb : Placement.read text = .ok b)
    (hc : Placement.read other = .ok c) (hmen : SameMen b c) :
    Stands (Text.fields '/' text.toList) row col kind side ↔
      Stands (Text.fields '/' other.toList) row col kind side := by
  have inside {text : String} {b : Board} (h : Placement.read text = .ok b)
      (hstands : Stands (Text.fields '/' text.toList) row col kind side) :
      (⟨row, col⟩ : Square).OnBoard := by
    obtain ⟨⟨hheight, hrows⟩, -⟩ := read_eq_ok_iff.mp h
    have := hstands.inside hheight hrows
    simp only [Square.OnBoard]
    omega
  have same (hon : (⟨row, col⟩ : Square).OnBoard) :
      Stands (Text.fields '/' text.toList) row col kind side ↔
        Stands (Text.fields '/' other.toList) row col kind side := by
    refine (stands_iff hb hon).symm.trans ?_
    rw [hmen.kind, hmen.owner]
    exact stands_iff hc hon
  exact ⟨fun h => (same (inside hb h)).mp h, fun h => (same (inside hc h)).mpr h⟩

/-- What is written for a board restates every placement of its men. -/
theorem restated_write {text : String} {b c : Board} (hb : b.Proper)
    (hc : Placement.read text = .ok c) (hmen : SameMen b c) :
    Restated (Text.fields '/' text.toList) (Text.fields '/' (Placement.write b).toList) := by
  have hread := Placement.read_write hb.owned
  obtain ⟨⟨hheight, hrows⟩, -⟩ := read_eq_ok_iff.mp hread
  refine ⟨hheight, fun row hrow => ⟨hrows row hrow, ?_⟩, fun _ _ _ _ => ?_⟩
  · rw [Placement.fields_write] at hrow
    obtain ⟨i, -, rfl⟩ := List.mem_map.mp hrow
    exact Placement.terse_row b i
  · exact stands_congr hread hc (hb.settled_men.trans hmen)

end Grammar

namespace Descriptor

open Grammar Position

/-- The second text is the canonical form of the first one. The player's letter and the square to
pass over are taken over, and counters that are left out are 0 and 1. -/
inductive CanonicalForm (text canonical : String) : Prop where
  | intro {placement placement' player rights rights' passing quiet turn : List Char}
      {counters : List (List Char)}
      (parts : Text.fields ' ' text.toList = placement :: player :: rights :: passing :: counters)
      (parts' : Text.fields ' ' canonical.toList =
        [placement', player, rights', passing, quiet, turn])
      (board : Restated (Text.fields '/' placement) (Text.fields '/' placement'))
      (rights : Kept (Text.fields '/' placement) rights rights')
      (quiet : Numeral.Bare quiet ((counters[0]?.map Numeral.value).getD 0))
      (turn : Numeral.Bare turn ((counters[1]?.map Numeral.value).getD 1)) :
      CanonicalForm text canonical

section SetUp

variable {d : Descriptor} {p : Position} (hsetup : d.setup = .ok p)
include hsetup

theorem men_of_setup : ∃ b, Placement.read d.placement = .ok b ∧ SameMen p.board b := by
  obtain ⟨b, b', hread, -, hpawn, rfl⟩ := setup_eq_ok.mp hsetup
  have hrested : SameMen (rested b d.castling) b := by
    constructor <;> intro s <;> rw [get_rested] <;> split_ifs <;> rfl
  refine ⟨b, hread, ?_⟩
  rcases readyPawn_eq_ok.mp hpawn with ⟨-, rfl⟩ | ⟨s, side, hpassed, rfl⟩
  · exact hrested
  · refine SameMen.trans ?_ hrested
    constructor <;> intro t <;> rw [Board.get_put _ hpassed.onBoard] <;> split_ifs with ht
    · rw [ht]
    · rfl
    · rw [ht]
    · rfl

theorem hasRight_of_setup_iff {right : CastlingRight} : HasRight p.board right ↔
    right ∈ d.castling ∧ p.KingAt right.side right.kingHome := by
  constructor
  · intro hright
    obtain ⟨named, hnamed, hside, hhome⟩ := right_of_ready hsetup (hasRight_iff_ready.mp hright)
    rw [CastlingRight.eq_of_rookHome hside hhome] at hnamed
    exact ⟨hnamed, hright.1.1, hright.1.2.1⟩
  · rintro ⟨hnamed, hking⟩
    obtain ⟨hrook, hmoves⟩ := restedRook_of_setup hsetup hnamed
    exact ⟨⟨hking.1, hking.2, king_unmoved_of_setup hsetup hking⟩, hrook.1, hrook.2, hmoves⟩

theorem kingHome_of_setup_iff {right : CastlingRight} :
    KingHome (Text.fields '/' d.placement.toList) right.letter ↔
      p.KingAt right.side right.kingHome := by
  obtain ⟨b, hread, hmen⟩ := men_of_setup hsetup
  have hking : p.KingAt right.side right.kingHome ↔ Stands (Text.fields '/' d.placement.toList)
      right.rookHome.row.toNat 4 .king right.side := by
    have hrow : right.rookHome.row = right.kingHome.row := by
      rcases right with ⟨_ | _, _ | _⟩ <;> rfl
    rw [KingAt, hmen.kind, hmen.owner, hrow]
    exact stands_iff hread right.kingHome_onBoard
  rw [hking]
  constructor
  · rintro ⟨row, col, side, corner, hstands⟩
    obtain ⟨right', hletter, hhome, rfl⟩ := corner.exists_right
    cases letter_injective hletter
    rw [hhome]
    exact hstands
  · exact fun hstands => ⟨_, _, _, corner_of_right right, hstands⟩

theorem kept_of_setup {part : List Char} (hpart : d.castling = CastlingRight.read part) :
    Kept (Text.fields '/' d.placement.toList) part
      (CastlingRight.write (ofPosition p).castling) := by
  have hmem (c : Char) :
      c ∈ (CastlingRight.all.filter (· ∈ (ofPosition p).castling)).map CastlingRight.letter ↔
        c ∈ part ∧ KingHome (Text.fields '/' d.placement.toList) c := by
    simp only [List.mem_map, List.mem_filter, CastlingRight.mem_all, true_and, decide_eq_true_eq,
      mem_castling, hasRight_of_setup_iff hsetup, hpart, CastlingRight.mem_read]
    constructor
    · rintro ⟨right, ⟨hnamed, hking⟩, rfl⟩
      exact ⟨hnamed, (kingHome_of_setup_iff hsetup).mpr hking⟩
    · rintro ⟨hnamed, hking⟩
      obtain ⟨_, _, _, corner, -⟩ := id hking
      obtain ⟨right, rfl, -, -⟩ := corner.exists_right
      exact ⟨right, ⟨hnamed, (kingHome_of_setup_iff hsetup).mp hking⟩, rfl⟩
  unfold CastlingRight.write
  split
  · rename_i hnone
    exact .none fun c hc hking => List.not_mem_nil (hnone ▸ (hmem c).mpr ⟨hc, hking⟩)
  · rename_i hsome
    exact .some hsome (List.filter_sublist.map CastlingRight.letter) hmem

variable {text : String} (hread : read text = .ok d)
include hread

theorem justDoubled_of_setup {s : Square} {side : Side} (hpassing : d.passing = some s)
    (hplayer : d.toMove = some side) : JustDoubled p ⟨pawnRow side, s.col⟩ := by
  have hbehind := (read_spec hread).2 s hpassing
  have hon : (⟨pawnRow side, s.col⟩ : Square).OnBoard := onBoard_pawnRow side hbehind.1.2
  have hmove := toMove_of_setup hsetup hplayer
  obtain ⟨b, b', -, -, hready, hp⟩ := setup_eq_ok.mp hsetup
  obtain ⟨hrow, hpawn⟩ := (exists_readyPawn_iff hpassing hplayer hbehind).mp ⟨b', hready⟩
  have hcell : p.board.get ⟨pawnRow side, s.col⟩ =
      { (rested b d.castling).get ⟨pawnRow side, s.col⟩ with lastMove := d.plies } := by
    rcases readyPawn_eq_ok.mp hready with ⟨hnone, -⟩ | ⟨s', side', passed, rfl⟩
    · cases hpassing.symm.trans hnone
    · cases hpassing.symm.trans passed.passing
      cases hplayer.symm.trans passed.player
      rw [hp, shift_passingRow hrow]
      exact Board.get_put_self _ hon _
  have hkind : (p.board.get ⟨pawnRow side, s.col⟩).kind = .pawn := hcell ▸ hpawn.1
  have howner : (p.board.get ⟨pawnRow side, s.col⟩).owner = some side.opponent := hcell ▸ hpawn.2
  have hmoves := moves_of_setup hsetup hon (Cell.occupied_of_kind hkind (by decide))
    (by rw [hkind]; decide)
  refine ⟨hkind, ?_, ?_, ?_, ?_⟩
  · rw [hmove, howner]
  · rw [hmove]
    cases side <;> rfl
  · rw [hmoves, Cell.presumedMoves, hkind, howner]
    cases side <;> rfl
  · rw [hcell, (clocks_of_setup hsetup).1]

theorem passingSquare_of_setup : passingSquare p = d.passing := by
  have hplies := (clocks_of_setup hsetup).1
  have hclock := plies_nonneg hread
  obtain ⟨⟨side, hplayer⟩, -⟩ := read_spec hread
  have found {s : Square} (hs : passingSquare p = some s) : d.passing = some s := by
    obtain ⟨t, ht, rfl⟩ := passingSquare_eq_some hs
    have hstamp : (p.board.get t).lastMove ≠ -1 := by
      have := ht.2.2.2.2
      omega
    obtain ⟨behind, side, hpassing, hplayer, rfl⟩ := stamped_of_setup hsetup hstamp
    rw [hpassing, toMove_of_setup hsetup hplayer]
    simp [Square.shift]
  cases hpassing : d.passing with
  | none =>
      refine Option.eq_none_iff_forall_ne_some.mpr fun s hs => ?_
      cases hpassing.symm.trans (found hs)
  | some s =>
      have hdoubled := justDoubled_of_setup hsetup hread hpassing hplayer
      cases hs : passingSquare p with
      | none => exact absurd hdoubled (passingSquare_eq_none hs)
      | some t => exact (found hs).symm.trans hpassing

end SetUp

theorem write_readPassing {part : List Char} (h : isPassingField part = true) :
    ((readPassing part).elim ['-'] fun s => s.name.toList) = part := by
  have table : ∀ file ∈ ['a', 'b', 'c', 'd', 'e', 'f', 'g', 'h'], ∀ rank ∈ ['6', '3'],
      ((readPassing [file, rank]).elim ['-'] fun s => s.name.toList) = [file, rank] := by
    decide +kernel
  rcases isPassingField_iff.mp h with rfl | ⟨file, hfile, rfl | rfl⟩
  · rfl
  · exact table file (mem_files.mp hfile) '6' (by decide)
  · exact table file (mem_files.mp hfile) '3' (by decide)

theorem eq_of_readCounter {counters : List (List Char)} {place absent n : Nat}
    (h : readCounter counters place absent = .ok n) :
    n = (counters[place]?.map Numeral.value).getD absent := by
  unfold readCounter at h
  cases hpart : counters[place]? with
  | none =>
      rw [hpart] at h
      exact (Except.ok.inj h).symm
  | some part =>
      simp only [hpart, Numeral.read?] at h
      split_ifs at h
      exact (Except.ok.inj h).symm

/-- The text of the position that a text states is its canonical form. -/
theorem canonicalForm_of_position {text : String} {p : Position} (h : position text = .ok p) :
    CanonicalForm text p.text := by
  obtain ⟨d, hread, hsetup⟩ := position_eq_ok.mp h
  have hmove {side : Side} (hplayer : d.toMove = some side) := toMove_of_setup hsetup hplayer
  have hpassing := passingSquare_of_setup hsetup hread
  obtain ⟨hquietPlies, hturns⟩ := counters_of_setup hsetup
  obtain ⟨b, hplacement, hmen⟩ := men_of_setup hsetup
  have hproper : p.board.Proper := (legible_of_text h).owned
  obtain ⟨placement, player, rights, square, counters, side, quietPlies, turn, hparts,
    ⟨-, hplayer, -, hsquare, -⟩, ⟨hquiet, hturn, -⟩, rfl⟩ := ofParts_eq_ok.mp hread
  have hboard := restated_write hproper hplacement hmen
  have hrights := kept_of_setup hsetup rfl
  rw [String.toList_ofList] at hboard hrights
  have hplayer' : [toMoveLetter (ofPosition p).toMove] = player := by
    change [toMoveLetter (some p.toMove)] = player
    rw [hmove rfl]
    cases toMove?_eq_some_iff.mp hplayer <;> rfl
  have hsquare' : ((ofPosition p).passing.elim ['-'] fun s => s.name.toList) = square := by
    change ((passingSquare p).elim ['-'] fun s => s.name.toList) = square
    rw [hpassing]
    exact write_readPassing hsquare
  have hparts' := fields_text p
  rw [parts, hplayer', hsquare'] at hparts'
  refine .intro hparts hparts' hboard hrights ?_ ?_
  · rw [← eq_of_readCounter hquiet]
    change Numeral.Bare (Numeral.ofInt p.quietPlies).toList quietPlies
    rw [hquietPlies]
    exact Numeral.bare_ofInt quietPlies
  · rw [← eq_of_readCounter hturn]
    change Numeral.Bare (Numeral.ofInt p.turn).toList turn
    rw [hturns]
    exact Numeral.bare_ofInt turn

theorem writable_ofPosition {p : Position} (h : p.Writable) : (ofPosition p).Writable :=
  ⟨fun _ hs => Square.hasName_of_onBoard (behindDouble_passingSquare hs).1, h⟩

/-- A text that is accepted states a position whose own text can be written, and is the canonical
form of the first one. It is accepted as well, and its position is written as the same text again. -/
theorem written_canonically {text : String} (h : isValid? text = some true) :
    ∃ p, position text = .ok p ∧ ((ofPosition p).Writable ∧ CanonicalForm text p.text) ∧
      isValid? p.text = some true ∧
        ∃ q, position p.text = .ok q ∧ (ofPosition q).Writable ∧ q.text = p.text := by
  obtain ⟨p, hp⟩ := isValid?_eq_true.mp h
  have hwritable := writable_of_text hp
  obtain ⟨q, hq, -, hsame⟩ := (legible_of_text hp).restored hwritable
  exact ⟨p, hp, ⟨writable_ofPosition hwritable, canonicalForm_of_position hp⟩,
    isValid?_eq_true.mpr ⟨q, hq⟩, q, hq, writable_ofPosition (writable_of_text hq), hsame⟩

/-- Runs in pieces, a king by the sign of the kelvin who is not at home, rights in disorder, and
numerals with leading zeros. -/
def untidyText : String :=
  "r3k002r/ppp1pppp/08/2001p400/44/80/PPPPPPPP/R2\u212a12R w qKkQ d6 007 0012"

theorem untidyText_written_canonically :
    isValid? untidyText = some true ∧ ∃ p, position untidyText = .ok p ∧
      CanonicalForm untidyText p.text ∧
        p.text = "r3k2r/ppp1pppp/8/3p4/8/8/PPPPPPPP/R2K3R w kq d6 7 12" := by
  have haccepted : isValid? untidyText = some true := by decide +kernel
  have htext : (position untidyText).toOption.map Position.text =
      some "r3k2r/ppp1pppp/8/3p4/8/8/PPPPPPPP/R2K3R w kq d6 7 12" := by
    decide +kernel
  obtain ⟨p, hp, ⟨-, hform⟩, -⟩ := written_canonically haccepted
  rw [hp] at htext
  exact ⟨haccepted, p, hp, hform, Option.some.inj htext⟩

end Descriptor
end Arbiter
