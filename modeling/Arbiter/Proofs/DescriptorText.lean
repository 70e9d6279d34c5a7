import Arbiter.Proofs.Setup
import Mathlib.Data.List.Sublists

/-! # Reading back a written descriptor

Each part of a descriptor is read back from what is written for it, and holds no blank. So the whole
descriptor is read back, if it is `Plain`: as descriptors of positions are.
-/

namespace Arbiter

namespace Numeral

theorem toList_ofInt_of_nonneg {n : Int} (h : 0 ≤ n) :
    (ofInt n).toList = Nat.toDigits 10 n.natAbs := by
  simp [ofInt, ofNat, Int.not_lt.mpr h]

theorem isNumeral_ofInt {n : Int} (h : 0 ≤ n) : isNumeral (ofInt n).toList = true := by
  rw [toList_ofInt_of_nonneg h, isNumeral_toDigits]

theorem read?_ofInt {n : Int} (h : 0 ≤ n) (hfits : Fits n) :
    read? (ofInt n).toList = some n.natAbs := by
  rw [toList_ofInt_of_nonneg h, read?, if_pos (fits_iff_length.mp hfits), value_toDigits]

theorem value_lt {cs : List Char} (h : ∀ c ∈ cs, c.isDigit = true) : value cs < 10 ^ cs.length := by
  unfold value
  induction cs with
  | nil => exact Nat.one_pos
  | cons c cs ih =>
      obtain ⟨hfirst, hrest⟩ := List.forall_mem_cons.mp h
      have hdigit : c.toNat - '0'.toNat ≤ 9 := by
        have hnine : c.toNat ≤ 57 := (Char.isDigit_iff_toNat.mp hfirst).2
        exact Nat.sub_le_sub_right hnine 48
      have htail := ih hrest
      have hhead := Nat.mul_le_mul_left (10 ^ cs.length) hdigit
      rw [Nat.ofDigitChars_cons, Nat.ofDigitChars_eq_ofDigitChars_zero, Nat.mul_zero, Nat.zero_add,
        List.length_cons, Nat.pow_succ]
      omega

theorem fits_of_read? {cs : List Char} {n : Nat} (hdigits : isNumeral cs = true)
    (h : read? cs = some n) : Fits n := by
  unfold read? at h
  split_ifs at h with hlength
  cases h
  have hall : ∀ c ∈ cs, c.isDigit = true := by
    simp only [isNumeral, Bool.and_eq_true, List.all_eq_true] at hdigits
    exact hdigits.2
  apply fits_iff_length.mpr
  apply (Nat.length_toDigits_le_iff (by decide) (by decide)).mpr
  exact (value_lt hall).trans_le (Nat.pow_le_pow_right (by decide) hlength)

theorem blank_notMem_ofInt (n : Int) : ' ' ∉ (ofInt n).toList := by
  have digits (k : Nat) : ' ' ∉ (ofNat k).toList := by
    rw [ofNat, String.toList_ofList]
    intro hmem
    cases Nat.isDigit_of_mem_toDigits (by decide) (by decide) hmem
  unfold ofInt
  split_ifs
  · rw [String.toList_append, List.mem_append, not_or]
    exact ⟨by decide, digits _⟩
  · exact digits _

end Numeral

namespace CastlingRight

theorem read_write {rights : List CastlingRight} (h : rights.Sublist all) :
    isField (write rights) = true ∧ read (write rights) = rights ∧ ' ' ∉ write rights := by
  have table : ∀ rights ∈ all.sublists,
      isField (write rights) = true ∧ read (write rights) = rights ∧ ' ' ∉ write rights := by
    decide +kernel
  exact table rights (List.mem_sublists.mpr h)

end CastlingRight

namespace Descriptor

/-- A square behind a double step: on the third or the sixth rank. -/
def BehindDouble (s : Square) : Prop := s.OnBoard ∧ (s.row = 2 ∨ s.row = 5)

instance (s : Square) : Decidable (BehindDouble s) := by
  unfold BehindDouble; infer_instance

theorem readPassing_name {s : Square} (h : BehindDouble s) :
    isPassingField s.name.toList = true ∧ readPassing s.name.toList = some s ∧
      ' ' ∉ s.name.toList := by
  have table : ∀ s ∈ Square.all, BehindDouble s → isPassingField s.name.toList = true ∧
      readPassing s.name.toList = some s ∧ ' ' ∉ s.name.toList := by
    decide +kernel
  exact table s (Square.mem_all.mpr h.1) h

theorem name_ne_dash {s : Square} (h : BehindDouble s) : s.name.toList ≠ ['-'] := by
  intro hdash
  have hread := (readPassing_name h).2.1
  rw [hdash] at hread
  cases hread

/-- A descriptor as it is read from a text: each part has the shape that reading gives it. -/
structure Plain (d : Descriptor) : Prop where
  placement : ' ' ∉ d.placement.toList
  player : d.toMove.isSome
  castling : d.castling.Sublist CastlingRight.all
  passing : ∀ s, d.passing = some s → BehindDouble s
  quietPlies : 0 ≤ d.quietPlies ∧ Numeral.Fits d.quietPlies
  turn : 1 ≤ d.turn ∧ Numeral.Fits d.turn

theorem passing_spec {d : Descriptor} (h : ∀ s, d.passing = some s → BehindDouble s) :
    isPassingField (d.passing.elim ['-'] fun s => s.name.toList) = true ∧
      readPassing (d.passing.elim ['-'] fun s => s.name.toList) = d.passing ∧
        ' ' ∉ d.passing.elim ['-'] fun s => s.name.toList := by
  cases hpassing : d.passing with
  | none => decide
  | some s => exact readPassing_name (h s hpassing)

theorem fields_write {d : Descriptor} (placement : ' ' ∉ d.placement.toList)
    (castling : d.castling.Sublist CastlingRight.all)
    (passing : ∀ s, d.passing = some s → BehindDouble s) :
    Text.fields ' ' d.write.toList = d.parts := by
  have hletter : ' ' ∉ [toMoveLetter d.toMove] := by
    unfold toMoveLetter
    split_ifs <;> decide
  rw [write, String.toList_ofList, Text.fields_joinFields (by simp [parts])]
  simp only [parts, List.forall_mem_cons]
  exact ⟨placement, hletter, (CastlingRight.read_write castling).2.2, (passing_spec passing).2.2,
    Numeral.blank_notMem_ofInt _, Numeral.blank_notMem_ofInt _, by simp⟩

theorem toMove?_toMoveLetter (side : Side) : toMove? [toMoveLetter (some side)] = some side := by
  cases side <;> rfl

/-- A plain descriptor is read back from its text. -/
theorem read_write {d : Descriptor} (h : d.Plain) : read d.write = .ok d := by
  obtain ⟨hfield, hrights, -⟩ := CastlingRight.read_write h.castling
  obtain ⟨hfield', hpassing, -⟩ := passing_spec h.passing
  obtain ⟨side, hside⟩ := Option.isSome_iff_exists.mp h.player
  have hturn : 0 ≤ d.turn := Int.le_trans (by decide) h.turn.1
  have hfields := fields_write h.placement h.castling h.passing
  have hcounters : [(Numeral.ofInt d.quietPlies).toList, (Numeral.ofInt d.turn).toList].all
      Numeral.isNumeral = true := by
    simp [Numeral.isNumeral_ofInt h.quietPlies.1, Numeral.isNumeral_ofInt hturn]
  unfold read
  rw [hfields]
  refine ofParts_eq_ok.mpr ⟨_, _, _, _, _, side, d.quietPlies.natAbs, d.turn.natAbs, rfl,
    ⟨by simp, by rw [hside, toMove?_toMoveLetter], hfield, hfield', hcounters⟩, ⟨?_, ?_, ?_⟩, ?_⟩
  · simp [readCounter, Numeral.read?_ofInt h.quietPlies.1 h.quietPlies.2]
  · simp [readCounter, Numeral.read?_ofInt hturn h.turn.2]
  · have := h.turn.1
    omega
  · rw [hrights, hpassing, String.ofList_toList, Int.natAbs_of_nonneg h.quietPlies.1,
      Int.natAbs_of_nonneg hturn, ← hside]

theorem readCounter_cases {counters : List (List Char)} {place absent n : Nat}
    (h : readCounter counters place absent = .ok n) :
    n = absent ∨ ∃ part ∈ counters, Numeral.read? part = some n := by
  unfold readCounter at h
  split at h
  · cases h
    exact .inl rfl
  · rename_i part hpart
    split at h
    · rename_i hread
      cases h
      exact .inr ⟨part, List.mem_of_getElem? hpart, hread⟩
    · cases h

theorem counters_fit_of_read {text : String} {d : Descriptor} (h : read text = .ok d) :
    Numeral.Fits d.quietPlies ∧ Numeral.Fits d.turn := by
  have counter {counters : List (List Char)} {place absent n : Nat}
      (hnumerals : counters.all Numeral.isNumeral = true) (habsent : absent < 10000)
      (h : readCounter counters place absent = .ok n) : Numeral.Fits n := by
    rcases readCounter_cases h with rfl | ⟨part, hmem, hread⟩
    · exact Numeral.fits_of_four_digits habsent
    · exact Numeral.fits_of_read? (List.all_eq_true.mp hnumerals part hmem) hread
  obtain ⟨_, _, _, _, counters, _, quietPlies, turn, -, ⟨-, -, -, -, hnumerals⟩,
    ⟨hquiet, hturn, -⟩, rfl⟩ := ofParts_eq_ok.mp h
  exact ⟨counter hnumerals (by decide) hquiet, counter hnumerals (by decide) hturn⟩

end Descriptor
end Arbiter
