import Arbiter.Move.Notation
import Mathlib.Tactic.IntervalCases

/-! # Notations tell moves apart

A text that is the notation of a move on the board is the notation of no other move, not even of
one that leaves the board.
-/

namespace Arbiter

namespace Numeral

theorem toList_ofInt (n : Int) :
    ∃ c cs, (ofInt n).toList = c :: cs ∧ ∀ d ∈ cs, d.isDigit = true := by
  have digits (d : Char) (hd : d ∈ Nat.toDigits 10 n.natAbs) : d.isDigit = true :=
    Nat.isDigit_of_mem_toDigits (by decide) (by decide) hd
  by_cases h : n < 0
  · exact ⟨'-', Nat.toDigits 10 n.natAbs, by simp [ofInt, ofNat, h], digits⟩
  · obtain ⟨c, cs, hcs⟩ := List.exists_cons_of_ne_nil (Nat.toDigits_ne_nil (n := n.natAbs) (b := 10))
    refine ⟨c, cs, by simp [ofInt, ofNat, h, hcs], fun d hd => digits d ?_⟩
    rw [hcs]
    exact List.mem_cons_of_mem c hd

theorem toDigits_injective {m n : Nat} (h : Nat.toDigits 10 m = Nat.toDigits 10 n) : m = n := by
  rw [← value_toDigits m, h, value_toDigits]

theorem ofInt_injective {m n : Int} (h : ofInt m = ofInt n) : m = n := by
  have nosign {k : Nat} {cs : List Char} (hk : Nat.toDigits 10 k = '-' :: cs) : False := by
    have hdigit : ('-' : Char).isDigit = true :=
      Nat.isDigit_of_mem_toDigits (b := 10) (n := k) (by decide) (by decide) (by simp [hk])
    cases hdigit
  have hlist := congrArg String.toList h
  unfold ofInt ofNat at hlist
  split_ifs at hlist with hm hn hn <;>
    simp only [String.toList_append, String.toList_ofList] at hlist
  · have := toDigits_injective (List.cons.inj hlist).2
    omega
  · exact (nosign hlist.symm).elim
  · exact (nosign hlist).elim
  · have := toDigits_injective hlist
    omega

end Numeral

namespace Square

variable {s t : Square}

theorem toList_name_of_onBoard (h : s.OnBoard) :
    ∃ rank, (Numeral.ofInt (8 - s.row)).toList = [rank] ∧ s.name.toList = [s.fileLetter, rank] ∧
      s.fileLetter.isDigit = false := by
  obtain ⟨row, col⟩ := s
  obtain ⟨⟨hr₀, hr₁⟩, hc₀, hc₁⟩ := h
  simp only at hr₀ hr₁ hc₀ hc₁
  have hdigit : (Char.ofNat (col + 97).toNat).isDigit = false := by
    interval_cases col <;> rfl
  obtain ⟨rank, hrank⟩ : ∃ rank, (Numeral.ofInt (8 - row)).toList = [rank] := by
    interval_cases row <;> exact ⟨_, rfl⟩
  exact ⟨rank, hrank, by simp [name, hrank], hdigit⟩

theorem col_eq_of_fileLetter_eq (ht : t.OnBoard) (h : s.fileLetter = t.fileLetter) :
    s.col = t.col := by
  obtain ⟨-, h₀, h₁⟩ := ht
  have code {n : Nat} (hn : n.isValidChar) : (Char.ofNat n).toNat = n := by
    rw [Char.ofNat, dif_pos hn]
    rfl
  have hvalid : (t.col + 97).toNat.isValidChar := Or.inl (by omega)
  have hcode := congrArg Char.toNat h
  rw [fileLetter, fileLetter, code hvalid] at hcode
  by_cases hs : (s.col + 97).toNat.isValidChar
  · rw [code hs] at hcode
    omega
  · rw [Char.ofNat, dif_neg hs] at hcode
    have : (0 : Nat) = (t.col + 97).toNat := hcode
    omega

end Square

namespace Move

/-- A choice that a player may name: none, or something a pawn may become. -/
def Nameable (m : Move) : Prop :=
  m.promotion = none ∨ ∃ k ∈ Kind.promotions, m.promotion = some k

/-- The letters after the squares. -/
def choiceLetters (choice : Option Kind) : List Char :=
  choice.elim [] fun kind => [promotionLetter kind]

theorem choiceLetters_injective {m n : Move} (hm : m.Nameable) (hn : n.Nameable)
    (h : choiceLetters m.promotion = choiceLetters n.promotion) : m.promotion = n.promotion := by
  have letters : ∀ k ∈ Kind.promotions, ∀ k' ∈ Kind.promotions,
      promotionLetter k = promotionLetter k' → k = k' := by decide
  rcases hm with hm | ⟨k, hk, hm⟩ <;> rcases hn with hn | ⟨k', hk', hn⟩ <;>
    rw [hm, hn] at h ⊢
  · cases h
  · cases h
  · rw [letters k hk k' hk' (List.cons.inj h).1]

theorem choiceLetters_noDigit {m : Move} (hm : m.Nameable) :
    ∀ c ∈ choiceLetters m.promotion, c.isDigit = false := by
  rcases hm with hm | ⟨k, hk, hm⟩
  · simp [hm, choiceLetters]
  · rw [hm]
    have letters : ∀ k ∈ Kind.promotions, (promotionLetter k).isDigit = false := by decide
    simpa [choiceLetters] using letters k hk

theorem cut_numeral {n : Int} {rank : Char} {xs ys : List Char}
    (hys : ∀ c ∈ ys.head?, c.isDigit = false)
    (h : (Numeral.ofInt n).toList ++ xs = rank :: ys) :
    (Numeral.ofInt n).toList = [rank] ∧ xs = ys := by
  obtain ⟨c, cs, hcs, digits⟩ := Numeral.toList_ofInt n
  rw [hcs, List.cons_append] at h
  obtain ⟨rfl, hrest⟩ := List.cons.inj h
  cases cs with
  | nil => exact ⟨hcs, hrest⟩
  | cons d ds =>
      have hd := hys d (by simp [← hrest])
      rw [digits d List.mem_cons_self] at hd
      cases hd

/-- The notation of a move on the board is the notation of no other move. -/
theorem eq_of_notationText_eq {m n : Move} (hm : m.Nameable) (hn : n.Nameable)
    (hsrc : n.src.OnBoard) (hdst : n.dst.OnBoard) (h : m.notationText = n.notationText) :
    m = n := by
  obtain ⟨rank₁, hrank₁, hname₁, hfile₁⟩ := Square.toList_name_of_onBoard hsrc
  obtain ⟨rank₂, hrank₂, hname₂, hfile₂⟩ := Square.toList_name_of_onBoard hdst
  have hlist := congrArg String.toList h
  simp only [notationText, String.toList_append, String.toList_ofList, hname₁, hname₂] at hlist
  simp only [Square.name, String.toList_append, String.toList_singleton, List.append_assoc,
    List.cons_append, List.nil_append] at hlist
  obtain ⟨hletter₁, hlist⟩ := List.cons.inj hlist
  obtain ⟨hrow₁, hlist⟩ := cut_numeral (by simpa using hfile₂) hlist
  obtain ⟨hletter₂, hlist⟩ := List.cons.inj hlist
  have hchoices : ∀ c ∈ (choiceLetters n.promotion).head?, c.isDigit = false :=
    fun c hc => choiceLetters_noDigit hn c (List.mem_of_mem_head? hc)
  obtain ⟨hrow₂, hlist⟩ := cut_numeral hchoices hlist
  have row_eq {s t : Square} (hs : (Numeral.ofInt (8 - s.row)).toList =
      (Numeral.ofInt (8 - t.row)).toList) : s.row = t.row := by
    have := Numeral.ofInt_injective (String.toList_inj.mp hs)
    omega
  have hsrc' : m.src = n.src := Square.ext (row_eq (hrow₁.trans hrank₁.symm))
    (Square.col_eq_of_fileLetter_eq hsrc hletter₁)
  have hdst' : m.dst = n.dst := Square.ext (row_eq (hrow₂.trans hrank₂.symm))
    (Square.col_eq_of_fileLetter_eq hdst hletter₂)
  have hpromotion := choiceLetters_injective hm hn hlist
  cases m
  cases n
  grind

end Move
end Arbiter
