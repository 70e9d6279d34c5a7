import Arbiter.Proofs.Grammar
import Arbiter.Proofs.Notation
import Arbiter.Request
import Arbiter.Rules.Guarded.Trial
import Mathlib.Data.List.Forall2

/-! # Which texts are moves

Reading a move checks nothing: it lowers the case of two letters and counts from them. Yet the texts
that it takes for moves on the board are just the `Notated` ones. A text is read as a move on the
board exactly if it is the notation of the move once its case is lowered (`ofNotation_eq_ok_iff`),
and what is read off the board is never allowed.
-/

namespace Arbiter

def Square.fileLetters : List Char := ['a', 'b', 'c', 'd', 'e', 'f', 'g', 'h']

def Square.rankDigits : List Char := ['1', '2', '3', '4', '5', '6', '7', '8']

namespace Move

def promotionLetters : List Char := ['n', 'b', 'r', 'q']

/-- A letter from a to h in either case, and a digit from 1 to 8. -/
structure SquareText (file rank : Char) : Prop where
  file : file ∈ Square.fileLetters ++ Square.fileLetters.map Char.toUpper
  rank : rank ∈ Square.rankDigits

/-- Two squares, and at most one letter for what a pawn becomes, in either case. -/
inductive Notated : List Char → Prop where
  | plain {file₁ rank₁ file₂ rank₂ : Char} (src : SquareText file₁ rank₁)
      (dst : SquareText file₂ rank₂) : Notated [file₁, rank₁, file₂, rank₂]
  | promoting {file₁ rank₁ file₂ rank₂ letter : Char} (src : SquareText file₁ rank₁)
      (dst : SquareText file₂ rank₂)
      (choice : letter ∈ promotionLetters ++ promotionLetters.map Char.toUpper) :
      Notated [file₁, rank₁, file₂, rank₂, letter]

end Move

namespace Text

/-- The second text is the first one in lower case, character by character. -/
def Lowered (cs ls : List Char) : Prop := List.Forall₂ (fun c l => lower? c = some l) cs ls

theorem Lowered.append {cs ls cs' ls' : List Char} (h : Lowered cs ls) (h' : Lowered cs' ls') :
    Lowered (cs ++ cs') (ls ++ ls') := List.rel_append h h'

/-- The characters that occur in notations in lower case. -/
def notationLetters : List Char :=
  Square.fileLetters ++ Square.rankDigits ++ Move.promotionLetters

/-- Of all characters these and their capitals alone have them as lower case. -/
theorem lower?_eq_some_iff {c l : Char} (hl : l ∈ notationLetters) :
    lower? c = some l ↔ c = l ∨ c = l.toUpper := by
  have table : ∀ r ∈ caseRuns, ∀ l ∈ notationLetters, r.contains (r.origin l) = true →
      Char.ofNat (r.origin l) = l.toUpper := by
    decide +kernel
  have lowered : ∀ l ∈ notationLetters, lower? l = some l ∧ lower? l.toUpper = some l := by
    decide +kernel
  have positive : ∀ l ∈ notationLetters, 0 < l.toNat := by decide +kernel
  constructor
  · intro h
    rcases lower?_cases h (positive l hl) with rfl | ⟨r, hr, hcontains, rfl⟩
    · exact .inl rfl
    · exact .inr (table r hr l hl hcontains)
  · rintro (rfl | rfl)
    · exact (lowered _ hl).1
    · exact (lowered _ hl).2

theorem exists_lower?_iff {c : Char} {letters : List Char} (h : letters ⊆ notationLetters) :
    (∃ l ∈ letters, lower? c = some l) ↔ c ∈ letters ++ letters.map Char.toUpper := by
  rw [List.mem_append, List.mem_map]
  constructor
  · rintro ⟨l, hl, hlower⟩
    rcases (lower?_eq_some_iff (h hl)).mp hlower with rfl | rfl
    · exact .inl hl
    · exact .inr ⟨l, hl, rfl⟩
  · rintro (hc | ⟨l, hl, rfl⟩)
    · exact ⟨c, hc, (lower?_eq_some_iff (h hc)).mpr (.inl rfl)⟩
    · exact ⟨l, hl, (lower?_eq_some_iff (h hl)).mpr (.inr rfl)⟩

theorem lowered_self {ls : List Char} (h : ls ⊆ notationLetters) : Lowered ls ls :=
  List.forall₂_same.mpr fun _ hl => (lower?_eq_some_iff (h hl)).mpr (.inl rfl)

end Text

namespace Square

variable {s : Square} {file rank l r : Char}

theorem fileLetters_subset : fileLetters ⊆ Text.notationLetters := by decide

theorem rankDigits_subset : rankDigits ⊆ Text.notationLetters := by decide

/-- The square that is counted from a letter and a digit. -/
def counted (letter rank : Char) : Square :=
  ⟨8 - ((rank.toNat : Int) - 48), (letter.toNat : Int) - 97⟩

theorem counted_inj : counted l r = counted file rank ↔ l = file ∧ r = rank := by
  simp only [counted, Square.mk.injEq, ← Char.toNat_inj]
  omega

theorem ofName_eq_ok : ofName [file, rank] = .ok s ↔
    ∃ l, Text.lower? file = some l ∧ s = counted l rank := by
  cases hlower : Text.lower? file with
  | none => simp [ofName, hlower]
  | some l => simp [ofName, hlower, counted, eq_comm]

theorem name_of_mem (hl : l ∈ fileLetters) (hr : r ∈ rankDigits) :
    (counted l r).OnBoard ∧ (counted l r).name.toList = [l, r] := by
  have table : ∀ l ∈ fileLetters, ∀ r ∈ rankDigits,
      (counted l r).OnBoard ∧ (counted l r).name.toList = [l, r] := by
    decide +kernel
  exact table l hl r hr

theorem exists_counted (h : s.OnBoard) : ∃ l ∈ fileLetters, ∃ r ∈ rankDigits, s = counted l r := by
  have table : ∀ s ∈ all, ∃ l ∈ fileLetters, ∃ r ∈ rankDigits, s = counted l r := by
    decide +kernel
  exact table s (mem_all.mpr h)

theorem ofName_eq_ok_iff (h : s.OnBoard) :
    ofName [file, rank] = .ok s ↔ Text.Lowered [file, rank] s.name.toList := by
  obtain ⟨l, hl, r, hr, rfl⟩ := exists_counted h
  have hrank : Text.lower? rank = some r ↔ rank = r := by
    have hdigit : ∀ r ∈ rankDigits, r.toUpper = r := by decide
    rw [Text.lower?_eq_some_iff (rankDigits_subset hr), hdigit r hr, or_self]
  simp only [ofName_eq_ok, counted_inj, (name_of_mem hl hr).2, Text.Lowered, List.forall₂_cons,
    List.Forall₂.nil, and_true, hrank]
  constructor
  · rintro ⟨l, hfile, rfl, rfl⟩
    exact ⟨hfile, rfl⟩
  · rintro ⟨hfile, rfl⟩
    exact ⟨l, hfile, rfl, rfl⟩

theorem name_subset (h : s.OnBoard) : s.name.toList ⊆ Text.notationLetters := by
  obtain ⟨l, hl, r, hr, rfl⟩ := exists_counted h
  rw [(name_of_mem hl hr).2]
  exact List.cons_subset.mpr ⟨fileLetters_subset hl,
    List.cons_subset.mpr ⟨rankDigits_subset hr, List.nil_subset _⟩⟩

theorem squareText_iff : Move.SquareText file rank ↔
    ∃ s : Square, s.OnBoard ∧ ofName [file, rank] = .ok s := by
  have hfile := Text.exists_lower?_iff (c := file) fileLetters_subset
  constructor
  · rintro ⟨hcase, hr⟩
    obtain ⟨l, hl, hlower⟩ := hfile.mpr hcase
    exact ⟨counted l rank, (name_of_mem hl hr).1, ofName_eq_ok.mpr ⟨l, hlower, rfl⟩⟩
  · rintro ⟨s, hs, hread⟩
    obtain ⟨l, hl, r, hr, rfl⟩ := exists_counted hs
    obtain ⟨l', hlower, hsame⟩ := ofName_eq_ok.mp hread
    obtain ⟨rfl, rfl⟩ := counted_inj.mp hsame
    exact ⟨hfile.mp ⟨l, hl, hlower⟩, hr⟩

end Square

namespace Move

variable {text : String} {m : Move} {cs letters : List Char} {k : Kind}

theorem toList_notationText (m : Move) :
    m.notationText.toList =
      m.src.name.toList ++ m.dst.name.toList ++ choiceLetters m.promotion := by
  simp [notationText, choiceLetters]

theorem promotion?_eq_some_iff : promotion? letters = some k ↔
    k ∈ Kind.promotions ∧ Text.Lowered letters (choiceLetters (some k)) := by
  have letter : ∀ k ∈ Kind.promotions, k.letter? = some (promotionLetter k) := by decide
  match letters with
  | [] => simp [promotion?, choiceLetters, Text.Lowered]
  | c :: d :: cs => simp [promotion?, choiceLetters, Text.Lowered]
  | [c] =>
      simp only [promotion?, choiceLetters, Option.elim_some, Text.Lowered, List.forall₂_cons,
        List.Forall₂.nil, and_true, Option.bind_eq_bind, Option.bind_eq_some_iff,
        Option.ite_none_right_eq_some, Option.some.injEq, Kind.ofLetter?_eq_some_iff]
      constructor
      · rintro ⟨l, hlower, k, hkind, hmem, rfl⟩
        obtain rfl := Option.some.inj (hkind.symm.trans (letter k hmem))
        exact ⟨hmem, hlower⟩
      · rintro ⟨hmem, hlower⟩
        exact ⟨_, hlower, k, letter k hmem, hmem, rfl⟩

theorem ofNotation_eq_ok : ofNotation text = .ok m ↔ ∃ file₁ rank₁ file₂ rank₂ letters,
    text.toList = file₁ :: rank₁ :: file₂ :: rank₂ :: letters ∧
      Square.ofName [file₁, rank₁] = .ok m.src ∧ Square.ofName [file₂, rank₂] = .ok m.dst ∧
        m.Nameable ∧ Text.Lowered letters (choiceLetters m.promotion) := by
  constructor
  · intro h
    unfold ofNotation at h
    split at h
    · rename_i file₁ rank₁ file₂ rank₂ letters htext
      cases hsrc : Square.ofName [file₁, rank₁] with
      | error e => simp [hsrc, Except.mapError, bind, Except.bind] at h
      | ok src =>
          cases hdst : Square.ofName [file₂, rank₂] with
          | error e => simp [hsrc, hdst, Except.mapError, bind, Except.bind] at h
          | ok dst =>
              simp only [hsrc, hdst, Except.mapError, bind, Except.bind] at h
              split at h
              · cases h
                exact ⟨_, _, _, _, [], htext, hsrc, hdst, .inl rfl, .nil⟩
              · rename_i kind _ hkind
                cases h
                obtain ⟨hmem, hlowered⟩ := promotion?_eq_some_iff.mp hkind
                exact ⟨_, _, _, _, _, htext, hsrc, hdst, .inr ⟨kind, hmem, rfl⟩, hlowered⟩
              · cases h
    · cases h
  · rintro ⟨file₁, rank₁, file₂, rank₂, letters, htext, hsrc, hdst, hchoice, hlowered⟩
    obtain ⟨src, dst, promotion⟩ := m
    unfold ofNotation
    rw [htext]
    simp only [hsrc, hdst, Except.mapError, bind, Except.bind]
    rcases hchoice with rfl | ⟨k, hk, rfl⟩
    · cases hlowered
      rfl
    · have hkind := promotion?_eq_some_iff.mpr ⟨hk, hlowered⟩
      cases letters with
      | nil => cases hkind
      | cons c cs =>
          rw [hkind]
          rfl

section OnBoard

variable (hsrc : m.src.OnBoard) (hdst : m.dst.OnBoard)
include hsrc hdst

theorem lowered_notationText_iff : Text.Lowered cs m.notationText.toList ↔
    ∃ file₁ rank₁ file₂ rank₂ letters, cs = file₁ :: rank₁ :: file₂ :: rank₂ :: letters ∧
      Text.Lowered [file₁, rank₁] m.src.name.toList ∧
        Text.Lowered [file₂, rank₂] m.dst.name.toList ∧
          Text.Lowered letters (choiceLetters m.promotion) := by
  rw [toList_notationText]
  obtain ⟨l₁, hl₁, r₁, hr₁, hsame₁⟩ := Square.exists_counted hsrc
  obtain ⟨l₂, hl₂, r₂, hr₂, hsame₂⟩ := Square.exists_counted hdst
  rw [hsame₁, hsame₂, (Square.name_of_mem hl₁ hr₁).2, (Square.name_of_mem hl₂ hr₂).2]
  constructor
  · intro h
    simp only [Text.Lowered, List.cons_append, List.nil_append, List.forall₂_cons_right_iff] at h
    obtain ⟨file₁, _, hfile₁, ⟨rank₁, _, hrank₁, ⟨file₂, _, hfile₂, ⟨rank₂, letters, hrank₂,
      hletters, rfl⟩, rfl⟩, rfl⟩, rfl⟩ := h
    exact ⟨file₁, rank₁, file₂, rank₂, letters, rfl, .cons hfile₁ (.cons hrank₁ .nil),
      .cons hfile₂ (.cons hrank₂ .nil), hletters⟩
  · rintro ⟨_, _, _, _, letters, rfl, hsquare₁, hsquare₂, hletters⟩
    exact (hsquare₁.append hsquare₂).append hletters

/-- A text is read as a move on the board exactly if in lower case it is the move's notation. -/
theorem ofNotation_eq_ok_iff : ofNotation text = .ok m ↔
    m.Nameable ∧ Text.Lowered text.toList m.notationText.toList := by
  rw [ofNotation_eq_ok, lowered_notationText_iff hsrc hdst]
  simp only [Square.ofName_eq_ok_iff hsrc, Square.ofName_eq_ok_iff hdst]
  constructor
  · rintro ⟨_, _, _, _, _, htext, hsquare₁, hsquare₂, hchoice, hletters⟩
    exact ⟨hchoice, _, _, _, _, _, htext, hsquare₁, hsquare₂, hletters⟩
  · rintro ⟨hchoice, _, _, _, _, _, htext, hsquare₁, hsquare₂, hletters⟩
    exact ⟨_, _, _, _, _, htext, hsquare₁, hsquare₂, hchoice, hletters⟩

theorem notationText_subset (hchoice : m.Nameable) :
    m.notationText.toList ⊆ Text.notationLetters := by
  have letter : ∀ k ∈ Kind.promotions, choiceLetters (some k) ⊆ Text.notationLetters := by decide
  rw [toList_notationText]
  refine List.append_subset.mpr ⟨List.append_subset.mpr
    ⟨Square.name_subset hsrc, Square.name_subset hdst⟩, ?_⟩
  rcases hchoice with hnone | ⟨k, hk, hsome⟩
  · rw [hnone]
    exact List.nil_subset _
  · rw [hsome]
    exact letter k hk

end OnBoard

theorem choice_iff {c : Char} : c ∈ promotionLetters ++ promotionLetters.map Char.toUpper ↔
    ∃ k ∈ Kind.promotions, Text.Lowered [c] (choiceLetters (some k)) := by
  have hletters : promotionLetters = Kind.promotions.map promotionLetter := by decide
  have hsubset : promotionLetters ⊆ Text.notationLetters := by decide
  rw [← Text.exists_lower?_iff hsubset, hletters]
  simp [Text.Lowered, choiceLetters]

theorem exists_ofNotation_iff : (∃ m, ofNotation text = .ok m ∧ m.src.OnBoard ∧ m.dst.OnBoard) ↔
    Notated text.toList := by
  constructor
  · rintro ⟨m, hread, hs, ht⟩
    obtain ⟨_, _, _, _, letters, htext, hsrc, hdst, hchoice, hletters⟩ := ofNotation_eq_ok.mp hread
    have src := Square.squareText_iff.mpr ⟨m.src, hs, hsrc⟩
    have dst := Square.squareText_iff.mpr ⟨m.dst, ht, hdst⟩
    rw [htext]
    rcases hchoice with hnone | ⟨k, hk, hsome⟩
    · rw [hnone] at hletters
      cases hletters
      exact .plain src dst
    · rw [hsome] at hletters
      rcases hletters with _ | ⟨hletter, _ | _⟩
      exact .promoting src dst (choice_iff.mpr ⟨k, hk, .cons hletter .nil⟩)
  · intro h
    generalize htext : text.toList = cs at h
    cases h with
    | plain src dst =>
        obtain ⟨s, hs, hsrc⟩ := Square.squareText_iff.mp src
        obtain ⟨t, ht, hdst⟩ := Square.squareText_iff.mp dst
        exact ⟨⟨s, t, none⟩,
          ofNotation_eq_ok.mpr ⟨_, _, _, _, [], htext, hsrc, hdst, .inl rfl, .nil⟩, hs, ht⟩
    | promoting src dst choice =>
        obtain ⟨s, hs, hsrc⟩ := Square.squareText_iff.mp src
        obtain ⟨t, ht, hdst⟩ := Square.squareText_iff.mp dst
        obtain ⟨k, hk, hletter⟩ := choice_iff.mp choice
        exact ⟨⟨s, t, some k⟩,
          ofNotation_eq_ok.mpr ⟨_, _, _, _, [_], htext, hsrc, hdst, .inr ⟨k, hk, rfl⟩, hletter⟩,
          hs, ht⟩

theorem hasNotation_of_onBoard (hsrc : m.src.OnBoard) (hdst : m.dst.OnBoard) : m.HasNotation :=
  ⟨Square.hasName_of_onBoard hsrc, Square.hasName_of_onBoard hdst⟩

theorem ofNotation_notationText (hsrc : m.src.OnBoard) (hdst : m.dst.OnBoard)
    (hchoice : m.Nameable) : ofNotation m.notationText = .ok m :=
  (ofNotation_eq_ok_iff hsrc hdst).mpr
    ⟨hchoice, Text.lowered_self (notationText_subset hsrc hdst hchoice)⟩

theorem examine_of_notated (h : Notated text.toList) : MoveRequest.examine text = .ok text := by
  have alphabetic : ∀ file ∈ Square.fileLetters ++ Square.fileLetters.map Char.toUpper,
      Text.isAlphabetic file = true := by
    decide +kernel
  have numeric : ∀ rank ∈ Square.rankDigits, Text.isNumeric rank = true := by decide +kernel
  have square {file rank : Char} (h : SquareText file rank) :
      MoveRequest.looksLikeSquare file rank = true := by
    rw [MoveRequest.looksLikeSquare, alphabetic file h.file, numeric rank h.rank]
    rfl
  generalize htext : text.toList = cs at h
  cases h with
  | plain src dst => simp [MoveRequest.examine, htext, square src, square dst]
  | promoting src dst choice => simp [MoveRequest.examine, htext, square src, square dst]

theorem pieceRuling_of_not_onBoard (h : ¬ (m.src.OnBoard ∧ m.dst.OnBoard)) (p : Position)
    (player : Option Side) (castling : Bool) :
    Position.Guarded.Trial.pieceRuling m player castling p = (.ok .illegal, p) := by
  have hadm : ¬ p.Admissible m player := fun hadm => h ⟨hadm.1, hadm.2.1⟩
  exact congrFun (if_neg hadm) p

/-- A text is read as a move on the board exactly if it is a notation in any case: the letters and
digits of two squares, and perhaps the letter of a promotion. Then the notation of the move is the
text in lower case, it is read as the same move, and a request with the text is not refused for it.
Every move on the board that may be named is read back from its notation. Any other text is no move
at all, or one that is illegal in every position, for every player. -/
theorem read_exactly_notated :
    (∀ text, (∃ m, ofNotation text = .ok m ∧ m.src.OnBoard ∧ m.dst.OnBoard) ↔
        Notated text.toList) ∧
      (∀ text m, Notated text.toList → ofNotation text = .ok m →
        (m.HasNotation ∧ Text.Lowered text.toList m.notationText.toList) ∧
          ofNotation m.notationText = .ok m ∧ MoveRequest.examine text = .ok text) ∧
      (∀ m : Move, m.src.OnBoard → m.dst.OnBoard → m.Nameable →
        m.HasNotation ∧ ofNotation m.notationText = .ok m) ∧
      ∀ text, ¬ Notated text.toList → (∃ e, ofNotation text = .error e) ∨
        ∃ m, ofNotation text = .ok m ∧ ∀ p player castling,
          Position.Guarded.Trial.pieceRuling m player castling p = (.ok .illegal, p) := by
  refine ⟨fun _ => exists_ofNotation_iff, fun text m hnotated hread => ?_,
    fun m hsrc hdst hchoice => ?_, fun text hstray => ?_⟩
  · obtain ⟨m, hread', hsrc, hdst⟩ := exists_ofNotation_iff.mpr hnotated
    obtain rfl := Except.ok.inj (hread'.symm.trans hread)
    obtain ⟨hchoice, hlowered⟩ := (ofNotation_eq_ok_iff hsrc hdst).mp hread
    exact ⟨⟨hasNotation_of_onBoard hsrc hdst, hlowered⟩,
      ofNotation_notationText hsrc hdst hchoice, examine_of_notated hnotated⟩
  · exact ⟨hasNotation_of_onBoard hsrc hdst, ofNotation_notationText hsrc hdst hchoice⟩
  · cases hread : ofNotation text with
    | error e => exact .inl ⟨e, rfl⟩
    | ok m =>
        refine .inr ⟨m, rfl, pieceRuling_of_not_onBoard fun hon => hstray ?_⟩
        exact exists_ofNotation_iff.mp ⟨m, hread, hon⟩

/-- A pawn takes and becomes a queen. -/
def capturingPromotion : Move := { src := ⟨1, 4⟩, dst := ⟨0, 5⟩, promotion := some .queen }

/-- The text "z9a1" is read as a move from far beyond the corner. -/
def strayMove : Move := { src := ⟨-1, 25⟩, dst := ⟨7, 0⟩ }

theorem capitals_read_and_stray_refused :
    (Notated "E7f8Q".toList ∧ ofNotation "E7f8Q" = .ok capturingPromotion ∧
        ofNotation capturingPromotion.notationText = .ok capturingPromotion ∧
          MoveRequest.examine "E7f8Q" = .ok "E7f8Q") ∧
      ((capturingPromotion.src.OnBoard ∧ capturingPromotion.dst.OnBoard ∧
          capturingPromotion.Nameable) ∧ capturingPromotion.HasNotation) ∧
      ¬ Notated "z9a1".toList ∧ ofNotation "z9a1" = .ok strayMove ∧
        ∀ p player castling,
          Position.Guarded.Trial.pieceRuling strayMove player castling p = (.ok .illegal, p) := by
  have hread : ofNotation "E7f8Q" = .ok capturingPromotion := by decide +kernel
  have hstray : ofNotation "z9a1" = .ok strayMove := by decide +kernel
  have hsrc : capturingPromotion.src.OnBoard := by decide
  have hdst : capturingPromotion.dst.OnBoard := by decide
  have hchoice : capturingPromotion.Nameable := .inr ⟨.queen, by decide, rfl⟩
  obtain ⟨hon, again, named, off⟩ := read_exactly_notated
  have hnotated := (hon "E7f8Q").mp ⟨_, hread, hsrc, hdst⟩
  obtain ⟨-, hback, hexamined⟩ := again "E7f8Q" _ hnotated hread
  have hother : ¬ Notated "z9a1".toList := fun h => by
    obtain ⟨m, hm, hon, -⟩ := (hon "z9a1").mpr h
    obtain rfl := Except.ok.inj (hstray.symm.trans hm)
    exact absurd hon (by decide)
  refine ⟨⟨hnotated, hread, hback, hexamined⟩,
    ⟨⟨hsrc, hdst, hchoice⟩, (named _ hsrc hdst hchoice).1⟩, hother, hstray, ?_⟩
  obtain ⟨e, he⟩ | ⟨m, hm, hillegal⟩ := off "z9a1" hother
  · cases hstray.symm.trans he
  · obtain rfl := Except.ok.inj (hstray.symm.trans hm)
    exact hillegal

end Move
end Arbiter
