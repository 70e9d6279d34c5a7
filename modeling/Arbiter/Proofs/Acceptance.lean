import Arbiter.Proofs.Notation
import Arbiter.Proofs.Turns

/-! # A game accepts the moves that it lists

The legal moves are enumerated without a promotion, while a player may name any squares and any
choice. `play_iff_listed` says that the two agree: what is accepted, what is sent back for a choice
and what is refused can all be read off the list of notations.
-/

namespace Arbiter

namespace Position

variable {p : Position} {m : Move}

/-- The move without a choice that it does not need: the choice is kept only for a pawn of the
player to move that goes to its last row. -/
def pared (p : Position) (m : Move) : Move :=
  if p.mover m = some p.toMove ∧ p.Promotes m then m else { m with promotion := none }

theorem nameable_pared (hm : m.Nameable) : (p.pared m).Nameable := by
  unfold pared
  split
  · exact hm
  · exact .inl rfl

theorem onBoard_of_mem_legalMoves (h : m ∈ p.legalMoves) :
    (m.src.OnBoard ∧ m.dst.OnBoard) ∧ m.Nameable := by
  rcases mem_legalMoves.mp h with ⟨hnone, e, he⟩ | ⟨hchoice, hneeds⟩
  · have hadm := admissible_of_ruling_ne (p := p) (m := m) (by simp [he])
    exact ⟨⟨hadm.src_onBoard, hadm.dst_onBoard⟩, .inl hnone⟩
  · have hadm := admissible_of_ruling_ne (p := p) (m := { m with promotion := none })
      (by simp [hneeds])
    exact ⟨⟨hadm.src_onBoard, hadm.dst_onBoard⟩, .inr hchoice⟩

/-- A move is legal exactly if it is listed once an unneeded choice is dropped. -/
theorem legal_iff_pared_mem :
    (∃ e, p.ruling m = .legal e) ↔ p.pared m ∈ p.legalMoves := by
  simp only [pared]
  split_ifs with hpromotes
  · rw [mem_legalMoves]
    constructor
    · intro prem
      obtain ⟨e, he⟩ := prem
      obtain ⟨k, hk, hchoice⟩ := promotion_of_legal hpromotes.2 he
      refine .inr ⟨⟨k, hk, hchoice⟩, ?_⟩
      refine (ruling_eq_needsPromotion_iff rfl hk).mpr ⟨hpromotes.2, e, ?_⟩
      rw [← he, Move.promoting, ← hchoice]
    · intro prem
      rcases prem with ⟨-, he⟩ | ⟨⟨k, hk, hchoice⟩, hneeds⟩
      · exact he
      · obtain ⟨-, e, he⟩ := (ruling_eq_needsPromotion_iff rfl hk).mp hneeds
        refine ⟨e, ?_⟩
        rw [← he, Move.promoting, ← hchoice]
  · have hsame : (∃ e, p.ruling m = .legal e) ↔
        ∃ e, p.ruling { m with promotion := none } = .legal e := by
      by_cases howner : p.mover m = some p.toMove
      · rw [ruling_promotion_irrelevant (fun h => hpromotes ⟨howner, h⟩) none]
      · have refused {n : Move} (hn : p.mover n = p.mover m) : ¬ ∃ e, p.ruling n = .legal e := by
          intro prem
          obtain ⟨e, he⟩ := prem
          exact howner (hn ▸ (ruling_eq_legal.mp he).1.1.owner)
        exact iff_of_false (refused rfl) (refused rfl)
    rw [hsame, mem_legalMoves]
    constructor
    · exact fun h => .inl ⟨rfl, h⟩
    · intro prem
      rcases prem with ⟨-, h⟩ | ⟨⟨k, -, hchoice⟩, -⟩
      · exact h
      · cases hchoice

theorem promoting_mem_legalMoves {k : Kind} (hk : k ∈ Kind.promotions) :
    m.promoting k ∈ p.legalMoves ↔ p.ruling { m with promotion := none } = .needsPromotion := by
  rw [mem_legalMoves]
  constructor
  · intro prem
    rcases prem with ⟨h, -⟩ | ⟨-, h⟩
    · cases h
    · exact h
  · exact fun h => .inr ⟨⟨k, hk, rfl⟩, h⟩

theorem needsPromotion_iff_mem (hm : m.Nameable) :
    p.ruling m = .needsPromotion ↔
      m.promotion = none ∧ ∀ k ∈ Kind.promotions, m.promoting k ∈ p.legalMoves := by
  constructor
  · intro h
    have hnone : m.promotion = none := by
      apply hm.resolve_right
      intro prem
      obtain ⟨k, hk, hchoice⟩ := prem
      have hpiece := pieceRuling_eq_needsPromotion.mp (ruling_eq_needsPromotion.mp h).1
      exact hpiece.2.2.2 k hk hchoice
    refine ⟨hnone, fun k hk => (promoting_mem_legalMoves hk).mpr ?_⟩
    rw [← h, ← hnone]
  · intro prem
    obtain ⟨hnone, hall⟩ := prem
    have h := (promoting_mem_legalMoves (k := .queen) (by decide)).mp (hall _ (by decide))
    rw [← h, ← hnone]

end Position

theorem Move.nameable_of_ofNotation {text : String} {m : Move} (h : ofNotation text = .ok m) :
    m.Nameable := by
  have choice {cs : List Char} {k : Kind} (hk : promotion? cs = some k) : k ∈ Kind.promotions := by
    unfold promotion? at hk
    split at hk
    · obtain ⟨_, -, hk⟩ := Option.bind_eq_some_iff.mp hk
      obtain ⟨kind, -, hk⟩ := Option.bind_eq_some_iff.mp hk
      split_ifs at hk with hmem
      exact Option.some.inj hk ▸ hmem
    · cases hk
  unfold ofNotation at h
  split at h
  · simp only [bind, Except.bind] at h
    split at h
    · cases h
    split at h
    · cases h
    split at h
    · cases h
      exact .inl rfl
    · rename_i hk
      cases h
      exact .inr ⟨_, choice hk, rfl⟩
    · cases h
  · cases h

namespace Game

variable {g : Game} {m : Move}

/-- A notation occurs in the game's list of legal moves. -/
def Lists (g : Game) (text : String) : Prop :=
  ∃ ms, g.legalMoves = .ok ms ∧ text ∈ ms.map Move.notationText

theorem lists_iff (hopen : g.status.isOver = false) (hm : m.Nameable) :
    g.Lists m.notationText ↔ m ∈ g.position.legalMoves := by
  simp only [Lists, legalMoves_of_open hopen, Except.ok.injEq, exists_eq_left', List.mem_map]
  constructor
  · intro prem
    obtain ⟨n, hn, htext⟩ := prem
    obtain ⟨⟨hsrc, hdst⟩, hname⟩ := Position.onBoard_of_mem_legalMoves hn
    rw [Move.eq_of_notationText_eq hm hname hsrc hdst htext.symm]
    exact hn
  · exact fun h => ⟨m, h, rfl⟩

theorem nodup_notations (p : Position) : (p.legalMoves.map Move.notationText).Nodup := by
  apply List.Nodup.map_on _ p.nodup_legalMoves
  intro m hm n hn htext
  obtain ⟨-, hname⟩ := Position.onBoard_of_mem_legalMoves hm
  obtain ⟨⟨hsrc, hdst⟩, hname'⟩ := Position.onBoard_of_mem_legalMoves hn
  exact Move.eq_of_notationText_eq hname hname' hsrc hdst htext

/-- The list holds the move once an unneeded choice is dropped, and a needed choice is named. -/
def Admits (g : Game) (m : Move) : Prop :=
  g.Lists (g.position.pared m).notationText ∧
    (g.position.Promotes (g.position.pared m) → (g.position.pared m).promotion ≠ none)

/-- No choice is named, and the list holds the move with each of them. -/
def AsksChoice (g : Game) (m : Move) : Prop :=
  m.promotion = none ∧ ∀ k ∈ Kind.promotions, g.Lists (m.promoting k).notationText

theorem admits_iff_legal (hopen : g.status.isOver = false) (hm : m.Nameable) :
    g.Admits m ↔ ∃ e, g.position.ruling m = .legal e := by
  rw [Admits, lists_iff hopen (Position.nameable_pared hm), Position.legal_iff_pared_mem]
  apply and_iff_left_of_imp
  intro hmem hpromotes hnone
  rcases Position.mem_legalMoves.mp hmem with ⟨-, e, he⟩ | ⟨⟨k, -, hchoice⟩, -⟩
  · obtain ⟨k, -, hchoice⟩ := Position.promotion_of_legal hpromotes he
    cases hnone.symm.trans hchoice
  · cases hnone.symm.trans hchoice

theorem asksChoice_iff_needsPromotion (hopen : g.status.isOver = false) (hm : m.Nameable) :
    g.AsksChoice m ↔ g.position.ruling m = .needsPromotion := by
  rw [Position.needsPromotion_iff_mem hm]
  apply and_congr_right
  intro _
  apply forall₂_congr
  intro k hk
  exact lists_iff hopen (.inr ⟨k, hk, rfl⟩)

/-- Every reaction of an open game to a move can be read off its list of legal moves. The list has
no duplicates, and it holds the choices of a promotion together or not at all. A listed move fails
only if the number of its ply is too long to be written. -/
theorem play_iff_listed (g : Game) (hopen : g.status.isOver = false) (m : Move)
    (hm : m.Nameable) :
    ((∃ s, (g.play m).result = .ok s) ↔
        g.Admits m ∧ Numeral.Fits (g.position.plies + 1)) ∧
      ((g.play m).result = .error .countTooLong ↔
        g.Admits m ∧ ¬ Numeral.Fits (g.position.plies + 1)) ∧
      ((g.play m).result = .error (.promotionMissing m) ↔ g.AsksChoice m) ∧
      (¬ g.Admits m → ¬ g.AsksChoice m → (g.play m).result =
        .error (if m.HasNotation then .illegal m else .unnamedMove)) ∧
      (∀ text n, Move.ofNotation text = .ok n → n.Nameable ∧ g.playText text = g.play n) ∧
      (∃ ms, g.legalMoves = .ok ms ∧ (ms.map Move.notationText).Nodup) ∧
      ∀ n : Move, (∀ k ∈ Kind.promotions, g.Lists (n.promoting k).notationText) ∨
        ∀ k ∈ Kind.promotions, ¬ g.Lists (n.promoting k).notationText := by
  rw [admits_iff_legal hopen hm, asksChoice_iff_needsPromotion hopen hm]
  have together (n : Move) : (∀ k ∈ Kind.promotions, g.Lists (n.promoting k).notationText) ∨
      ∀ k ∈ Kind.promotions, ¬ g.Lists (n.promoting k).notationText := by
    have listed_iff {k : Kind} (hk : k ∈ Kind.promotions) :
        g.Lists (n.promoting k).notationText ↔
          g.position.ruling { n with promotion := none } = .needsPromotion := by
      rw [lists_iff hopen (.inr ⟨k, hk, rfl⟩), Position.promoting_mem_legalMoves hk]
    by_cases hneeds : g.position.ruling { n with promotion := none } = .needsPromotion
    · exact .inl fun k hk => (listed_iff hk).mpr hneeds
    · exact .inr fun k hk hlisted => hneeds ((listed_iff hk).mp hlisted)
  have list : ∃ ms, g.legalMoves = .ok ms ∧ (ms.map Move.notationText).Nodup :=
    ⟨_, legalMoves_of_open hopen, nodup_notations _⟩
  have read (text : String) (n : Move) (h : Move.ofNotation text = .ok n) :
      n.Nameable ∧ g.playText text = g.play n :=
    ⟨Move.nameable_of_ofNotation h, playText_of_ofNotation h⟩
  refine ⟨?_, ?_, ?_, ?_, read, list, together⟩ <;>
    cases hruling : g.position.ruling m with
    | illegal => by_cases hname : m.HasNotation <;> simp [play_of_illegal hopen hruling, hname]
    | needsPromotion => simp [play_of_needsPromotion hopen hruling]
    | legal e =>
        by_cases hfits : Numeral.Fits (g.position.plies + 1) <;>
          simp [play_of_legal hopen hruling, hfits]

/-- A pawn that goes to its last row unasked is sent back for a choice, since its choices are
listed. -/
theorem undecided_pawn_sent_back :
    let g : Game := { position := { board := (Board.bare.put ⟨1, 0⟩
      { kind := .pawn, owner := some .white }).put ⟨7, 4⟩ { kind := .king, owner := some .white } } }
    let m : Move := { src := ⟨1, 0⟩, dst := ⟨0, 0⟩ }
    g.status.isOver = false ∧ m.Nameable ∧
      (g.play m).result = .error (.promotionMissing m) := by
  intro g m
  refine ⟨rfl, .inl rfl, ((play_iff_listed g rfl m (.inl rfl)).2.2.1).mpr ⟨rfl, fun k hk => ?_⟩⟩
  have hlisted : ∀ k ∈ Kind.promotions,
      (m.promoting k).notationText ∈ g.position.legalMoves.map Move.notationText := by
    decide +kernel
  exact ⟨_, rfl, hlisted k hk⟩

/-- Two kings after so many plies that the number of the next one has a digit too many. -/
def longGame : Game where
  position :=
    { board := (Board.bare.put ⟨0, 4⟩ { kind := .king, owner := some .black }).put ⟨7, 4⟩
        { kind := .king, owner := some .white }
      plies := (Numeral.limit : Int) - 1
      lastCapture := (Numeral.limit : Int) - 1 }

/-- A move that is listed and needs no choice may fail: at the end of the numerals. -/
theorem listed_move_not_accepted :
    let m : Move := { src := ⟨0, 4⟩, dst := ⟨0, 3⟩ }
    longGame.status.isOver = false ∧ m.Nameable ∧ longGame.Admits m ∧
      ¬ ∃ s, (longGame.play m).result = .ok s := by
  intro m
  have hadmits : longGame.Admits m := by
    refine ⟨⟨_, rfl, ?_⟩, ?_⟩ <;> decide +kernel
  refine ⟨rfl, .inl rfl, hadmits, ?_⟩
  have hresult : (longGame.play m).result = .error .countTooLong := by decide +kernel
  intro prem
  obtain ⟨s, hs⟩ := prem
  cases hresult.symm.trans hs

end Game
end Arbiter
