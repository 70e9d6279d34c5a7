import Arbiter.Proofs.Turns
import Mathlib.Data.Finset.Card

/-! # How long a game can last

Every piece on the board after a move stood on the board before it, on a square of its own that was
not captured. So each capture leaves fewer men. Between captures the clock allows 150 plies, and so
the men on the board bound the number of plies that a game has played.
-/

namespace Arbiter

/-- The squares on which something stands. -/
def Board.men (b : Board) : Finset Square :=
  Square.all.toFinset.filter fun s => ¬ (b.get s).IsEmpty

namespace Position

variable {p : Position} {m : Move} {e : Effects} {player : Option Side} {s t : Square}

theorem mem_men {b : Board} : s ∈ b.men ↔ ¬ (b.get s).IsEmpty := by
  simp only [Board.men, Finset.mem_filter, List.mem_toFinset, Square.mem_all, and_iff_right_iff_imp]
  exact fun hocc => by_contra fun hoff => hocc (by simp [Board.get_of_not_onBoard b hoff])

/-- Where the piece came from that stands on a square after a move. -/
def origin (m : Move) (e : Effects) (t : Square) : Square :=
  if t = m.dst then m.src else e.castle.elim t fun hop => if t = hop.dst then hop.src else t

theorem origin_cases (hapart : Apart m e) (hocc : ¬ ((p.play m e).board.get t).IsEmpty) :
    (t = m.dst ∧ origin m e t = m.src) ∨
      (∃ hop, e.castle = some hop ∧ t = hop.dst ∧ origin m e t = hop.src) ∨
      (¬ Touches m e t ∧ origin m e t = t ∧ ¬ (p.board.get t).IsEmpty) := by
  rcases hapart.get_play_cases (p := p) t with ⟨ht, -⟩ | ⟨hop, hhop, ht, -⟩ | ⟨-, hget⟩ |
    ⟨htouches, hget⟩
  · exact .inl ⟨ht, if_pos ht⟩
  · have hne : hop.dst ≠ m.dst := (hapart.castle hop hhop).2.2.2
    exact .inr (.inl ⟨hop, hhop, ht, by simp [origin, hhop, ht, hne]⟩)
  · rw [hget] at hocc
    exact absurd rfl hocc
  · refine .inr (.inr ⟨htouches, ?_, hget ▸ hocc⟩)
    have hne : t ≠ m.dst := fun ht => htouches (.inr (.inl ht))
    cases hcastle : e.castle with
    | none => simp [origin, hne, hcastle]
    | some hop =>
        have hhop : t ≠ hop.dst := fun ht => htouches (.inr (.inr (.inr ⟨hop, hcastle, .inr ht⟩)))
        simp [origin, hne, hcastle, hhop]

/-- The men that a move leaves come from squares of their own, on which men stood that the move did
not take. -/
theorem card_men_play_le (hadm : p.Admissible m player) (h : p.Allows m e) :
    (p.play m e).board.men.card ≤
      (p.board.men.filter fun s => s ≠ m.dst ∧ e.captured ≠ some s).card := by
  have hapart := apart_of_allows hadm h
  refine Finset.card_le_card_of_injOn (origin m e) (fun t ht => ?_) fun t ht u hu hsame => ?_
  · have hocc := mem_men.mp (Finset.mem_coe.mp ht)
    rw [Finset.mem_coe, Finset.mem_filter, mem_men]
    rcases origin_cases hapart hocc with ⟨-, hfrom⟩ | ⟨hop, hhop, -, hfrom⟩ |
      ⟨htouches, hfrom, hocc'⟩ <;> rw [hfrom]
    · exact ⟨hadm.occupied, hapart.ne, fun hcaptured => (hapart.captured _ hcaptured).2.1 rfl⟩
    · have hocc' := Cell.occupied_of_kind (h.hop_rook hhop).1 (by decide)
      exact ⟨hocc', (hapart.castle hop hhop).1.2.2, by simp [(hapart.alone (by simp [hhop])).1]⟩
    · exact ⟨hocc', fun ht => htouches (.inr (.inl ht)),
        fun hcaptured => htouches (.inr (.inr (.inl hcaptured)))⟩
  · -- Two squares whose men have the same origin are one, as origins of each sort differ.
    have ht' := origin_cases hapart (mem_men.mp (Finset.mem_coe.mp ht))
    have hu' := origin_cases hapart (mem_men.mp (Finset.mem_coe.mp hu))
    have left_src {v : Square} (hv : ¬ Touches m e v) : v ≠ m.src := fun h => hv (.inl h)
    have left_hop {v : Square} {hop : Move} (hhop : e.castle = some hop) (hv : ¬ Touches m e v) :
        v ≠ hop.src := fun h => hv (.inr (.inr (.inr ⟨hop, hhop, .inl h⟩)))
    rcases ht' with ⟨hteq, hfrom⟩ | ⟨hop, hhop, hteq, hfrom⟩ | ⟨htouches, hfrom, -⟩ <;>
      rcases hu' with ⟨hueq, hfrom'⟩ | ⟨hop', hhop', hueq, hfrom'⟩ | ⟨htouches', hfrom', -⟩ <;>
      rw [hfrom, hfrom'] at hsame
    · rw [hteq, hueq]
    · exact absurd hsame.symm (hapart.castle hop' hhop').1.2.1
    · exact absurd hsame.symm (left_src htouches')
    · exact absurd hsame (hapart.castle hop hhop).1.2.1
    · cases hhop.symm.trans hhop'
      rw [hteq, hueq]
    · exact absurd hsame.symm (left_hop hhop htouches')
    · exact absurd hsame (left_src htouches)
    · exact absurd hsame (left_hop hhop' htouches)
    · exact hsame

theorem card_men_play (hadm : p.Admissible m player) (h : p.Allows m e) :
    (p.play m e).board.men.card + (if p.Captures m e then 1 else 0) ≤ p.board.men.card := by
  have hle := card_men_play_le hadm h
  have hsub := Finset.filter_subset (fun s => s ≠ m.dst ∧ e.captured ≠ some s) p.board.men
  split_ifs with hcaptures
  · obtain ⟨s, hs, htaken⟩ : ∃ s ∈ p.board.men, ¬ (s ≠ m.dst ∧ e.captured ≠ some s) := by
      rcases hcaptures with hdst | hpassed
      · exact ⟨m.dst, mem_men.mpr hdst, fun h => h.1 rfl⟩
      · obtain ⟨s, hs⟩ := Option.isSome_iff_exists.mp hpassed
        have hocc := Cell.occupied_of_kind (h.captured_pawn hs) (by decide)
        exact ⟨s, mem_men.mpr hocc, fun h => h.2 hs⟩
    have hlt : (p.board.men.filter fun s => s ≠ m.dst ∧ e.captured ≠ some s).card <
        p.board.men.card :=
      Finset.card_lt_card (Finset.filter_ssubset.mpr ⟨s, hs, htaken⟩)
    omega
  · exact hle.trans (Finset.card_le_card hsub)

theorem le_card_men_play (hadm : p.Admissible m player) (h : p.Allows m e)
    (hlanding : ∀ hop, e.castle = some hop → (p.board.get hop.dst).IsEmpty)
    (hquiet : ¬ p.Captures m e) : p.board.men.card ≤ (p.play m e).board.men.card := by
  have hapart := apart_of_allows hadm h
  obtain ⟨hdst, hcaptured⟩ := not_or.mp hquiet
  refine Finset.card_le_card_of_surjOn (origin m e) fun s hs => ?_
  have hocc : ¬ (p.board.get s).IsEmpty := mem_men.mp (Finset.mem_coe.mp hs)
  by_cases hsrc : s = m.src
  · refine ⟨m.dst, Finset.mem_coe.mpr (mem_men.mpr ?_), by rw [origin, if_pos rfl, hsrc]⟩
    rw [hapart.get_play_dst]
    exact h.arrival_occupied hadm
  by_cases hhop : ∃ hop, e.castle = some hop ∧ s = hop.src
  · obtain ⟨hop, hhop, rfl⟩ := hhop
    have hne : hop.dst ≠ m.dst := (hapart.castle hop hhop).2.2.2
    refine ⟨hop.dst, Finset.mem_coe.mpr (mem_men.mpr ?_), by simp [origin, hhop, hne]⟩
    rw [hapart.get_play_hop hhop]
    exact hocc
  · have huntouched : ¬ Touches m e s := by
      rintro (hs | rfl | hs | ⟨hop, hcastle, hs | rfl⟩)
      · exact hsrc hs
      · exact hdst hocc
      · exact hcaptured (Option.isSome_of_mem hs)
      · exact hhop ⟨hop, hcastle, hs⟩
      · exact hocc (hlanding hop hcastle)
    have hkept : ¬ ((p.play m e).board.get s).IsEmpty := by
      rwa [get_play_of_not_touches huntouched]
    refine ⟨s, Finset.mem_coe.mpr (mem_men.mpr hkept), ?_⟩
    rcases origin_cases hapart hkept with ⟨rfl, -⟩ | ⟨hop, hcastle, rfl, -⟩ | ⟨-, hfrom, -⟩
    · exact absurd (.inr (.inl rfl)) huntouched
    · exact absurd (.inr (.inr (.inr ⟨hop, hcastle, .inr rfl⟩))) huntouched
    · exact hfrom

/-- A move takes a piece exactly if it leaves fewer men. -/
theorem card_men_play_lt_iff (hadm : p.Admissible m player) (h : p.Allows m e)
    (hlanding : ∀ hop, e.castle = some hop → (p.board.get hop.dst).IsEmpty) :
    (p.play m e).board.men.card < p.board.men.card ↔ p.Captures m e := by
  constructor
  · intro hfewer
    by_contra hquiet
    have := le_card_men_play hadm h hlanding hquiet
    omega
  · intro hcaptures
    have := card_men_play hadm h
    rw [if_pos hcaptures] at this
    omega

theorem quietPlies_play :
    (p.play m e).quietPlies = if p.Captures m e then 0 else p.quietPlies + 1 := by
  simp only [quietPlies, play]
  split_ifs <;> omega

/-- The ply of the latest capture, or the start if nothing has been taken since. -/
def latestCapture (start : Int) (p : Position) : Int := max start p.lastCapture

theorem latestCapture_play {start : Int} (hstart : p.latestCapture start ≤ p.plies) :
    (p.play m e).latestCapture start =
      if p.Captures m e then p.plies + 1 else p.latestCapture start := by
  simp only [latestCapture, play] at *
  split_ifs <;> omega

end Position

namespace Game

variable {g g' : Game} {m : Move} {e : Effects} {start budget : Int}

/-- The clock of an open game has not run out, whether it started at the given ply or at a capture
after it, and the captures came soon enough for the men that are left: within 150 plies for each man
that is missing from the budget. -/
structure Paced (start budget : Int) (g : Game) : Prop where
  quiet : g.position.latestCapture start ≤ g.position.plies ∧
    g.position.plies ≤ g.position.latestCapture start + 150
  running : g.status.isOver = false → g.position.plies < g.position.latestCapture start + 150
  captures : g.position.latestCapture start + 150 * g.position.board.men.card ≤ budget

theorem Paced.played (h : g.Paced start budget) (hplayed : Played g g' m e) :
    g'.Paced start budget := by
  have hquiet := h.running hplayed.wasOpen
  have hplies : g'.position.plies = g.position.plies + 1 := by
    rw [hplayed.position, Position.plies_play]
  have hmen := Position.card_men_play hplayed.admissible hplayed.allows
  have hlatest := Position.latestCapture_play (m := m) (e := e) h.quiet.1
  rw [← hplayed.position] at hmen hlatest
  have hbudget := h.captures
  have hbegan := h.quiet.1
  constructor
  · rw [hlatest]
    split_ifs <;> omega
  · intro hopen
    by_contra hlate
    have hcapture : g'.position.lastCapture ≤ g'.position.latestCapture start := le_max_right _ _
    have hover : g'.status = .drawByMoveClock := by
      rw [hplayed.status]
      apply if_pos
      simp only [Position.drawPlies, Position.quietPlies]
      omega
    rw [hover] at hopen
    cases hopen
  · rw [hlatest]
    split_ifs at hmen ⊢ <;> omega

/-- The clock of an open game has not run out, and the latest capture came soon enough for the men
that are left: within 150 plies for each man that is missing from the budget. -/
structure Timed (budget : Int) (g : Game) : Prop where
  quiet : 0 ≤ g.position.quietPlies ∧ g.position.quietPlies ≤ 150
  running : g.status.isOver = false → g.position.quietPlies < 150
  captures : g.position.lastCapture + 150 * g.position.board.men.card ≤ budget

theorem timed_iff_paced (hstart : start ≤ g.position.lastCapture) :
    g.Timed budget ↔ g.Paced start budget := by
  have hlatest : g.position.latestCapture start = g.position.lastCapture := max_eq_right hstart
  constructor
  · intro h
    obtain ⟨hquiet, hrunning, hcaptures⟩ := h
    unfold Position.quietPlies at hquiet hrunning
    refine ⟨?_, fun hopen => ?_, ?_⟩
    · omega
    · have := hrunning hopen
      omega
    · rwa [hlatest]
  · intro h
    obtain ⟨hquiet, hrunning, hcaptures⟩ := h
    rw [hlatest] at hquiet hrunning hcaptures
    refine ⟨?_, fun hopen => ?_, hcaptures⟩
    · unfold Position.quietPlies
      omega
    · have := hrunning hopen
      unfold Position.quietPlies
      omega

theorem Timed.played (h : g.Timed budget) (hplayed : Played g g' m e) : g'.Timed budget := by
  have hpaced := (timed_iff_paced le_rfl).mp h
  apply (timed_iff_paced ?_).mpr (hpaced.played hplayed)
  have hquiet := h.quiet.1
  unfold Position.quietPlies at hquiet
  rw [hplayed.position]
  simp only [Position.play]
  split_ifs <;> omega

theorem Timed.plies_le (h : g.Timed budget) : g.position.plies ≤ budget + 150 := by
  have hquiet := h.quiet.2
  have hbudget := h.captures
  unfold Position.quietPlies at hquiet
  omega

end Game
end Arbiter
