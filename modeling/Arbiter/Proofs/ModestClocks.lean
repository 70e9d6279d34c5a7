import Arbiter.Proofs.Filing
import Arbiter.Proofs.GameLength
import Arbiter.Proofs.Reopening

/-! # Clocks that never grow too long

Numbers of more than 4300 digits cannot be written. The clocks of a game start where its descriptor
puts them and run for at most 150 plies for each man that can still be taken, so that a game whose
descriptor is brief, with counters of at most 4000 digits, never comes near that length. This holds
of all games on file if the descriptors of new games are brief.
-/

namespace Arbiter

/-- The longest counter of a brief descriptor, in digits. -/
def briefDigits : Nat := 4000

/-- The least number too long for a brief descriptor. -/
def counterBound : Nat := 10 ^ briefDigits

theorem pow_room {n k : Nat} (hn : 4 ≤ n) (hk : n + 1 ≤ k) :
    10000 ≤ 10 ^ n ∧ 10 * 10 ^ n ≤ Nat.pow 10 k := by
  constructor
  · exact Nat.pow_le_pow_right (n := 10) (by decide) hn
  · rw [← Nat.pow_succ']
    exact Nat.pow_le_pow_right (n := 10) (by decide) hk

/-- Between the brief counters and those that are too long to be written there is ample room. -/
theorem counterBound_spec : 10000 ≤ counterBound ∧ 10 * counterBound ≤ Numeral.limit := by
  unfold counterBound Numeral.limit
  exact pow_room (by decide) (by decide)

theorem value_lt_counterBound {cs : List Char} (hdigits : Numeral.isNumeral cs = true)
    (hlength : cs.length ≤ briefDigits) : Numeral.value cs < counterBound := by
  simp only [Numeral.isNumeral, Bool.and_eq_true, List.all_eq_true] at hdigits
  unfold counterBound
  exact (Numeral.value_lt hdigits.2).trans_le (Nat.pow_le_pow_right (n := 10) (by decide) hlength)

namespace Descriptor

/-- No counter of the descriptor has more than 4000 digits. -/
def Brief (text : String) : Prop :=
  ∀ part ∈ (Text.fields ' ' text.toList).drop 4, part.length ≤ briefDigits

instance (text : String) : Decidable (Brief text) :=
  inferInstanceAs (Decidable (∀ part ∈ _, _))

theorem counters_lt_of_brief {text : String} {d : Descriptor} (h : read text = .ok d)
    (hbrief : Brief text) : d.quietPlies < counterBound ∧ d.turn < counterBound := by
  obtain ⟨_, _, _, _, counters, _, quietPlies, turn, hparts, ⟨-, -, -, -, hnumerals⟩,
    ⟨hquiet, hturn, -⟩, rfl⟩ := ofParts_eq_ok.mp h
  rw [Brief, hparts] at hbrief
  have counter {place absent n : Nat} (habsent : absent < 10000)
      (h : readCounter counters place absent = .ok n) : n < counterBound := by
    rcases readCounter_cases h with rfl | ⟨part, hmem, hread⟩
    · exact habsent.trans_le counterBound_spec.1
    · unfold Numeral.read? at hread
      split_ifs at hread
      cases hread
      exact value_lt_counterBound (List.all_eq_true.mp hnumerals part hmem) (hbrief part hmem)
  exact ⟨Int.ofNat_lt.mpr (counter (by decide) hquiet),
    Int.ofNat_lt.mpr (counter (by decide) hturn)⟩

end Descriptor

namespace Game

variable {g g' : Game} {m : Move} {e : Effects} {start : Int}

/-- A game that started at a ply of not much more than 4000 digits, with the latest capture not much
further back, and has kept the pace of the men on a board since then. -/
structure Modest (start : Int) (g : Game) : Prop where
  started : 0 ≤ start ∧ start < 2 * counterBound
  paced : g.Paced start (start + 9600)
  captured : start < g.position.lastCapture + counterBound

theorem Modest.played (h : g.Modest start) (played : Played g g' m e) : g'.Modest start where
  started := h.started
  paced := h.paced.played played
  captured := by
    have hcaptured := h.captured
    have hquiet := h.paced.quiet.1
    have hbound := counterBound_spec.1
    rw [played.position]
    simp only [Position.play, Position.latestCapture] at *
    split_ifs <;> omega

theorem Modest.claimed (h : g.Modest start) : Modest start { g with status := .drawClaimed } where
  started := h.started
  paced := ⟨h.paced.quiet, nofun, h.paced.captures⟩
  captured := h.captured

theorem Modest.deed (h : g.Modest start) (deed : g.Deed g') : g'.Modest start := by
  cases deed with
  | turn made =>
      obtain ⟨m, e, played⟩ := made.played
      exact h.played played
  | claim accepted =>
      rw [(claim_of_ok accepted).2]
      exact h.claimed

theorem Modest.akin (h : g.Modest start) (hakin : Akin g.position g'.position)
    (hstatus : g'.status = g.status) : g'.Modest start := by
  have hmen : g.position.board.men = g'.position.board.men :=
    Finset.filter_congr fun s _ => not_congr (hakin.men.vacant s)
  have hlatest : g'.position.latestCapture start = g.position.latestCapture start := by
    rw [Position.latestCapture, Position.latestCapture, hakin.lastCapture]
  obtain ⟨hstarted, ⟨hquiet, hrunning, hcaptures⟩, hcaptured⟩ := h
  refine ⟨hstarted, ⟨?_, fun hopen => ?_, ?_⟩, ?_⟩
  · rwa [hlatest, ← hakin.plies]
  · rw [hlatest, ← hakin.plies]
    exact hrunning (hstatus ▸ hopen)
  · rwa [hlatest, ← hmen]
  · rwa [← hakin.lastCapture]

theorem Modest.plies_le (h : g.Modest start) : g.position.plies ≤ start + 9750 := by
  have hquiet := h.paced.quiet.2
  have hcaptures := h.paced.captures
  omega

theorem Modest.fits (h : g.Modest start) (hclock : 0 ≤ g.position.plies) :
    Numeral.Fits (g.position.plies + 1) := by
  have hplies := h.plies_le
  have hstarted := h.started
  obtain ⟨hlow, hhigh⟩ := counterBound_spec
  unfold Numeral.Fits
  omega

theorem Modest.writable (h : g.Modest start) (htimely : g.position.Timely) :
    g.position.Writable := by
  have hplies := h.plies_le
  have hstarted := h.started
  have hcaptured := h.captured
  have hclock := htimely.clock
  have hback := htimely.captured
  obtain ⟨hlow, hhigh⟩ := counterBound_spec
  constructor
  · unfold Numeral.Fits Position.quietPlies
    omega
  · unfold Numeral.Fits Position.turn
    omega

theorem modest_start (hclock : 0 ≤ g.position.plies ∧ g.position.plies < 2 * counterBound)
    (hback : g.position.lastCapture ≤ g.position.plies)
    (hquiet : g.position.quietPlies < counterBound) : g.Modest g.position.plies where
  started := hclock
  paced := by
    obtain ⟨hbegan, hrunning, hcaptures⟩ := paced_start hback
    have hmen : g.position.board.men.card ≤ 64 := by
      have hsub := Finset.card_le_card (Finset.filter_subset
        (fun s => ¬ (g.position.board.get s).IsEmpty) Square.all.toFinset)
      exact hsub.trans (List.toFinset_card_le Square.all)
    exact ⟨hbegan, hrunning, by omega⟩
  captured := by
    unfold Position.quietPlies at hquiet
    omega

end Game

namespace Desk

variable {r r' : Register} {c : Call} {i : Identifier} {g g' : Game}

/-- The descriptor of a new game that is asked for is brief. -/
def Call.Brief : Call → Prop
  | .create q => ∀ text, q.descriptor = some text → Descriptor.Brief text
  | _ => True

/-- The registers that arise from the empty one by calls with brief descriptors. -/
inductive Kept : Register → Prop where
  | empty : Kept {}
  | serve {r : Register} (before : Kept r) {c : Call} (brief : c.Brief) : Kept (serve r c).2

/-- Every game that is taken up from the register is modest. -/
def Moderate (r : Register) : Prop :=
  ∀ i g, fetch r i = .ok g → ∃ start, g.Modest start

theorem modest_of_newGame {q : CreateRequest} (asked : newGame q = .ok g)
    (brief : (Call.create q).Brief) : ∃ start, g.Modest start := by
  rcases newGame_eq_ok.mp asked with ⟨-, rfl⟩ | ⟨text, named, -, htext⟩
  · exact ⟨_, Game.modest_start (by decide +kernel) le_rfl (by decide +kernel)⟩
  · have hposition := Game.position_of_ofDescriptor htext
    have hlegible := Position.legible_of_text hposition
    obtain ⟨d, hread, hsetup⟩ := Descriptor.position_eq_ok.mp hposition
    obtain ⟨hquiet, hturn⟩ := Descriptor.counters_lt_of_brief hread (brief text named)
    obtain ⟨hplies, hback⟩ := Descriptor.clocks_of_setup hsetup
    refine ⟨_, Game.modest_start ⟨hlegible.clock, ?_⟩ hlegible.captured ?_⟩
    · rw [hplies, Descriptor.plies]
      split_ifs <;> omega
    · unfold Position.quietPlies
      omega

theorem modest_of_filed {start : Int} (filed : r.get? i = some g.record) (hg : g.Fileable)
    (hmodest : g.Modest start) (fetched : fetch r i = .ok g') : g'.Modest start := by
  obtain ⟨g'', fetched', -, hstatus, hakin, -⟩ := Holds.takenUp ⟨filed, hg⟩
  cases fetched.symm.trans fetched'
  exact hmodest.akin hakin hstatus

theorem Moderate.served (hr : Moderate r) (orderly : r.Orderly) (brief : c.Brief)
    {answer : Except Error Answer} (h : Serves r c answer r') : Moderate r' := by
  have kept {j : Identifier} {h : Game} (hget : r'.get? j = r.get? j)
      (fetched : fetch r' j = .ok h) : ∃ start, h.Modest start := by
    rw [fetch, hget] at fetched
    exact hr j h fetched
  cases h with
  | refused | reported | listed => exact hr
  | @created q g asked _ =>
      intro j h fetched
      have hget := r.get?_add g.record j
      split_ifs at hget
      · obtain ⟨start, hmodest⟩ := modest_of_newGame asked brief
        exact ⟨start, modest_of_filed hget (fileable_of_newGame asked) hmodest fetched⟩
      · exact kept hget fetched
  | @changed _ i _ g g' _ fetched deed writable =>
      have before := fetch_of_fetchFor fetched
      have hg := (orderly.holds_of_fetch before).fileable
      obtain ⟨start, hmodest⟩ := hr i g before
      intro j h fetched'
      have hget := r.get?_update i g'.record j
      split_ifs at hget
      · rw [(orderly.holds_of_fetch before).filed] at hget
        exact ⟨start, modest_of_filed hget ⟨deed.timely hg.timely, writable⟩ (hmodest.deed deed)
          fetched'⟩
      · exact kept hget fetched'
  | @deleted q =>
      intro j h fetched
      have hget := r.get?_remove q.game j
      split_ifs at hget
      · rw [fetch, hget] at fetched
        cases fetched
      · exact kept hget fetched

theorem Kept.orderly (hr : Kept r) : r.Orderly := by
  induction hr with
  | empty => exact Register.orderly_empty
  | serve _ _ ih => exact ih.served (serves _ _)

theorem Kept.moderate (hr : Kept r) : Moderate r := by
  induction hr with
  | empty =>
      intro i g fetched
      cases fetched
  | serve before brief ih => exact ih.served before.orderly brief (serves _ _)

end Desk
end Arbiter
