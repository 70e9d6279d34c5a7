import Arbiter.Proofs.Restoring
import Arbiter.Proofs.Turns

/-! # Games that are filed and taken up again

A game may start from any text that states a position, with kings missing or in any number, pawns on
the back rows, and clocks that could not have been reached by playing. Hardly anything that holds of
games from the initial position holds of these, but they stay `Timely`, and this is enough for a game
to be filed: its text is read again, and the game taken up from it is filed under the same text.
-/

namespace Arbiter

namespace Position

variable {p : Position} {m : Move} {e : Effects} {text : String}

/-- A legible position in which no piece is dated later than the latest ply. -/
structure Timely (p : Position) : Prop extends p.Legible where
  stamps : ∀ s, (p.board.get s).lastMove ≤ p.plies

theorem timely_initial : Position.initial.Timely :=
  ⟨regular_initial.legible, sound_initial.stamps⟩

theorem timely_of_text (h : Descriptor.position text = .ok p) : p.Timely := by
  have hlegible := legible_of_text h
  obtain ⟨d, -, hsetup⟩ := Descriptor.position_eq_ok.mp h
  exact ⟨hlegible, Descriptor.stamps_of_setup hsetup hlegible.clock⟩

theorem Timely.play (hp : p.Timely) (hadm : p.Admissible m (some p.toMove)) (h : p.Allows m e) :
    (p.play m e).Timely where
  owned := h.owned_play hadm hp.owned
  clock := by
    have := hp.clock
    rw [plies_play]
    omega
  captured := by
    have := hp.captured
    simp only [Position.play]
    split_ifs <;> omega
  single _ _ hs ht :=
    (dst_of_justDoubled_play hadm h hp.stamps hs).trans
      (dst_of_justDoubled_play hadm h hp.stamps ht).symm
  stamps := (apart_of_allows hadm h).stamps_play hp.clock hp.stamps

theorem writable_of_text (h : Descriptor.position text = .ok p) : p.Writable := by
  obtain ⟨d, hread, hsetup⟩ := Descriptor.position_eq_ok.mp h
  obtain ⟨hquiet, hturn⟩ := Descriptor.counters_fit_of_read hread
  obtain ⟨hquietPlies, hturns⟩ := Descriptor.counters_of_setup hsetup
  constructor
  · rwa [hquietPlies]
  · rwa [hturns]

theorem Legible.restored (hp : p.Legible) (hw : p.Writable) :
    ∃ q, Descriptor.position p.text = .ok q ∧ Akin p q ∧ q.text = p.text := by
  obtain ⟨q, hsetup, hakin, hcells⟩ := hp.setup_akin
  exact ⟨q, (hp.position_text hw).trans hsetup, hakin,
    (hakin.text_eq (hp.restored_rights hcells)).symm⟩

end Position

namespace Game

variable {g g' : Game} {m : Move} {e : Effects} {text : String}

/-- The game can be filed: its position can be restored, and its counters can be written. -/
structure Fileable (g : Game) : Prop where
  timely : g.position.Timely
  writable : g.position.Writable

theorem fileable_initial : Fileable .initial where
  timely := Position.timely_initial
  writable := by decide +kernel

theorem fileable_of_text (h : ofDescriptor text = .ok g) : g.Fileable :=
  have hposition := position_of_ofDescriptor h
  ⟨Position.timely_of_text hposition, Position.writable_of_text hposition⟩

theorem Played.timely (hplayed : Played g g' m e) (hg : g.position.Timely) :
    g'.position.Timely := by
  rw [hplayed.position]
  exact hg.play hplayed.admissible hplayed.allows

/-- A game that has been filed is taken up again with the same status, on an akin position with the
same text. -/
theorem Fileable.takenUp (hg : g.Fileable) : ∃ g', ofRecord g.record = .ok g' ∧ g'.Fileable ∧
    g'.status = g.status ∧ Akin g.position g'.position ∧ g'.position.text = g.position.text := by
  obtain ⟨q, hposition, hakin, htext⟩ := hg.timely.toLegible.restored hg.writable
  refine ⟨⟨q, g.status⟩, ?_, ?_, rfl, hakin, htext⟩
  · rw [ofRecord, record, Status.ofName?_name, hposition]
    rfl
  · exact ⟨Position.timely_of_text hposition, Position.writable_of_text hposition⟩

end Game
end Arbiter
