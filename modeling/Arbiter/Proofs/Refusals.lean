import Arbiter.Proofs.Recognition
import Arbiter.Proofs.Trials

/-! # What becomes of any text at all

Every text either states a position or is refused with a message, and the search for a reply finds
its answer on any board that a text can state: without kings, or with pawns on the back rows. The
exception are the `Overlong` texts, whose counters cannot be read: for these there is neither an
answer nor a message (`position_of_overlong`).
-/

namespace Arbiter.Descriptor

open Grammar
open Position.Guarded (Trial)

variable {text : String}

theorem read_of_overlong (h : Overlong text) : read text = .error .counterTooLong := by
  obtain ⟨hparts, hnumber, hplayer, hrights, hpassing, hdigits, part, hmem, hlong⟩ := h
  rename_i counters side
  obtain ⟨i, hi⟩ := List.mem_iff_getElem?.mp hmem
  have hplace : i < 2 := by
    have := (List.getElem?_eq_some_iff.mp hi).1
    omega
  have hunread (absent : Nat) : readCounter counters i absent = .error .counterTooLong :=
    readCounter_eq_error.mpr ⟨rfl, part, hi, hlong⟩
  unfold read
  simp only [hparts, ofParts, if_neg (Nat.not_lt.mpr hnumber), toMove?_eq_some_iff.mpr hplayer,
    isField_iff.mpr hrights, isPassingField_iff.mpr hpassing, isNumeral_all_iff.mpr hdigits,
    not_true_eq_false, if_false]
  cases hquiet : readCounter counters 0 0 with
  | error e =>
      obtain ⟨rfl, -⟩ := readCounter_eq_error.mp hquiet
      rfl
  | ok quietPlies =>
      obtain rfl : i = 1 := by
        interval_cases i
        · cases hquiet.symm.trans (hunread 0)
        · rfl
      rw [hunread 1]
      rfl

theorem position_of_overlong (h : Overlong text) : position text = .error .counterTooLong := by
  rw [position, read_of_overlong h]
  rfl

theorem ofDescriptor_of_overlong (h : Overlong text) :
    Game.ofDescriptor text = .error .counterTooLong := by
  rw [Game.ofDescriptor, position_of_overlong h]
  rfl

theorem isValid?_of_overlong (h : Overlong text) : isValid? text = none := by
  rw [isValid?, position_of_overlong h]
  rfl

/-- Setting up a position never fails without a message. -/
theorem position_cases (text : String) :
    Overlong text ∨ ¬ Overlong text ∧ Answered Error.Told (position text) := by
  by_cases h : Overlong text
  · exact .inl h
  · exact .inr ⟨h, ((read_cases text).resolve_left fun prem => h prem.1).bind setup_answered⟩

theorem exists_isValid?_of_answered (h : Answered Error.Told (position text)) :
    ∃ verdict, isValid? text = some verdict := by
  unfold isValid?
  cases hposition : position text with
  | ok p => exact ⟨true, rfl⟩
  | error e =>
      obtain ⟨message, hmessage⟩ := h.fault hposition
      exact ⟨false, by simp only [hmessage, Option.map_some]⟩

theorem ofName_of_isPassingField {part : List Char} (h : isPassingField part = true) :
    part = ['-'] ∨ ∃ s, Square.ofName part = .ok s := by
  by_cases hdash : part = ['-']
  · exact .inl hdash
  · have hread : ∃ s, readPassing part = some s := by
      rcases isPassingField_iff.mp h with rfl | ⟨file, hfile, rfl | rfl⟩
      · exact absurd rfl hdash
      · exact ⟨_, (readPassing_file hfile).1.1⟩
      · exact ⟨_, (readPassing_file hfile).1.2⟩
    rw [readPassing, if_neg hdash] at hread
    cases hname : Square.ofName part with
    | error e => simp [hname, Except.toOption] at hread
    | ok s => exact .inr ⟨s, rfl⟩

/-- A text with an overlong counter is neither accepted nor refused. Any other text states a
position or is refused with a message, and so there is a verdict on it; the same holds of a game from
it, as the search for a reply in the position comes to its answer and leaves the position as it was.
The name of a square is read only where it is one. -/
theorem answered_unless_overlong (text : String) :
    ((Overlong text ∧ position text = .error .counterTooLong ∧
        Game.ofDescriptor text = .error .counterTooLong ∧ isValid? text = none) ∨
      (¬ Overlong text ∧ Answered Error.Told (position text) ∧
        Answered Error.Told (Game.ofDescriptor text) ∧ ∃ verdict, isValid? text = some verdict)) ∧
      (∀ p, position text = .ok p → Trial.stuck? p = (.ok p.stuck?, p)) ∧
        ∀ part, isPassingField part = true → part = ['-'] ∨ ∃ s, Square.ofName part = .ok s := by
  refine ⟨?_, fun p _ => Trial.reads_stuck? p, fun _ => ofName_of_isPassingField⟩
  rcases position_cases text with h | ⟨h, hanswered⟩
  · exact .inl ⟨h, position_of_overlong h, ofDescriptor_of_overlong h, isValid?_of_overlong h⟩
  · exact .inr ⟨h, hanswered, hanswered.bind fun _ => .granted _,
      exists_isValid?_of_answered hanswered⟩

/-- Neither player has a king, and pawns stand on the back rows. -/
def kinglessText : String := "PPPPpppp/8/8/8/8/8/8/ppppPPPP b - - 0 1"

theorem kinglessText_answered :
    (∃ p, position kinglessText = .ok p ∧ Trial.stuck? p = (.ok p.stuck?, p)) ∧
      ¬ Overlong kinglessText ∧ (∃ verdict, isValid? kinglessText = some verdict) ∧
        isPassingField ['e', '3'] = true ∧ ∃ s, Square.ofName ['e', '3'] = .ok s := by
  have haccepted : isValid? kinglessText = some true := by decide +kernel
  obtain ⟨p, hp⟩ := isValid?_eq_true.mp haccepted
  have hfield : isPassingField ['e', '3'] = true := by decide
  obtain ⟨hverdict, hreply, hnamed⟩ := answered_unless_overlong kinglessText
  obtain ⟨hshort, -, -, hverdict⟩ := hverdict.resolve_left fun prem =>
    nomatch haccepted.symm.trans prem.2.2.2
  exact ⟨⟨p, hp, hreply p hp⟩, hshort, hverdict, hfield,
    (hnamed ['e', '3'] hfield).resolve_left (by decide)⟩

/-- The number of the turn has one digit more than are read. -/
def overlongParts : List (List Char) :=
  ["4k3/8/8/8/8/8/8/4K3".toList, ['w'], ['-'], ['-'], ['0'], List.replicate 4301 '1']

def overlongText : String := String.ofList (Text.joinFields ' ' overlongParts)

/-- There is no verdict on some text, and no message with which it would be refused. -/
theorem overlongText_not_answered :
    isValid? overlongText = none ∧ ¬ Answered Error.Told (position overlongText) ∧
      ¬ Answered Error.Told (Game.ofDescriptor overlongText) := by
  have hlong : ∀ c ∈ List.replicate 4301 '1', c = '1' := fun c => List.eq_of_mem_replicate
  have hparts : Text.fields ' ' overlongText.toList = overlongParts := by
    rw [overlongText, String.toList_ofList]
    refine Text.fields_joinFields nofun ?_
    simp only [overlongParts, List.forall_mem_cons]
    refine ⟨by decide, by decide, by decide, by decide, by decide, fun hblank => ?_, nofun⟩
    cases hlong ' ' hblank
  have hdigits : ∀ part ∈ [['0'], List.replicate 4301 '1'],
      part ≠ [] ∧ ∀ c ∈ part, c.isDigit = true := by
    simp only [List.forall_mem_cons]
    exact ⟨by decide, ⟨nofun, fun c hc => hlong c hc ▸ rfl⟩, nofun⟩
  have hoverlong : Overlong overlongText :=
    .intro hparts le_rfl .white (.inl rfl) (.inl rfl) hdigits
      ⟨_, List.mem_cons_of_mem _ List.mem_cons_self, by rw [List.length_replicate]; decide⟩
  have untold : ¬ Error.Told .counterTooLong := nofun
  exact ⟨isValid?_of_overlong hoverlong, fun h => untold (h.fault (position_of_overlong hoverlong)),
    fun h => untold (h.fault (ofDescriptor_of_overlong hoverlong))⟩

end Arbiter.Descriptor
