import Arbiter.Proofs.DeskCalls

/-! # What is on file can be read

A game may be created from any descriptor that is accepted, and such a position has little in common
with those of ordinary games. Still every record on file was written from a game that is `Fileable`,
so it can be taken up again, and is filed under the same text.
-/

namespace Arbiter

namespace Descriptor

variable {text : String}

theorem isValid?_eq_true : isValid? text = some true ↔ ∃ p, position text = .ok p := by
  unfold isValid?
  cases hposition : position text with
  | error e => simp
  | ok p => simp

end Descriptor

namespace Register

/-- Identifiers are handed out in order, and only fileable games are filed. -/
structure Orderly (r : Register) : Prop where
  issued : ∀ i record, r.get? i = some record → i.value ≤ r.issued
  filed : ∀ i record, r.get? i = some record → ∃ g : Game, g.Fileable ∧ record = g.record

variable {r : Register} {i : Identifier} {g : Game}

theorem orderly_empty : Orderly {} := by
  constructor
  · intro i record filed
    cases filed
  · intro i record filed
    cases filed

theorem Orderly.next_free (hr : r.Orderly) : r.get? r.next = none := by
  cases hget : r.get? r.next with
  | none => rfl
  | some record => exact absurd (hr.issued _ _ hget) (Nat.not_succ_le_self r.issued)

theorem Orderly.add (hr : r.Orderly) (hg : g.Fileable) : (r.add g.record).2.Orderly := by
  constructor
  · intro i record hget
    rw [get?_add] at hget
    split_ifs at hget with hi
    · rw [hi]
      exact Nat.le_refl _
    · exact Nat.le_succ_of_le (hr.issued i record hget)
  · intro i record hget
    rw [get?_add] at hget
    split_ifs at hget
    · cases hget
      exact ⟨g, hg, rfl⟩
    · exact hr.filed i record hget

theorem Orderly.update (hr : r.Orderly) (hg : g.Fileable) : (r.update i g.record).Orderly := by
  constructor
  · intro j record hget
    rw [get?_update] at hget
    split_ifs at hget with hj
    · obtain ⟨old, hold, -⟩ := Option.map_eq_some_iff.mp hget
      rw [hj]
      exact hr.issued i old hold
    · exact hr.issued j record hget
  · intro j record hget
    rw [get?_update] at hget
    split_ifs at hget
    · obtain ⟨old, -, rfl⟩ := Option.map_eq_some_iff.mp hget
      exact ⟨g, hg, rfl⟩
    · exact hr.filed j record hget

theorem Orderly.remove (hr : r.Orderly) : (r.remove i).Orderly := by
  have kept {j : Identifier} {record : Record} (hget : (r.remove i).get? j = some record) :
      r.get? j = some record := by
    rw [get?_remove] at hget
    split_ifs at hget
    exact hget
  exact ⟨fun j record hget => hr.issued j record (kept hget),
    fun j record hget => hr.filed j record (kept hget)⟩

end Register

/-- A record with the name of a status and an accepted descriptor, which is written again when the
position it states is described. -/
structure Record.Canonical (record : Record) : Prop where
  status : ∃ s ∈ Status.all, record.status = s.name
  accepted : Descriptor.isValid? record.descriptor = some true
  rewritten : ∃ p, Descriptor.position record.descriptor = .ok p ∧ p.Writable ∧
    p.text = record.descriptor

theorem Game.Fileable.canonical {g : Game} (hg : g.Fileable) : g.record.Canonical := by
  obtain ⟨q, hposition, -, htext⟩ := hg.timely.toLegible.restored hg.writable
  constructor
  · refine ⟨g.status, ?_, rfl⟩
    cases g.status <;> decide
  · exact Descriptor.isValid?_eq_true.mpr ⟨q, hposition⟩
  · exact ⟨q, hposition, Position.writable_of_text hposition, htext⟩

namespace Desk

open Register

variable {r : Register} {c : Call} {i : Identifier} {g g' : Game} {record : Record}

/-- A fileable game is on file. -/
structure Holds (r : Register) (i : Identifier) (g : Game) : Prop where
  filed : r.get? i = some g.record
  fileable : g.Fileable

theorem Holds.takenUp (h : Holds r i g) : ∃ g', fetch r i = .ok g' ∧ g'.Fileable ∧
    g'.status = g.status ∧ Akin g.position g'.position ∧ g'.position.text = g.position.text := by
  obtain ⟨g', htaken, hg'⟩ := h.fileable.takenUp
  refine ⟨g', ?_, hg'⟩
  rw [fetch, h.filed]
  exact congrArg (Except.mapError Error.record) htaken

theorem report_eq (hstatus : g'.status = g.status) (hakin : Akin g.position g'.position)
    (htext : g'.position.text = g.position.text) : report i g' = report i g := by
  have hmove : g'.toMove = g.toMove := hakin.toMove_eq.symm
  have hwinner : g'.winner = g.winner := by
    unfold Game.winner
    rw [hstatus, hmove]
  have hcheck : g'.isCheck = g.isCheck := by
    unfold Game.isCheck
    rw [hmove, hakin.men.inCheck_eq]
  simp only [report, hstatus, hmove, hwinner, hcheck, htext]

/-- A game on file is reported as if it had never been filed. -/
theorem Holds.state (h : Holds r i g) : state r ⟨i⟩ = .ok (report i g) := by
  obtain ⟨g', fetched, hg', hstatus, hakin, htext⟩ := h.takenUp
  rw [state_eq fetched, if_pos hg'.writable]
  exact congrArg Except.ok (report_eq hstatus hakin htext)

theorem newGame_eq_ok {q : CreateRequest} : newGame q = .ok g ↔
    (q.descriptor.getD "" = "" ∧ g = .initial) ∨
      ∃ text, q.descriptor = some text ∧ text ≠ "" ∧ Game.ofDescriptor text = .ok g := by
  unfold newGame
  cases q.descriptor with
  | none => simp [eq_comm]
  | some text =>
      by_cases hempty : text = ""
      · simp [hempty, eq_comm]
      · cases h : Game.ofDescriptor text <;> simp [h, hempty, Except.mapError]

theorem fileable_of_newGame {q : CreateRequest} (asked : newGame q = .ok g) : g.Fileable := by
  rcases newGame_eq_ok.mp asked with ⟨-, rfl⟩ | ⟨text, -, -, htext⟩
  · exact Game.fileable_initial
  · exact Game.fileable_of_text htext

end Desk

namespace Register

open Desk (Holds Call Answer Serves fetch)

variable {r r' : Register} {c : Call} {answer : Except Desk.Error Answer} {i : Identifier}
  {g : Game} {record : Record}

theorem Orderly.holds (hr : r.Orderly) (filed : r.get? i = some record) :
    ∃ g, Holds r i g ∧ record = g.record := by
  obtain ⟨g, hg, rfl⟩ := hr.filed i record filed
  exact ⟨g, ⟨filed, hg⟩, rfl⟩

theorem Orderly.holds_of_fetch (hr : r.Orderly) (fetched : fetch r i = .ok g) : Holds r i g := by
  cases filed : r.get? i with
  | none =>
      rw [fetch, filed] at fetched
      cases fetched
  | some record =>
      obtain ⟨g₀, h, rfl⟩ := hr.holds filed
      obtain ⟨g', fetched', hg', hstatus, -, htext⟩ := h.takenUp
      cases fetched.symm.trans fetched'
      refine ⟨?_, hg'⟩
      rw [filed, Game.record, Game.record, hstatus, htext]

/-- Whatever comes of a call, the register stays orderly. -/
theorem Orderly.served (hr : r.Orderly) (h : Serves r c answer r') : r'.Orderly := by
  cases h with
  | refused _ => exact hr
  | created asked _ => exact hr.add (Desk.fileable_of_newGame asked)
  | reported _ _ => exact hr
  | listed _ _ => exact hr
  | changed _ fetched deed writable =>
      have before := hr.holds_of_fetch (Desk.fetch_of_fetchFor fetched)
      exact hr.update ⟨deed.timely before.fileable.timely, writable⟩
  | deleted => exact hr.remove

end Register

namespace Form.Reading

variable {ε α β γ : Type} {r : Reading ε α} {r' : Reading ε β} {c : γ}

theorem both_eq_ok {f : α → β → γ} :
    both f r r' = .ok c ↔ ∃ a b, r = .ok a ∧ r' = .ok b ∧ f a b = c := by
  cases r <;> cases r' <;> simp [both]

theorem map_eq_ok {f : α → γ} : r.map f = .ok c ↔ ∃ a, r = .ok a ∧ f a = c := by
  cases r <;> simp [map]

theorem check_eq_ok {f : α → Reading ε γ} :
    r.check f = .ok c ↔ ∃ a, r = .ok a ∧ f a = .ok c := by
  cases r <;> simp [check]

end Form.Reading

theorem CreateRequest.accepted_of_read {fields : Fields} {q : CreateRequest} {text : String}
    (h : CreateRequest.read fields = .ok q) (named : q.descriptor = some text) :
    Descriptor.isValid? text = some true := by
  have examined {named : Option String} (h : examine named = .ok (some text)) :
      Descriptor.isValid? text = some true := by
    unfold examine at h
    split at h
    · cases h
    · split at h
      · cases h
        assumption
      · cases h
      · cases h
  obtain ⟨descriptor, hread, rfl⟩ := Form.Reading.map_eq_ok.mp h
  obtain ⟨given, -, hexamine⟩ := Form.Reading.check_eq_ok.mp hread
  subst named
  exact examined hexamine

namespace Desk

variable {r r' : Register} {c : Call} {i : Identifier} {g : Game} {e : Error}

theorem Reached.orderly (hr : Reached r) : r.Orderly := by
  induction hr with
  | empty => exact Register.orderly_empty
  | serve _ c ih => exact ih.served (serves _ c)

theorem create_of_read {fields : Fields} {q : CreateRequest}
    (h : CreateRequest.read fields = .ok q) :
    ∃ g, newGame q = .ok g ∧ (create r q).1 = .ok (report r.next g) := by
  have asked : ∃ g, newGame q = .ok g := by
    cases named : q.descriptor with
    | none => exact ⟨_, newGame_eq_ok.mpr (.inl ⟨by rw [named]; rfl, rfl⟩)⟩
    | some text =>
        by_cases hempty : text = ""
        · exact ⟨_, newGame_eq_ok.mpr (.inl ⟨by rw [named, hempty]; rfl, rfl⟩)⟩
        · obtain ⟨p, hposition⟩ :=
            Descriptor.isValid?_eq_true.mp (CreateRequest.accepted_of_read h named)
          have started : Game.ofDescriptor text = .ok ⟨p, p.stuck?.getD .inProgress⟩ :=
            Game.ofDescriptor_eq_ok.mpr ⟨hposition, rfl⟩
          exact ⟨_, newGame_eq_ok.mpr (.inr ⟨text, named, hempty, started⟩)⟩
  obtain ⟨g, asked⟩ := asked
  refine ⟨g, asked, ?_⟩
  rw [create_eq asked, if_pos (fileable_of_newGame asked).writable]

theorem Serves.ofPlay (h : Serves r c (.error e) r') (named : c.game? = some i)
    (fetched : fetch r i = .ok g) : e.OfPlay := by
  cases h with
  | refused fault => exact fault named fetched

/-- In every register that arises from the empty one all records are canonical, and every call on a
game that is there succeeds, or fails for what it asks; and every request for a new game that has
been read is granted. -/
theorem records_stay_canonical (hr : Reached r) :
    (∀ fields q, CreateRequest.read fields = .ok q → ∃ reply, (create r q).1 = .ok reply) ∧
      ∀ i record, r.get? i = some record → record.Canonical ∧ (∃ reply, state r ⟨i⟩ = .ok reply) ∧
        ∀ c e, c.game? = some i → (serve r c).1 = .error e → e.OfPlay := by
  constructor
  · intro fields q h
    obtain ⟨g, -, created⟩ := create_of_read (r := r) h
    exact ⟨_, created⟩
  · intro i record filed
    obtain ⟨g, holds, rfl⟩ := hr.orderly.holds filed
    obtain ⟨g', fetched, -⟩ := holds.takenUp
    exact ⟨holds.fileable.canonical, ⟨_, holds.state⟩,
      fun c e named h => Serves.ofPlay (h ▸ serves r c) named fetched⟩

/-- Three white kings, pawns on the back rows, and a clock far ahead of the turns. -/
def crowdedText : String := "P3k2n/8/8/8/8/8/8/NK1KK2p w - - 140 3"

/-- The game is created, and a knight moves. -/
def crowdedDesk : Register :=
  after {} [.create ⟨some crowdedText⟩, .move ⟨⟨1⟩, .white, "a1b3"⟩]

/-- What is on file then. -/
def crowdedRecord : Record := ⟨"P3k2n/8/8/8/8/1N6/8/1K1KK2p b - - 141 3", "draw offered"⟩

theorem crowdedDesk_reached : Reached crowdedDesk :=
  (Reached.empty.serve _).serve _

theorem crowded_record_canonical :
    (Reached crowdedDesk ∧ crowdedDesk.get? ⟨1⟩ = some crowdedRecord) ∧
      crowdedRecord.Canonical :=
  have filed : crowdedDesk.get? ⟨1⟩ = some crowdedRecord := by decide +kernel
  ⟨⟨crowdedDesk_reached, filed⟩,
    ((records_stay_canonical crowdedDesk_reached).2 _ _ filed).1⟩

end Desk
end Arbiter
