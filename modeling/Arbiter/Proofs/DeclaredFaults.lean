import Arbiter.Proofs.ModestClocks

/-! # Which faults a request can meet

A request whose form has been read is granted, or fails with a fault that is declared and has a
message. One character gets through all checks and fails otherwise: the capital I with a dot above
is a letter, but its lower case is two characters, and no file can be counted from these.
-/

namespace Arbiter

theorem Text.lower?_eq_none_iff {c : Char} : lower? c = none ↔ c = dottedCapitalI := by
  unfold lower?
  split_ifs with h
  · simp [h]
  · split <;> simp [h]

theorem Text.codePoint_lt (c : Char) : c.toNat < 0x110000 := by
  have hvalid := c.valid
  unfold UInt32.isValidChar Nat.isValidChar at hvalid
  change c.val.toNat < _
  omega

theorem Numeral.fits_of_codePoint {n : Int} (h : n.natAbs < 0x110000) : Fits n := by
  apply fits_iff_length.mpr
  have hlength : (Nat.toDigits 10 n.natAbs).length ≤ 7 :=
    (Nat.length_toDigits_le_iff (by decide) (by decide)).mpr (h.trans (by decide))
  exact hlength.trans (by decide)

/-- Two characters name a square, somewhere on the board or off it, unless the first of them has no
lower case to count from. -/
theorem Square.ofName_cases (file rank : Char) :
    (file = Text.dottedCapitalI ∧ ofName [file, rank] = .error .fileNotOneLetter) ∨
      (file ≠ Text.dottedCapitalI ∧ ∃ s, ofName [file, rank] = .ok s ∧ s.HasName) := by
  cases hlower : Text.lower? file with
  | none => exact .inl ⟨Text.lower?_eq_none_iff.mp hlower, by simp [ofName, hlower]⟩
  | some letter =>
      have hfile : file ≠ Text.dottedCapitalI := fun h => by
        rw [Text.lower?_eq_none_iff.mpr h] at hlower
        cases hlower
      have hname : ofName [file, rank] =
          .ok ⟨8 - ((rank.toNat : Int) - 48), (letter.toNat : Int) - 97⟩ := by
        simp only [ofName, hlower]
      have hletter := Text.codePoint_lt letter
      have hrank := Text.codePoint_lt rank
      refine .inr ⟨hfile, _, hname, ⟨?_, Numeral.fits_of_codePoint ?_⟩⟩
      · simp only
        omega
      · simp only
        omega

namespace Move

variable {text : String} {file₁ rank₁ file₂ rank₂ : Char} {letters : List Char}

/-- One of the two files is named by the letter without a lower case to count from. -/
def DottedFile (text : String) : Prop :=
  text.toList[0]? = some Text.dottedCapitalI ∨ text.toList[2]? = some Text.dottedCapitalI

instance (text : String) : Decidable (DottedFile text) :=
  inferInstanceAs (Decidable (_ ∨ _))

theorem ofNotation_cases (h : text.toList = file₁ :: rank₁ :: file₂ :: rank₂ :: letters) :
    (DottedFile text ∧ ofNotation text = .error (.square .fileNotOneLetter)) ∨
      (¬ DottedFile text ∧ ((∃ m, ofNotation text = .ok m ∧ m.HasNotation) ∨
        ∃ letters, ofNotation text = .error (.promotion letters text))) := by
  have hdotted : DottedFile text ↔ file₁ = Text.dottedCapitalI ∨ file₂ = Text.dottedCapitalI := by
    simp [DottedFile, h]
  rw [hdotted]
  unfold ofNotation
  rw [h]
  rcases Square.ofName_cases file₁ rank₁ with ⟨hfile₁, hname₁⟩ | ⟨hfile₁, src, hname₁, hsrc⟩
  · exact .inl ⟨.inl hfile₁, by simp only [hname₁]; rfl⟩
  rcases Square.ofName_cases file₂ rank₂ with ⟨hfile₂, hname₂⟩ | ⟨hfile₂, dst, hname₂, hdst⟩
  · exact .inl ⟨.inr hfile₂, by simp only [hname₁, hname₂]; rfl⟩
  refine .inr ⟨not_or_intro hfile₁ hfile₂, ?_⟩
  simp only [hname₁, hname₂, Except.mapError, bind, Except.bind]
  split
  · exact .inl ⟨_, rfl, hsrc, hdst⟩
  · exact .inl ⟨_, rfl, hsrc, hdst⟩
  · exact .inr ⟨_, rfl⟩

end Move

/-- A request is granted, or fails with a declared fault. -/
inductive Answered {ε α : Type} (declared : ε → Prop) : Except ε α → Prop where
  | granted (a : α) : Answered declared (.ok a)
  | failed {e : ε} (fault : declared e) : Answered declared (.error e)

namespace Answered

variable {ε ε' α β : Type} {declared : ε → Prop} {declared' : ε' → Prop} {x : Except ε α}

theorem map (h : Answered declared x) (f : α → β) : Answered declared (x.map f) := by
  cases h with
  | granted a => exact .granted (f a)
  | failed fault => exact .failed fault

theorem mapError {f : ε → ε'} (h : Answered declared x)
    (faults : ∀ {e}, declared e → declared' (f e)) : Answered declared' (x.mapError f) := by
  cases h with
  | granted a => exact .granted a
  | failed fault => exact .failed (faults fault)

theorem bind {f : α → Except ε β} (h : Answered declared x)
    (next : ∀ {a}, x = .ok a → Answered declared (f a)) : Answered declared (x >>= f) := by
  cases h with
  | granted a => exact next rfl
  | failed fault => exact .failed fault

theorem fault {e : ε} (h : Answered declared x) (failed : x = .error e) : declared e := by
  cases h with
  | granted a => cases failed
  | failed fault =>
      cases failed
      exact fault

end Answered

namespace Game

/-- The faults of a move or of a claim that are declared. -/
inductive Error.Declared : Error → Prop where
  | finished (status : Status) : Declared (.finished status)
  | noDraw (status : Status) : Declared (.noDraw status)
  | tooShort (text : String) : Declared (.badNotation (.tooShort text))
  | promotion (letters text : String) : Declared (.badNotation (.promotion letters text))
  | promotionMissing (move : Move) : Declared (.promotionMissing move)
  | illegal (move : Move) : Declared (.illegal move)

/-- The undeclared fault: a file is named by a letter without a lower case to count from. -/
def Error.uncountedFile : Error := .badNotation (.square .fileNotOneLetter)

theorem Error.Declared.message {e : Error} (h : e.Declared) : ∃ text, e.message? = some text := by
  cases h <;> exact ⟨_, rfl⟩

variable {g : Game} {m : Move} {text : String} {file₁ rank₁ file₂ rank₂ : Char}
  {letters : List Char}

theorem claim_answered (g : Game) : Answered Error.Declared g.claim.result := by
  unfold claim
  split_ifs
  · exact .granted ()
  · exact .failed (.noDraw _)

theorem legalMoves_answered (g : Game) : Answered Error.Declared g.legalMoves := by
  unfold legalMoves
  split_ifs
  · exact .failed (.finished _)
  · exact .granted _

theorem play_answered (hfits : Numeral.Fits (g.position.plies + 1)) (hname : m.HasNotation) :
    Answered Error.Declared (g.play m).result := by
  cases hover : g.status.isOver with
  | true =>
      rw [play_of_over hover]
      exact .failed (.finished _)
  | false =>
      cases hruling : g.position.ruling m with
      | illegal =>
          rw [play_of_illegal hover hruling, if_pos hname]
          exact .failed (.illegal m)
      | needsPromotion =>
          rw [play_of_needsPromotion hover hruling]
          exact .failed (.promotionMissing m)
      | legal e =>
          rw [play_of_legal hover hruling, if_pos hfits]
          exact .granted _

/-- The same for a text of four or more characters, unless the game goes on and a file cannot be
counted. -/
theorem playText_cases (hfits : Numeral.Fits (g.position.plies + 1))
    (h : text.toList = file₁ :: rank₁ :: file₂ :: rank₂ :: letters) :
    (g.status.isOver = false ∧ Move.DottedFile text ∧
        (g.playText text).result = .error .uncountedFile) ∨
      (¬ (g.status.isOver = false ∧ Move.DottedFile text) ∧
        Answered Error.Declared (g.playText text).result) := by
  cases hover : g.status.isOver with
  | true =>
      refine .inr ⟨nofun, ?_⟩
      rw [playText, if_pos hover]
      exact .failed (.finished _)
  | false =>
      rcases Move.ofNotation_cases h with
        ⟨hdotted, hread⟩ | ⟨hplain, ⟨m, hread, hname⟩ | ⟨letters, hread⟩⟩
      · exact .inl ⟨rfl, hdotted, by simp [playText, hover, hread, Error.uncountedFile]⟩
      · refine .inr ⟨fun prem => hplain prem.2, ?_⟩
        rw [playText_of_ofNotation hread]
        exact play_answered hfits hname
      · refine .inr ⟨fun prem => hplain prem.2, ?_⟩
        simp only [playText, hover, hread]
        exact .failed (.promotion letters text)

end Game

theorem MoveRequest.long_of_read {fields : Fields} {q : MoveRequest}
    (h : MoveRequest.read fields = .ok q) : ∃ file₁ rank₁ file₂ rank₂ letters,
      q.move.toList = file₁ :: rank₁ :: file₂ :: rank₂ :: letters := by
  obtain ⟨_, move, -, hmove, rfl⟩ := Form.Reading.both_eq_ok.mp h
  obtain ⟨text, -, examined⟩ := Form.Reading.check_eq_ok.mp hmove
  unfold examine at examined
  split at examined
  · rename_i htext
    split_ifs at examined
    cases examined
    exact ⟨_, _, _, _, _, htext⟩
  · cases examined

namespace Desk

variable {r : Register} {c : Call} {i : Identifier} {player : Side} {g : Game} {e : Error}
  {fields : Fields}

/-- The faults of a request that are declared. -/
inductive Error.Declared : Error → Prop where
  | unknownGame (game : Identifier) : Declared (.unknownGame game)
  | notYourTurn (waitingFor : Side) : Declared (.notYourTurn waitingFor)
  | game {cause : Game.Error} (fault : cause.Declared) : Declared (.game cause)

theorem Error.Declared.message (h : e.Declared) : ∃ text, e.message? = some text := by
  cases h with
  | unknownGame => exact ⟨_, rfl⟩
  | notYourTurn => exact ⟨_, rfl⟩
  | game fault => exact Game.Error.Declared.message fault

/-- The call has been read from the fields of a form. -/
inductive Call.ReadFrom (fields : Fields) : Call → Prop where
  | create {q : CreateRequest} (read : CreateRequest.read fields = .ok q) :
      ReadFrom fields (.create q)
  | state {q : GameRequest} (read : GameRequest.read fields = .ok q) : ReadFrom fields (.state q)
  | legalMoves {q : PlayerRequest} (read : PlayerRequest.read fields = .ok q) :
      ReadFrom fields (.legalMoves q)
  | move {q : MoveRequest} (read : MoveRequest.read fields = .ok q) : ReadFrom fields (.move q)
  | claim {q : PlayerRequest} (read : PlayerRequest.read fields = .ok q) :
      ReadFrom fields (.claim q)
  | delete {q : GameRequest} (read : GameRequest.read fields = .ok q) :
      ReadFrom fields (.delete q)

/-- A player whose turn it is names an uncounted file, in a game that goes on. -/
def Call.NamesDottedFile (r : Register) (c : Call) : Prop :=
  ∃ q g, c = .move q ∧ fetchFor r q.game q.player = .ok g ∧ g.status.isOver = false ∧
    Move.DottedFile q.move

theorem fetch_answered (hr : r.Orderly) (i : Identifier) :
    Answered Error.Declared (fetch r i) := by
  cases filed : r.get? i with
  | none =>
      rw [fetch, filed]
      exact .failed (.unknownGame i)
  | some record =>
      obtain ⟨g, holds, rfl⟩ := hr.holds filed
      obtain ⟨g', fetched, -⟩ := holds.takenUp
      rw [fetched]
      exact .granted g'

theorem fetchFor_answered (hr : r.Orderly) (i : Identifier) (player : Side) :
    Answered Error.Declared (fetchFor r i player) := by
  apply (fetch_answered hr i).bind
  intro g _
  split_ifs
  · exact .granted g
  · exact .failed (.notYourTurn _)

theorem state_answered (hr : r.Orderly) (q : GameRequest) :
    Answered Error.Declared (state r q) := by
  apply (fetch_answered hr q.game).bind
  intro g fetched
  rw [if_pos (hr.holds_of_fetch fetched).fileable.writable]
  exact .granted _

theorem legalMoves_answered (hr : r.Orderly) (q : PlayerRequest) :
    Answered Error.Declared (legalMoves r q) := by
  apply (fetchFor_answered hr q.game q.player).bind
  intro g _
  exact (g.legalMoves_answered.mapError .game).bind fun _ => .granted _

section Acting

variable {α : Type} {f : Game → Game.Reaction α}

theorem act_of_error {cause : Game.Error} (fetched : fetchFor r i player = .ok g)
    (refused : (f g).result = .error cause) : act r i player f = (.error (.game cause), r) := by
  simp only [act, fetched, refused]

theorem act_answered (hr : r.Orderly)
    (answered : ∀ {g}, fetchFor r i player = .ok g → Answered Game.Error.Declared (f g).result)
    (writable : ∀ {g a}, fetchFor r i player = .ok g → (f g).result = .ok a →
      (f g).game.position.Writable) :
    Answered Error.Declared (act r i player f).1 := by
  cases fetched : fetchFor r i player with
  | error e =>
      simp only [act, fetched]
      exact .failed ((fetchFor_answered hr i player).fault fetched)
  | ok g =>
      cases hresult : (f g).result with
      | error cause =>
          rw [act_of_error fetched hresult]
          exact .failed (.game ((answered fetched).fault hresult))
      | ok a =>
          simp only [act, fetched, hresult, refile, if_pos (writable fetched hresult)]
          exact .granted _

end Acting

theorem Kept.held (hr : Kept r) (fetched : fetchFor r i player = .ok g) :
    g.Fileable ∧ ∃ start, g.Modest start :=
  have before := fetch_of_fetchFor fetched
  ⟨(hr.orderly.holds_of_fetch before).fileable, hr.moderate i g before⟩

theorem Kept.fits (hr : Kept r) (fetched : fetchFor r i player = .ok g) :
    Numeral.Fits (g.position.plies + 1) := by
  obtain ⟨hg, start, hmodest⟩ := hr.held fetched
  exact hmodest.fits hg.timely.clock

/-- Whatever is done in a game, it can be filed again. -/
theorem Kept.filed {g' : Game} (hr : Kept r) (fetched : fetchFor r i player = .ok g)
    (deed : g.Deed g') : g'.position.Writable := by
  obtain ⟨hg, start, hmodest⟩ := hr.held fetched
  exact (hmodest.deed deed).writable (deed.timely hg.timely)

theorem move_answered {q : MoveRequest} (hr : Kept r) (read : MoveRequest.read fields = .ok q)
    (hplain : ¬ (Call.move q).NamesDottedFile r) : Answered Error.Declared (move r q).1 := by
  obtain ⟨_, _, _, _, _, htext⟩ := MoveRequest.long_of_read read
  rw [move_eq_act]
  refine act_answered hr.orderly (fun fetched => ?_) fun fetched accepted =>
    hr.filed fetched (.turn (.notated accepted))
  rcases Game.playText_cases (hr.fits fetched) htext with ⟨hopen, hdotted, -⟩ | ⟨-, answered⟩
  · exact absurd ⟨q, _, rfl, fetched, hopen, hdotted⟩ hplain
  · exact answered

theorem move_of_dotted {q : MoveRequest} (hr : Kept r) (read : MoveRequest.read fields = .ok q)
    (hdotted : (Call.move q).NamesDottedFile r) :
    (move r q).1 = .error (.game .uncountedFile) := by
  obtain ⟨_, _, _, _, _, htext⟩ := MoveRequest.long_of_read read
  obtain ⟨q', g, hq, fetched, hopen, hletter⟩ := hdotted
  cases hq
  rcases Game.playText_cases (hr.fits fetched) htext with ⟨-, -, refused⟩ | ⟨hplain, -⟩
  · rw [move_eq_act, act_of_error fetched refused]
  · exact absurd ⟨hopen, hletter⟩ hplain

theorem claim_answered (hr : Kept r) (q : PlayerRequest) :
    Answered Error.Declared (claim r q).1 := by
  rw [claim_eq_act]
  exact act_answered hr.orderly (fun {g} _ => g.claim_answered) fun fetched accepted =>
    hr.filed fetched (.claim accepted)

/-- In a register that was kept with brief descriptors, a call that has been read from a form is
granted or fails with a declared fault, unless it names a dotted file in a game that goes on: then
it fails with a fault that is not declared. -/
theorem read_calls_answered (hr : Kept r) (read : c.ReadFrom fields) :
    (¬ c.NamesDottedFile r → Answered Error.Declared (serve r c).1) ∧
      (c.NamesDottedFile r → (serve r c).1 = .error (.game .uncountedFile)) := by
  constructor
  · intro hplain
    cases read with
    | create read =>
        obtain ⟨g, -, created⟩ := create_of_read (r := r) read
        simp only [serve, created]
        exact .granted _
    | state => exact (state_answered hr.orderly _).map _
    | legalMoves => exact (legalMoves_answered hr.orderly _).map _
    | move read => exact (move_answered hr read hplain).map _
    | claim => exact (claim_answered hr _).map _
    | delete => exact .granted _
  · intro hdotted
    obtain ⟨q, -, rfl, -⟩ := id hdotted
    cases read with
    | move read =>
        simp only [serve, move_of_dotted hr read hdotted]
        rfl

/-- A game from the initial position. -/
def freshDesk : Register := after {} [.create ⟨none⟩]

/-- The form of a move in the game: a dotted capital I, then 2e4. -/
def dottedForm : Fields :=
  [("game_id", .text "00000000-0000-0000-0000-000000000001"), ("color", .text "white"),
    ("move", .text (String.ofList [Text.dottedCapitalI, '2', 'e', '4']))]

/-- The call that is read from it. -/
def dottedCall : Call :=
  .move ⟨⟨1⟩, .white, String.ofList [Text.dottedCapitalI, '2', 'e', '4']⟩

theorem freshDesk_kept : Kept freshDesk := .serve .empty nofun

theorem dottedCall_read : dottedCall.ReadFrom dottedForm := .move (by rfl)

/-- The form passes all checks, and the call fails with the undeclared fault. -/
theorem dottedCall_uncounted :
    (Kept freshDesk ∧ dottedCall.ReadFrom dottedForm) ∧
      (serve freshDesk dottedCall).1 = .error (.game .uncountedFile) := by
  refine ⟨⟨freshDesk_kept, dottedCall_read⟩,
    (read_calls_answered freshDesk_kept dottedCall_read).2 ?_⟩
  have holds : Holds freshDesk ⟨1⟩ .initial := ⟨by decide +kernel, Game.fileable_initial⟩
  obtain ⟨g, fetched, -, hstatus, hakin, -⟩ := holds.takenUp
  have hmove : g.toMove = .white := hakin.toMove_eq.symm
  refine ⟨_, g, rfl, ?_, hstatus ▸ rfl, by decide⟩
  rw [fetchFor_eq fetched, if_pos hmove]

/-- A request that has been read may fail with a fault that is not declared. -/
theorem read_call_not_answered :
    Kept freshDesk ∧ dottedCall.ReadFrom dottedForm ∧
      ¬ Answered Error.Declared (serve freshDesk dottedCall).1 := by
  refine ⟨freshDesk_kept, dottedCall_read, fun answered => ?_⟩
  have served : (serve freshDesk dottedCall).1 = .error (.game .uncountedFile) := by
    decide +kernel
  rw [served] at answered
  cases answered with
  | failed fault =>
      cases fault with
      | game fault => exact nomatch fault

end Desk
end Arbiter
