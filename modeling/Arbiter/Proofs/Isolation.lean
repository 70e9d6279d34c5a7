import Arbiter.Proofs.Filing

/-! # Games do not disturb each other

A call looks at the record of one game at most and changes that record at most, and it changes
nothing unless it is granted. So what a player was told of a game stays true whatever is done in
other games, and calls about different games can be served in either order.
-/

namespace Arbiter

namespace Register

variable {r r' : Register} {i j : Identifier} {record record' : Record}

theorem update_comm (hne : i ≠ j) :
    (r.update i record).update j record' = (r.update j record').update i record := by
  simp only [update, List.map_map]
  congr 2
  funext e
  by_cases hi : e.1 = i
  · simp [hi, hne]
  · by_cases hj : e.1 = j
    · simp [hj, hne.symm]
    · simp [hi, hj]

theorem remove_comm : (r.remove i).remove j = (r.remove j).remove i := by
  simp only [remove, List.filter_filter, Bool.and_comm]

theorem update_remove_comm (hne : i ≠ j) :
    (r.update i record).remove j = (r.remove j).update i record := by
  simp only [update, remove, List.filter_map]
  congr 3
  funext e
  by_cases hi : e.1 = i
  · simp [hi, hne]
  · simp [hi]

/-- What a call can do to the record of a game. -/
inductive Change where
  | keep
  | replace (record : Record)
  | remove

/-- The register after a change to the record of a game. -/
def change (r : Register) (i : Identifier) : Change → Register
  | .keep => r
  | .replace record => r.update i record
  | .remove => r.remove i

theorem change_comm (a b : Change) (hne : i ≠ j) :
    (r.change i a).change j b = (r.change j b).change i a := by
  cases a with
  | keep => rfl
  | replace record =>
      cases b with
      | keep => rfl
      | replace record' => exact update_comm hne
      | remove => exact update_remove_comm hne
  | remove =>
      cases b with
      | keep => rfl
      | replace record' => exact (update_remove_comm hne.symm).symm
      | remove => exact remove_comm

end Register

namespace Desk

variable {r r' : Register} {c c' : Call} {answer : Except Error Answer} {i j : Identifier}
  {g : Game} {e : Error} {reply : GameReply}

theorem fetchFor_congr (player : Side) (hget : r.get? i = r'.get? i) :
    fetchFor r i player = fetchFor r' i player := by
  simp only [fetchFor, fetch, hget]

theorem act_congr {α : Type} (player : Side) (f : Game → Game.Reaction α)
    (hget : r.get? i = r'.get? i) :
    (act r i player f).1 = (act r' i player f).1 ∧ ∃ change,
      (act r i player f).2 = r.change i change ∧ (act r' i player f).2 = r'.change i change := by
  unfold act
  rw [← fetchFor_congr player hget]
  cases fetchFor r i player with
  | error e => exact ⟨rfl, .keep, rfl, rfl⟩
  | ok g =>
      cases hresult : (f g).result with
      | error cause =>
          simp only [hresult]
          exact ⟨trivial, .keep, rfl, rfl⟩
      | ok a =>
          simp only [hresult, refile]
          split_ifs
          · exact ⟨rfl, .replace _, rfl, rfl⟩
          · exact ⟨rfl, .keep, rfl, rfl⟩

/-- A call on a game looks at its record only, and changes that record only. -/
theorem serve_congr (named : c.game? = some i) (hget : r.get? i = r'.get? i) :
    (serve r c).1 = (serve r' c).1 ∧ ∃ change,
      (serve r c).2 = r.change i change ∧ (serve r' c).2 = r'.change i change := by
  cases c with
  | create q => cases named
  | state q =>
      cases named
      refine ⟨?_, .keep, rfl, rfl⟩
      simp only [serve, state, fetch, hget]
  | legalMoves q =>
      cases named
      refine ⟨?_, .keep, rfl, rfl⟩
      simp only [serve, legalMoves, fetchFor_congr _ hget]
  | move q =>
      cases named
      obtain ⟨hanswer, hchange⟩ := act_congr q.player (·.playText q.move) hget
      simp only [serve, move_eq_act]
      exact ⟨congrArg (Except.map Answer.game) hanswer, hchange⟩
  | claim q =>
      cases named
      obtain ⟨hanswer, hchange⟩ := act_congr q.player Game.claim hget
      simp only [serve, claim_eq_act]
      exact ⟨congrArg (Except.map Answer.game) hanswer, hchange⟩
  | delete q =>
      cases named
      exact ⟨rfl, .remove, rfl, rfl⟩

theorem about_eq (named : c.game? = some i) : c.about r = i := by
  rw [Call.about, named]
  rfl

theorem Serves.get?_of_ne (h : Serves r c answer r') (hne : i ≠ c.about r) :
    r'.get? i = r.get? i := by
  cases h with
  | refused _ => rfl
  | created _ _ =>
      rw [Register.get?_add]
      exact if_neg hne
  | reported _ _ => rfl
  | listed _ _ => rfl
  | changed named _ _ _ =>
      rw [about_eq named] at hne
      rw [Register.get?_update, if_neg hne]
  | deleted =>
      rw [Register.get?_remove]
      exact if_neg hne

/-- Calls on different games can be served in either order. -/
theorem serve_comm (named : c.game? = some i) (named' : c'.game? = some j) (hne : i ≠ j) :
    (serve (serve r c').2 c).1 = (serve r c).1 ∧ (serve (serve r c).2 c').1 = (serve r c').1 ∧
      (serve (serve r c).2 c').2 = (serve (serve r c').2 c).2 := by
  have hi : i ≠ c'.about r := by rwa [about_eq named']
  have hj : j ≠ c.about r := by rw [about_eq named]; exact hne.symm
  obtain ⟨hanswer, a, ha, ha'⟩ := serve_congr named ((serves r c').get?_of_ne hi).symm
  obtain ⟨hanswer', b, hb, hb'⟩ := serve_congr named' ((serves r c).get?_of_ne hj).symm
  refine ⟨hanswer.symm, hanswer'.symm, ?_⟩
  rw [hb', ha, ha', hb]
  exact Register.change_comm a b hne

theorem Serves.unchanged (h : Serves r c (.error e) r') : r' = r := by
  cases h
  rfl

theorem serve_of_error (h : (serve r c).1 = .error e) : (serve r c).2 = r :=
  Serves.unchanged (h ▸ serves r c)

theorem serve_of_asks (asks : c.asks = true) : (serve r c).2 = r := by
  cases c with
  | state q => rfl
  | legalMoves q => rfl
  | create q | move q | claim q | delete q => cases asks

theorem Serves.holds (h : Serves r c (.ok (.game reply)) r') (hr : r.Orderly) :
    ∃ g, reply = report (c.about r) g ∧ Holds r' (c.about r) g := by
  cases h with
  | created asked _ =>
      refine ⟨_, rfl, ?_, fileable_of_newGame asked⟩
      rw [Register.get?_add]
      exact if_pos rfl
  | reported fetched _ => exact ⟨_, rfl, hr.holds_of_fetch fetched⟩
  | changed named fetched deed writable =>
      have before := hr.holds_of_fetch (fetch_of_fetchFor fetched)
      rw [about_eq named]
      refine ⟨_, rfl, ?_, deed.timely before.fileable.timely, writable⟩
      rw [Register.get?_update, if_pos rfl, before.filed]
      rfl

/-- The calls leave a game alone: each is on another game, only asks, or is refused. -/
def Spared (i : Identifier) (r : Register) : List Call → Prop
  | [] => True
  | c :: cs => (c.game? ≠ some i ∨ c.asks = true ∨ ∃ e, (serve r c).1 = .error e) ∧
      Spared i (serve r c).2 cs

theorem Holds.spared (h : Holds r i g) (hr : r.Orderly)
    (hc : c.game? ≠ some i ∨ c.asks = true ∨ ∃ e, (serve r c).1 = .error e) :
    Holds (serve r c).2 i g := by
  rcases hc with hother | hasks | ⟨e, herror⟩
  · refine ⟨?_, h.fileable⟩
    rw [(serves r c).get?_of_ne, h.filed]
    intro same
    cases hgame : c.game? with
    | none =>
        rw [same, Call.about, hgame] at h
        exact absurd (hr.next_free.symm.trans h.filed) (by simp)
    | some j =>
        rw [about_eq hgame] at same
        rw [same] at hother
        exact hother hgame
  · rwa [serve_of_asks hasks]
  · rwa [serve_of_error herror]

theorem Holds.after_spared {cs : List Call} (h : Holds r i g) (hr : r.Orderly)
    (hcs : Spared i r cs) : Holds (after r cs) i g := by
  induction cs generalizing r with
  | nil => exact h
  | cons c cs ih => exact ih (h.spared hr hcs.1) (hr.served (serves r c)) hcs.2

/-- The desk is atomic, isolated, and reads what it wrote. A call that is refused changes nothing,
and a call that is granted at most the record of its own game, which is a new one if the call names
none. What is reported of a game is reported again, in every field, as long as no further call is
granted that could change it. Calls on different games can be served in either order. -/
theorem games_are_isolated (hr : Reached r) :
    (∀ c e, (serve r c).1 = .error e → (serve r c).2 = r) ∧
      (∀ c, (c.asks = true → (serve r c).2 = r) ∧
        ∀ i, i ≠ c.about r → (serve r c).2.get? i = r.get? i) ∧
      r.get? r.next = none ∧
      (∀ c reply, (serve r c).1 = .ok (.game reply) → reply.game = c.about r ∧
        ∀ cs, Spared reply.game (serve r c).2 cs →
          state (after (serve r c).2 cs) ⟨reply.game⟩ = .ok reply) ∧
      ∀ c c' i j, c.game? = some i → c'.game? = some j → i ≠ j →
        (serve (serve r c').2 c).1 = (serve r c).1 ∧
          (serve (serve r c).2 c').1 = (serve r c').1 ∧
          (serve (serve r c).2 c').2 = (serve (serve r c').2 c).2 := by
  have horderly := hr.orderly
  refine ⟨fun c e => serve_of_error, fun c => ⟨serve_of_asks, fun i => (serves r c).get?_of_ne⟩,
    horderly.next_free, ?_, fun c c' i j => serve_comm⟩
  intro c reply h
  have hserves := serves r c
  rw [h] at hserves
  obtain ⟨g, rfl, holds⟩ := hserves.holds horderly
  refine ⟨rfl, fun cs hcs => ?_⟩
  exact (holds.after_spared (horderly.served hserves) hcs).state

/-- A game with three kings, and one in which white can castle with the king on d1. -/
def twoGames : Register :=
  after {} [.create ⟨some crowdedText⟩, .create ⟨some "4k3/8/8/8/8/8/8/3K3R w K - 0 1"⟩]

/-- White's knight moves in the first game. -/
def knightMove : Call := .move ⟨⟨1⟩, .white, "a1b3"⟩

/-- The answer to the knight's move. -/
def knightReply : GameReply where
  game := ⟨1⟩
  descriptor := "P3k2n/8/8/8/8/1N6/8/1K1KK2p b - - 141 3"
  toMove := .black
  status := .drawOffered
  inCheck := false
  winner := none

/-- A move in the second game, and one in the first out of turn. -/
def meanwhile : List Call := [.move ⟨⟨2⟩, .white, "d1f1"⟩, knightMove]

theorem meanwhile_spares : Spared ⟨1⟩ (serve twoGames knightMove).2 meanwhile := by
  refine ⟨.inl (by decide), .inr (.inr ⟨.notYourTurn .black, ?_⟩), trivial⟩
  decide +kernel

theorem twoGames_reached : Reached twoGames :=
  (Reached.empty.serve _).serve _

theorem knightReply_given_again :
    (Reached twoGames ∧ (serve twoGames knightMove).1 = .ok (.game knightReply) ∧
      Spared knightReply.game (serve twoGames knightMove).2 meanwhile) ∧
      state (after (serve twoGames knightMove).2 meanwhile) ⟨knightReply.game⟩ =
        .ok knightReply :=
  have granted : (serve twoGames knightMove).1 = .ok (.game knightReply) := by decide +kernel
  ⟨⟨twoGames_reached, granted, meanwhile_spares⟩,
    ((games_are_isolated twoGames_reached).2.2.2.1 _ _ granted).2 _ meanwhile_spares⟩

end Desk
end Arbiter
