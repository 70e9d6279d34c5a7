import Arbiter.Desk
import Arbiter.Proofs.Refiling

/-! # Calls at the desk

All requests to the desk are served by one function, and `Serves` tells what may come of a call: it
is refused, it is answered from the record of its game, or it changes that record. What holds of a
register after any number of calls is proved from this relation.
-/

namespace Arbiter

/-- The identifier that the next new game will get. -/
def Register.next (r : Register) : Identifier := ⟨r.issued + 1⟩

namespace Game

variable {g g' : Game}

/-- What a player can do in a game: make a move, or claim the draw that is offered. -/
inductive Deed : Game → Game → Prop where
  | turn {g g' : Game} (made : Turn g g') : Deed g g'
  | claim {g : Game} (accepted : g.claim.result = .ok ()) : Deed g g.claim.game

theorem Deed.timely (deed : Deed g g') (hg : g.position.Timely) : g'.position.Timely := by
  cases deed with
  | turn made =>
      obtain ⟨m, e, played⟩ := made.played
      exact played.timely hg
  | claim accepted =>
      rw [(claim_of_ok accepted).2]
      exact hg

end Game

namespace Desk

/-- A request to the desk. -/
inductive Call where
  | create (q : CreateRequest)
  | state (q : GameRequest)
  | legalMoves (q : PlayerRequest)
  | move (q : MoveRequest)
  | claim (q : PlayerRequest)
  | delete (q : GameRequest)
deriving Repr, DecidableEq

/-- What a call is answered with if it is granted. -/
inductive Answer where
  | game (reply : GameReply)
  | moves (reply : MovesReply)
  | deleted
deriving Repr, DecidableEq

/-- Serves a call: the answer, and the register afterwards. -/
def serve (r : Register) : Call → Except Error Answer × Register
  | .create q => ((create r q).1.map .game, (create r q).2)
  | .state q => ((state r q).map .game, r)
  | .legalMoves q => ((legalMoves r q).map .moves, r)
  | .move q => ((move r q).1.map .game, (move r q).2)
  | .claim q => ((claim r q).1.map .game, (claim r q).2)
  | .delete q => (.ok .deleted, delete r q)

/-- The game that a call names. A call for a new game names none. -/
def Call.game? : Call → Option Identifier
  | .create _ => none
  | .state q => some q.game
  | .legalMoves q => some q.game
  | .move q => some q.game
  | .claim q => some q.game
  | .delete q => some q.game

/-- The call only asks how a game stands. -/
def Call.asks : Call → Bool
  | .state _ | .legalMoves _ => true
  | .create _ | .move _ | .claim _ | .delete _ => false

/-- The game that a call is about: the one it names, or the new one. -/
def Call.about (r : Register) (c : Call) : Identifier :=
  c.game?.getD r.next

/-- The register after calls one after the other. -/
def after (r : Register) : List Call → Register
  | [] => r
  | c :: cs => after (serve r c).2 cs

/-- The registers that arise from the empty one by any calls. -/
inductive Reached : Register → Prop where
  | empty : Reached {}
  | serve {r : Register} (before : Reached r) (c : Call) : Reached (serve r c).2

/-- The faults that are found once a game has been taken up: they lie with the request, not with
the record. -/
inductive Error.OfPlay : Error → Prop where
  | turn (waitingFor : Side) : OfPlay (.notYourTurn waitingFor)
  | game (cause : Game.Error) : OfPlay (.game cause)
  | count : OfPlay .countTooLong

variable {r : Register} {c : Call} {i : Identifier} {g : Game} {player : Side} {e : Error}

theorem fetchFor_eq (fetched : fetch r i = .ok g) : fetchFor r i player =
    if g.toMove = player then .ok g else .error (.notYourTurn g.toMove) := by
  rw [fetchFor, fetched]
  simp only [bind, Except.bind]
  split_ifs <;> rfl

theorem fetch_of_fetchFor (fetched : fetchFor r i player = .ok g) : fetch r i = .ok g := by
  cases hfetch : fetch r i with
  | error e =>
      rw [fetchFor, hfetch] at fetched
      cases fetched
  | ok g' =>
      rw [fetchFor_eq hfetch] at fetched
      split_ifs at fetched
      exact fetched

theorem ofPlay_of_fetchFor (fetched : fetch r i = .ok g) (h : fetchFor r i player = .error e) :
    e.OfPlay := by
  rw [fetchFor_eq fetched] at h
  split_ifs at h
  cases h
  exact .turn _

theorem create_eq {q : CreateRequest} (asked : newGame q = .ok g) : create r q =
    if g.position.Writable then (.ok (report r.next g), (r.add g.record).2)
    else (.error .countTooLong, r) := by
  rw [create, asked]
  rfl

theorem state_eq {q : GameRequest} (fetched : fetch r q.game = .ok g) : state r q =
    if g.position.Writable then .ok (report q.game g) else .error .countTooLong := by
  rw [state, fetched]
  simp only [bind, Except.bind]
  split_ifs <;> rfl

section Acting

variable {α : Type}

/-- What moves and claims have in common: the player to move does something in a game, and the game
is filed again. -/
def act (r : Register) (i : Identifier) (player : Side) (f : Game → Game.Reaction α) :
    Except Error GameReply × Register :=
  match fetchFor r i player with
  | .error e => (.error e, r)
  | .ok g =>
    match (f g).result with
    | .error e => (.error (.game e), r)
    | .ok _ => refile r i (f g).game

theorem move_eq_act (q : MoveRequest) :
    move r q = act r q.game q.player (·.playText q.move) := by
  unfold move act
  cases fetchFor r q.game q.player with
  | error e => rfl
  | ok g => cases hresult : (g.playText q.move).result <;> simp only [hresult]

theorem claim_eq_act (q : PlayerRequest) : claim r q = act r q.game q.player Game.claim := by
  unfold claim act
  cases fetchFor r q.game q.player with
  | error e => rfl
  | ok g => cases hresult : g.claim.result <;> simp only [hresult]

/-- Nothing is filed unless the game was taken up, the player could act, and the counters can be
written. -/
theorem act_cases (r : Register) (i : Identifier) (player : Side) (f : Game → Game.Reaction α) :
    (∃ e, (fetchFor r i player = .error e ∨ e.OfPlay) ∧ act r i player f = (.error e, r)) ∨
      ∃ g a, fetchFor r i player = .ok g ∧ (f g).result = .ok a ∧
        (f g).game.position.Writable ∧
        act r i player f = (.ok (report i (f g).game), r.update i (f g).game.record) := by
  unfold act
  cases fetched : fetchFor r i player with
  | error e => exact .inl ⟨e, .inl rfl, rfl⟩
  | ok g =>
      cases hresult : (f g).result with
      | error cause =>
          simp only [hresult]
          exact .inl ⟨_, .inr (.game cause), rfl⟩
      | ok a =>
          simp only [hresult, refile]
          split_ifs with writable
          · exact .inr ⟨g, a, rfl, hresult, writable, rfl⟩
          · exact .inl ⟨_, .inr .count, rfl⟩

end Acting

/-- What may come of a call: the answer, and the register afterwards. -/
inductive Serves (r : Register) : Call → Except Error Answer → Register → Prop where
  | refused {c : Call} {e : Error}
      (fault : ∀ {i : Identifier} {g : Game}, c.game? = some i → fetch r i = .ok g → e.OfPlay) :
      Serves r c (.error e) r
  | created {q : CreateRequest} {g : Game} (asked : newGame q = .ok g)
      (writable : g.position.Writable) :
      Serves r (.create q) (.ok (.game (report r.next g))) (r.add g.record).2
  | reported {q : GameRequest} {g : Game} (fetched : fetch r q.game = .ok g)
      (writable : g.position.Writable) :
      Serves r (.state q) (.ok (.game (report q.game g))) r
  | listed {q : PlayerRequest} {g : Game} {moves : List Move}
      (fetched : fetchFor r q.game q.player = .ok g) (listed : g.legalMoves = .ok moves) :
      Serves r (.legalMoves q) (.ok (.moves ⟨q.game, q.player, moves.map Move.notationText⟩)) r
  | changed {c : Call} {i : Identifier} {player : Side} {g g' : Game} (named : c.game? = some i)
      (fetched : fetchFor r i player = .ok g) (deed : g.Deed g')
      (writable : g'.position.Writable) :
      Serves r c (.ok (.game (report i g'))) (r.update i g'.record)
  | deleted {q : GameRequest} : Serves r (.delete q) (.ok .deleted) (r.remove q.game)

theorem serves_act {α : Type} {f : Game → Game.Reaction α} (named : c.game? = some i)
    (deeds : ∀ {g : Game} {a : α}, (f g).result = .ok a → g.Deed (f g).game) :
    Serves r c ((act r i player f).1.map .game) (act r i player f).2 := by
  rcases act_cases r i player f with ⟨e, hfault, hact⟩ | ⟨g, a, fetched, accepted, writable, hact⟩
  · rw [hact]
    apply Serves.refused
    intro j g named' fetched
    cases named.symm.trans named'
    exact hfault.elim (ofPlay_of_fetchFor fetched) id
  · rw [hact]
    exact .changed named fetched (deeds accepted) writable

theorem serves (r : Register) (c : Call) : Serves r c (serve r c).1 (serve r c).2 := by
  cases c with
  | create q =>
      simp only [serve]
      cases asked : newGame q with
      | error e =>
          rw [create, asked]
          exact .refused nofun
      | ok g =>
          rw [create_eq asked]
          split_ifs with writable
          · exact .created asked writable
          · exact .refused nofun
  | state q =>
      simp only [serve]
      cases fetched : fetch r q.game with
      | error e =>
          rw [state, fetched]
          apply Serves.refused
          intro i g named fetched'
          cases named
          cases fetched.symm.trans fetched'
      | ok g =>
          rw [state_eq fetched]
          split_ifs with writable
          · exact .reported fetched writable
          · exact .refused fun _ _ => .count
  | legalMoves q =>
      simp only [serve, legalMoves]
      cases fetched : fetchFor r q.game q.player with
      | error e =>
          apply Serves.refused
          intro i g named fetched'
          cases named
          exact ofPlay_of_fetchFor fetched' fetched
      | ok g =>
          cases listed : g.legalMoves with
          | error cause =>
              simp only [bind, Except.bind, listed]
              exact .refused fun _ _ => .game cause
          | ok moves =>
              simp only [bind, Except.bind, listed]
              exact .listed fetched listed
  | move q =>
      simp only [serve, move_eq_act]
      exact serves_act rfl fun accepted => .turn (.notated accepted)
  | claim q =>
      simp only [serve, claim_eq_act]
      exact serves_act rfl fun accepted => .claim accepted
  | delete q => exact .deleted

end Desk
end Arbiter
