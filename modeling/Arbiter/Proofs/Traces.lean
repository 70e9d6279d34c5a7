import Arbiter.Proofs.Lines
import Arbiter.Rules.Traced

/-! # Work that comes to an end on the board

The traced rules are not kept from going on forever or from looking beyond the edges. `Ends` says of
a piece of work that it does neither, and what it comes to; it is composed along the work. Where the
guarded rules take the same steps, `Follows` is enough: they stop with a fault at the edge, so where
they have an answer, nothing beyond the edges was looked at. Then the walks: a walk stops wherever
it leads, and a search along a row stops at the first piece or right behind the edge.
-/

namespace Arbiter.Position.Traced

variable {p q r : Position} {s : Square} {α β : Type}

/-- The work comes to an end with an answer and leads from one position to another. On the way it
touches squares of the board only, and tries out the given moves. -/
def Ends (p : Position) (t : Work α) (a : α) (q : Position) (tried : List Move := []) : Prop :=
  ∀ w : Trace, w.position = p → ∃ squares : List Square, (∀ s ∈ squares, s.OnBoard) ∧
    t w = some (.ok a,
      { position := q, touched := squares ++ w.touched, tried := w.tried ++ tried })

/-- What the guarded rules answer is answered here too, and the position is left as it was. -/
def Follows (p : Position) (t : Work α) (x : Except Fault α) : Prop :=
  ∀ a, x = .ok a → Ends p t a p

theorem bind_apply (t : Work α) (next : α → Work β) (w : Trace) :
    (t >>= next) w = (t w).bind fun
      | (.ok a, v) => next a v
      | (.error fault, v) => some (.error fault, v) := by
  change (t w).bind (fun x => ExceptT.bindCont next x.1 x.2) = _
  congr 1
  funext x
  rcases x with ⟨_ | _, _⟩ <;> rfl

namespace Ends

variable {t : Work α} {a : α} {rest : α → Work β} {b : β} {tried : List Move}

theorem pure (p : Position) (a : α) : Ends p (Pure.pure a) a p := by
  rintro w rfl
  refine ⟨[], by simp, ?_⟩
  rw [List.append_nil]
  rfl

theorem bind {first second : List Move} (h : Ends p t a q first)
    (hrest : Ends q (rest a) b r second) : Ends p (t >>= rest) b r (first ++ second) := by
  intro w hw
  obtain ⟨squares, honBoard, ht⟩ := h w hw
  obtain ⟨others, honBoard', ht'⟩ := hrest
    { position := q, touched := squares ++ w.touched, tried := w.tried ++ first } rfl
  refine ⟨others ++ squares, ?_, ?_⟩
  · intro s hs
    exact (List.mem_append.mp hs).elim (honBoard' s) (honBoard s)
  · rw [bind_apply, ht, List.append_assoc, ← List.append_assoc w.tried]
    exact ht'

theorem next (h : Ends p t a q) (hrest : Ends q (rest a) b r tried) :
    Ends p (t >>= rest) b r tried :=
  h.bind hrest

theorem last (h : Ends p t a q tried) (hrest : Ends q (rest a) b r) :
    Ends p (t >>= rest) b r tried := by
  simpa using h.bind hrest

theorem current {rest : Position → Work α} (h : Ends p (rest p) a q tried) :
    Ends p (Traced.current >>= rest) a q tried := by
  rintro w rfl
  exact h w rfl

theorem update (p : Position) (f : Position → Position) : Ends p (Traced.update f) () (f p) := by
  rintro w rfl
  refine ⟨[], by simp, ?_⟩
  rw [List.append_nil]
  rfl

theorem note {m : Move} {rest : Unit → Work α} (h : Ends p (rest ()) a q tried) :
    Ends p (Traced.note m >>= rest) a q (m :: tried) := by
  have hnote : Ends p (Traced.note m) () p [m] := by
    rintro w rfl
    exact ⟨[], by simp, rfl⟩
  exact hnote.bind h

theorem anyM {f : α → Work Bool} {g : α → Bool} {l : List α}
    (h : ∀ a ∈ l, Ends p (f a) (g a) p) : Ends p (l.anyM f) (l.any g) p := by
  induction l with
  | nil => exact pure p false
  | cons a l ih =>
      rw [List.anyM, List.any_cons]
      refine (h a List.mem_cons_self).next ?_
      cases g a with
      | true => exact pure p true
      | false => exact ih fun b hb => h b (List.mem_cons_of_mem a hb)

theorem elim {o : Option β} {t : β → Work Unit} {f : β → Board}
    (h : ∀ b, o = some b → Ends p (t b) () { p with board := f b }) :
    Ends p (o.elim (Pure.pure ()) t) () { p with board := o.elim p.board f } := by
  cases o with
  | none => exact pure p ()
  | some b => exact h b rfl

theorem putBack {c : Cell} (h : Ends p t a q tried) (hback : Ends q (put s c) () r) :
    Ends p (fun w => do
      let (answer, w) ← t w
      let (_, w) ← put s c w
      return (answer, w)) a r tried := by
  intro w hw
  obtain ⟨squares, honBoard, ht⟩ := h w hw
  obtain ⟨others, honBoard', ht'⟩ := hback
    { position := q, touched := squares ++ w.touched, tried := w.tried ++ tried } rfl
  refine ⟨others ++ squares, ?_, ?_⟩
  · intro s hs
    exact (List.mem_append.mp hs).elim (honBoard' s) (honBoard s)
  · change (t w).bind _ = _
    rw [ht, List.append_assoc]
    change (put s c _).bind _ = _
    rw [ht', List.append_nil]
    rfl

theorem onCopy (h : Ends p t a q tried) :
    Ends p (fun w => do
      let (answer, after) ← t w
      return (answer, { after with position := w.position })) a p tried := by
  rintro w rfl
  obtain ⟨squares, honBoard, ht⟩ := h w rfl
  refine ⟨squares, honBoard, ?_⟩
  change (t w).bind _ = _
  rw [ht]
  rfl

end Ends

theorem reached?_of_inside {i : Int} (h : 0 ≤ i ∧ i < 8) : reached? i = some i := if_pos h

theorem ends_touch (p : Position) (hs : s.OnBoard) : Ends p (touch s) s p := by
  rintro w rfl
  refine ⟨[s], by simpa using hs, ?_⟩
  unfold touch
  rw [reached?_of_inside hs.1, reached?_of_inside hs.2, List.append_nil]
  rfl

theorem ends_look (p : Position) (hs : s.OnBoard) : Ends p (look s) (p.board.get s) p :=
  (ends_touch p hs).next (.current (.pure p _))

theorem ends_alter (p : Position) (hs : s.OnBoard) (f : Cell → Cell) :
    Ends p (alter s f) () { p with board := p.board.put s (f (p.board.get s)) } :=
  (ends_touch p hs).next (.update p _)

theorem ends_put (p : Position) (hs : s.OnBoard) (c : Cell) :
    Ends p (put s c) () { p with board := p.board.put s c } :=
  ends_alter p hs fun _ => c

namespace Follows

theorem pure (p : Position) (a : α) : Follows p (Pure.pure a) (.ok a) := by
  rintro _ ⟨⟩
  exact .pure p a

theorem fault (p : Position) (t : Work α) (fault : Fault) : Follows p t (.error fault) := nofun

theorem bind {t : Work α} {x : Except Fault α} {rest : α → Work β} {y : α → Except Fault β}
    (h : Follows p t x) (hrest : ∀ a, Follows p (rest a) (y a)) :
    Follows p (t >>= rest) (x >>= y) := by
  intro b hb
  cases x with
  | error fault => cases hb
  | ok a => exact (h a rfl).next (hrest a b hb)

theorem look {rest : Cell → Work α} {y : Cell → Except Fault α}
    (h : Follows p (rest (p.board.get s)) (y (p.board.get s))) :
    Follows p (Traced.look s >>= rest) (Guarded.look p s >>= y) := by
  intro a ha
  unfold Guarded.look at ha
  split at ha
  · next hs => exact (ends_look p hs).next (h a ha)
  · cases ha

theorem current {rest : Position → Work α} {x : Except Fault α} (h : Follows p (rest p) x) :
    Follows p (Traced.current >>= rest) x :=
  fun a ha => .current (h a ha)

theorem lift (p : Position) (x : Except Fault α) : Follows p (liftM x) x := by
  rintro a rfl
  exact .pure p a

end Follows

section Walking

variable {m : Move} {target : Square} {dRow dCol step : Int}

theorem follows_walk (target : Square) (dRow dCol : Int) (steps : Nat) (s : Square) :
    Follows p (s.walk target dRow dCol) (Guarded.walk p target dRow dCol steps s) := by
  induction steps generalizing s with
  | zero => exact .fault p _ _
  | succ steps ih =>
      rw [Square.walk, Guarded.walk]
      split
      · exact .pure p true
      · refine .look ?_
        split
        · exact ih _
        · exact .pure p false

theorem follows_clearPath (p : Position) (m : Move) :
    Follows p (clearPath m) (Guarded.clearPath p m) :=
  follows_walk m.dst _ _ 9 _

theorem reached?_eq_some {i j : Int} (h : reached? i = some j) : -8 ≤ i ∧ i < 8 := by
  unfold reached? at h
  split at h
  · omega
  split at h
  · omega
  · cases h

theorem look_cases (s : Square) (w : Trace) :
    (∃ c v, look s w = some (.ok c, v) ∧ (-8 ≤ s.row ∧ s.row < 8) ∧ (-8 ≤ s.col ∧ s.col < 8)) ∨
      ∃ v, look s w = some (.error .offBoard, v) := by
  unfold look touch
  cases hrow : reached? s.row with
  | none => exact .inr ⟨_, rfl⟩
  | some row =>
      cases hcol : reached? s.col with
      | none => exact .inr ⟨_, rfl⟩
      | some col => exact .inl ⟨_, _, rfl, reached?_eq_some hrow, reached?_eq_some hcol⟩

/-- A walk stops on a square, or the square is not too far out and the walk goes on. -/
theorem walk_isSome {w : Trace} (h : (-8 ≤ s.row ∧ s.row < 8) ∧ (-8 ≤ s.col ∧ s.col < 8) →
      ∀ v, ((s.shift dRow dCol).walk target dRow dCol v).isSome) :
    (s.walk target dRow dCol w).isSome := by
  rw [Square.walk]
  split
  · rfl
  rw [bind_apply]
  rcases look_cases s w with ⟨c, v, hlook, hnear⟩ | ⟨v, hlook⟩
  · rw [hlook]
    simp only [Option.bind_some]
    split
    · exact h hnear v
    · rfl
  · rw [hlook]
    rfl

theorem walk_stops (target : Square) (hrow : dRow = 0 ∨ dRow = 1 ∨ dRow = -1)
    (hcol : dCol = 0 ∨ dCol = 1 ∨ dCol = -1) (hmoves : dRow ≠ 0 ∨ dCol ≠ 0) (steps : Nat)
    (s : Square) (hfar : 17 ≤ dRow * s.row + dCol * s.col + steps) (w : Trace) :
    (s.walk target dRow dCol w).isSome := by
  induction steps generalizing s w with
  | zero =>
      refine walk_isSome fun hnear => absurd hfar ?_
      rcases hrow with rfl | rfl | rfl <;> rcases hcol with rfl | rfl | rfl <;> omega
  | succ steps ih =>
      refine walk_isSome fun _ => ih _ ?_
      simp only [Square.shift]
      rcases hrow with rfl | rfl | rfl <;> rcases hcol with rfl | rfl | rfl <;> omega

/-- Every walk comes to an end, also where the ends of the move are not on a line. -/
theorem clearPath_stops (m : Move) (w : Trace) : (clearPath m w).isSome := by
  have sign (d : Int) : d.sign = 0 ∨ d.sign = 1 ∨ d.sign = -1 := by
    rcases Move.sign_cases d with h | h | h
    · exact .inl h.1
    · exact .inr (.inl h.1)
    · exact .inr (.inr h.1)
  by_cases hsame : m.src = m.dst
  · have hstart : m.src.shift m.dRow.sign m.dCol.sign = m.dst := by
      simp [Square.shift, Move.dRow, Move.dCol, hsame]
    rw [clearPath, hstart, Square.walk, if_pos rfl]
    rfl
  · have hfar (d : Int) : 17 ≤ d + (17 - d).toNat := by omega
    refine walk_stops m.dst (sign _) (sign _) ?_ _ _ (hfar _) w
    simp only [ne_eq, Int.sign_eq_zero_iff_zero, Move.dRow, Move.dCol, Square.ext_iff] at *
    omega

/-- Off the lines a walk may leave the board: at the lower edge it stops with a fault. -/
example : (clearPath { src := ⟨6, 7⟩, dst := ⟨7, 5⟩ } { position := { board := .bare } }).map
    (fun (_, w) => w.touched) = some [⟨8, 5⟩, ⟨7, 6⟩] := by
  cbv

/-- The squares along a row, from some step on: the search for a piece stops on the first one that is
occupied, or else beyond the edge. -/
theorem ends_scan_from (p : Position) (hs : s.OnBoard) (hstep : step = 1 ∨ step = -1)
    {k left : Nat} (hpos : 0 < k) (hk : k + left = 8) :
    ∃ t, Ends p ((s.shift 0 (step * k)).scan step) t p ∧
      ((List.range' k left).map fun j : Nat => s.shift 0 (step * j)).find?
        (fun t => ¬ (p.board.get t).IsEmpty) = if t.OnBoard then some t else none := by
  have beyond {i j : Nat} (hi : ¬ (s.shift 0 (step * i)).OnBoard) (hij : i ≤ j) :
      ¬ (s.shift 0 (step * j)).OnBoard := by
    simp only [Square.OnBoard, Square.shift] at *
    rcases hstep with rfl | rfl <;> omega
  induction left generalizing k with
  | zero =>
      have hoff : ¬ (s.shift 0 (step * k)).OnBoard := by
        simp only [Square.OnBoard, Square.shift] at *
        rcases hstep with rfl | rfl <;> omega
      refine ⟨s.shift 0 (step * k), ?_, by simp [hoff]⟩
      rw [Square.scan, if_neg hoff]
      exact .pure p _
  | succ left ih =>
      by_cases hon : (s.shift 0 (step * k)).OnBoard
      · by_cases hempty : (p.board.get (s.shift 0 (step * k))).IsEmpty
        · have honward : (s.shift 0 (step * k)).shift 0 step =
              s.shift 0 (step * (k + 1 : Nat)) := by
            simp only [Square.shift, Square.ext_iff]
            push_cast
            constructor <;> ring
          obtain ⟨t, hends, hfind⟩ := ih k.succ_pos (by omega)
          refine ⟨t, ?_, ?_⟩
          · rw [Square.scan, if_pos hon, honward]
            refine (ends_look p hon).next ?_
            rw [if_pos hempty]
            exact hends
          · rw [List.range'_succ, List.map_cons, List.find?_cons_of_neg (by simpa using hempty)]
            exact hfind
        · refine ⟨s.shift 0 (step * k), ?_, ?_⟩
          · rw [Square.scan, if_pos hon]
            refine (ends_look p hon).next ?_
            rw [if_neg hempty]
            exact .pure p _
          · rw [List.range'_succ, List.map_cons, List.find?_cons_of_pos (by simpa using hempty),
              if_pos hon]
      · refine ⟨s.shift 0 (step * k), ?_, ?_⟩
        · rw [Square.scan, if_neg hon]
          exact .pure p _
        · rw [if_neg hon, List.find?_eq_none]
          intro t ht
          obtain ⟨j, hj, rfl⟩ := List.mem_map.mp ht
          have hoff := beyond hon (List.mem_range'_1.mp hj).1
          simp [Board.get_of_not_onBoard _ hoff]

theorem ends_scan (p : Position) (hs : s.OnBoard) (hstep : step = 1 ∨ step = -1) :
    ∃ t, Ends p ((s.shift 0 step).scan step) t p ∧
      p.firstAlongRow s step = if t.OnBoard then some t else none := by
  obtain ⟨t, hends, hfind⟩ := ends_scan_from p hs hstep one_pos (show 1 + 7 = 8 from rfl)
  have hrange : alongRow s step = (List.range' 1 7).map fun j : Nat => s.shift 0 (step * j) := rfl
  refine ⟨t, by simpa using hends, ?_⟩
  rw [firstAlongRow, hrange]
  exact hfind

end Walking

end Arbiter.Position.Traced
