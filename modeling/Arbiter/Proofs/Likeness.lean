import Arbiter.Game.Basic
import Arbiter.Proofs.DoubleSteps
import Arbiter.Proofs.Legality

/-! # Positions that play alike

The rules look at the counters of the pieces in two places only: castling asks whether king and rook
have moved, and taking in passing asks for a double step on the latest ply. Positions with the same
men on the board that agree on the second, and on the clocks, are `Akin`: they have the same legal
moves but for castling. If they agree on both they are `Alike`: they have the same legal moves, the
same outcome and the same text.
-/

namespace Arbiter

/-- The same kinds of pieces of the same owners stand on all squares. -/
structure SameMen (a b : Board) : Prop where
  kind : ∀ s, (a.get s).kind = (b.get s).kind
  owner : ∀ s, (a.get s).owner = (b.get s).owner

/-- A king and a rook of the player that have not moved. -/
def Ready (b : Board) (side : Side) (king rook : Square) : Prop :=
  ((b.get king).kind = .king ∧ (b.get king).owner = some side ∧ (b.get king).moves = 0) ∧
    ((b.get rook).kind = .rook ∧ (b.get rook).owner = some side ∧ (b.get rook).moves = 0)

theorem hasRight_iff_ready {b : Board} {right : CastlingRight} :
    Descriptor.HasRight b right ↔ Ready b right.side right.kingHome right.rookHome :=
  Iff.rfl

/-- Positions between which the rules see no difference. -/
structure Alike (p q : Position) : Prop where
  plies : p.plies = q.plies
  lastCapture : p.lastCapture = q.lastCapture
  men : SameMen p.board q.board
  ready : ∀ side king rook, Ready p.board side king rook ↔ Ready q.board side king rook
  doubled : ∀ s, Descriptor.JustDoubled p s ↔ Descriptor.JustDoubled q s

/-- Positions that differ at most in which kings and rooks count as unmoved. -/
structure Akin (p q : Position) : Prop where
  plies : p.plies = q.plies
  lastCapture : p.lastCapture = q.lastCapture
  men : SameMen p.board q.board
  doubled : ∀ s, Descriptor.JustDoubled p s ↔ Descriptor.JustDoubled q s

variable {p q : Position} {m : Move} {e : Effects} {player : Option Side}

theorem Position.Castles.ready {side : Side} {corner : Square} (way : p.Castles m corner)
    (hadm : p.Admissible m (some side)) : Ready p.board side m.src corner :=
  ⟨⟨way.king, hadm.owner, way.kingUnmoved⟩, way.rook, way.rookOwner.trans hadm.owner,
    way.rookUnmoved⟩

theorem Alike.akin (h : Alike p q) : Akin p q :=
  ⟨h.plies, h.lastCapture, h.men, h.doubled⟩

namespace SameMen

theorem refl (b : Board) : SameMen b b := ⟨fun _ => rfl, fun _ => rfl⟩

theorem symm {a b : Board} (h : SameMen a b) : SameMen b a :=
  ⟨fun s => (h.kind s).symm, fun s => (h.owner s).symm⟩

theorem trans {a b c : Board} (h : SameMen a b) (h' : SameMen b c) : SameMen a c :=
  ⟨fun s => (h.kind s).trans (h'.kind s), fun s => (h.owner s).trans (h'.owner s)⟩

theorem vacant {a b : Board} (h : SameMen a b) (s : Square) :
    (a.get s).IsEmpty ↔ (b.get s).IsEmpty := by
  simp only [Cell.IsEmpty]
  rw [h.kind s]

theorem threats {a b : Board} (h : SameMen a b) (side : Side) : Position.SameThreats a b side :=
  ⟨h.vacant, h.owner, fun s _ => h.kind s⟩

theorem inCheck_eq (h : SameMen p.board q.board) (side : Side) :
    p.inCheck (some side) = q.inCheck (some side) :=
  (h.threats side).inCheck_eq fun s _ => by rw [h.kind s]

theorem mover_eq (h : SameMen p.board q.board) : p.mover m = q.mover m := h.owner m.src

theorem admissible (h : SameMen p.board q.board) (hadm : p.Admissible m player) :
    q.Admissible m player := by
  simp only [Position.Admissible] at hadm ⊢
  rwa [← h.vacant, ← h.vacant, ← h.owner, ← h.mover_eq]

theorem ahead_eq (h : SameMen p.board q.board) : p.ahead m = q.ahead m := by
  simp only [Position.ahead]
  rw [h.mover_eq]

theorem pawnAdvance (h : SameMen p.board q.board) (way : p.PawnAdvance m) : q.PawnAdvance m := by
  simp only [Position.PawnAdvance] at way ⊢
  rwa [← h.vacant, ← h.vacant, ← h.ahead_eq, ← h.mover_eq]

theorem pawnDiagonal (h : SameMen p.board q.board) (way : p.PawnDiagonal m) :
    q.PawnDiagonal m := by
  simp only [Position.PawnDiagonal] at way ⊢
  rwa [← h.mover_eq]

theorem firstAlongRow_eq (h : SameMen p.board q.board) (s : Square) (step : Int) :
    p.firstAlongRow s step = q.firstAlongRow s step := by
  unfold Position.firstAlongRow
  simp only [h.vacant]

theorem candidates_eq (h : SameMen p.board q.board) (hmove : p.toMove = q.toMove) :
    p.candidates = q.candidates := by
  unfold Position.candidates Board.squaresOf
  simp only [h.owner, hmove]

theorem play (h : SameMen p.board q.board) (hapart : Position.Apart m e) :
    SameMen (p.play m e).board (q.play m e).board := by
  have arrives : (p.arrival m e).kind = (q.arrival m e).kind ∧
      (p.arrival m e).owner = (q.arrival m e).owner :=
    ⟨congrArg e.promotion.getD (h.kind m.src), h.owner m.src⟩
  have cells (s : Square) :
      ((p.play m e).board.get s).kind = ((q.play m e).board.get s).kind ∧
        ((p.play m e).board.get s).owner = ((q.play m e).board.get s).owner := by
    cases hcastle : e.castle with
    | none =>
        rw [hapart.get_play_of_castle_eq_none hcastle, hapart.get_play_of_castle_eq_none hcastle]
        split_ifs
        · exact arrives
        · exact ⟨rfl, rfl⟩
        · exact ⟨h.kind s, h.owner s⟩
    | some hop =>
        rw [hapart.get_play_of_castle_eq_some hcastle, hapart.get_play_of_castle_eq_some hcastle]
        split_ifs
        · exact ⟨h.kind hop.src, h.owner hop.src⟩
        · exact arrives
        · exact ⟨rfl, rfl⟩
        · exact ⟨h.kind s, h.owner s⟩
  exact ⟨fun s => (cells s).1, fun s => (cells s).2⟩

theorem write_eq {a b : Board} (h : SameMen a b) : Placement.write a = Placement.write b := by
  have hletter (s : Square) : (a.get s).letter? = (b.get s).letter? := by
    rw [Cell.letter?, Cell.letter?, h.kind, h.owner]
  have hcells (squares : List Square) (run : Nat) :
      Placement.writeCells run (squares.map a.get) =
        Placement.writeCells run (squares.map b.get) := by
    induction squares generalizing run with
    | nil => rfl
    | cons s squares ih =>
        simp only [List.map_cons, Placement.writeCells, hletter, ih]
  have hrow (i : Nat) : Placement.writeCells 0 (Placement.row a i) =
      Placement.writeCells 0 (Placement.row b i) := by
    have := hcells ((List.range 8).map fun j => ⟨i, (j : Nat)⟩) 0
    rwa [List.map_map, List.map_map] at this
  unfold Placement.write
  simp only [hrow]

end SameMen

namespace Akin

theorem symm (h : Akin p q) : Akin q p :=
  ⟨h.plies.symm, h.lastCapture.symm, h.men.symm, fun _ => (h.doubled _).symm⟩

theorem toMove_eq (h : Akin p q) : p.toMove = q.toMove := by
  simp only [Position.toMove]
  rw [h.plies]

theorem admissible (h : Akin p q) (hadm : p.Admissible m (some p.toMove)) :
    q.Admissible m (some q.toMove) :=
  h.toMove_eq ▸ h.men.admissible hadm

theorem pawnGoes (h : Akin p q) (hmover : p.mover m = some p.toMove) {captured : Option Square}
    (way : p.PawnGoes m captured) : q.PawnGoes m captured := by
  cases way with
  | advance hway => exact .advance (h.men.pawnAdvance hway)
  | take hway hocc =>
      exact .take (h.men.pawnDiagonal hway) ((not_congr (h.men.vacant _)).mp hocc)
  | pass hway hvacant victim =>
      refine .pass (h.men.pawnDiagonal hway) ((h.men.vacant _).mp hvacant) ?_
      have hmover' : q.mover m = some q.toMove := by
        rw [← h.men.mover_eq, hmover, h.toMove_eq]
      rw [Position.pawnPasses_iff_justDoubled hmover, h.toMove_eq, h.doubled] at victim
      exact (Position.pawnPasses_iff_justDoubled hmover').mpr victim

theorem castles (h : Akin p q) {corner : Square} (hadm : p.Admissible m (some p.toMove))
    (way : p.Castles m corner) (hready : Ready q.board p.toMove m.src corner) :
    q.Castles m corner := by
  have hmover : p.mover m = some p.toMove := hadm.owner
  have hmover' : q.mover m = some p.toMove := h.men.mover_eq.symm.trans hmover
  obtain ⟨⟨hking, -, hkingMoves⟩, hrook, hrookOwner, hrookMoves⟩ := hready
  have hfound := way.found
  rw [h.men.firstAlongRow_eq] at hfound
  refine ⟨hking, hkingMoves, way.sameRow, way.twoSteps, hfound, hrook, hrookOwner.trans hmover'.symm,
    hrookMoves, fun s hs => ?_⟩
  have hsafe := way.safe s hs
  rw [hmover] at hsafe
  rwa [hmover', ← (h.men.threats p.toMove).attacked_eq (way.kingPath_onBoard hadm s hs)]

/-- What the rules allow in one position they allow in an akin one, unless it is castling with a king
or a rook that counts as moved there. -/
theorem allows (h : Akin p q) (hadm : p.Admissible m (some p.toMove)) (hallows : p.Allows m e)
    (hready : ∀ corner, p.Castles m corner → Ready q.board p.toMove m.src corner) :
    q.Allows m e := by
  have hmover : p.mover m = some p.toMove := hadm.owner
  cases hallows with
  | strike piece way =>
      have howner : (p.board.get m.src).owner = some p.toMove.opponent.opponent := by
        rwa [Side.opponent_opponent]
      exact .strike (h.men.kind m.src ▸ piece) (((h.men.threats _).strikes_iff howner).mp way)
  | castle way => exact .castle (h.castles hadm way (hready _ way))
  | pawn piece onward way becomes =>
      refine .pawn (h.men.kind m.src ▸ piece) (h.men.ahead_eq ▸ onward) (h.pawnGoes hmover way) ?_
      simp only [Position.Becomes] at becomes ⊢
      rwa [← h.men.mover_eq]

theorem safe (h : Akin p q) (hapart : Position.Apart m e) (hsafe : p.Safe m e) : q.Safe m e := by
  simp only [Position.Safe] at hsafe ⊢
  rwa [← h.toMove_eq, ← (h.men.play hapart).inCheck_eq]

theorem pieceRuling_needsPromotion (h : Akin p q)
    (hneeds : p.pieceRuling m (some p.toMove) true = .needsPromotion) :
    q.pieceRuling m (some q.toMove) true = .needsPromotion := by
  obtain ⟨hadm, ⟨hpawn, hrow⟩, ⟨onward, captured, way⟩, hchoice⟩ :=
    Position.pieceRuling_eq_needsPromotion.mp hneeds
  refine Position.pieceRuling_eq_needsPromotion.mpr ⟨h.admissible hadm,
    ⟨h.men.kind m.src ▸ hpawn, ?_⟩, ⟨h.men.ahead_eq ▸ onward, captured,
    h.pawnGoes hadm.owner way⟩, hchoice⟩
  rwa [← h.men.mover_eq]

theorem legal (h : Akin p q) (hlegal : p.ruling m = .legal e)
    (hready : ∀ corner, p.Castles m corner → Ready q.board p.toMove m.src corner) :
    q.ruling m = .legal e := by
  obtain ⟨⟨hadm, hallows⟩, hsafe⟩ := Position.ruling_eq_legal.mp hlegal
  exact Position.ruling_eq_legal.mpr ⟨⟨h.admissible hadm, h.allows hadm hallows hready⟩,
    h.safe (Position.apart_of_allows hadm hallows) hsafe⟩

theorem needsPromotion (h : Akin p q) (hneeds : p.ruling m = .needsPromotion) :
    q.ruling m = .needsPromotion := by
  obtain ⟨hpiece, e, hlegal⟩ := Position.ruling_eq_needsPromotion.mp hneeds
  have hpawn := (Position.pieceRuling_eq_needsPromotion.mp hpiece).2.1.1
  refine Position.ruling_eq_needsPromotion.mpr ⟨h.pieceRuling_needsPromotion hpiece, e,
    h.legal hlegal fun corner way => ?_⟩
  cases hpawn.symm.trans way.king

theorem quietPlies_eq (h : Akin p q) : p.quietPlies = q.quietPlies := by
  simp only [Position.quietPlies]
  rw [h.plies, h.lastCapture]

theorem text_eq (h : Akin p q) (hrights : ∀ right,
    Descriptor.HasRight p.board right ↔ Descriptor.HasRight q.board right) : p.text = q.text := by
  unfold Position.text Descriptor.ofPosition Descriptor.passingSquare Position.turn
  simp only [h.men.write_eq, h.toMove_eq, hrights, h.doubled, h.quietPlies_eq, h.plies]

end Akin

namespace Alike

theorem refl (p : Position) : Alike p p :=
  ⟨rfl, rfl, .refl _, fun _ _ _ => Iff.rfl, fun _ => Iff.rfl⟩

theorem symm (h : Alike p q) : Alike q p :=
  ⟨h.plies.symm, h.lastCapture.symm, h.men.symm, fun _ _ _ => (h.ready _ _ _).symm,
    fun _ => (h.doubled _).symm⟩

theorem trans {r : Position} (h : Alike p q) (h' : Alike q r) : Alike p r :=
  ⟨h.plies.trans h'.plies, h.lastCapture.trans h'.lastCapture, h.men.trans h'.men,
    fun _ _ _ => (h.ready _ _ _).trans (h'.ready _ _ _),
    fun _ => (h.doubled _).trans (h'.doubled _)⟩

theorem toMove_eq (h : Alike p q) : p.toMove = q.toMove := h.akin.toMove_eq

theorem quietPlies_eq (h : Alike p q) : p.quietPlies = q.quietPlies := h.akin.quietPlies_eq

theorem allows (h : Alike p q) (hadm : p.Admissible m (some p.toMove)) (hallows : p.Allows m e) :
    q.Allows m e :=
  h.akin.allows hadm hallows fun _ way => (h.ready _ _ _).mp (way.ready hadm)

theorem legal (h : Alike p q) (hlegal : p.ruling m = .legal e) : q.ruling m = .legal e :=
  have hadm := (Position.ruling_eq_legal.mp hlegal).1.1
  h.akin.legal hlegal fun _ way => (h.ready _ _ _).mp (way.ready hadm)

theorem ruling_eq (h : Alike p q) (m : Move) : p.ruling m = q.ruling m := by
  cases hp : p.ruling m with
  | legal e => exact (h.legal hp).symm
  | needsPromotion => exact (h.akin.needsPromotion hp).symm
  | illegal =>
      cases hq : q.ruling m with
      | illegal => rfl
      | legal e => exact hp.symm.trans (h.symm.legal hq)
      | needsPromotion => exact hp.symm.trans (h.symm.akin.needsPromotion hq)

theorem legalMoves_eq (h : Alike p q) : p.legalMoves = q.legalMoves := by
  unfold Position.legalMoves
  simp only [h.men.candidates_eq h.toMove_eq, h.ruling_eq]

theorem outcome_eq (h : Alike p q) : p.outcome = q.outcome := by
  have hreply : p.hasReply = q.hasReply := by
    unfold Position.hasReply
    simp only [h.men.candidates_eq h.toMove_eq, h.ruling_eq]
  unfold Position.outcome Position.stuck?
  rw [h.quietPlies_eq, hreply, h.toMove_eq, h.men.inCheck_eq]

theorem text_eq (h : Alike p q) : p.text = q.text := h.akin.text_eq fun _ => h.ready _ _ _

end Alike
end Arbiter
