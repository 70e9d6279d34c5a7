import Arbiter.Proofs.Rulebook
import Arbiter.Proofs.KingSafety

/-! # Castling is never the only move

Wherever a king may castle, its rook may make its part of the move alone, and this is legal too: the
king stays on a square that is not attacked. So a player with a legal move has one that does not
castle, and whether there is one does not depend on which kings and rooks count as unmoved. What is
needed for this is that unmoved rooks stand in the corners of the board, as they do in every game.
-/

namespace Arbiter

theorem Square.index_le_left {s a b : Square} (hs : s.OnBoard) (ha : a.OnBoard)
    (hleft : b = a.shift 0 (-1)) (hne : s ≠ a) (h : s.index ≤ a.index) : s.index ≤ b.index := by
  subst hleft
  simp only [ne_eq, Square.ext_iff, shift, OnBoard, index] at *
  omega

namespace Position

variable {p q : Position} {m : Move} {e : Effects} {side : Side} {s t a b corner : Square}

/-- No piece has moved less than not at all, and the unmoved rooks stand in the corners. -/
structure Cornered (p : Position) : Prop where
  counts : ∀ s, 0 ≤ (p.board.get s).moves
  corners : ∀ s, (p.board.get s).kind = .rook → (p.board.get s).moves = 0 →
    (s.row = 0 ∨ s.row = 7) ∧ (s.col = 0 ∨ s.col = 7)

theorem rookHome_corner (right : CastlingRight) :
    (right.rookHome.row = 0 ∨ right.rookHome.row = 7) ∧
      (right.rookHome.col = 0 ∨ right.rookHome.col = 7) := by
  rcases right with ⟨_ | _, _ | _⟩ <;> simp [CastlingRight.rookHome, CastlingRight.backRow]

theorem cornered_of_text {text : String} (h : Descriptor.position text = .ok p) : p.Cornered := by
  obtain ⟨d, -, hsetup⟩ := Descriptor.position_eq_ok.mp h
  refine ⟨Descriptor.counts_of_setup hsetup, fun s hrook hmoves => ?_⟩
  obtain ⟨right, -, rfl⟩ := Descriptor.right_of_unmoved_rook hsetup hrook hmoves
  exact rookHome_corner right

theorem cornered_initial : Position.initial.Cornered where
  counts := sound_initial.counts
  corners := by
    refine Board.forall_get (P := fun s c => c.kind = .rook → c.moves = 0 →
      (s.row = 0 ∨ s.row = 7) ∧ (s.col = 0 ∨ s.col = 7)) (fun s h => by cases h) ?_
    decide +kernel

theorem Cornered.play (hp : p.Cornered) (hadm : p.Admissible m (some side))
    (h : p.Allows m e) : (p.play m e).Cornered where
  counts := (apart_of_allows hadm h).counts_play hp.counts
  corners := by
    have hmoved : ∀ s, (p.board.get s).moves + 1 ≠ 0 := by
      intro s
      have := hp.counts s
      omega
    refine (apart_of_allows hadm h).forall_cells (fun s c => c.kind = .rook → c.moves = 0 →
      (s.row = 0 ∨ s.row = 7) ∧ (s.col = 0 ∨ s.col = 7)) hp.corners ?_ ?_ ?_
    · intro s hrook
      cases hrook
    · intro _ hmoves
      exact absurd hmoves (hmoved m.src)
    · intro hop _ _ hmoves
      exact absurd hmoves (hmoved hop.src)

theorem index_le_of_king? (h : p.board.king? (some side) = some s) (ht : p.KingAt side t) :
    s.index ≤ t.index := by
  unfold Board.king? at h
  obtain ⟨-, i, hi, rfl, before⟩ := List.find?_eq_some_iff_getElem.mp h
  have hindex : Square.all[i].index = i := by simp [Square.all, Square.index_ofIndex]
  rw [hindex]
  by_contra hlt
  have hbefore := before t.index (Nat.not_le.mp hlt)
  have hself : Square.all[t.index] = t := by simp [Square.all, Square.ofIndex_index ht.onBoard]
  rw [hself, Bool.not_eq_true', decide_eq_false_iff_not] at hbefore
  exact hbefore ht

theorem king?_eq_some_iff : p.board.king? (some side) = some s ↔
    p.KingAt side s ∧ ∀ t, p.KingAt side t → s.index ≤ t.index := by
  constructor
  · intro h
    exact ⟨kingAt_of_king? h, fun t ht => index_le_of_king? h ht⟩
  · intro prem
    obtain ⟨hking, hfirst⟩ := prem
    cases hfound : p.board.king? (some side) with
    | none => exact absurd hking (king?_eq_none_iff.mp hfound s)
    | some t =>
        have ht := kingAt_of_king? hfound
        have hindex := le_antisymm (index_le_of_king? hfound hking) (hfirst t ht)
        rw [(Square.index_inj ht.onBoard hking.onBoard).mp hindex]

/-- A piece attacks the same square on another board, if it stands there as well and the lines that
are open on the one board are open on the other. -/
theorem Attacks.of_open (h : p.Attacks a b) (hkind : (q.board.get a).kind = (p.board.get a).kind)
    (howner : (q.board.get a).owner = (p.board.get a).owner) (hopen : p.Open a b → q.Open a b) :
    q.Attacks a b := by
  cases h with
  | pawn piece way => exact .pawn (hkind.trans piece) (howner ▸ way)
  | knight piece way => exact .knight (hkind.trans piece) way
  | bishop piece way clear => exact .bishop (hkind.trans piece) way (hopen clear)
  | rook piece way clear => exact .rook (hkind.trans piece) way (hopen clear)
  | queen piece way clear => exact .queen (hkind.trans piece) way (hopen clear)
  | king piece way => exact .king (hkind.trans piece) way

theorem corner_not_between (hrow : corner.row = 0 ∨ corner.row = 7)
    (hcol : corner.col = 0 ∨ corner.col = 7) (ha : a.OnBoard) (hb : b.OnBoard) :
    ¬ Square.Between a corner b := by
  intro h
  have halong := h.along_edge ha hb hrow
  unfold Square.OnBoard at ha hb
  omega

section Wing

variable (hp : p.Cornered) (hadm : p.Admissible m (some side)) (way : p.Castles m corner)

include hp way

theorem Castles.at_corner : (corner.row = 0 ∨ corner.row = 7) ∧ (corner.col = 0 ∨ corner.col = 7) :=
  hp.corners corner way.rook way.rookUnmoved

include hadm

theorem Castles.wing_vacant (ht : t.OnBoard) (hrow : t.row = m.src.row)
    (hbeyond : 0 < m.dCol.sign * (t.col - m.src.col)) (hne : t ≠ corner) :
    (p.board.get t).IsEmpty := by
  obtain ⟨hoccupied, hcorner, hcornerBeyond, hopen⟩ := way.corner_found hadm.src_onBoard
  have hedge := (way.at_corner hp).2
  have hon := onBoard_of_occupied hoccupied
  have hsrc := hadm.src_onBoard
  apply hopen
  apply Square.between_of_row hrow hcorner
  simp only [Square.OnBoard, ne_eq, Square.ext_iff] at *
  rcases way.wing with hsign | hsign <;> rw [hsign] at hbeyond hcornerBeyond <;> omega

theorem Castles.hop_facts : (rookHop m corner).dst.OnBoard ∧
    (p.board.get (rookHop m corner).dst).IsEmpty ∧ (p.board.get m.dst).IsEmpty := by
  obtain ⟨hhop, hdst⟩ := way.path_vacant hadm (way.at_corner hp).2
  exact ⟨((way.apart hadm).castle _ rfl).2.1, hhop, hdst⟩

theorem Castles.hop_admissible : p.Admissible (rookHop m corner) (some side) := by
  obtain ⟨hon, hvacant, -⟩ := way.hop_facts hp hadm
  have hmover : p.mover m = some side := hadm.owner
  exact ⟨onBoard_of_occupied way.corner_occupied, hon, way.corner_occupied,
    way.rookOwner.trans hmover, .inl hvacant⟩

theorem Castles.hop_allowed : p.Allows (rookHop m corner) {} := by
  obtain ⟨-, hcorner, hbeyond, hopen⟩ := way.corner_found hadm.src_onBoard
  have hne := (way.hop_admissible hp hadm).src_ne_dst
  have hkind : (p.board.get (rookHop m corner).src).kind = .rook := way.rook
  refine .strike (by simp [hkind]) ((strikes_iff_attacks hne).mpr (.rook hkind (.inl ?_) ?_))
  · simp [rookHop, Square.shift, hcorner]
  · intro t ht
    have hon := ht.onBoard (onBoard_of_occupied way.corner_occupied) (way.hop_facts hp hadm).1
    have hrows := ht.rows
    have hcols := ht.cols
    simp only [rookHop, Square.shift] at hrows hcols
    apply way.wing_vacant hp hadm hon (by omega) _ ht.ne_start
    rcases way.wing with hsign | hsign <;> rw [hsign] at hcols hbeyond ⊢ <;> omega

theorem Castles.get_hop (hcorner : t ≠ corner) (hdst : t ≠ (rookHop m corner).dst) :
    (p.play (rookHop m corner) {}).board.get t = p.board.get t := by
  have happart := apart_of_allows (way.hop_admissible hp hadm) (way.hop_allowed hp hadm)
  have hsrc : ¬ (t = (rookHop m corner).src ∨ (none : Option Square) = some t) := by
    simpa [rookHop] using hcorner
  rw [happart.get_play_of_castle_eq_none rfl, if_neg hdst, if_neg hsrc]

theorem Castles.get_hop_corner :
    (p.play (rookHop m corner) {}).board.get corner = .vacant := by
  have happart := apart_of_allows (way.hop_admissible hp hadm) (way.hop_allowed hp hadm)
  have hne : corner ≠ (rookHop m corner).dst := (way.hop_admissible hp hadm).src_ne_dst
  rw [happart.get_play_of_castle_eq_none rfl, if_neg hne, if_pos (.inl rfl)]

theorem Castles.get_hop_dst : (p.play (rookHop m corner) {}).board.get (rookHop m corner).dst =
    (p.board.get corner).moved (p.plies + 1) := by
  have happart := apart_of_allows (way.hop_admissible hp hadm) (way.hop_allowed hp hadm)
  exact happart.get_play_dst

theorem Castles.opponent_hop (h : (p.play (rookHop m corner) {}).Own side.opponent a) :
    a ≠ corner ∧ a ≠ (rookHop m corner).dst := by
  constructor
  · rintro rfl
    rw [Own, way.get_hop_corner hp hadm] at h
    exact h.1 rfl
  · intro same
    subst same
    have hmover : p.mover m = some side := hadm.owner
    rw [Own, way.get_hop_dst hp hadm] at h
    have howner : (p.board.get corner).owner = some side.opponent := h.2
    rw [way.rookOwner, hmover] at howner
    exact Side.opponent_ne side (Option.some.inj howner).symm

/-- No attack on the castling king arises from the rook's move. -/
theorem Castles.king_unattacked :
    (p.play (rookHop m corner) {}).attacked m.src (some side) = false := by
  have hmover : p.mover m = some side := hadm.owner
  have hsafe := way.safe m.src (mem_kingPath.mpr ⟨0, by omega, by simp [Square.shift]⟩)
  rw [hmover] at hsafe
  by_contra hattacked
  rw [Bool.not_eq_false, attacked_iff_attacks hadm.src_onBoard] at hattacked
  obtain ⟨-, a, hne, hown, hattacks⟩ := hattacked
  obtain ⟨hcorner, hdst⟩ := way.opponent_hop hp hadm hown
  have hget := way.get_hop hp hadm hcorner hdst
  have hattacks' : p.Attacks a m.src := by
    apply hattacks.of_open (congrArg Cell.kind hget).symm (congrArg Cell.owner hget).symm
    intro hopen t ht
    have htc : t ≠ corner := by
      rintro rfl
      obtain ⟨hrow, hcol⟩ := way.at_corner hp
      exact corner_not_between hrow hcol (onBoard_of_occupied hown.1) hadm.src_onBoard ht
    by_cases htd : t = (rookHop m corner).dst
    · rw [htd]
      exact (way.hop_facts hp hadm).2.1
    · rw [← way.get_hop hp hadm htc htd]
      exact hopen t ht
  rw [Own, hget] at hown
  have hattacked := (attacked_iff_attacks hadm.src_onBoard).mpr
    ⟨not_own_opponent hmover, a, hne, hown, hattacks'⟩
  rw [hsafe] at hattacked
  cases hattacked

theorem Castles.kingAt_hop : (p.play (rookHop m corner) {}).KingAt side t ↔ p.KingAt side t := by
  rw [kingAt_play (way.hop_admissible hp hadm) (way.hop_allowed hp hadm)]
  constructor
  · intro prem
    rcases prem with ⟨-, hking⟩ | ⟨-, hking⟩
    · cases way.rook.symm.trans hking.1
    · exact hking
  · intro hking
    refine .inr ⟨?_, hking⟩
    have hoccupied := Cell.occupied_of_kind hking.1 (by decide)
    rintro (htouch | htouch | htouch | ⟨hop, htouch, -⟩)
    · rw [htouch] at hking
      cases way.rook.symm.trans hking.1
    · rw [htouch] at hoccupied
      exact hoccupied (way.hop_facts hp hadm).2.1
    · cases htouch
    · cases htouch

theorem Castles.landing_not_between (ha : ¬ (p.board.get a).IsEmpty)
    (hb : ¬ (p.board.get b).IsEmpty) (hac : a ≠ corner) (hbc : b ≠ corner) :
    ¬ Square.Between a m.dst b := by
  intro h
  have hdst := way.dst_eq
  have hrow : m.dst.row = m.src.row := by simp [hdst, Square.shift]
  have hcol : m.dst.col = m.src.col + m.dCol.sign * 2 := congrArg Square.col hdst
  obtain ⟨-, hcorner, -⟩ := way.corner_found hadm.src_onBoard
  have hedge : m.dst.row = 0 ∨ m.dst.row = 7 := by
    rw [hrow, ← hcorner]
    exact (way.at_corner hp).1
  obtain ⟨hrowa, hrowb, hcols⟩ :=
    h.along_edge (onBoard_of_occupied ha) (onBoard_of_occupied hb) hedge
  have beyond : ∀ t, ¬ (p.board.get t).IsEmpty → t ≠ corner → t.row = m.dst.row →
      ¬ 0 < m.dCol.sign * (t.col - m.src.col) := by
    intro t hoccupied hne ht hbeyond
    exact hoccupied
      (way.wing_vacant hp hadm (onBoard_of_occupied hoccupied) (ht.trans hrow) hbeyond hne)
  have ha' := beyond a ha hac hrowa
  have hb' := beyond b hb hbc hrowb
  rcases way.wing with hsign | hsign <;> rw [hsign] at ha' hb' hcol <;> omega

omit hp in
theorem Castles.get_castled (hdst : t ≠ m.dst) (hhop : t ≠ (rookHop m corner).dst) :
    (p.play m { castle := some (rookHop m corner) }).board.get t =
      if t = m.src ∨ t = corner then .vacant else p.board.get t := by
  rw [(way.apart hadm).get_play_of_castle_eq_some rfl, if_neg hhop, if_neg hdst]
  rfl

theorem Castles.king_aside (hs : p.KingAt side s) :
    s ≠ corner ∧ s ≠ m.dst ∧ s ≠ (rookHop m corner).dst := by
  obtain ⟨-, hhopVacant, hdstVacant⟩ := way.hop_facts hp hadm
  have hking := Cell.occupied_of_kind hs.1 (by decide)
  refine ⟨?_, fun same => hking (same ▸ hdstVacant), fun same => hking (same ▸ hhopVacant)⟩
  rintro rfl
  cases way.rook.symm.trans hs.1

theorem Castles.attacked_of_hop (hs : p.KingAt side s) (hne : s ≠ m.src)
    (h : (p.play (rookHop m corner) {}).attacked s (some side) = true) :
    (p.play m { castle := some (rookHop m corner) }).attacked s (some side) = true := by
  have hmover : p.mover m = some side := hadm.owner
  obtain ⟨hhopOn, hhopVacant, hdstVacant⟩ := way.hop_facts hp hadm
  obtain ⟨hsc, hsd, hsh⟩ := way.king_aside hp hadm hs
  rw [attacked_iff_attacks hs.onBoard] at h ⊢
  obtain ⟨-, a, has, hown, hattacks⟩ := h
  obtain ⟨hac, hah⟩ := way.opponent_hop hp hadm hown
  have hget := way.get_hop hp hadm hac hah
  rw [Own, hget] at hown
  have had : a ≠ m.dst := fun same => hown.1 (same ▸ hdstVacant)
  have hasrc : a ≠ m.src := by
    rintro rfl
    exact not_own_opponent hmover hown
  have hcell := way.get_castled hadm had hah
  rw [if_neg (by simp [hasrc, hac])] at hcell
  refine ⟨?_, a, has, ?_, ?_⟩
  · apply not_own_opponent
    rw [way.get_castled hadm hsd hsh, if_neg (by simp [hne, hsc])]
    exact hs.2
  · rwa [Own, hcell]
  · apply hattacks.of_open (by rw [hcell, hget]) (by rw [hcell, hget])
    intro hopen t ht
    have htd : t ≠ m.dst := by
      rintro rfl
      have hking := Cell.occupied_of_kind hs.1 (by decide)
      exact way.landing_not_between hp hadm hown.1 hking hac hsc ht
    have hempty := hopen t ht
    have hth : t ≠ (rookHop m corner).dst := by
      rintro rfl
      rw [way.get_hop_dst hp hadm] at hempty
      exact way.corner_occupied hempty
    rw [way.get_castled hadm htd hth]
    split_ifs with hleft
    · rfl
    · rwa [way.get_hop hp hadm (fun same => hleft (.inr same)) hth] at hempty

theorem Castles.king?_castled (hs : p.KingAt side s) (hne : s ≠ m.src)
    (hfirst : ∀ t, p.KingAt side t → s.index ≤ t.index) :
    (p.play m { castle := some (rookHop m corner) }).board.king? (some side) = some s := by
  obtain ⟨hsc, hsd, hsh⟩ := way.king_aside hp hadm hs
  have hcell := way.get_castled hadm hsd hsh
  rw [if_neg (by simp [hne, hsc])] at hcell
  rw [king?_eq_some_iff]
  constructor
  · rwa [KingAt, hcell]
  · intro t ht
    rcases (kingAt_play hadm (.castle way)).mp ht with ⟨rfl, -⟩ | ⟨-, ht⟩
    · -- The king that castles comes later, and does not cross the first one.
      have hsrc := hfirst m.src ⟨way.king, hadm.owner⟩
      have hdst := way.dst_eq
      rcases way.wing with hsign | hsign
      · rw [hdst, hsign]
        simp only [Square.index, Square.shift] at hsrc ⊢
        omega
      · have hhop : (rookHop m corner).dst = m.src.shift 0 (-1) :=
          congrArg (m.src.shift 0) hsign
        have hnext : m.dst = (rookHop m corner).dst.shift 0 (-1) := by
          rw [hdst, hhop, hsign]
          simp only [Square.ext_iff, Square.shift]
          omega
        have hbefore := Square.index_le_left hs.onBoard hadm.src_onBoard hhop hne hsrc
        exact Square.index_le_left hs.onBoard (way.hop_facts hp hadm).1 hnext hsh hbefore
    · exact hfirst t ht

theorem Castles.hop_safe (hside : p.toMove = side)
    (hsafe : p.Safe m { castle := some (rookHop m corner) }) : p.Safe (rookHop m corner) {} := by
  unfold Safe inCheck at *
  rw [hside] at *
  cases hfound : (p.play (rookHop m corner) {}).board.king? (some side) with
  | none =>
      have hking : p.KingAt side m.src := ⟨way.king, hadm.owner⟩
      exact absurd ((way.kingAt_hop hp hadm).mpr hking) (king?_eq_none_iff.mp hfound m.src)
  | some s =>
      obtain ⟨hking, hfirst⟩ := king?_eq_some_iff.mp hfound
      by_cases hs : s = m.src
      · rw [hs]
        exact way.king_unattacked hp hadm
      · have hkingp := (way.kingAt_hop hp hadm).mp hking
        have hcastled := way.king?_castled hp hadm hkingp hs fun t ht =>
          hfirst t ((way.kingAt_hop hp hadm).mpr ht)
        rw [hcastled] at hsafe
        simp only at hsafe ⊢
        by_contra hattacked
        rw [way.attacked_of_hop hp hadm hkingp hs (by simpa using hattacked)] at hsafe
        cases hsafe

end Wing

/-- Where castling is legal, the rook's part of it is legal alone. -/
theorem Cornered.hop_legal (hp : p.Cornered) (h : p.ruling m = .legal e) {hop : Move}
    (hhop : e.castle = some hop) : p.ruling hop = .legal {} := by
  obtain ⟨⟨hadm, hallows⟩, hsafe⟩ := ruling_eq_legal.mp h
  cases hallows with
  | strike | pawn => cases hhop
  | castle way =>
      cases hhop
      exact ruling_eq_legal.mpr ⟨⟨way.hop_admissible hp hadm, way.hop_allowed hp hadm⟩,
        way.hop_safe hp hadm rfl hsafe⟩

/-- A player with a legal move has one that does not castle. -/
theorem Cornered.hasReply_iff (hp : p.Cornered) :
    p.hasReply = true ↔ ∃ m e, p.ruling m = .legal e ∧ e.castle = none := by
  rw [Position.hasReply_iff]
  constructor
  · intro prem
    obtain ⟨m, e, h⟩ := prem
    cases hcastle : e.castle with
    | none => exact ⟨m, e, h, hcastle⟩
    | some hop => exact ⟨hop, {}, hp.hop_legal h hcastle, rfl⟩
  · intro prem
    obtain ⟨m, e, h, -⟩ := prem
    exact ⟨m, e, h⟩

end Position

namespace Akin

variable {p q : Position}

theorem legal_of_no_castle (h : Akin p q) {m : Move} {e : Effects} (hlegal : p.ruling m = .legal e)
    (hnone : e.castle = none) : q.ruling m = .legal e := by
  apply h.legal hlegal
  intro corner way
  have hruling := Position.ruling_eq_legal.mp hlegal
  have hcastle := Position.pieceRuling_eq_legal.mpr ⟨hruling.1.1, .castle way⟩
  rw [Position.pieceRuling_eq_legal.mpr hruling.1] at hcastle
  rw [Ruling.legal.inj hcastle] at hnone
  cases hnone

theorem hasReply_eq (h : Akin p q) (hp : p.Cornered) (hq : q.Cornered) :
    p.hasReply = q.hasReply := by
  rw [Bool.eq_iff_iff, hp.hasReply_iff, hq.hasReply_iff]
  constructor
  · intro prem
    obtain ⟨m, e, hlegal, hnone⟩ := prem
    exact ⟨m, e, h.legal_of_no_castle hlegal hnone, hnone⟩
  · intro prem
    obtain ⟨m, e, hlegal, hnone⟩ := prem
    exact ⟨m, e, h.symm.legal_of_no_castle hlegal hnone, hnone⟩

theorem stuck?_eq (h : Akin p q) (hp : p.Cornered) (hq : q.Cornered) : p.stuck? = q.stuck? := by
  unfold Position.stuck?
  rw [h.hasReply_eq hp hq, h.toMove_eq, h.men.inCheck_eq]

end Akin

end Arbiter
