import Arbiter.Cell
import Arbiter.Square

/-! # The board

A board holds one cell for each of its 64 squares. It is seen through `get`, which finds every
place beyond the edges vacant, and changed through `put`, which leaves those places alone.
-/

namespace Arbiter

/-- The cells of the 64 squares, row by row. -/
structure Board where
  cells : Vector Cell 64
deriving DecidableEq

namespace Board

def get (b : Board) (s : Square) : Cell :=
  if h : s.OnBoard then
    have : s.index < 64 := Square.index_lt h
    b.cells[s.index]
  else .vacant

def put (b : Board) (s : Square) (c : Cell) : Board :=
  if h : s.OnBoard then
    have : s.index < 64 := Square.index_lt h
    ⟨b.cells.set s.index c⟩
  else b

/-- The board whose cells are given square by square. -/
def ofFn (f : Square → Cell) : Board :=
  ⟨Vector.ofFn fun i => f (Square.ofIndex i)⟩

def bare : Board := ofFn fun _ => .vacant

def squaresOf (b : Board) (owner : Option Side) : List Square :=
  Square.all.filter fun s => (b.get s).owner = owner

/-- The first square on which an owner's king stands. -/
def king? (b : Board) (owner : Option Side) : Option Square :=
  Square.all.find? fun s => (b.get s).kind = .king ∧ (b.get s).owner = owner

/-- The board after the piece on one square went to another at the given ply. -/
def relocate (b : Board) (src dst : Square) (now : Int) : Board :=
  (b.put src .vacant).put dst ((b.get src).moved now)

def promote (b : Board) (s : Square) (kind : Kind) : Board :=
  b.put s { b.get s with kind := kind }

theorem get_of_not_onBoard (b : Board) {s : Square} (h : ¬ s.OnBoard) : b.get s = .vacant := by
  simp [get, h]

@[simp] theorem get_put_self (b : Board) {s : Square} (h : s.OnBoard) (c : Cell) :
    (b.put s c).get s = c := by
  simp [get, put, h]

theorem get_put_of_ne (b : Board) {s t : Square} (h : t ≠ s) (c : Cell) :
    (b.put s c).get t = b.get t := by
  by_cases hs : s.OnBoard
  · by_cases ht : t.OnBoard
    · have hi : ¬ s.index = t.index := fun e => h ((Square.index_inj hs ht).mp e).symm
      simp [get, put, hs, ht, hi]
    · simp [get, ht]
  · simp [put, hs]

theorem get_put (b : Board) {s : Square} (hs : s.OnBoard) (c : Cell) (t : Square) :
    (b.put s c).get t = if t = s then c else b.get t := by
  by_cases h : t = s
  · subst h
    simp [hs]
  · simp [h, get_put_of_ne]

theorem get_ofFn (f : Square → Cell) {s : Square} (h : s.OnBoard) : (ofFn f).get s = f s := by
  simp [get, ofFn, h, Square.ofIndex_index h]

theorem ext_get {a b : Board} (h : ∀ s, s.OnBoard → a.get s = b.get s) : a = b := by
  cases a with | mk as =>
  cases b with | mk bs =>
    congr
    apply Vector.ext
    intro i hi
    have hs := Square.onBoard_ofIndex hi
    simpa [get, hs, Square.index_ofIndex] using h (Square.ofIndex i) hs

@[simp] theorem mem_squaresOf {b : Board} {owner : Option Side} {s : Square} :
    s ∈ b.squaresOf owner ↔ s.OnBoard ∧ (b.get s).owner = owner := by
  simp [squaresOf]

end Board
end Arbiter
