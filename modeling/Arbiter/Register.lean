import Arbiter.Game.Basic
import Arbiter.Identifier

/-! # The register of games

Records are kept under identifiers. The identifiers are handed out in ascending order and never
used twice.
-/

namespace Arbiter

/-- The records on file, and how many identifiers were handed out. -/
structure Register where
  records : List (Identifier × Record) := []
  issued : Nat := 0
deriving Repr, DecidableEq, Inhabited

namespace Register

/-- The record under an identifier. -/
def get? (r : Register) (i : Identifier) : Option Record :=
  r.records.lookup i

/-- Files a record under a new identifier. -/
def add (r : Register) (record : Record) : Identifier × Register :=
  let i : Identifier := ⟨r.issued + 1⟩
  (i, { records := (i, record) :: r.records, issued := r.issued + 1 })

/-- Replaces the record under an identifier, if there is one. -/
def update (r : Register) (i : Identifier) (record : Record) : Register :=
  { r with records := r.records.map fun e => if e.1 = i then (i, record) else e }

/-- Takes the record under an identifier off the file. -/
def remove (r : Register) (i : Identifier) : Register :=
  { r with records := r.records.filter fun e => e.1 ≠ i }

private theorem lookup_cons_ite (i k : Identifier) (v : Record)
    (es : List (Identifier × Record)) :
    List.lookup i ((k, v) :: es) = if i = k then some v else List.lookup i es := by
  by_cases h : i = k
  · simp [h]
  · rw [List.lookup_cons, beq_false_of_ne h, if_neg h]

theorem get?_add (r : Register) (record : Record) (i : Identifier) :
    (r.add record).2.get? i = if i = (r.add record).1 then some record else r.get? i :=
  lookup_cons_ite i _ record r.records

theorem get?_update (r : Register) (i : Identifier) (record : Record) (j : Identifier) :
    (r.update i record).get? j = if j = i then (r.get? i).map fun _ => record else r.get? j := by
  obtain ⟨records, issued⟩ := r
  simp only [get?, update]
  induction records with
  | nil => simp
  | cons e es ih =>
    obtain ⟨k, v⟩ := e
    rw [List.map_cons, lookup_cons_ite i, lookup_cons_ite j k v]
    by_cases hk : k = i
    · subst hk
      rw [if_pos rfl, lookup_cons_ite, ih, if_pos rfl]
      by_cases hj : j = k <;> simp [hj]
    · rw [if_neg hk, lookup_cons_ite, ih, if_neg (Ne.symm hk)]
      by_cases hj : j = i
      · rw [if_pos hj, if_pos hj, hj, if_neg (Ne.symm hk)]
      · rw [if_neg hj, if_neg hj]

theorem get?_remove (r : Register) (i j : Identifier) :
    (r.remove i).get? j = if j = i then none else r.get? j := by
  obtain ⟨records, issued⟩ := r
  simp only [get?, remove]
  induction records with
  | nil => simp
  | cons e es ih =>
    obtain ⟨k, v⟩ := e
    rw [List.filter_cons, lookup_cons_ite j]
    by_cases hk : k = i
    · rw [if_neg (by simp [hk]), ih, hk]
      by_cases hj : j = i <;> simp [hj]
    · rw [if_pos (by simpa using hk), lookup_cons_ite, ih]
      by_cases hj : j = i
      · rw [if_pos hj, if_pos hj, hj, if_neg (Ne.symm hk)]
      · rw [if_neg hj, if_neg hj]

end Register
end Arbiter
