/-! # Fields between separators

Cutting a text at a separator and joining the fields again undo each other.
-/

namespace Arbiter.Text

/-- The fields of a text between the occurrences of a separator, empty ones included. -/
def fields (sep : Char) : List Char → List (List Char)
  | [] => [[]]
  | c :: cs =>
    if c = sep then [] :: fields sep cs
    else
      match fields sep cs with
      | [] => [[c]]
      | field :: rest => (c :: field) :: rest

/-- The fields with the separator written between them. -/
def joinFields (sep : Char) : List (List Char) → List Char
  | [] => []
  | [field] => field
  | field :: rest => field ++ sep :: joinFields sep rest

theorem fields_ne_nil (sep : Char) (cs : List Char) : fields sep cs ≠ [] := by
  cases cs with
  | nil => simp [fields]
  | cons c cs =>
    unfold fields
    split
    · simp
    · split <;> simp

theorem joinFields_cons_cons (sep : Char) (field next : List Char) (rest : List (List Char)) :
    joinFields sep (field :: next :: rest) = field ++ sep :: joinFields sep (next :: rest) := rfl

theorem mem_joinFields {sep c : Char} {fs : List (List Char)} (h : c ∈ joinFields sep fs) :
    c = sep ∨ ∃ field ∈ fs, c ∈ field := by
  induction fs with
  | nil => cases h
  | cons field rest ih =>
    cases rest with
    | nil => exact .inr ⟨field, List.mem_cons_self, h⟩
    | cons next rest =>
      rw [joinFields_cons_cons, List.mem_append, List.mem_cons] at h
      rcases h with h | rfl | h
      · exact .inr ⟨field, List.mem_cons_self, h⟩
      · exact .inl rfl
      · rcases ih h with rfl | ⟨f, hf, hc⟩
        · exact .inl rfl
        · exact .inr ⟨f, List.mem_cons_of_mem field hf, hc⟩

theorem mem_joinFields_of_mem {sep c : Char} {fs : List (List Char)} {field : List Char}
    (hfield : field ∈ fs) (hc : c ∈ field) : c ∈ joinFields sep fs := by
  induction fs with
  | nil => cases hfield
  | cons first rest ih =>
    cases rest with
    | nil =>
      rw [List.mem_singleton] at hfield
      exact hfield ▸ hc
    | cons next rest =>
      rw [joinFields_cons_cons, List.mem_append, List.mem_cons]
      rcases List.mem_cons.mp hfield with rfl | hfield
      · exact .inl hc
      · exact .inr (.inr (ih hfield))

theorem joinFields_fields (sep : Char) (cs : List Char) : joinFields sep (fields sep cs) = cs := by
  induction cs with
  | nil => rfl
  | cons c cs ih =>
    cases h : fields sep cs with
    | nil => exact absurd h (fields_ne_nil sep cs)
    | cons field rest =>
      rw [h] at ih
      by_cases hc : c = sep
      · rw [fields, if_pos hc, h, joinFields_cons_cons, ih, hc, List.nil_append]
      · rw [fields, if_neg hc, h]
        cases rest with
        | nil => exact congrArg (c :: ·) ih
        | cons next rest => exact congrArg (c :: ·) ih

theorem fields_of_notMem {sep : Char} {cs : List Char} (h : sep ∉ cs) : fields sep cs = [cs] := by
  induction cs with
  | nil => rfl
  | cons c cs ih =>
    rw [List.mem_cons, not_or] at h
    rw [fields, if_neg (Ne.symm h.1), ih h.2]

theorem fields_append {sep : Char} {field : List Char} (h : sep ∉ field) (rest : List Char) :
    fields sep (field ++ sep :: rest) = field :: fields sep rest := by
  induction field with
  | nil => simp [fields]
  | cons c cs ih =>
    rw [List.mem_cons, not_or] at h
    rw [List.cons_append, fields, if_neg (Ne.symm h.1), ih h.2]

theorem fields_joinFields {sep : Char} {fs : List (List Char)} (hne : fs ≠ [])
    (h : ∀ field ∈ fs, sep ∉ field) : fields sep (joinFields sep fs) = fs := by
  induction fs with
  | nil => exact absurd rfl hne
  | cons field rest ih =>
    cases rest with
    | nil => exact fields_of_notMem (h field List.mem_cons_self)
    | cons next rest =>
      rw [joinFields_cons_cons, fields_append (h field List.mem_cons_self),
        ih (by simp) fun f hf => h f (List.mem_cons_of_mem _ hf)]

end Arbiter.Text
