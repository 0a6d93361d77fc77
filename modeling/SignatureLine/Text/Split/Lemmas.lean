import SignatureLine.Text.Split

/-!
# Laws of splitting

Splitting at a delimiter loses nothing but the delimiter: the pieces with the delimiter between them
are the text.
-/

namespace SignatureLine.Text

theorem splitFrom_ne_nil (d : Text) (skip : Nat) (s : Text) : splitFrom d skip s ≠ [] := by
  fun_induction splitFrom d skip s with
  | case1 => simp
  | case2 _ _ _ ih => exact ih
  | case3 => simp
  | case4 _ _ _ ih => simpa using ih

theorem splitOn_ne_nil (d s : Text) : splitOn d s ≠ [] := by
  cases d with
  | nil => exact List.cons_ne_nil _ _
  | cons c d => exact splitFrom_ne_nil (c :: d) 0 s

theorem intercalate_cons (d p : Text) {ps : List Text} (h : ps ≠ []) :
    d.intercalate (p :: ps) = p ++ d ++ d.intercalate ps := by
  cases ps with
  | nil => exact absurd rfl h
  | cons q qs => simp [List.intercalate]

theorem intercalate_modifyHead (d : Text) (c : Char) {ps : List Text} (h : ps ≠ []) :
    d.intercalate (ps.modifyHead (c :: ·)) = c :: d.intercalate ps := by
  cases ps with
  | nil => exact absurd rfl h
  | cons q qs =>
      cases qs with
      | nil => simp [List.intercalate]
      | cons r rs => simp [List.intercalate]

theorem intercalate_splitFrom {d : Text} (hd : d ≠ []) (skip : Nat) (s : Text)
    (h : skip ≤ s.length) :
    d.intercalate (splitFrom d skip s) = s.drop skip := by
  fun_induction splitFrom d skip s with
  | case1 skip => simp [List.intercalate]
  | case2 skip c s ih => simpa using ih (by simpa using h)
  | case3 c s hpre ih =>
    obtain ⟨rest, hrest⟩ := List.isPrefixOf_iff_prefix.mp hpre
    obtain ⟨e, d, rfl⟩ := List.exists_cons_of_ne_nil hd
    obtain ⟨rfl, rfl⟩ : e = c ∧ d ++ rest = s := by simpa using hrest
    rw [intercalate_cons _ _ (splitFrom_ne_nil _ _ _), ih (by simp)]
    simp
  | case4 c s hpre ih =>
    rw [intercalate_modifyHead d c (splitFrom_ne_nil d 0 s), ih (by simp)]
    simp

/-- The pieces with the delimiter between them are the text. -/
theorem intercalate_splitOn (d s : Text) : d.intercalate (splitOn d s) = s := by
  cases d with
  | nil =>
    have h : ∀ t : Text, ([] : Text).intercalate (t.map ([·]) ++ [[]]) = t := by
      intro t
      induction t with
      | nil => rfl
      | cons c t ih =>
          rw [List.map_cons, List.cons_append, intercalate_cons _ _ (by simp), ih]
          rfl
    rw [splitOn, intercalate_cons _ _ (by simp), h]
    rfl
  | cons e d =>
      simpa [splitOn] using intercalate_splitFrom (List.cons_ne_nil e d) 0 s (Nat.zero_le _)

end SignatureLine.Text
