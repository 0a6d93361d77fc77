/-!
# Texts

A text is the list of its Unicode scalar values. Everything in this library that reads or writes
text works on such lists, so that a statement about a text is a statement about a list.
-/

namespace SignatureLine

/-- A text: its Unicode scalar values, first to last. -/
abbrev Text := List Char

/-- The list without its longest final run of members that satisfy `p`. -/
def dropEndWhile {α : Type} (p : α → Bool) (l : List α) : List α :=
  (l.reverse.dropWhile p).reverse

theorem dropEndWhile_prefix {α : Type} (p : α → Bool) (l : List α) : dropEndWhile p l <+: l := by
  rw [← List.reverse_suffix, dropEndWhile, List.reverse_reverse]
  exact List.dropWhile_suffix p

theorem dropEndWhile_eq_nil_iff {α : Type} {p : α → Bool} {l : List α} :
    dropEndWhile p l = [] ↔ ∀ a ∈ l, p a = true := by
  have h : ∀ m : List α, m.dropWhile p = [] ↔ ∀ a ∈ m, p a = true := by
    intro m
    induction m with
    | nil => simp
    | cons a m ih => by_cases ha : p a = true <;> simp [ha, ih]
  simp [dropEndWhile, h]

-- What is left ends with a member that does not satisfy `p`.
theorem dropEndWhile_eq_append {α : Type} {p : α → Bool} {l : List α} (h : dropEndWhile p l ≠ []) :
    ∃ front last, dropEndWhile p l = front ++ [last] ∧ p last = false := by
  unfold dropEndWhile at h ⊢
  cases hs : l.reverse.dropWhile p with
  | nil =>
    rw [hs] at h
    exact absurd rfl h
  | cons last rest =>
    have hnot := List.head?_dropWhile_not p l.reverse
    rw [hs] at hnot
    exact ⟨rest.reverse, last, List.reverse_cons, by simpa using hnot⟩

namespace Text

/-- The blanks that separate words within a line: the space and the tab. -/
def isBlank (c : Char) : Bool :=
  c == ' ' || c == '\t'

/-- The text without its leading and trailing characters that satisfy `p`. -/
def trimBoth (p : Char → Bool) (s : Text) : Text :=
  dropEndWhile p (s.dropWhile p)

def trimBlanks (s : Text) : Text :=
  trimBoth isBlank s

end Text

end SignatureLine
