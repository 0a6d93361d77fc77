import Mathlib.Data.List.DropRight
import SignatureLine.Text.Whitespace

/-!
# Trimming

A text is white space, its trimmed form, and white space again; and a text that has no white space
at its ends is its own trimmed form.  Everything else about trimming is read off these two facts.
-/

namespace SignatureLine

/-! ## Dropping at the end -/

section DropEnd

variable {α : Type} {p : α → Bool}

theorem dropEndWhile_append (l m : List α) :
    dropEndWhile p (l ++ m) =
      if dropEndWhile p m = [] then dropEndWhile p l else l ++ dropEndWhile p m := by
  -- the end of a list is the front of its reverse
  unfold dropEndWhile
  rw [List.reverse_append, List.dropWhile_append]
  by_cases h : m.reverse.dropWhile p = []
  · rw [if_pos (by rw [h]; rfl), if_pos (by rw [h]; rfl)]
  · rw [if_neg (by simpa using h), if_neg (by simpa using h), List.reverse_append,
      List.reverse_reverse]

theorem dropEndWhile_append_of_all {l m : List α} (h : ∀ a ∈ m, p a = true) :
    dropEndWhile p (l ++ m) = dropEndWhile p l := by
  rw [dropEndWhile_append, if_pos (dropEndWhile_eq_nil_iff.mpr h)]

theorem dropEndWhile_append_cons {a : α} (h : p a = false) (l m : List α) :
    dropEndWhile p (l ++ a :: m) = l ++ a :: dropEndWhile p m := by
  have hcons : dropEndWhile p (a :: m) = a :: dropEndWhile p m := by
    rw [← List.singleton_append, dropEndWhile_append]
    by_cases hm : dropEndWhile p m = []
    · rw [if_pos hm, hm]
      exact List.rdropWhile_concat_neg p [] a (by simp [h])
    · rw [if_neg hm, List.singleton_append]
  rw [dropEndWhile_append, hcons, if_neg (List.cons_ne_nil _ _)]

-- The same from the front.
theorem dropWhile_append_cons_of_not {a : α} (h : p a = false) (l m : List α) :
    (l ++ a :: m).dropWhile p = l.dropWhile p ++ a :: m := by
  rw [List.dropWhile_append, List.dropWhile_cons_of_neg (by simp [h])]
  split
  · rename_i hnil
    rw [List.isEmpty_iff.mp hnil, List.nil_append]
  · rfl

theorem dropEndWhile_eq_self {l : List α} (h : ∀ a ∈ l.getLast?, p a = false) :
    dropEndWhile p l = l := by
  apply List.rdropWhile_eq_self_iff.mpr
  intro hl
  simp [h _ (List.getLast?_eq_some_getLast hl)]

theorem dropEndWhile_subset (p : α → Bool) (l : List α) : dropEndWhile p l ⊆ l := by
  have h := dropEndWhile_prefix p l
  exact h.subset

theorem filter_dropEndWhile (p : α → Bool) (l : List α) :
    (dropEndWhile p l).filter (!p ·) = l.filter (!p ·) := by
  have hsplit : dropEndWhile p l ++ l.rtakeWhile p = l := List.rdropWhile_append_rtakeWhile
  have htail : (l.rtakeWhile p).filter (!p ·) = [] := by
    rw [List.filter_eq_nil_iff]
    intro a ha
    simp [List.mem_rtakeWhile_imp ha]
  conv_rhs => rw [← hsplit, List.filter_append, htail, List.append_nil]

theorem getLast?_dropEndWhile (l : List α) : ∀ a ∈ (dropEndWhile p l).getLast?, p a = false := by
  intro a ha
  have hne : dropEndWhile p l ≠ [] := by
    rintro h
    simp [h] at ha
  obtain ⟨front, last, hl, hlast⟩ := dropEndWhile_eq_append hne
  rw [hl, List.getLast?_concat] at ha
  rwa [← Option.some.inj ha]

theorem mem_dropWhile_of_not {a : α} {l : List α} (ha : a ∈ l) (h : p a = false) :
    a ∈ l.dropWhile p := by
  rw [← List.takeWhile_append_dropWhile (p := p) (l := l), List.mem_append] at ha
  refine ha.resolve_left fun hmem => ?_
  rw [List.mem_takeWhile_imp hmem] at h
  cases h

theorem mem_dropEndWhile_of_not {a : α} {l : List α} (ha : a ∈ l) (h : p a = false) :
    a ∈ dropEndWhile p l :=
  List.mem_reverse.mpr (mem_dropWhile_of_not (List.mem_reverse.mpr ha) h)

end DropEnd

namespace Text

variable {p : Char → Bool} {s : Text}

/-! ## Trimmed texts -/

/-- No character at either end of the text satisfies `p`. -/
def Trimmed (p : Char → Bool) (s : Text) : Prop :=
  (∀ c ∈ s.head?, p c = false) ∧ ∀ c ∈ s.getLast?, p c = false

theorem trimBoth_eq_self (h : Trimmed p s) : trimBoth p s = s := by
  have hstart : s.dropWhile p = s := by
    cases s with
    | nil => rfl
    | cons c s => simp [h.1 c rfl]
  rw [trimBoth, hstart, dropEndWhile_eq_self h.2]

theorem trimBoth_eq_nil_iff : trimBoth p s = [] ↔ ∀ c ∈ s, p c = true := by
  rw [trimBoth, dropEndWhile_eq_nil_iff]
  constructor
  · intro h c hc
    rw [← List.takeWhile_append_dropWhile (p := p) (l := s)] at hc
    -- what is dropped in front satisfies `p` in any case
    rcases List.mem_append.mp hc with hc | hc
    · exact List.mem_takeWhile_imp hc
    · exact h c hc
  · intro h c hc
    exact h c (List.dropWhile_subset p hc)

theorem trimmed_trimBoth (p : Char → Bool) (s : Text) : Trimmed p (trimBoth p s) := by
  refine ⟨?_, getLast?_dropEndWhile _⟩
  intro c hc
  obtain ⟨after, hafter⟩ : trimBoth p s <+: s.dropWhile p := dropEndWhile_prefix p _
  have hhead : (s.dropWhile p).head? = some c := by
    rw [← hafter, List.head?_append, Option.mem_def.mp hc, Option.some_or]
  have hnot := List.head?_dropWhile_not p s
  rw [hhead] at hnot
  simpa using hnot

theorem trimBoth_append_left {t : Text} (ht : ∀ c ∈ t, p c = true) (s : Text) :
    trimBoth p (t ++ s) = trimBoth p s := by
  rw [trimBoth, List.dropWhile_append_of_pos ht, trimBoth]

theorem trimBoth_append_right {t : Text} (ht : ∀ c ∈ t, p c = true) (s : Text) :
    trimBoth p (s ++ t) = trimBoth p s := by
  unfold trimBoth
  rw [List.dropWhile_append]
  by_cases h : s.dropWhile p = []
  · -- nothing stops the trimming in front, which goes on into `t`
    rw [if_pos (by rw [h]; rfl), h, List.dropWhile_eq_nil_iff.mpr ht]
  · rw [if_neg (by simpa using h), dropEndWhile_append_of_all ht]

-- Trimming goes no further than a character that stops it at either end.
theorem trimBoth_append {t : Text} (hs : ∃ c ∈ s, p c = false) (ht : ∃ c ∈ t, p c = false) :
    trimBoth p (s ++ t) = s.dropWhile p ++ dropEndWhile p t := by
  have hstop : ∀ {u : Text}, (∃ c ∈ u, p c = false) → ¬ ∀ c ∈ u, p c = true := by
    rintro u ⟨c, hc, hnot⟩ hall
    rw [hall c hc] at hnot
    cases hnot
  have hstart : s.dropWhile p ≠ [] := mt List.dropWhile_eq_nil_iff.mp (hstop hs)
  have hend : dropEndWhile p t ≠ [] := mt dropEndWhile_eq_nil_iff.mp (hstop ht)
  rw [trimBoth, List.dropWhile_append, if_neg (by simpa using hstart), dropEndWhile_append,
    if_neg hend]

-- What trimming takes away at the two ends.
theorem exists_eq_append_trimBoth (p : Char → Bool) (s : Text) :
    ∃ before after : Text, (∀ c ∈ before, p c = true) ∧ (∀ c ∈ after, p c = true) ∧
      s = before ++ (trimBoth p s ++ after) := by
  refine ⟨s.takeWhile p, (s.dropWhile p).rtakeWhile p, fun c hc => List.mem_takeWhile_imp hc,
    fun c hc => List.mem_rtakeWhile_imp hc, ?_⟩
  rw [show trimBoth p s = (s.dropWhile p).rdropWhile p from rfl,
    List.rdropWhile_append_rtakeWhile, List.takeWhile_append_dropWhile]

theorem trimBoth_subset (p : Char → Bool) (s : Text) : trimBoth p s ⊆ s :=
  fun _ hc => List.dropWhile_subset p (dropEndWhile_subset p _ hc)

/-! ## White space -/

/-- The text without its trailing white space. -/
def trimEnd (s : Text) : Text :=
  dropEndWhile isWhitespace s

theorem trimEnd_append (s t : Text) :
    trimEnd (s ++ t) = if trimEnd t = [] then trimEnd s else s ++ trimEnd t :=
  dropEndWhile_append s t

theorem trimEnd_trimEnd (s : Text) : trimEnd (trimEnd s) = trimEnd s :=
  dropEndWhile_eq_self (getLast?_dropEndWhile s)

theorem trim_eq_trimEnd (h : ∀ c ∈ s.head?, isWhitespace c = false) : trim s = trimEnd s := by
  cases s with
  | nil => rfl
  | cons c s =>
    rw [trim, trimBoth, trimEnd, List.dropWhile_cons_of_neg (by simp [h c rfl])]

end Text

end SignatureLine
