import SignatureLine.FileTree.Path
import SignatureLine.Text.Split.Lemmas

/-!
# Laws of paths

A path is made of its segments, its parent is shorter than it, and so the chain of its ancestors is
itself followed by the chain of its parent.
-/

namespace SignatureLine.Path

theorem length_le_ofSegments {x : Text} {l : List Text} (h : x ∈ l) :
    x.length ≤ (ofSegments l).length := by
  induction l with
  | nil => simp at h
  | cons y l ih =>
      cases l with
      | nil =>
          obtain rfl : x = y := by simpa using h
          simp [ofSegments, List.intercalate]
      | cons z l =>
          rw [ofSegments, Text.intercalate_cons _ _ (by simp)]
          rcases List.mem_cons.mp h with rfl | h
          · simp
          · have := ih h
            simp only [ofSegments, List.length_append] at this ⊢
            omega

theorem ofSegments_append (l m : List Text) (hl : l ≠ []) (hm : m ≠ []) :
    ofSegments (l ++ m) = ofSegments l ++ '/' :: ofSegments m := by
  induction l with
  | nil => exact absurd rfl hl
  | cons x l ih =>
      cases l with
      | nil =>
          rw [List.singleton_append, ofSegments, Text.intercalate_cons _ x hm]
          simp [ofSegments, List.intercalate]
      | cons y l =>
          have := ih (by simp)
          simp only [ofSegments, List.cons_append] at this ⊢
          rw [Text.intercalate_cons _ x (by simp), this, Text.intercalate_cons _ x (by simp)]
          simp

theorem length_ofSegments_lt {l m : List Text} (h : l <+: m) (hl : l ≠ [])
    (hne : l.length < m.length) :
    (ofSegments l).length < (ofSegments m).length := by
  obtain ⟨r, rfl⟩ := h
  have hr : r ≠ [] := by rintro rfl; simp at hne
  rw [ofSegments_append l r hl hr]
  simp

theorem ofSegments_segments (p : Path) : ofSegments (segments p) = p :=
  Text.intercalate_splitOn ['/'] p

/-- All that a parent can be: the empty path, a path of the first segment alone, or one of the first
segment and what is left of the others without the last that says something. -/
theorem parent?_cases {p q : Path} (h : parent? p = some q) :
    ∃ first rest, segments p = first :: rest ∧
      ((dropEndWhile isIdle rest = [] ∧ first ≠ [] ∧ q = []) ∨
        ∃ front last, dropEndWhile isIdle rest = front ++ [last] ∧ isIdle last = false ∧
          ((dropEndWhile isIdle front = [] ∧ first = [] ∧ q = ['/']) ∨
            (dropEndWhile isIdle front = [] ∧ first ≠ [] ∧ q = first) ∨
            (dropEndWhile isIdle front ≠ [] ∧
              q = ofSegments (first :: dropEndWhile isIdle front)))) := by
  unfold parent? at h
  split at h
  · cases h
  · next first rest hs =>
    refine ⟨first, rest, hs, ?_⟩
    split at h
    · next hnil =>
      split at h
      · cases h
      · next hfirst => exact .inl ⟨hnil, by simpa using hfirst, (Option.some.inj h).symm⟩
    · next hcons =>
      obtain ⟨front, last, hlast, hidle⟩ := dropEndWhile_eq_append hcons
      refine .inr ⟨front, last, hlast, hidle, ?_⟩
      rw [hlast, List.dropLast_concat] at h
      split at h
      · next habove =>
        obtain rfl := Option.some.inj h
        cases first with
        | nil => exact .inl ⟨habove, rfl, rfl⟩
        | cons c first => exact .inr (.inl ⟨habove, List.cons_ne_nil c first, rfl⟩)
      · next habove => exact .inr (.inr ⟨habove, (Option.some.inj h).symm⟩)

/-- A parent is shorter than its path. -/
theorem length_parent?_lt {p q : Path} (h : parent? p = some q) : q.length < p.length := by
  obtain ⟨first, rest, hs, hcases⟩ := parent?_cases h
  have hp := ofSegments_segments p
  rw [hs] at hp
  obtain ⟨-, hfirst, rfl⟩ | ⟨front, last, hlast, hidle, hcases⟩ := hcases
  · have hle : first.length ≤ p.length := hp ▸ length_le_ofSegments (by simp)
    have hpos := List.length_pos_iff.mpr hfirst
    exact Nat.lt_of_lt_of_le hpos hle
  · have hpre := dropEndWhile_prefix isIdle rest
    rw [hlast] at hpre
    have hrest : rest ≠ [] := by
      rintro rfl
      simpa using hpre.length_le
    have hsplit : p = first ++ '/' :: ofSegments rest := by
      rw [← hp, ofSegments, Text.intercalate_cons _ _ hrest]
      simp [ofSegments]
    obtain ⟨-, rfl, rfl⟩ | ⟨-, -, rfl⟩ | ⟨-, rfl⟩ := hcases
    · -- the last component is not empty
      have hlength := length_le_ofSegments (hpre.subset (List.mem_append_right _ List.mem_cons_self))
      have hpos : 0 < last.length := by
        cases last with
        | nil => cases hidle
        | cons c last => exact Nat.succ_pos _
      rw [hsplit]
      simp only [List.nil_append, List.length_cons, List.length_nil]
      omega
    · rw [hsplit]
      simp
    · have hfront := dropEndWhile_prefix isIdle front
      have hle := hfront.length_le
      have hlt := hpre.length_le
      rw [List.length_append, List.length_singleton] at hlt
      rw [← hp]
      refine length_ofSegments_lt ?_ (by simp) (by simp only [List.length_cons]; omega)
      exact List.cons_prefix_cons.mpr
        ⟨rfl, hfront.trans ((List.prefix_append front [last]).trans hpre)⟩

theorem ancestorsUpTo_of_le {limit : Nat} {p : Path} (h : p.length ≤ limit) :
    ancestorsUpTo limit p = ancestors p := by
  have key : ∀ (n m : Nat) (p : Path), p.length ≤ n → p.length ≤ m →
      ancestorsUpTo n p = ancestorsUpTo m p := by
    intro n
    induction n with
    | zero =>
        intro m p hn _
        obtain rfl : p = [] := List.length_eq_zero_iff.mp (by omega)
        cases m <;> rfl
    | succ n ih =>
        intro m p hn hm
        cases m with
        | zero =>
            obtain rfl : p = [] := List.length_eq_zero_iff.mp (by omega)
            rfl
        | succ m =>
            simp only [ancestorsUpTo]
            split
            · next q hq =>
              have := length_parent?_lt hq
              rw [ih m q (by omega) (by omega)]
            · rfl
  exact key _ _ p h (Nat.le_refl _)

/-- The ancestors of a path are those of its parent, behind the path itself. -/
theorem ancestors_eq (p : Path) :
    ancestors p = p :: ((parent? p).map ancestors).getD [] := by
  unfold ancestors
  cases hp : parent? p with
  | none => cases hl : p.length <;> simp [ancestorsUpTo, hp]
  | some q =>
      have := length_parent?_lt hp
      cases hl : p.length with
      | zero => omega
      | succ n =>
          simp only [ancestorsUpTo, hp, Option.map_some, Option.getD_some]
          rw [ancestorsUpTo_of_le (by omega)]
          rfl

end SignatureLine.Path
