import SignatureLine.FileTree.Path.Lemmas
import SignatureLine.Proofs.Text.Splitting
import SignatureLine.Proofs.Text.Trimming

/-!
# The names in a path

Of the segments of a path only those count that say something.  A parent has all of these but the
last, so that the names in an ancestor are the first ones in the path.
-/

namespace SignatureLine.Path

/-- Two dots, the segment that leads to the directory above. -/
def up : Text := ['.', '.']

/-- The segments of a path that say something.  Two dots are such a segment. -/
def names (p : Path) : List Text :=
  (segments p).filter (!isIdle ·)

/-! ## Segments -/

theorem segments_eq (p : Path) : segments p = p.splitOnP (· == '/') :=
  Text.splitOn_singleton '/' p

theorem segments_ne_nil (p : Path) : segments p ≠ [] := by
  rw [segments_eq]
  exact List.splitOnP_ne_nil _ p

theorem slash_not_mem_of_mem_segments {p : Path} {s : Text} (h : s ∈ segments p) : '/' ∉ s := by
  rw [segments_eq] at h
  intro hslash
  have hnot := (Text.mem_splitOnP h '/' hslash).2
  simp at hnot

theorem segments_ofSegments {l : List Text} (hl : ∀ s ∈ l, '/' ∉ s) (hne : l ≠ []) :
    segments (ofSegments l) = l := by
  rw [segments_eq, ← List.splitOn_eq_splitOnP]
  exact List.splitOn_intercalate '/' hl hne

theorem segments_append_slash (p : Path) (s : Text) :
    segments (p ++ '/' :: s) = segments p ++ segments s := by
  rw [segments_eq, List.splitOnP_append_cons p s rfl, segments_eq, segments_eq]

theorem segments_of_not_mem {s : Text} (hs : '/' ∉ s) : segments s = [s] := by
  rw [segments_eq]
  apply List.splitOnP_eq_singleton
  intro c hc
  simpa using fun heq : c = '/' => hs (heq ▸ hc)

-- A name in a directory is the last segment, behind those of the directory or all of these but an
-- empty last one.
theorem segments_join (q : Path) {name : Text} (hname : '/' ∉ name) :
    ∃ front, segments (join q name) = front ++ [name] ∧ front.filter (!isIdle ·) = names q := by
  rcases List.eq_nil_or_concat' q with rfl | ⟨q, c, rfl⟩
  · exact ⟨[], segments_of_not_mem hname, rfl⟩
  · by_cases hc : c = '/'
    · subst hc
      have hjoin : join (q ++ ['/']) name = q ++ '/' :: name := by simp [join]
      refine ⟨segments q, ?_, ?_⟩
      · rw [hjoin, segments_append_slash, segments_of_not_mem hname]
      · rw [names, segments_append_slash, List.filter_append]
        exact (List.append_nil _).symm
    · have hjoin : join (q ++ [c]) name = (q ++ [c]) ++ '/' :: name := by simp [join]
      refine ⟨segments (q ++ [c]), ?_, rfl⟩
      rw [hjoin, segments_append_slash, segments_of_not_mem hname]

/-! ## Absolute paths -/

theorem ofSegments_singleton (s : Text) : ofSegments [s] = s := by
  simp [ofSegments, List.intercalate]

theorem head?_append_ne_slash {s : Text} (hs : '/' ∉ s) (hne : s ≠ []) (t : Text) :
    (s ++ t).head? ≠ some '/' := by
  obtain ⟨c, s, rfl⟩ := List.exists_cons_of_ne_nil hne
  intro heq
  rw [List.cons_append, List.head?_cons] at heq
  exact hs (Option.some.inj heq ▸ List.mem_cons_self)

-- A path is absolute if its first segment is empty and not the only one.
theorem head?_ofSegments {first : Text} (hfirst : '/' ∉ first) (rest : List Text) :
    (ofSegments (first :: rest)).head? = some '/' ↔ first = [] ∧ rest ≠ [] := by
  by_cases hne : first = []
  · subst hne
    cases rest with
    | nil => exact iff_of_false nofun fun h => h.2 rfl
    | cons s rest =>
      rw [← List.singleton_append, ofSegments_append _ _ (by simp) (by simp), ofSegments_singleton]
      exact iff_of_true rfl ⟨rfl, by simp⟩
  · refine iff_of_false ?_ fun h => hne h.1
    cases rest with
    | nil =>
      rw [ofSegments_singleton, ← List.append_nil first]
      exact head?_append_ne_slash hfirst hne []
    | cons s rest =>
      rw [← List.singleton_append, ofSegments_append _ _ (by simp) (by simp), ofSegments_singleton]
      exact head?_append_ne_slash hfirst hne _

theorem head?_join (q : Path) {name : Text} (hname : name.head? ≠ some '/') :
    (join q name).head? = some '/' ↔ q.head? = some '/' := by
  cases q with
  | nil => simpa [join] using hname
  | cons c q =>
    have hjoin : ∃ t, join (c :: q) name = c :: t := by
      unfold join
      split
      · next h => simp at h
      · exact ⟨_, rfl⟩
      · exact ⟨_, rfl⟩
    obtain ⟨t, ht⟩ := hjoin
    rw [ht]
    rfl

/-! ## Parents -/

theorem names_eq {p first : Text} {rest : List Text} (hs : segments p = first :: rest) :
    names p = [first].filter (!isIdle ·) ++ (dropEndWhile isIdle rest).filter (!isIdle ·) := by
  rw [names, hs, filter_dropEndWhile, ← List.filter_append, List.singleton_append]

/-- Only the empty path and the spellings of the root have no parent. -/
theorem parent?_eq_none_iff {p : Path} :
    parent? p = none ↔ names p = [] ∧ (p = [] ∨ p.head? = some '/') := by
  obtain ⟨first, rest, hs⟩ := List.exists_cons_of_ne_nil (segments_ne_nil p)
  have hfirst : '/' ∉ first := slash_not_mem_of_mem_segments (by rw [hs]; exact List.mem_cons_self)
  have hp : p = ofSegments (first :: rest) := by rw [← hs, ofSegments_segments]
  have hstart : p = [] ∨ p.head? = some '/' ↔ first = [] := by
    rw [hp, head?_ofSegments hfirst]
    constructor
    · rintro (hnil | ⟨hnil, -⟩)
      · have hle := length_le_ofSegments (List.mem_cons_self (a := first) (l := rest))
        rw [hnil] at hle
        exact List.length_eq_zero_iff.mp (Nat.le_zero.mp hle)
      · exact hnil
    · rintro rfl
      cases rest with
      | nil => exact .inl rfl
      | cons s rest => exact .inr ⟨rfl, List.cons_ne_nil s rest⟩
  have hnames : names p = [] ↔ isIdle first = true ∧ dropEndWhile isIdle rest = [] := by
    rw [names, hs, List.filter_eq_nil_iff, List.forall_mem_cons, dropEndWhile_eq_nil_iff]
    simp
  rw [hstart, hnames, parent?, hs]
  cases hrest : dropEndWhile isIdle rest with
  | nil =>
    -- the parent of a first segment alone is the empty path
    cases first with
    | nil => simp [isIdle, hrest]
    | cons c first => simp [hrest]
  | cons s components =>
    refine iff_of_false ?_ fun h => List.cons_ne_nil s components h.1.2
    simp only [hrest]
    split
    · exact Option.some_ne_none _
    · exact Option.some_ne_none _

theorem exists_parent? {p : Path} (hp : p.names ≠ []) : ∃ q, parent? p = some q := by
  apply Option.ne_none_iff_exists'.mp
  intro hnone
  exact hp (parent?_eq_none_iff.mp hnone).1

/-- The parent of a path has its names but the last, and is absolute if the path is. -/
theorem names_parent? {p q : Path} (h : parent? p = some q) :
    names q = (names p).dropLast ∧ (q.head? = some '/' ↔ p.head? = some '/') := by
  obtain ⟨first, rest, hs, hcases⟩ := parent?_cases h
  have hslash : ∀ s ∈ first :: rest, '/' ∉ s := by
    intro s hmem
    rw [← hs] at hmem
    exact slash_not_mem_of_mem_segments hmem
  have hfirst : '/' ∉ first := hslash first List.mem_cons_self
  have habs : p.head? = some '/' ↔ first = [] ∧ rest ≠ [] := by
    rw [← ofSegments_segments p, hs, head?_ofSegments hfirst]
  rw [habs, names_eq hs]
  obtain ⟨hnil, hne, rfl⟩ | ⟨front, last, hlast, hidle, hcases⟩ := hcases
  · -- only the first segment can say something, and nothing is left of it
    refine ⟨?_, iff_of_false nofun fun habs => hne habs.1⟩
    rw [hnil, List.filter_singleton]
    cases isIdle first <;> rfl
  · have hrest : rest ≠ [] := by
      rintro rfl
      exact List.append_ne_nil_of_right_ne_nil front (List.cons_ne_nil last []) hlast.symm
    have hkeep : [last].filter (!isIdle ·) = [last] := by simp [hidle]
    rw [hlast, List.filter_append, hkeep, ← List.append_assoc, List.dropLast_concat,
      ← filter_dropEndWhile isIdle front]
    obtain ⟨habove, rfl, rfl⟩ | ⟨habove, hne, rfl⟩ | ⟨habove, rfl⟩ := hcases
    · rw [habove]
      exact ⟨rfl, iff_of_true rfl ⟨rfl, hrest⟩⟩
    · rw [habove, names, segments_of_not_mem hfirst]
      refine ⟨(List.append_nil _).symm, iff_of_false ?_ fun habs => hne habs.1⟩
      rw [← List.append_nil q]
      exact head?_append_ne_slash hfirst hne []
    · have hsub : dropEndWhile isIdle front ⊆ rest := by
        intro s hmem
        apply dropEndWhile_subset isIdle rest
        rw [hlast]
        exact List.mem_append_left _ (dropEndWhile_subset isIdle front hmem)
      have hall : ∀ s ∈ first :: dropEndWhile isIdle front, '/' ∉ s :=
        List.forall_mem_cons.mpr ⟨hfirst, fun s hmem =>
          hslash s (List.mem_cons_of_mem _ (hsub hmem))⟩
      rw [names, segments_ofSegments hall (by simp), head?_ofSegments hfirst,
        ← List.filter_append, List.singleton_append]
      exact ⟨rfl, fun habs => ⟨habs.1, hrest⟩, fun habs => ⟨habs.1, habove⟩⟩

/-- An ancestor of a path has the first names of it, and is absolute if the path is. -/
theorem names_of_mem_ancestors {p q : Path} (h : q ∈ ancestors p) :
    names q <+: names p ∧ (q.head? = some '/' ↔ p.head? = some '/') := by
  induction hn : p.length using Nat.strong_induction_on generalizing p with
  | h n ih =>
    rw [ancestors_eq] at h
    rcases List.mem_cons.mp h with rfl | h
    · exact ⟨List.prefix_rfl, Iff.rfl⟩
    · cases hparent : parent? p with
      | none =>
        rw [hparent] at h
        cases h
      | some r =>
        rw [hparent] at h
        obtain ⟨hnames, habs⟩ := names_parent? hparent
        obtain ⟨hpre, hiff⟩ := ih r.length (hn ▸ length_parent?_lt hparent) h rfl
        rw [hnames] at hpre
        exact ⟨hpre.trans (List.dropLast_prefix _), hiff.trans habs⟩

end SignatureLine.Path
