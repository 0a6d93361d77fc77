import Mathlib.Data.List.Infix
import Mathlib.Data.List.Induction
import SignatureLine.Text.Split.Lemmas

/-!
# Fragments and gaps

Splitting by delimiters loses nothing: the text is its fragments with gaps before, between and
behind them, and the gaps are made of delimiters.  No fragment can be cut further by any of the
delimiters, so cutting again changes nothing.
-/

namespace SignatureLine.Text

variable {d s f g gap : Text} {ds pieces fragments : List Text}

/-! ## One pass -/

-- Each fragment is cut on its own.
theorem splitPass_eq_flatMap (fragments : List Text) (d : Text) :
    splitPass fragments d = fragments.flatMap fun f => splitPass [f] d := by
  unfold splitPass
  simp only [List.flatMap_singleton, List.filter_flatMap]

theorem splitPass_append (fragments others : List Text) (d : Text) :
    splitPass (fragments ++ others) d = splitPass fragments d ++ splitPass others d := by
  rw [splitPass, List.flatMap_append, List.filter_append]
  rfl

theorem mem_splitPass_iff :
    f ∈ splitPass fragments d ↔ (∃ g ∈ fragments, f ∈ splitOn d g) ∧ f ≠ [] := by
  simp [splitPass]

theorem splitByDelimiters_concat (s : Text) (ds : List Text) (d : Text) :
    splitByDelimiters s (ds ++ [d]) = splitPass (splitByDelimiters s ds) d :=
  List.foldl_concat splitPass [s] d ds

/-! ## Rows of delimiters and fragments -/

/-- The text is one member of `ds` after the other, or empty. -/
def MadeOf (ds : List Text) (gap : Text) : Prop :=
  ∃ members : List Text, (∀ d ∈ members, d ∈ ds) ∧ gap = members.flatten

theorem madeOf_nil (ds : List Text) : MadeOf ds [] :=
  ⟨[], by simp, rfl⟩

theorem MadeOf.append_left (hd : d ∈ ds) (h : MadeOf ds gap) : MadeOf ds (d ++ gap) := by
  obtain ⟨members, hmembers, rfl⟩ := h
  exact ⟨d :: members, List.forall_mem_cons.mpr ⟨hd, hmembers⟩, rfl⟩

/-- A text is a row of delimiters and of the given fragments, where at least one delimiter stands
between two fragments.  `behind` tells whether a fragment stands directly before the text. -/
inductive Row (ds : List Text) : Bool → Text → List Text → Prop
  | nil (behind : Bool) : Row ds behind [] []
  | delimiter (behind : Bool) {d s : Text} {fragments : List Text} (hd : d ∈ ds)
      (rest : Row ds false s fragments) : Row ds behind (d ++ s) fragments
  | fragment (f : Text) {s : Text} {fragments : List Text} (rest : Row ds true s fragments) :
      Row ds false (f ++ s) (f :: fragments)

namespace Row

variable {behind : Bool} {t : Text} {others : List Text}

theorem of_behind (h : Row ds true s fragments) : Row ds behind s fragments := by
  cases h with
  | nil => exact .nil behind
  | delimiter _ hd rest => exact .delimiter behind hd rest

theorem append (h : Row ds behind s fragments) (ht : Row ds true t others) :
    Row ds behind (s ++ t) (fragments ++ others) := by
  induction h with
  | nil behind => exact ht.of_behind
  | delimiter behind hd _ ih =>
    rw [List.append_assoc]
    exact .delimiter behind hd ih
  | fragment f _ ih =>
    rw [List.append_assoc, List.cons_append]
    exact .fragment f ih

-- A fragment may be replaced by a row of its own.
theorem flatMap {cut : Text → List Text} (h : Row ds behind s fragments)
    (hcut : ∀ f ∈ fragments, Row ds false f (cut f)) : Row ds behind s (fragments.flatMap cut) := by
  induction h with
  | nil behind => exact .nil behind
  | delimiter behind hd _ ih => exact .delimiter behind hd (ih hcut)
  | fragment f _ ih =>
    obtain ⟨hf, hrest⟩ := List.forall_mem_cons.mp hcut
    exact hf.append (ih hrest)

theorem of_intercalate (hd : d ∈ ds) (hne : pieces ≠ []) :
    Row ds false (d.intercalate pieces) (pieces.filter (!·.isEmpty)) := by
  -- an empty piece is no fragment, and adds nothing to the text
  have hpiece : ∀ {p t : Text} {fragments : List Text}, Row ds true t fragments →
      Row ds false (p ++ t) (([p].filter (!·.isEmpty)) ++ fragments) := by
    intro p t fragments h
    by_cases hp : p = []
    · subst hp
      exact h.of_behind
    · rw [List.filter_cons_of_pos (by simpa using hp)]
      exact .fragment p h
  induction pieces with
  | nil => exact absurd rfl hne
  | cons p pieces ih =>
    cases pieces with
    | nil => simpa [List.intercalate] using hpiece (p := p) (.nil true)
    | cons q pieces =>
      rw [List.intercalate_cons_cons, List.append_assoc,
        show p :: q :: pieces = [p] ++ q :: pieces from rfl, List.filter_append]
      exact hpiece (.delimiter true hd (ih (List.cons_ne_nil q pieces)))

end Row

-- A pass keeps the row, as long as its delimiter is one of `ds`.
theorem Row.splitPass (hd : d ∈ ds) (h : Row ds false s fragments) :
    Row ds false s (splitPass fragments d) := by
  rw [splitPass_eq_flatMap]
  apply h.flatMap
  intro f _
  have hrow := Row.of_intercalate hd (splitOn_ne_nil d f)
  rwa [intercalate_splitOn, ← List.flatMap_singleton (splitOn d) f] at hrow

theorem row_splitByDelimiters (s : Text) {es : List Text} (hes : ∀ d ∈ es, d ∈ ds) :
    Row ds false s (splitByDelimiters s es) := by
  induction es using List.reverseRecOn with
  | nil =>
    have hrow : Row ds false (s ++ []) [s] := .fragment s (.nil true)
    rwa [List.append_nil] at hrow
  | append_singleton es d ih =>
    obtain ⟨hmem, hd⟩ := List.forall_mem_append.mp hes
    rw [splitByDelimiters_concat]
    exact (ih hmem).splitPass (hd d List.mem_cons_self)

-- What stands between the fragments of a row, read off it from the end.
theorem Row.exists_gaps {behind : Bool} (h : Row ds behind s fragments) :
    ∃ first rest, rest.length = fragments.length ∧
      s = first ++ (List.zipWith (· ++ ·) fragments rest).flatten ∧
      (∀ gap ∈ first :: rest, MadeOf ds gap) ∧
      ([] ∉ ds →
        (behind = true → fragments ≠ [] → first ≠ []) ∧ ∀ gap ∈ rest.dropLast, gap ≠ []) := by
  induction h with
  | nil => exact ⟨[], [], rfl, rfl, by simpa using madeOf_nil ds, by simp⟩
  | @delimiter behind d s fragments hd _ ih =>
    obtain ⟨first, rest, hlength, rfl, hgaps, hinner⟩ := ih
    obtain ⟨hfirst, hrest⟩ := List.forall_mem_cons.mp hgaps
    refine ⟨d ++ first, rest, hlength, (List.append_assoc _ _ _).symm,
      List.forall_mem_cons.mpr ⟨hfirst.append_left hd, hrest⟩, fun hds => ⟨fun _ _ hnil => ?_,
        (hinner hds).2⟩⟩
    rw [List.append_eq_nil_iff] at hnil
    exact hds (hnil.1 ▸ hd)
  | @fragment f s fragments _ ih =>
    obtain ⟨first, rest, hlength, rfl, hgaps, hinner⟩ := ih
    refine ⟨[], first :: rest, by simp [hlength], by simp,
      List.forall_mem_cons.mpr ⟨madeOf_nil ds, hgaps⟩, fun hds => ⟨nofun, ?_⟩⟩
    -- the gap behind `f` is an inner one only if another fragment follows
    by_cases hne : rest = []
    · simp [hne]
    · have hfragments : fragments ≠ [] := by
        rintro rfl
        exact hne (List.length_eq_zero_iff.mp hlength)
      rw [List.dropLast_cons_of_ne_nil hne]
      exact List.forall_mem_cons.mpr ⟨(hinner hds).1 rfl hfragments, (hinner hds).2⟩

/-! ## What a delimiter leaves -/

/-- The delimiter cuts nothing off the text: it does not occur there, or, if it is empty, the text
is a single character. -/
def Uncut (d f : Text) : Prop :=
  (d ≠ [] → ¬ d <:+: f) ∧ (d = [] → f.length = 1)

theorem Uncut.mono (h : Uncut d g) (hf : f <:+: g) (hne : f ≠ []) : Uncut d f := by
  refine ⟨fun hd hin => h.1 hd (hin.trans hf), fun hd => ?_⟩
  have hle := hf.length_le
  have hpos := List.length_pos_iff.mpr hne
  have hone := h.2 hd
  omega

theorem prefix_of_splitFrom_eq_cons {rest : List Text} (h : splitFrom d 0 s = f :: rest) :
    f <+: s := by
  induction s generalizing f rest with
  | nil =>
    obtain ⟨rfl, -⟩ := List.cons.inj h
    exact List.prefix_rfl
  | cons c s ih =>
    rw [splitFrom] at h
    by_cases hpre : d.isPrefixOf (c :: s) = true
    · rw [if_pos hpre] at h
      obtain ⟨rfl, -⟩ := List.cons.inj h
      exact List.nil_prefix
    · rw [if_neg hpre] at h
      obtain ⟨first, others, hs⟩ := List.exists_cons_of_ne_nil (splitFrom_ne_nil d 0 s)
      rw [hs, List.modifyHead_cons] at h
      obtain ⟨rfl, -⟩ := List.cons.inj h
      exact List.cons_prefix_cons.mpr ⟨rfl, ih hs⟩

theorem mem_splitFrom (hd : d ≠ []) (skip : Nat) (s : Text) :
    ∀ f ∈ splitFrom d skip s, f <:+: s ∧ ¬ d <:+: f := by
  have hnil : ∀ t : Text, ([] : Text) <:+: t ∧ ¬ d <:+: [] :=
    fun t => ⟨List.nil_infix, fun hin => hd (List.infix_nil.mp hin)⟩
  fun_induction splitFrom d skip s with
  | case1 => exact List.forall_mem_singleton.mpr (hnil [])
  | case2 skip c s ih => exact fun f hf => ⟨List.infix_cons (ih f hf).1, (ih f hf).2⟩
  | case3 c s hpre ih =>
    refine List.forall_mem_cons.mpr ⟨hnil (c :: s), fun f hf => ?_⟩
    exact ⟨List.infix_cons (ih f hf).1, (ih f hf).2⟩
  | case4 c s hnot ih =>
    obtain ⟨first, rest, hs⟩ := List.exists_cons_of_ne_nil (splitFrom_ne_nil d 0 s)
    rw [hs] at ih
    obtain ⟨hfirst, hrest⟩ := List.forall_mem_cons.mp ih
    have hpre : c :: first <+: c :: s :=
      List.cons_prefix_cons.mpr ⟨rfl, prefix_of_splitFrom_eq_cons hs⟩
    have hpart : c :: first <:+: c :: s := hpre.isInfix
    rw [hs, List.modifyHead_cons]
    refine List.forall_mem_cons.mpr ⟨⟨hpart, fun hin => ?_⟩, fun f hf => ?_⟩
    · -- an occurrence at the beginning of the piece is one at the beginning of the text
      rcases List.infix_cons_iff.mp hin with hstart | hin
      · exact hnot (List.isPrefixOf_iff_prefix.mpr (hstart.trans hpre))
      · exact hfirst.2 hin
    · exact ⟨List.infix_cons (hrest f hf).1, (hrest f hf).2⟩

theorem mem_splitOn (h : f ∈ splitOn d s) (hne : f ≠ []) : f <:+: s ∧ Uncut d f := by
  cases d with
  | nil =>
    obtain ⟨c, hc, rfl⟩ : ∃ c ∈ s, [c] = f := by simpa [splitOn, hne] using h
    exact ⟨(List.singleton_infix_iff c s).mpr hc, fun hd => absurd rfl hd, fun _ => rfl⟩
  | cons c d =>
    have hmem := mem_splitFrom (List.cons_ne_nil c d) 0 s f h
    exact ⟨hmem.1, fun _ => hmem.2, fun hnil => absurd hnil (List.cons_ne_nil c d)⟩

theorem splitOn_of_not_infix (hd : d ≠ []) (h : ¬ d <:+: f) : splitOn d f = [f] := by
  obtain ⟨c, d, rfl⟩ := List.exists_cons_of_ne_nil hd
  show splitFrom (c :: d) 0 f = [f]
  induction f with
  | nil => rfl
  | cons b f ih =>
    obtain ⟨hstart, hrest⟩ := not_or.mp (mt List.infix_cons_iff.mpr h)
    rw [splitFrom, if_neg (by rwa [List.isPrefixOf_iff_prefix]), ih hrest, List.modifyHead_cons]

theorem splitPass_singleton_of_uncut (hne : f ≠ []) (h : Uncut d f) : splitPass [f] d = [f] := by
  by_cases hd : d = []
  · obtain ⟨c, rfl⟩ := List.length_eq_one_iff.mp (h.2 hd)
    subst hd
    rfl
  · rw [splitPass, List.flatMap_singleton, splitOn_of_not_infix hd (h.1 hd)]
    exact List.filter_cons_of_pos (by simpa using hne)

theorem splitPass_eq_self (h : ∀ f ∈ fragments, f ≠ [] ∧ Uncut d f) :
    splitPass fragments d = fragments := by
  rw [splitPass_eq_flatMap, List.flatMap_congr (g := fun f => [f]), List.flatMap_singleton']
  intro f hf
  exact splitPass_singleton_of_uncut (h f hf).1 (h f hf).2

-- What a pass has achieved is not undone by the passes after it.
theorem uncut_of_mem_splitByDelimiters (h : f ∈ splitByDelimiters s ds) :
    (ds ≠ [] → f ≠ []) ∧ ∀ d ∈ ds, Uncut d f := by
  induction ds using List.reverseRecOn generalizing f with
  | nil => exact ⟨fun hne => absurd rfl hne, nofun⟩
  | append_singleton ds d ih =>
    rw [splitByDelimiters_concat, mem_splitPass_iff] at h
    obtain ⟨⟨g, hg, hf⟩, hne⟩ := h
    obtain ⟨hin, huncut⟩ := mem_splitOn hf hne
    refine ⟨fun _ => hne, List.forall_mem_append.mpr ⟨fun e he => ?_, ?_⟩⟩
    · exact ((ih hg).2 e he).mono hin hne
    · exact List.forall_mem_singleton.mpr huncut

/-- The fragments with the gaps around them are the text: `first` stands before the first fragment
and each member of `rest` behind one.  Every gap is made of delimiters, no delimiter is left in a
fragment, and splitting the fragments again leaves them as they are. -/
theorem splitByDelimiters_gaps (s : Text) {ds : List Text} (hds : ds ≠ []) :
    let fragments := splitByDelimiters s ds
    (∃ first rest, rest.length = fragments.length ∧
        s = first ++ (List.zipWith (· ++ ·) fragments rest).flatten ∧
        (∀ gap ∈ first :: rest, MadeOf ds gap) ∧
        ([] ∉ ds → ∀ gap ∈ rest.dropLast, gap ≠ [])) ∧
      (∀ f ∈ fragments, f ≠ [] ∧ (∀ d ∈ ds, d ≠ [] → ¬ d <:+: f) ∧ ([] ∈ ds → f.length = 1)) ∧
      ∀ d ∈ ds, splitByDelimiters s (ds ++ [d]) = fragments := by
  intro fragments
  have hrow : Row ds false s fragments := row_splitByDelimiters s fun d hd => hd
  have huncut : ∀ f ∈ fragments, f ≠ [] ∧ ∀ d ∈ ds, Uncut d f :=
    fun f hf => ⟨(uncut_of_mem_splitByDelimiters hf).1 hds, (uncut_of_mem_splitByDelimiters hf).2⟩
  refine ⟨?_, fun f hf => ?_, fun d hd => ?_⟩
  · obtain ⟨first, rest, hlength, hs, hgaps, hinner⟩ := hrow.exists_gaps
    exact ⟨first, rest, hlength, hs, hgaps, fun hnil => (hinner hnil).2⟩
  · obtain ⟨hne, hcut⟩ := huncut f hf
    exact ⟨hne, fun d hd => (hcut d hd).1, fun hnil => (hcut [] hnil).2 rfl⟩
  · rw [splitByDelimiters_concat]
    exact splitPass_eq_self fun f hf => ⟨(huncut f hf).1, (huncut f hf).2 d hd⟩

-- Two occurrences of the first delimiter overlap, and the third one is cut up by the second before
-- its turn comes.
theorem splitByDelimiters_gaps_overlapping :
    let ds := ["aa".toList, [';'], "b;".toList]
    let fragments := [['x'], "ab".toList, ['c']]
    ds ≠ [] ∧
      (∃ first rest, rest.length = fragments.length ∧
        "xaaab;;aac".toList = first ++ (List.zipWith (· ++ ·) fragments rest).flatten ∧
        (∀ gap ∈ first :: rest, MadeOf ds gap) ∧ ∀ gap ∈ rest.dropLast, gap ≠ []) ∧
      ∀ d ∈ ds, splitByDelimiters "xaaab;;aac".toList (ds ++ [d]) = fragments := by
  intro ds fragments
  have hds : ds ≠ [] := List.cons_ne_nil _ _
  have hsplit : splitByDelimiters "xaaab;;aac".toList ds = fragments := by decide +kernel
  obtain ⟨⟨first, rest, hgaps⟩, -, hagain⟩ := splitByDelimiters_gaps "xaaab;;aac".toList hds
  rw [hsplit] at hgaps hagain
  obtain ⟨hlength, hs, hmade, hinner⟩ := hgaps
  exact ⟨hds, ⟨first, rest, hlength, hs, hmade, hinner (by decide)⟩, hagain⟩

end SignatureLine.Text
