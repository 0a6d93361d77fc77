import Mathlib.Data.List.Dedup
import Mathlib.Data.List.Perm.Basic
import SignatureLine.Proofs.Text.Fragments
import SignatureLine.Proofs.Text.Runs

/-!
# The order of delimiters

Delimiters that share no characters may change places and be repeated: an occurrence of one is never
touched by cutting at another.  Delimiters of one character cut a text into its maximal runs of the
other characters.
-/

namespace SignatureLine.Text

variable {d e s t u : Text}

/-! ## Up to the first occurrence -/

/-- No occurrence of the delimiter in `u ++ t` begins in `u`. -/
def NoneBegins (d : Text) : Text → Text → Prop
  | [], _ => True
  | c :: u, t => ¬ d <+: c :: (u ++ t) ∧ NoneBegins d u t

theorem NoneBegins.mono {t' : Text} (h : NoneBegins d u t) (ht : t' <+: t) :
    NoneBegins d u t' := by
  induction u with
  | nil => trivial
  | cons c u ih =>
    refine ⟨fun hpre => h.1 (hpre.trans ?_), ih h.2⟩
    exact List.cons_prefix_cons.mpr ⟨rfl, (List.prefix_append_right_inj u).mpr ht⟩

-- A delimiter does not begin in a text with which it shares no character.
theorem noneBegins_of_disjoint (he : e ≠ []) (h : d.Disjoint e) (t : Text) : NoneBegins e d t := by
  induction d with
  | nil => trivial
  | cons c d ih =>
    obtain ⟨hc, hd⟩ := List.disjoint_cons_left.mp h
    refine ⟨fun hpre => ?_, ih hd⟩
    obtain ⟨b, e, rfl⟩ := List.exists_cons_of_ne_nil he
    obtain ⟨rfl, -⟩ := List.cons_prefix_cons.mp hpre
    exact hc List.mem_cons_self

theorem NoneBegins.append {v : Text} (hu : NoneBegins d u (v ++ t)) (hv : NoneBegins d v t) :
    NoneBegins d (u ++ v) t := by
  induction u with
  | nil => exact hv
  | cons c u ih =>
    refine ⟨?_, ih hu.2⟩
    show ¬ d <+: c :: (u ++ v ++ t)
    rw [List.append_assoc]
    exact hu.1

theorem splitFrom_append (h : NoneBegins d u t) :
    splitFrom d 0 (u ++ t) = (splitFrom d 0 t).modifyHead (u ++ ·) := by
  induction u with
  | nil => exact (congrFun List.modifyHead_id _).symm
  | cons c u ih =>
    rw [List.cons_append, splitFrom, if_neg (by rw [List.isPrefixOf_iff_prefix]; exact h.1), ih h.2,
      List.modifyHead_modifyHead]
    rfl

theorem splitFrom_length_append (d u t : Text) :
    splitFrom d u.length (u ++ t) = splitFrom d 0 t := by
  induction u with
  | nil => rfl
  | cons c u ih => exact ih

theorem splitFrom_delimiter_append (hd : d ≠ []) (t : Text) :
    splitFrom d 0 (d ++ t) = [] :: splitFrom d 0 t := by
  obtain ⟨c, d, rfl⟩ := List.exists_cons_of_ne_nil hd
  have hpre : (c :: d).isPrefixOf (c :: (d ++ t)) = true :=
    List.isPrefixOf_iff_prefix.mpr (List.prefix_append (c :: d) t)
  rw [List.cons_append, splitFrom, if_pos hpre]
  exact congrArg _ (splitFrom_length_append (c :: d) d t)

-- Where the first occurrence of either of two delimiters begins.
theorem noneBegins_cases (d e s : Text) :
    (NoneBegins d s [] ∧ NoneBegins e s []) ∨
      ∃ u t, NoneBegins d u t ∧ NoneBegins e u t ∧ s = u ++ t ∧ (d <+: t ∨ e <+: t) := by
  induction s with
  | nil => exact .inl ⟨trivial, trivial⟩
  | cons c s ih =>
    by_cases hstart : d <+: c :: s ∨ e <+: c :: s
    · exact .inr ⟨[], c :: s, trivial, trivial, rfl, hstart⟩
    · obtain ⟨hd, he⟩ := not_or.mp hstart
      rcases ih with ⟨hnd, hne⟩ | ⟨u, t, hnd, hne, rfl, hfirst⟩
      · rw [← List.append_nil s] at hd he
        exact .inl ⟨⟨hd, hnd⟩, he, hne⟩
      · exact .inr ⟨c :: u, t, ⟨hd, hnd⟩, ⟨he, hne⟩, rfl, hfirst⟩

/-! ## Two passes -/

theorem splitPass_singleton (hd : d ≠ []) (s : Text) :
    splitPass [s] d = (splitFrom d 0 s).filter (!·.isEmpty) := by
  obtain ⟨c, d, rfl⟩ := List.exists_cons_of_ne_nil hd
  rw [splitPass, List.flatMap_singleton]
  rfl

-- Empty pieces may be dropped before a pass as well as after it.
theorem splitPass_filter (hd : d ≠ []) (pieces : List Text) :
    splitPass (pieces.filter (!·.isEmpty)) d = splitPass pieces d := by
  have hnil : splitPass [[]] d = [] := by rw [splitPass_singleton hd]; rfl
  induction pieces with
  | nil => rfl
  | cons p pieces ih =>
    rw [← List.singleton_append, splitPass_append, List.filter_append, splitPass_append, ih]
    by_cases hp : p = []
    · subst hp
      rw [hnil]
      rfl
    · rw [List.filter_cons_of_pos (by simpa using hp)]
      rfl

theorem splitPass_of_noneBegins (hd : d ≠ []) (h : NoneBegins d s []) :
    splitPass [s] d = [s].filter (!·.isEmpty) := by
  have hs := splitFrom_append h
  rw [List.append_nil] at hs
  rw [splitPass_singleton hd, hs]
  simp [splitFrom]

theorem splitPass_append_delimiter (hd : d ≠ []) (h : NoneBegins d u (d ++ t)) :
    splitPass [u ++ (d ++ t)] d = [u].filter (!·.isEmpty) ++ splitPass [t] d := by
  rw [splitPass_singleton hd, splitFrom_append h, splitFrom_delimiter_append hd,
    List.modifyHead_cons, List.append_nil, splitPass_singleton hd, ← List.filter_append,
    List.singleton_append]

-- Behind an occurrence of `d` both orders go on alike: no occurrence of `e` reaches into it.
theorem splitPass_splitPass_append (hd : d ≠ []) (he : e ≠ []) (h : d.Disjoint e)
    (hud : NoneBegins d u (d ++ t)) (hue : NoneBegins e u (d ++ t)) :
    splitPass (splitPass [u ++ (d ++ t)] d) e =
        [u].filter (!·.isEmpty) ++ splitPass (splitPass [t] d) e ∧
      splitPass (splitPass [u ++ (d ++ t)] e) d =
        [u].filter (!·.isEmpty) ++ splitPass (splitPass [t] e) d := by
  constructor
  · have hu : NoneBegins e u [] := hue.mono List.nil_prefix
    rw [splitPass_append_delimiter hd hud, splitPass_append, splitPass_filter he,
      splitPass_of_noneBegins he hu]
  · -- the piece of `t` before its first `e` is joined to `u` and `d`, and cut off again at `d`
    obtain ⟨first, rest, ht⟩ := List.exists_cons_of_ne_nil (splitFrom_ne_nil e 0 t)
    have hfirst : d ++ first <+: d ++ t :=
      (List.prefix_append_right_inj d).mpr (prefix_of_splitFrom_eq_cons ht)
    have hlong : NoneBegins e (u ++ d) t := hue.append (noneBegins_of_disjoint he h t)
    have hpieces : splitFrom e 0 (u ++ (d ++ t)) = (u ++ (d ++ first)) :: rest := by
      rw [← List.append_assoc, splitFrom_append hlong, ht, List.modifyHead_cons, List.append_assoc]
    rw [splitPass_singleton he, hpieces, splitPass_filter hd, ← List.singleton_append,
      splitPass_append, splitPass_append_delimiter hd (hud.mono hfirst), List.append_assoc,
      ← splitPass_append, List.singleton_append, ← ht, splitPass_singleton he, splitPass_filter hd]

theorem splitPass_comm_singleton (hd : d ≠ []) (he : e ≠ []) (h : d.Disjoint e) (s : Text) :
    splitPass (splitPass [s] d) e = splitPass (splitPass [s] e) d := by
  induction hn : s.length using Nat.strong_induction_on generalizing s with
  | h n ih =>
    rcases noneBegins_cases d e s with ⟨hsd, hse⟩ | ⟨u, t, hud, hue, rfl, hfirst⟩
    · rw [splitPass_of_noneBegins hd hsd, splitPass_of_noneBegins he hse, splitPass_filter he,
        splitPass_filter hd, splitPass_of_noneBegins hd hsd, splitPass_of_noneBegins he hse]
    · rcases hfirst with ⟨t, rfl⟩ | ⟨t, rfl⟩
      · obtain ⟨hleft, hright⟩ := splitPass_splitPass_append hd he h hud hue
        have hpos := List.length_pos_iff.mpr hd
        rw [hleft, hright, ih t.length (by simp only [← hn, List.length_append]; omega) t rfl]
      · obtain ⟨hleft, hright⟩ := splitPass_splitPass_append he hd h.symm hue hud
        have hpos := List.length_pos_iff.mpr he
        rw [hleft, hright, ih t.length (by simp only [← hn, List.length_append]; omega) t rfl]

theorem splitPass_comm (hd : d ≠ []) (he : e ≠ []) (h : d.Disjoint e) (fragments : List Text) :
    splitPass (splitPass fragments d) e = splitPass (splitPass fragments e) d := by
  induction fragments with
  | nil => rfl
  | cons f fragments ih =>
    rw [← List.singleton_append, splitPass_append, splitPass_append, splitPass_append,
      splitPass_append, ih, splitPass_comm_singleton hd he h]

theorem splitPass_splitPass (fragments : List Text) (d : Text) :
    splitPass (splitPass fragments d) d = splitPass fragments d := by
  apply splitPass_eq_self
  intro f hf
  obtain ⟨⟨g, -, hg⟩, hne⟩ := mem_splitPass_iff.mp hf
  exact ⟨hne, (mem_splitOn hg hne).2⟩

/-! ## Folds over a set -/

section Fold

variable {α β : Type} [DecidableEq α] {step : β → α → β} {l m : List α}

theorem foldl_dedup (hcomm : ∀ a ∈ l, ∀ b ∈ l, ∀ z, step (step z a) b = step (step z b) a)
    (hidem : ∀ a ∈ l, ∀ z, step (step z a) a = step z a) (z : β) :
    l.dedup.foldl step z = l.foldl step z := by
  induction l generalizing z with
  | nil => rfl
  | cons a l ih =>
    have hcommTail : ∀ b ∈ l, ∀ c ∈ l, ∀ z, step (step z b) c = step (step z c) b :=
      fun b hb c hc => hcomm b (List.mem_cons_of_mem a hb) c (List.mem_cons_of_mem a hc)
    have ih := ih hcommTail fun b hb => hidem b (List.mem_cons_of_mem a hb)
    by_cases ha : a ∈ l
    · -- the other `a` can be brought to the front, where two of them are as good as one
      have hperm : l.Perm (a :: l.erase a) := List.perm_cons_erase ha
      rw [List.dedup_cons_of_mem ha, ih, List.foldl_cons, hperm.foldl_eq' hcommTail z,
        hperm.foldl_eq' hcommTail (step z a), List.foldl_cons, List.foldl_cons,
        hidem a List.mem_cons_self]
    · rw [List.dedup_cons_of_notMem ha, List.foldl_cons, List.foldl_cons, ih]

-- If the steps commute and a second one of a kind does nothing, the members alone matter.
theorem foldl_eq_of_mem_iff
    (hcomm : ∀ a ∈ l, ∀ b ∈ l, ∀ z, step (step z a) b = step (step z b) a)
    (hidem : ∀ a ∈ l, ∀ z, step (step z a) a = step z a) (h : ∀ a, a ∈ l ↔ a ∈ m) (z : β) :
    l.foldl step z = m.foldl step z := by
  have hperm : l.dedup.Perm m.dedup := by
    rw [List.perm_ext_iff_of_nodup l.nodup_dedup m.nodup_dedup]
    intro a
    rw [List.mem_dedup, List.mem_dedup, h]
  rw [← foldl_dedup hcomm hidem, ← foldl_dedup (l := m)]
  · apply hperm.foldl_eq'
    intro a ha b hb
    exact hcomm a (List.mem_dedup.mp ha) b (List.mem_dedup.mp hb)
  · intro a ha b hb
    exact hcomm a ((h a).mpr ha) b ((h b).mpr hb)
  · intro a ha
    exact hidem a ((h a).mpr ha)

end Fold

/-! ## Delimiters of one character -/

theorem flatMap_splitOnP (p q : Char → Bool) (s : Text) :
    (s.splitOnP p).flatMap (List.splitOnP q) = s.splitOnP fun c => p c || q c := by
  induction s with
  | nil => rfl
  | cons c s ih =>
    obtain ⟨first, rest, hs⟩ := List.exists_cons_of_ne_nil (List.splitOnP_ne_nil p s)
    simp only [List.splitOnP_cons_eq_if_modifyHead, ← ih, hs]
    by_cases hp : p c = true
    · simp [hp]
    · by_cases hq : q c = true
      · simp [hp, hq, List.splitOnP_cons_eq_if_modifyHead]
      · obtain ⟨piece, pieces, hfirst⟩ :=
          List.exists_cons_of_ne_nil (List.splitOnP_ne_nil q first)
        simp [hp, hq, List.splitOnP_cons_eq_if_modifyHead, hfirst]

theorem splitPass_wordsBy (p : Char → Bool) (s : Text) (c : Char) :
    splitPass (wordsBy p s) [c] = wordsBy (fun a => p a || a == c) s := by
  rw [wordsBy, splitPass_filter (List.cons_ne_nil c []), splitPass, wordsBy,
    ← flatMap_splitOnP p (· == c)]
  exact congrArg _ (List.flatMap_congr fun piece _ => splitOn_singleton c piece)

theorem foldl_splitPass_wordsBy (p : Char → Bool) (s : Text) (cs : List Char) :
    (cs.map ([·])).foldl splitPass (wordsBy p s) = wordsBy (fun a => p a || cs.contains a) s := by
  induction cs generalizing p with
  | nil => simp
  | cons c cs ih =>
    rw [List.map_cons, List.foldl_cons, splitPass_wordsBy, ih]
    simp only [List.contains_cons, Bool.or_assoc]

/-! ## Delimiters as a set -/

/-- No delimiter is empty, and two different ones share no character. -/
structure Unrelated (ds : List Text) : Prop where
  ne_nil : ∀ d ∈ ds, d ≠ []
  disjoint : ∀ d ∈ ds, ∀ e ∈ ds, d ≠ e → d.Disjoint e

/-- The order of unrelated delimiters does not matter, nor how often each of them is given; and the
fragments that delimiters of one character leave are the maximal runs of all other characters. -/
theorem splitByDelimiters_eq_of_mem_iff (s : Text) :
    (∀ ds es : List Text, Unrelated ds → (∀ d, d ∈ ds ↔ d ∈ es) →
        splitByDelimiters s ds = splitByDelimiters s es) ∧
      ∀ cs : List Char, cs ≠ [] →
        splitByDelimiters s (cs.map ([·])) = runsOf (fun c => cs.contains c) s := by
  constructor
  · intro ds es hds hmem
    apply foldl_eq_of_mem_iff _ (fun d _ fragments => splitPass_splitPass fragments d) hmem
    intro d hd e he fragments
    by_cases heq : d = e
    · rw [heq]
    · have hdisjoint := hds.disjoint d hd e he heq
      exact splitPass_comm (hds.ne_nil d hd) (hds.ne_nil e he) hdisjoint fragments
  · intro cs hcs
    obtain ⟨c, cs, rfl⟩ := List.exists_cons_of_ne_nil hcs
    have hfirst : splitPass [s] [c] = wordsBy (· == c) s := splitByDelimiters_singleton s c
    rw [splitByDelimiters, List.map_cons, List.foldl_cons, hfirst, foldl_splitPass_wordsBy,
      wordsBy_eq_runsOf]
    simp only [List.contains_cons]

-- A run of five `a` holds two occurrences of the first delimiter and one `a` more.  The second way
-- of giving the delimiters repeats one, and the third list is of single characters.
theorem splitByDelimiters_eq_of_mem_iff_runs :
    Unrelated ["aa".toList, ";".toList] ∧
      splitByDelimiters "x;aaaaa;;y".toList [";".toList, "aa".toList, ";".toList] =
        [['x'], ['a'], ['y']] ∧
      splitByDelimiters "x;aaaaa;;y".toList [['a'], [';']] =
        runsOf (fun c => ['a', ';'].contains c) "x;aaaaa;;y".toList := by
  have hunrelated : Unrelated ["aa".toList, ";".toList] := ⟨by decide, by simp⟩
  obtain ⟨hset, hruns⟩ := splitByDelimiters_eq_of_mem_iff "x;aaaaa;;y".toList
  have hfragments : splitByDelimiters "x;aaaaa;;y".toList ["aa".toList, ";".toList] =
      [['x'], ['a'], ['y']] := by
    decide +kernel
  refine ⟨hunrelated, ?_, hruns ['a', ';'] (List.cons_ne_nil _ _)⟩
  rw [← hset _ [";".toList, "aa".toList, ";".toList] hunrelated (by grind), hfragments]

end SignatureLine.Text
