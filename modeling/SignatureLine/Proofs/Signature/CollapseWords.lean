import SignatureLine.Proofs.Signature.Tokens
import SignatureLine.Proofs.Text.DelimiterOrder

/-!
# The words of collapse mode

Collapse mode cuts a text at its runs of blanks, for the tokens of a line after trimming and for the
words of a parameter without the empty pieces.  Both come to what splitting by the space and by the
tab, one after the other, leaves.
-/

namespace SignatureLine

namespace Text

/-! ## Cutting at runs -/

/-- The pieces of a text between its maximal runs of blanks.  No piece holds a blank, between two
pieces there is at least one, and what comes behind a run does not begin with one. -/
inductive BetweenRuns : List Text → Text → Prop
  | last {w : Text} (hw : ∀ c ∈ w, isBlank c = false) : BetweenRuns [w] w
  | cons {w gap s : Text} {pieces : List Text} (hw : ∀ c ∈ w, isBlank c = false) (hne : gap ≠ [])
      (hgap : ∀ c ∈ gap, isBlank c = true) (hs : ∀ c ∈ s.head?, isBlank c = false)
      (rest : BetweenRuns pieces s) : BetweenRuns (w :: pieces) (w ++ (gap ++ s))

theorem splitBlankRuns_append_of_forall {w : Text} (hw : ∀ c ∈ w, isBlank c = false) (s : Text) :
    splitBlankRuns (w ++ s) = (splitBlankRuns s).modifyHead (w ++ ·) := by
  induction w with
  | nil => exact (congrFun List.modifyHead_id _).symm
  | cons c w ih =>
    obtain ⟨hc, hw⟩ := List.forall_mem_cons.mp hw
    have hcons : splitBlankRuns (c :: (w ++ s)) =
        (splitBlankRuns (w ++ s)).modifyHead (c :: ·) := by
      rw [splitBlankRuns, splitRunsFrom, if_neg (by simp [hc])]
      rfl
    rw [List.cons_append, hcons, ih hw, List.modifyHead_modifyHead]
    rfl

-- Within a run nothing is cut off, up to the first character that is no blank.
theorem splitRunsFrom_true_append {gap s : Text} (hgap : ∀ c ∈ gap, isBlank c = true)
    (hs : ∀ c ∈ s.head?, isBlank c = false) :
    splitRunsFrom true (gap ++ s) = splitBlankRuns s := by
  induction gap with
  | nil =>
    cases s with
    | nil => rfl
    | cons c s =>
      have hc : ¬ isBlank c = true := by simp [hs c rfl]
      rw [List.nil_append, splitBlankRuns, splitRunsFrom, splitRunsFrom, if_neg hc, if_neg hc]
  | cons c gap ih =>
    obtain ⟨hc, hgap⟩ := List.forall_mem_cons.mp hgap
    rw [List.cons_append, splitRunsFrom, if_pos hc, if_pos rfl, ih hgap]

theorem splitBlankRuns_run_append {gap s : Text} (hne : gap ≠ [])
    (hgap : ∀ c ∈ gap, isBlank c = true) (hs : ∀ c ∈ s.head?, isBlank c = false) :
    splitBlankRuns (gap ++ s) = [] :: splitBlankRuns s := by
  obtain ⟨c, gap, rfl⟩ := List.exists_cons_of_ne_nil hne
  obtain ⟨hc, hgap⟩ := List.forall_mem_cons.mp hgap
  rw [List.cons_append, splitBlankRuns, splitRunsFrom, if_pos hc, if_neg Bool.false_ne_true,
    splitRunsFrom_true_append hgap hs]

theorem BetweenRuns.splitBlankRuns_eq {pieces : List Text} {s : Text} (h : BetweenRuns pieces s) :
    splitBlankRuns s = pieces := by
  induction h with
  | @last w hw =>
    have happ := splitBlankRuns_append_of_forall hw []
    rw [List.append_nil] at happ
    rw [happ, show splitBlankRuns [] = [[]] from rfl, List.modifyHead_cons, List.append_nil]
  | @cons w gap s pieces hw hne hgap hs _ ih =>
    rw [splitBlankRuns_append_of_forall hw, splitBlankRuns_run_append hne hgap hs, ih,
      List.modifyHead_cons, List.append_nil]

-- A text is a piece, or a piece and a run before a shorter text.
theorem exists_betweenRuns (s : Text) : ∃ pieces, BetweenRuns pieces s := by
  induction hn : s.length using Nat.strong_induction_on generalizing s with
  | h n ih =>
    have hw : ∀ c ∈ s.takeWhile (!isBlank ·), isBlank c = false :=
      fun c hc => by simpa using List.mem_takeWhile_imp hc
    have hs : s = s.takeWhile (!isBlank ·) ++ s.dropWhile (!isBlank ·) :=
      List.takeWhile_append_dropWhile.symm
    by_cases hrest : s.dropWhile (!isBlank ·) = []
    · rw [hrest, List.append_nil] at hs
      rw [← hs] at hw
      exact ⟨[s], .last hw⟩
    · obtain ⟨b, gap, t, ht, hne, hgap, hhead⟩ := exists_eq_run_append isBlank hrest
      obtain ⟨c, gap, rfl⟩ := List.exists_cons_of_ne_nil hne
      -- the run begins where the piece ends, so it is one of blanks
      have hc : isBlank c = true := by
        have hnot := List.head?_dropWhile_not (!isBlank ·) s
        rw [ht, List.cons_append, List.head?_cons] at hnot
        simpa using hnot
      obtain rfl : b = true := by rw [← hgap c List.mem_cons_self, hc]
      rw [ht] at hs
      have hlt : t.length < n := by
        rw [← hn, hs]
        simp only [List.length_append, List.length_cons]
        omega
      obtain ⟨pieces, hpieces⟩ := ih t.length hlt t rfl
      refine ⟨s.takeWhile (!isBlank ·) :: pieces, ?_⟩
      rw [hs, List.takeWhile_append_of_pos fun a ha => by simp [hw a ha],
        List.cons_append, List.takeWhile_cons_of_neg (by simp [hc]), List.append_nil]
      exact .cons hw hne hgap hhead hpieces

/-- The runs of blanks in a text determine the pieces between them. -/
theorem betweenRuns_iff {pieces : List Text} {s : Text} :
    BetweenRuns pieces s ↔ pieces = splitBlankRuns s := by
  constructor
  · intro h
    exact h.splitBlankRuns_eq.symm
  · rintro rfl
    obtain ⟨pieces, h⟩ := exists_betweenRuns s
    rwa [h.splitBlankRuns_eq]

/-! ## Splitting by the two blanks -/

-- Cutting at one blank after the other is cutting at both.
theorem splitByDelimiters_blanks (s : Text) :
    splitByDelimiters s [[' '], ['\t']] = wordsBy isBlank s := by
  have h := foldl_splitPass_wordsBy (· == ' ') s ['\t']
  rw [← splitByDelimiters_singleton] at h
  rw [show splitByDelimiters s [[' '], ['\t']] =
    (['\t'].map ([·])).foldl splitPass (splitByDelimiters s [[' ']]) from rfl, h]
  simp only [List.contains_cons, List.contains_nil, Bool.or_false]
  rfl

theorem splitByDelimiters_blanks_comm (s : Text) :
    splitByDelimiters s [['\t'], [' ']] = splitByDelimiters s [[' '], ['\t']] := by
  have hdisjoint : List.Disjoint [' '] ['\t'] := by simp
  show splitPass (splitPass [s] ['\t']) [' '] = splitPass (splitPass [s] [' ']) ['\t']
  exact (splitPass_comm (List.cons_ne_nil _ _) (List.cons_ne_nil _ _) hdisjoint [s]).symm

end Text

namespace WhitespaceMode

/-- Collapse mode cuts at the maximal runs of blanks.  The tokens of a line, which is trimmed before
it is cut, and the words of a parameter, which is cut as it is, are the same: what is left after
splitting by the space and the tab, in either order; and none of them is empty. -/
theorem collapse_splitByDelimiters (s : Text) :
    (∀ pieces, Text.BetweenRuns pieces s ↔ pieces = Text.splitBlankRuns s) ∧
      collapse.tokens s = Text.splitByDelimiters s [[' '], ['\t']] ∧
      collapse.words s = Text.splitByDelimiters s [[' '], ['\t']] ∧
      Text.splitByDelimiters s [['\t'], [' ']] = Text.splitByDelimiters s [[' '], ['\t']] ∧
      ∀ piece ∈ Text.splitByDelimiters s [[' '], ['\t']], piece ≠ [] := by
  refine ⟨fun pieces => Text.betweenRuns_iff, ?_, ?_, Text.splitByDelimiters_blanks_comm s, ?_⟩
  · rw [tokens_collapse, Text.splitByDelimiters_blanks]
    rfl
  · rw [words_eq, Text.splitByDelimiters_blanks]
    rfl
  · intro piece hpiece
    rw [Text.splitByDelimiters_blanks] at hpiece
    exact (Text.mem_wordsBy hpiece).1

-- Runs of both blanks at the ends, in the middle and around a single character.
example : collapse.tokens "\t a \t b\tc ".toList = [['a'], ['b'], ['c']] := by decide +kernel

end WhitespaceMode

end SignatureLine
