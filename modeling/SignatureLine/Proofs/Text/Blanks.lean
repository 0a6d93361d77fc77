import SignatureLine.Proofs.Text.Splitting
import SignatureLine.Proofs.Text.Trimming

/-!
# Runs of blanks

Cutting a text at its runs of blanks gives its words, and an empty piece for a run at either end.
-/

namespace SignatureLine.Text

theorem isBlank_eq_false {c : Char} (h : isWhitespace c = false) : isBlank c = false := by
  by_contra hb
  rw [isWhitespace_of_isBlank (by simpa using hb)] at h
  exact Bool.noConfusion h

/-! ## Pieces between runs -/

-- Only the first piece can depend on what stands before the text.
theorem splitRunsFrom_words (s : Text) :
    (∀ inRun, (splitRunsFrom inRun s).filter (!·.isEmpty) = wordsBy isBlank s) ∧
      ∃ first runs cuts, splitRunsFrom false s = first :: runs ∧
        s.splitOnP isBlank = first :: cuts ∧
        runs.filter (!·.isEmpty) = cuts.filter (!·.isEmpty) := by
  -- a character in front may join the first piece, which the two cuts therefore share as it is
  induction s with
  | nil => exact ⟨by intro inRun; cases inRun <;> rfl, [], [], [], rfl, rfl, rfl⟩
  | cons c s ih =>
    obtain ⟨hwords, first, runs, cuts, hruns, hcuts, hrest⟩ := ih
    unfold wordsBy at hwords ⊢
    simp only [splitRunsFrom, List.splitOnP_cons_eq_if_modifyHead]
    by_cases hc : isBlank c = true
    · simp only [if_pos hc]
      refine ⟨fun inRun => ?_, [], _, _, rfl, rfl, hwords true⟩
      -- a blank adds at most an empty piece, which is no word
      cases inRun
      · exact hwords true
      · exact hwords true
    · simp only [if_neg hc, hruns, hcuts, List.modifyHead_cons]
      refine ⟨fun inRun => ?_, c :: first, runs, cuts, rfl, rfl, hrest⟩
      rw [List.filter_cons_of_pos rfl, List.filter_cons_of_pos rfl, hrest]

theorem filter_splitBlankRuns (s : Text) :
    (splitBlankRuns s).filter (!·.isEmpty) = wordsBy isBlank s :=
  (splitRunsFrom_words s).1 false

-- If a text does not end in a blank, then no piece is empty but the one before a first run.
theorem splitRunsFrom_ne_nil {s : Text} (hne : s ≠ [])
    (hlast : ∀ c ∈ s.getLast?, isBlank c = false) :
    (∀ piece ∈ splitRunsFrom true s, piece ≠ []) ∧
      ∀ piece ∈ (splitRunsFrom false s).tail, piece ≠ [] := by
  induction s with
  | nil => exact absurd rfl hne
  | cons c s ih =>
    cases s with
    | nil =>
      have hc : ¬ isBlank c = true := by simp [hlast c rfl]
      simp [splitRunsFrom, hc]
    | cons d s =>
      obtain ⟨hin, hout⟩ := ih (List.cons_ne_nil d s) (by simpa using hlast)
      by_cases hc : isBlank c = true
      · have htrue : splitRunsFrom true (c :: d :: s) = splitRunsFrom true (d :: s) := by
          rw [splitRunsFrom, if_pos hc, if_pos rfl]
        have hfalse : splitRunsFrom false (c :: d :: s) = [] :: splitRunsFrom true (d :: s) := by
          rw [splitRunsFrom, if_pos hc, if_neg Bool.false_ne_true]
        rw [htrue, hfalse, List.tail_cons]
        exact ⟨hin, hin⟩
      · obtain ⟨first, runs, _, hruns, -, -⟩ := (splitRunsFrom_words (d :: s)).2
        have hcut : ∀ inRun, splitRunsFrom inRun (c :: d :: s) = (c :: first) :: runs := by
          intro inRun
          rw [splitRunsFrom, if_neg hc, hruns, List.modifyHead_cons]
        rw [hruns, List.tail_cons] at hout
        rw [hcut, hcut, List.tail_cons]
        exact ⟨List.forall_mem_cons.mpr ⟨List.cons_ne_nil _ _, hout⟩, hout⟩

-- The pieces of a text that has no blank at its ends are its words.
theorem splitBlankRuns_of_trimmed {s : Text} (hne : s ≠ []) (hs : Trimmed isBlank s) :
    splitBlankRuns s = wordsBy isBlank s := by
  -- no piece is empty: the first has the first character, and no run is last
  rw [← filter_splitBlankRuns]
  symm
  apply List.filter_eq_self.mpr
  have htail := (splitRunsFrom_ne_nil hne hs.2).2
  cases s with
  | nil => exact absurd rfl hne
  | cons c s =>
    have hc : ¬ isBlank c = true := by simp [hs.1 c rfl]
    obtain ⟨first, runs, _, hruns, -, -⟩ := (splitRunsFrom_words s).2
    have hcons : splitBlankRuns (c :: s) = (c :: first) :: runs := by
      rw [splitBlankRuns, splitRunsFrom, if_neg hc, hruns]
      rfl
    rw [show splitRunsFrom false (c :: s) = splitBlankRuns (c :: s) from rfl, hcons] at htail
    rw [hcons]
    intro piece hpiece
    rcases List.mem_cons.mp hpiece with rfl | hpiece
    · rfl
    · simpa using htail piece hpiece

theorem wordsBy_trimBlanks (s : Text) : wordsBy isBlank (trimBlanks s) = wordsBy isBlank s := by
  obtain ⟨before, after, hbefore, hafter, hs⟩ := exists_eq_append_trimBoth isBlank s
  conv_rhs => rw [hs]
  rw [wordsBy_append_left hbefore, wordsBy_append_right hafter, trimBlanks]

end SignatureLine.Text
