import Mathlib.Data.List.SplitBy
import SignatureLine.Proofs.Text.Splitting

/-!
# Runs and longest beginnings

What cutting a text comes to, said without cutting: its words are the maximal runs of characters
that do not separate, and what stands before the first occurrence of a character is the longest
beginning without it.
-/

namespace SignatureLine.Text

variable {p : Char → Bool}

/-! ## Runs -/

/-- The maximal runs of characters of which none satisfies `p`, first to last. -/
def runsOf (p : Char → Bool) (s : Text) : List Text :=
  (s.splitBy fun c d => p c == p d).filter (·.all (!p ·))

-- The characters up to the first one on which `p` changes are a run of their own.
theorem splitBy_append_of_forall {b : Bool} {run rest : Text} (hne : run ≠ [])
    (hrun : ∀ c ∈ run, p c = b) (hrest : ∀ c ∈ rest.head?, p c = !b) :
    (run ++ rest).splitBy (fun c d => p c == p d) =
      run :: rest.splitBy (fun c d => p c == p d) := by
  have hchain : run.IsChain fun c d => (p c == p d) = true := by
    apply List.Pairwise.isChain
    apply List.pairwise_of_forall_mem_list
    intro c hc d hd
    simp [hrun c hc, hrun d hd]
  rw [List.splitBy_append, List.splitBy_of_isChain hne hchain, List.singleton_append]
  intro c hc d hd
  simp [hrun c (List.mem_of_getLast? hc), hrest d hd]

theorem exists_eq_run_append (p : Char → Bool) {s : Text} (hs : s ≠ []) :
    ∃ b run rest, s = run ++ rest ∧ run ≠ [] ∧ (∀ c ∈ run, p c = b) ∧
      ∀ c ∈ rest.head?, p c = !b := by
  obtain ⟨c, s, rfl⟩ := List.exists_cons_of_ne_nil hs
  refine ⟨p c, (c :: s).takeWhile (p · == p c), (c :: s).dropWhile (p · == p c),
    List.takeWhile_append_dropWhile.symm, by simp,
    fun d hd => by simpa using List.mem_takeWhile_imp hd, fun d hd => ?_⟩
  have hnot := List.head?_dropWhile_not (p · == p c) (c :: s)
  rw [Option.mem_def.mp hd] at hnot
  have hne : p d ≠ p c := by simpa using hnot
  exact Bool.eq_not.mpr hne

-- A word in front, before a separating character or the end of the text.
theorem wordsBy_append_of_head {run rest : Text} (hne : run ≠ []) (hrun : ∀ c ∈ run, p c = false)
    (hrest : ∀ c ∈ rest.head?, p c = true) : wordsBy p (run ++ rest) = run :: wordsBy p rest := by
  cases rest with
  | nil =>
    rw [List.append_nil, wordsBy_of_forall hne hrun]
    rfl
  | cons c rest =>
    have hc : p c = true := hrest c rfl
    have hcons : wordsBy p (c :: rest) = wordsBy p rest :=
      wordsBy_append_left (List.forall_mem_singleton.mpr hc) rest
    rw [wordsBy_append_cons hc, wordsBy_of_forall hne hrun, hcons, List.singleton_append]

/-- The words of a text are its maximal runs of characters that do not separate. -/
theorem wordsBy_eq_runsOf (p : Char → Bool) (s : Text) : wordsBy p s = runsOf p s := by
  induction hn : s.length using Nat.strong_induction_on generalizing s with
  | h n ih =>
    by_cases hs : s = []
    · subst hs
      rfl
    · obtain ⟨b, run, rest, rfl, hne, hrun, hrest⟩ := exists_eq_run_append p hs
      have hlt : rest.length < n := by
        have hpos := List.length_pos_iff.mpr hne
        rw [← hn, List.length_append]
        omega
      rw [runsOf, splitBy_append_of_forall hne hrun hrest]
      cases b with
      | true =>
        have hdrop : ¬ run.all (!p ·) = true := by
          obtain ⟨c, run, rfl⟩ := List.exists_cons_of_ne_nil hne
          simp [hrun c List.mem_cons_self]
        rw [wordsBy_append_left hrun, List.filter_cons, if_neg hdrop]
        exact ih _ hlt rest rfl
      | false =>
        have hkeep : run.all (!p ·) = true := by simpa using hrun
        rw [wordsBy_append_of_head hne hrun hrest, List.filter_cons, if_pos hkeep, ih _ hlt rest rfl]
        rfl

/-! ## Longest beginnings -/

/-- The text `u` is the longest beginning of `s` without the character `ch`. -/
structure LongestWithout (ch : Char) (u s : Text) : Prop where
  isPrefix : u <+: s
  not_mem : ch ∉ u
  longest (v : Text) : v <+: s → ch ∉ v → v.length ≤ u.length

theorem longestWithout_takeWhile (ch : Char) (s : Text) :
    LongestWithout ch (s.takeWhile (· != ch)) s where
  isPrefix := List.takeWhile_prefix _
  not_mem hmem := by simpa using List.mem_takeWhile_imp hmem
  longest v hv hch := by
    -- all of `v` is taken
    obtain ⟨t, rfl⟩ := hv
    rw [List.takeWhile_append_of_pos (forall_bne_of_not_mem hch), List.length_append]
    exact Nat.le_add_right _ _

theorem longestWithout_iff {ch : Char} {u s : Text} :
    LongestWithout ch u s ↔ u = s.takeWhile (· != ch) := by
  constructor
  · intro h
    have htake := longestWithout_takeWhile ch s
    have hlength := Nat.le_antisymm (htake.longest u h.isPrefix h.not_mem)
      (h.longest _ htake.isPrefix htake.not_mem)
    have hpre := List.prefix_of_prefix_length_le h.isPrefix htake.isPrefix hlength.le
    exact hpre.eq_of_length hlength
  · rintro rfl
    exact longestWithout_takeWhile ch s

end SignatureLine.Text
