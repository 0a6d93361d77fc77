import Mathlib.Data.List.Basic
import Mathlib.Data.List.TakeWhile
import Mathlib.Data.Nat.Init
import SignatureLine.Text.Split

/-!
# Splitting by a class of characters

Splitting at single characters and at runs of blanks, both as cutting a text wherever a character
has some property.  The words of a text are the pieces of such a cut that are not empty, and a
separating character between two texts separates their words.
-/

namespace SignatureLine.Text

variable {p : Char → Bool}

/-- The pieces of a text between the characters that satisfy `p`, without the empty ones. -/
noncomputable def wordsBy (p : Char → Bool) (s : Text) : List Text :=
  (s.splitOnP p).filter (!·.isEmpty)

/-! ## Pieces -/

theorem splitOnP_append_of_forall {w : Text} (hw : ∀ c ∈ w, p c = false) (s : Text) :
    (w ++ s).splitOnP p = (s.splitOnP p).modifyHead (w ++ ·) := by
  induction w with
  | nil => exact (congrFun List.modifyHead_id _).symm
  | cons c w ih =>
    have hc : ¬ p c = true := by simp [hw c List.mem_cons_self]
    rw [List.cons_append, List.splitOnP_cons_eq_if_modifyHead, if_neg hc,
      ih (fun d hd => hw d (List.mem_cons_of_mem _ hd)), List.modifyHead_modifyHead]
    rfl

-- A text added at the end goes to the last piece, as far as it is not cut itself.
theorem exists_splitOnP_append (p : Char → Bool) (s : Text) :
    ∃ front last, s.splitOnP p = front ++ [last] ∧
      ∀ t : Text, (s ++ t).splitOnP p = front ++ (t.splitOnP p).modifyHead (last ++ ·) := by
  induction s with
  | nil => exact ⟨[], [], rfl, fun t => (congrFun List.modifyHead_id _).symm⟩
  | cons c s ih =>
    obtain ⟨front, last, hs, happ⟩ := ih
    by_cases hc : p c = true
    · refine ⟨[] :: front, last, ?_, fun t => ?_⟩
      · rw [List.splitOnP_cons_eq_if_modifyHead, if_pos hc, hs, List.cons_append]
      · rw [List.cons_append, List.splitOnP_cons_eq_if_modifyHead, if_pos hc, happ,
          List.cons_append]
    · -- the character joins the first piece, which is the last one if there is no other
      cases front with
      | nil =>
        refine ⟨[], c :: last, ?_, fun t => ?_⟩
        · rw [List.splitOnP_cons_eq_if_modifyHead, if_neg hc, hs]
          rfl
        · rw [List.cons_append, List.splitOnP_cons_eq_if_modifyHead, if_neg hc, happ,
            List.nil_append, List.nil_append, List.modifyHead_modifyHead]
          rfl
      | cons first front =>
        refine ⟨(c :: first) :: front, last, ?_, fun t => ?_⟩
        · rw [List.splitOnP_cons_eq_if_modifyHead, if_neg hc, hs]
          rfl
        · rw [List.cons_append, List.splitOnP_cons_eq_if_modifyHead, if_neg hc, happ]
          rfl

theorem mem_splitOnP {s piece : Text} (h : piece ∈ s.splitOnP p) :
    ∀ c ∈ piece, c ∈ s ∧ p c = false := by
  induction s generalizing piece with
  | nil =>
    obtain rfl : piece = [] := by simpa using h
    simp
  | cons d s ih =>
    rw [List.splitOnP_cons_eq_if_modifyHead] at h
    by_cases hd : p d = true
    · rw [if_pos hd] at h
      rcases List.mem_cons.mp h with rfl | h
      · simp
      · exact fun c hc => ⟨List.mem_cons_of_mem _ (ih h c hc).1, (ih h c hc).2⟩
    · rw [if_neg hd] at h
      obtain ⟨first, rest, hs⟩ := List.exists_cons_of_ne_nil (List.splitOnP_ne_nil p s)
      rw [hs] at h ih
      rcases List.mem_cons.mp h with rfl | h
      · intro c hc
        rcases List.mem_cons.mp hc with rfl | hc
        · exact ⟨List.mem_cons_self, by simpa using hd⟩
        · have := ih List.mem_cons_self c hc
          exact ⟨List.mem_cons_of_mem _ this.1, this.2⟩
      · have := fun c hc => ih (List.mem_cons_of_mem _ h) c hc
        exact fun c hc => ⟨List.mem_cons_of_mem _ (this c hc).1, (this c hc).2⟩

-- A text is its first piece, or its first piece and a text behind a cut.
theorem splitOnP_cases (p : Char → Bool) (s : Text) :
    (s.splitOnP p = [s] ∧ ∀ c ∈ s, p c = false) ∨
      ∃ w c t, s = w ++ c :: t ∧ (∀ d ∈ w, p d = false) ∧ p c = true ∧
        s.splitOnP p = w :: t.splitOnP p := by
  have hw : ∀ c ∈ s.takeWhile (!p ·), p c = false :=
    fun c hc => by simpa using List.mem_takeWhile_imp hc
  have hs : s = s.takeWhile (!p ·) ++ s.dropWhile (!p ·) :=
    List.takeWhile_append_dropWhile.symm
  cases hrest : s.dropWhile (!p ·) with
  | nil =>
    rw [hrest, List.append_nil] at hs
    rw [← hs] at hw
    exact .inl ⟨List.splitOnP_eq_singleton hw, hw⟩
  | cons c t =>
    have hnot := List.head?_dropWhile_not (!p ·) s
    rw [hrest] at hnot hs
    have hc : p c = true := by simpa using hnot
    refine .inr ⟨_, c, t, hs, hw, hc, ?_⟩
    conv_lhs => rw [hs]
    exact List.splitOnP_append_cons_of_forall_mem hw c hc t

theorem flatten_splitOnP (p : Char → Bool) (s : Text) :
    (s.splitOnP p).flatten = s.filter (!p ·) := by
  induction s with
  | nil => rfl
  | cons c s ih =>
    rw [List.splitOnP_cons_eq_if_modifyHead]
    by_cases hc : p c = true
    · rw [if_pos hc, List.flatten_cons, ih, List.nil_append, List.filter_cons_of_neg (by simp [hc])]
    · obtain ⟨first, rest, hs⟩ := List.exists_cons_of_ne_nil (List.splitOnP_ne_nil p s)
      rw [hs] at ih
      rw [if_neg hc, hs, List.filter_cons_of_pos (by simp [hc]), ← ih]
      rfl

/-! ## Words -/

theorem mem_wordsBy {s w : Text} (h : w ∈ wordsBy p s) :
    w ≠ [] ∧ ∀ c ∈ w, c ∈ s ∧ p c = false := by
  obtain ⟨hmem, hne⟩ := List.mem_filter.mp h
  exact ⟨by simpa using hne, mem_splitOnP hmem⟩

theorem wordsBy_append_cons {c : Char} (hc : p c = true) (s t : Text) :
    wordsBy p (s ++ c :: t) = wordsBy p s ++ wordsBy p t := by
  unfold wordsBy
  rw [List.splitOnP_append_cons s t hc, List.filter_append]

theorem wordsBy_of_forall {w : Text} (hne : w ≠ []) (hw : ∀ c ∈ w, p c = false) :
    wordsBy p w = [w] := by
  rw [wordsBy, List.splitOnP_eq_singleton hw]
  simp [hne]

theorem wordsBy_append_of_forall {w : Text} (hne : w ≠ []) (hw : ∀ c ∈ w, p c = false)
    (s : Text) : ∃ u rest, wordsBy p (w ++ s) = (w ++ u) :: rest := by
  obtain ⟨first, rest, hs⟩ := List.exists_cons_of_ne_nil (List.splitOnP_ne_nil p s)
  refine ⟨first, rest.filter (!·.isEmpty), ?_⟩
  rw [wordsBy, splitOnP_append_of_forall hw, hs, List.modifyHead_cons, List.filter_cons_of_pos]
  simp [hne]

theorem wordsBy_append_left {b : Text} (hb : ∀ c ∈ b, p c = true) (s : Text) :
    wordsBy p (b ++ s) = wordsBy p s := by
  induction b with
  | nil => rfl
  | cons c b ih =>
    -- each character of `b` cuts off an empty text
    have hcons := wordsBy_append_cons (hb c List.mem_cons_self) [] (b ++ s)
    rw [List.nil_append] at hcons
    rw [List.cons_append, hcons, ih fun d hd => hb d (List.mem_cons_of_mem _ hd)]
    rfl

theorem wordsBy_append_right {b : Text} (hb : ∀ c ∈ b, p c = true) (s : Text) :
    wordsBy p (s ++ b) = wordsBy p s := by
  cases b with
  | nil => rw [List.append_nil]
  | cons c b =>
    have hnil := wordsBy_append_left (fun d hd => hb d (List.mem_cons_of_mem _ hd)) []
    rw [List.append_nil] at hnil
    rw [wordsBy_append_cons (hb c List.mem_cons_self), hnil, show wordsBy p [] = [] from rfl,
      List.append_nil]

-- A text begins with its first word, after separating characters, and its other words are those of
-- the text behind one more separating character.
theorem exists_eq_append_of_wordsBy {s w : Text} {rest : List Text}
    (h : wordsBy p s = w :: rest) :
    ∃ gap after, (∀ c ∈ gap, p c = true) ∧ s = gap ++ (w ++ after) ∧
      (rest ≠ [] → ∃ c t, p c = true ∧ after = c :: t ∧ wordsBy p t = rest) := by
  induction hn : s.length using Nat.strong_induction_on generalizing s with
  | h n ih =>
    rw [wordsBy] at h
    rcases splitOnP_cases p s with ⟨hs, -⟩ | ⟨v, c, t, rfl, -, hc, hs⟩
    · rw [hs] at h
      obtain rfl : rest = [] := by
        have hlen := List.length_filter_le (!·.isEmpty) [s]
        rw [h] at hlen
        exact List.length_eq_zero_iff.mp (by simpa using hlen)
      obtain rfl : w = s := by
        have hmem : w ∈ [s] := (List.mem_filter.mp (by rw [h]; exact List.mem_cons_self)).1
        simpa using hmem
      exact ⟨[], [], by simp, by simp, fun hne => absurd rfl hne⟩
    · rw [hs] at h
      by_cases hv : v = []
      · -- nothing but separating characters so far
        subst hv
        rw [List.filter_cons_of_neg (by simp)] at h
        obtain ⟨gap, after, hgap, rfl, hrest⟩ := ih t.length (by simp [← hn]) h rfl
        exact ⟨c :: gap, after, List.forall_mem_cons.mpr ⟨hc, hgap⟩, rfl, hrest⟩
      · rw [List.filter_cons_of_pos (by simpa using hv)] at h
        obtain ⟨rfl, hrest⟩ := List.cons.inj h
        exact ⟨[], c :: t, by simp, rfl, fun _ => ⟨c, t, hc, rfl, hrest⟩⟩

theorem flatten_wordsBy (p : Char → Bool) (s : Text) : (wordsBy p s).flatten = s.filter (!p ·) := by
  rw [← flatten_splitOnP, wordsBy]
  exact List.flatten_filter_not_isEmpty

theorem wordsBy_ne_nil {s : Text} (h : ∃ c ∈ s, p c = false) : wordsBy p s ≠ [] := by
  obtain ⟨c, hc, hnot⟩ := h
  intro hnil
  have hmem : c ∈ s.filter (!p ·) := List.mem_filter.mpr ⟨hc, by simp [hnot]⟩
  rw [← flatten_wordsBy, hnil] at hmem
  cases hmem

/-! ## Up to a character -/

theorem not_mem_of_forall {c : Char} {s : Text} (hs : ∀ a ∈ s, p a = true) (hc : p c = false) :
    c ∉ s := by
  intro hmem
  rw [hs c hmem] at hc
  cases hc

theorem forall_beq_of_not_mem {d : Char} {s : Text} (hs : d ∉ s) : ∀ c ∈ s, (c == d) = false := by
  intro c hc
  simpa using fun heq : c = d => hs (heq ▸ hc)

theorem forall_bne_of_not_mem {d : Char} {s : Text} (hs : d ∉ s) : ∀ c ∈ s, (c != d) = true := by
  intro c hc
  simpa using fun heq : c = d => hs (heq ▸ hc)

theorem takeWhile_append_cons {d : Char} {s : Text} (hs : d ∉ s) (t : Text) :
    (s ++ d :: t).takeWhile (· != d) = s := by
  rw [List.takeWhile_append_of_pos (forall_bne_of_not_mem hs),
    List.takeWhile_cons_of_neg (by simp), List.append_nil]

theorem dropWhile_append_cons {d : Char} {s : Text} (hs : d ∉ s) (t : Text) :
    (s ++ d :: t).dropWhile (· != d) = d :: t := by
  rw [List.dropWhile_append_of_pos (forall_bne_of_not_mem hs),
    List.dropWhile_cons_of_neg (by simp)]

/-! ## Splitting at one character -/

theorem splitOn_singleton (d : Char) (s : Text) : splitOn [d] s = s.splitOnP (· == d) := by
  show splitFrom [d] 0 s = _
  induction s with
  | nil => rfl
  | cons c s ih =>
    -- a delimiter of one character leaves nothing to skip
    rw [splitFrom, List.splitOnP_cons_eq_if_modifyHead, ← ih]
    simp [BEq.comm]

theorem splitByDelimiters_singleton (s : Text) (d : Char) :
    splitByDelimiters s [[d]] = wordsBy (· == d) s := by
  show (([s] : List Text).flatMap (splitOn [d])).filter (!·.isEmpty) = _
  rw [List.flatMap_singleton, splitOn_singleton, wordsBy]

end SignatureLine.Text
