import Mathlib.Logic.Relation
import SignatureLine.Proofs.Text.Blanks

/-!
# Normal forms of blanks

One space for every run of blanks, and none at the ends.  Cutting the normal form at single spaces
gives the words of the text, and cutting it at other characters gives the pieces of the text with
their own runs replaced.
-/

namespace SignatureLine.Text

/-! ## The normal form -/

/-- The text with one space for each run of blanks; `inRun` tells whether the character before the
text is a blank. -/
def squeezeFrom : Bool → Text → Text
  | _, [] => []
  | inRun, c :: s =>
      if isBlank c then
        if inRun then squeezeFrom true s else ' ' :: squeezeFrom true s
      else c :: squeezeFrom false s

/-- The text with one space for each run of blanks. -/
def squeeze (s : Text) : Text :=
  squeezeFrom false s

/-- The text with one space for each run of blanks between two other characters, and no blanks at
its ends. -/
def normalizeBlanks (s : Text) : Text :=
  squeeze (trimBlanks s)

-- The pieces between the spaces of a squeezed text are those between the runs of the text.
theorem splitOnP_squeezeFrom (inRun : Bool) (s : Text) :
    (squeezeFrom inRun s).splitOnP (· == ' ') = splitRunsFrom inRun s := by
  induction s generalizing inRun with
  | nil => rfl
  | cons c s ih =>
    rw [squeezeFrom, splitRunsFrom]
    by_cases hc : isBlank c = true
    · -- the first blank of a run becomes the space to cut at, and the others are left out
      rw [if_pos hc, if_pos hc]
      cases inRun
      · simp [List.splitOnP_cons_eq_if_modifyHead, ih]
      · simp [ih]
    · have hspace : ¬ (c == ' ') = true := by
        intro h
        exact hc (by simp [isBlank, h])
      rw [if_neg hc, if_neg hc, List.splitOnP_cons_eq_if_modifyHead, if_neg hspace, ih]

theorem splitOnP_squeeze (s : Text) : (squeeze s).splitOnP (· == ' ') = splitBlankRuns s :=
  splitOnP_squeezeFrom false s

theorem squeezeFrom_append_cons {c : Char} (hc : isBlank c = false) (inRun : Bool) (s t : Text) :
    squeezeFrom inRun (s ++ c :: t) = squeezeFrom inRun s ++ c :: squeezeFrom false t := by
  induction s generalizing inRun with
  | nil => simp [squeezeFrom, hc]
  | cons d s ih =>
    rw [List.cons_append, squeezeFrom, squeezeFrom]
    by_cases hd : isBlank d = true
    · rw [if_pos hd, if_pos hd]
      cases inRun
      · simp [ih]
      · simp [ih]
    · rw [if_neg hd, if_neg hd, ih, List.cons_append]

theorem squeeze_append_cons {c : Char} (hc : isBlank c = false) (s t : Text) :
    squeeze (s ++ c :: t) = squeeze s ++ c :: squeeze t :=
  squeezeFrom_append_cons hc false s t

-- A character other than the two blanks is neither taken away nor added.
theorem mem_squeezeFrom_iff {c : Char} (hc : isBlank c = false) (inRun : Bool) (s : Text) :
    c ∈ squeezeFrom inRun s ↔ c ∈ s := by
  induction s generalizing inRun with
  | nil => rfl
  | cons d s ih =>
    rw [squeezeFrom]
    by_cases hd : isBlank d = true
    · have hcd : c ≠ d := by
        rintro rfl
        simp [hc] at hd
      have hspace : c ≠ ' ' := by
        rintro rfl
        simp [isBlank] at hc
      rw [if_pos hd]
      cases inRun
      · simp [ih, hcd, hspace]
      · simp [ih, hcd]
    · rw [if_neg hd, List.mem_cons, List.mem_cons, ih]

theorem squeezeFrom_eq_self {s : Text} (h : ∀ c ∈ s, isBlank c = false) (inRun : Bool) :
    squeezeFrom inRun s = s := by
  induction s generalizing inRun with
  | nil => rfl
  | cons c s ih =>
    have hc : ¬ isBlank c = true := by simp [h c List.mem_cons_self]
    rw [squeezeFrom, if_neg hc, ih fun d hd => h d (List.mem_cons_of_mem _ hd)]

theorem mem_of_mem_squeezeFrom {c : Char} {inRun : Bool} {s : Text}
    (h : c ∈ squeezeFrom inRun s) : c = ' ' ∨ c ∈ s := by
  by_cases hc : isBlank c = true
  · left
    induction s generalizing inRun with
    | nil => cases h
    | cons d s ih =>
      rw [squeezeFrom] at h
      by_cases hd : isBlank d = true
      · rw [if_pos hd] at h
        cases inRun with
        | true => exact ih h
        | false => exact (List.mem_cons.mp h).elim id ih
      · rw [if_neg hd] at h
        rcases List.mem_cons.mp h with rfl | h
        · exact absurd hc hd
        · exact ih h
  · exact .inr ((mem_squeezeFrom_iff (by simpa using hc) inRun s).mp h)

theorem squeeze_eq_nil_iff {s : Text} : squeeze s = [] ↔ s = [] := by
  cases s with
  | nil => exact ⟨fun _ => rfl, fun _ => rfl⟩
  | cons c s =>
    rw [squeeze, squeezeFrom]
    by_cases hc : isBlank c = true
    · simp [hc]
    · simp [hc]

/-! ## Normal forms and words -/

theorem splitOnP_normalizeBlanks {s : Text} (h : trimBlanks s ≠ []) :
    (normalizeBlanks s).splitOnP (· == ' ') = wordsBy isBlank s := by
  rw [normalizeBlanks, splitOnP_squeeze, splitBlankRuns_of_trimmed h (trimmed_trimBoth _ s)]
  exact wordsBy_trimBlanks s

-- The normal form is the words with single spaces between them.
theorem normalizeBlanks_eq (s : Text) :
    normalizeBlanks s = [' '].intercalate (wordsBy isBlank s) := by
  by_cases h : trimBlanks s = []
  · rw [← wordsBy_trimBlanks, normalizeBlanks, h]
    rfl
  · rw [← splitOnP_normalizeBlanks h]
    exact (List.intercalate_splitOn ' ').symm

/-- One change of the blanks of a text: a run between two parts of it becomes another run, or a run
at one of its ends goes away. -/
inductive BlankChange : Text → Text → Prop
  | run (before : Text) {b b' : Text} (after : Text) (hne : b ≠ []) (hne' : b' ≠ [])
      (hb : ∀ c ∈ b, isBlank c = true) (hb' : ∀ c ∈ b', isBlank c = true) :
      BlankChange (before ++ (b ++ after)) (before ++ (b' ++ after))
  | start {b : Text} (after : Text) (hb : ∀ c ∈ b, isBlank c = true) :
      BlankChange (b ++ after) after
  | finish (before : Text) {b : Text} (hb : ∀ c ∈ b, isBlank c = true) :
      BlankChange (before ++ b) before

theorem wordsBy_append_run {b : Text} (hne : b ≠ []) (hb : ∀ c ∈ b, isBlank c = true)
    (before after : Text) :
    wordsBy isBlank (before ++ (b ++ after)) = wordsBy isBlank before ++ wordsBy isBlank after := by
  obtain ⟨c, b, rfl⟩ := List.exists_cons_of_ne_nil hne
  rw [List.cons_append, wordsBy_append_cons (hb c List.mem_cons_self),
    wordsBy_append_left fun d hd => hb d (List.mem_cons_of_mem _ hd)]

theorem wordsBy_of_blankChange {s t : Text} (h : BlankChange s t) :
    wordsBy isBlank s = wordsBy isBlank t := by
  cases h with
  | run before after hne hne' hb hb' =>
    rw [wordsBy_append_run hne hb, wordsBy_append_run hne' hb']
  | start after hb => exact wordsBy_append_left hb t
  | finish before hb => exact wordsBy_append_right hb t

-- Any number of changes, in either direction, leaves the normal form as it is.
theorem normalizeBlanks_of_blankChanges {s t : Text} (h : Relation.EqvGen BlankChange s t) :
    normalizeBlanks s = normalizeBlanks t := by
  induction h with
  | rel s t h => rw [normalizeBlanks_eq, normalizeBlanks_eq, wordsBy_of_blankChange h]
  | refl => rfl
  | symm _ _ _ ih => exact ih.symm
  | trans _ _ _ _ _ ih ih' => exact ih.trans ih'

/-! ## Squeezing and cutting -/

-- Squeezing leaves every comma where it is, and works on the pieces between them.
theorem splitOnP_comma_squeeze (s : Text) :
    (squeeze s).splitOnP (· == ',') = (s.splitOnP (· == ',')).map squeeze := by
  -- from one comma to the next
  induction hn : s.length using Nat.strong_induction_on generalizing s with
  | h n ih =>
    by_cases hmem : ',' ∈ s
    · obtain ⟨before, after, rfl, hbefore⟩ := List.eq_append_cons_of_mem hmem
      have hsq : ',' ∉ squeeze before := fun h => hbefore ((mem_squeezeFrom_iff rfl _ _).mp h)
      have hafter := ih after.length (by rw [← hn, List.length_append, List.length_cons]; omega)
        after rfl
      rw [squeeze_append_cons rfl,
        List.splitOnP_append_cons_of_forall_mem (forall_beq_of_not_mem hsq) ',' rfl,
        List.splitOnP_append_cons_of_forall_mem (forall_beq_of_not_mem hbefore) ',' rfl,
        List.map_cons, hafter]
    · have hsq : ',' ∉ squeeze s := fun h => hmem ((mem_squeezeFrom_iff rfl _ _).mp h)
      rw [List.splitOnP_eq_singleton (forall_beq_of_not_mem hsq),
        List.splitOnP_eq_singleton (forall_beq_of_not_mem hmem)]
      rfl

theorem squeeze_append_of_head {t : Text} (ht : ∀ c ∈ t.head?, isBlank c = false) (s : Text) :
    squeeze (s ++ t) = squeeze s ++ squeeze t := by
  cases t with
  | nil => rw [List.append_nil, show squeeze [] = [] from rfl, List.append_nil]
  | cons c t =>
    have hc := ht c rfl
    have hcons : squeeze (c :: t) = c :: squeeze t := squeeze_append_cons hc [] t
    rw [squeeze_append_cons hc, hcons]

theorem squeeze_append_of_getLast {s : Text} (hs : ∀ c ∈ s.getLast?, isBlank c = false)
    (t : Text) : squeeze (s ++ t) = squeeze s ++ squeeze t := by
  rcases List.eq_nil_or_concat' s with rfl | ⟨front, c, rfl⟩
  · rfl
  · have hc : isBlank c = false := hs c (by simp)
    rw [List.append_assoc, List.singleton_append, squeeze_append_cons hc, squeeze_append_cons hc,
      List.append_assoc]
    rfl

theorem trimmed_squeeze {s : Text} (h : Trimmed isWhitespace s) :
    Trimmed isWhitespace (squeeze s) := by
  constructor
  · cases s with
    | nil => nofun
    | cons c s =>
      have hc := h.1 c rfl
      rw [squeeze, squeezeFrom, if_neg (by simp [isBlank_eq_false hc])]
      simpa using hc
  · rcases List.eq_nil_or_concat' s with rfl | ⟨front, c, rfl⟩
    · nofun
    · have hc := h.2 c (by simp)
      rw [squeeze_append_cons (isBlank_eq_false hc)]
      simpa [squeeze, squeezeFrom] using hc

-- White space at the ends is wider than blanks, and what is left between does not begin or end
-- with a blank; so it does not matter which of the two is done first.
theorem trim_squeeze (s : Text) : trim (squeeze s) = squeeze (trim s) := by
  obtain ⟨before, after, hbefore, hafter, hs⟩ := exists_eq_append_trimBoth isWhitespace s
  have hcore := trimmed_trimBoth isWhitespace s
  have hall : ∀ {t : Text}, (∀ c ∈ t, isWhitespace c = true) →
      ∀ c ∈ squeeze t, isWhitespace c = true := by
    intro t ht c hc
    rcases mem_of_mem_squeezeFrom hc with rfl | hc
    · decide
    · exact ht c hc
  by_cases hnil : trim s = []
  · -- a text of white space alone is squeezed to one of white space alone
    rw [hnil]
    exact trimBoth_eq_nil_iff.mpr (hall (trimBoth_eq_nil_iff.mp hnil))
  · -- the trimmed text is squeezed apart from what surrounds it
    have hhead : ∀ c ∈ (trim s ++ after).head?, isBlank c = false := by
      intro c hc
      rw [List.head?_append_of_ne_nil _ hnil] at hc
      exact isBlank_eq_false (hcore.1 c hc)
    have hlast : ∀ c ∈ (trim s).getLast?, isBlank c = false :=
      fun c hc => isBlank_eq_false (hcore.2 c hc)
    conv_lhs => rw [hs]
    show trim (squeeze (before ++ (trim s ++ after))) = _
    rw [squeeze_append_of_head hhead, squeeze_append_of_getLast hlast, trim,
      trimBoth_append_left (hall hbefore), trimBoth_append_right (hall hafter)]
    exact trimBoth_eq_self (trimmed_squeeze hcore)

end SignatureLine.Text
