import SignatureLine.Proofs.Text.Blanks
import SignatureLine.Signature.Basic
import SignatureLine.Signature.Words

/-!
# Tokens and words of a line

In either mode a line is cut wherever a character separates, and the two modes differ in which
characters do and in which empty tokens are kept.
-/

namespace SignatureLine.WhitespaceMode

open Text (wordsBy)

def separates : WhitespaceMode → Char → Bool
  | .literal => (· == ' ')
  | .collapse => Text.isBlank

theorem separates_space (mode : WhitespaceMode) : mode.separates ' ' = true := by
  cases mode <;> rfl

theorem separates_singleton_space (mode : WhitespaceMode) :
    ∀ c ∈ [' '], mode.separates c = true :=
  List.forall_mem_singleton.mpr mode.separates_space

theorem separates_eq_false (mode : WhitespaceMode) {c : Char} (h : c ≠ ' ' ∧ c ≠ '\t') :
    mode.separates c = false := by
  cases mode <;> simp [separates, Text.isBlank, h]

-- A gap between two tokens holds no other character.
theorem not_mem_of_separates {mode : WhitespaceMode} {gap : Text}
    (h : ∀ c ∈ gap, mode.separates c = true) {c : Char} (hc : c ≠ ' ' ∧ c ≠ '\t') : c ∉ gap :=
  Text.not_mem_of_forall h (mode.separates_eq_false hc)

theorem separates_keyword (mode : WhitespaceMode) (m : AccessModifier) :
    ∀ c ∈ m.keyword, mode.separates c = false := by
  have h : (m.keyword.all (!mode.separates ·)) = true := by cases mode <;> cases m <;> decide
  intro c hc
  simpa using List.all_eq_true.mp h c hc

theorem isWhitespace_of_separates {mode : WhitespaceMode} {c : Char}
    (h : mode.separates c = true) : Text.isWhitespace c = true := by
  apply Text.isWhitespace_of_isBlank
  cases mode with
  | literal =>
    obtain rfl : c = ' ' := by simpa [separates] using h
    rfl
  | collapse => exact h

theorem separates_of_not_isWhitespace (mode : WhitespaceMode) {c : Char}
    (h : Text.isWhitespace c = false) : mode.separates c = false := by
  by_contra hsep
  rw [isWhitespace_of_separates (by simpa using hsep)] at h
  exact Bool.noConfusion h

/-! ## Words -/

theorem words_eq (mode : WhitespaceMode) (s : Text) : mode.words s = wordsBy mode.separates s := by
  cases mode with
  | literal => exact Text.splitByDelimiters_singleton s ' '
  | collapse => exact Text.filter_splitBlankRuns s

theorem mem_words {mode : WhitespaceMode} {s w : Text} (h : w ∈ mode.words s) :
    w ≠ [] ∧ ∀ c ∈ w, c ∈ s ∧ mode.separates c = false := by
  rw [words_eq] at h
  exact Text.mem_wordsBy h

/-! ## Tokens -/

theorem tokens_literal (s : Text) :
    literal.tokens s = dropEndWhile List.isEmpty (s.splitOnP literal.separates) := by
  rw [tokens, Text.splitOn_singleton]
  rfl

-- The tokens of collapse mode are the words of the line.
theorem tokens_collapse (s : Text) : collapse.tokens s = wordsBy collapse.separates s := by
  rw [show wordsBy collapse.separates s = _ from (Text.wordsBy_trimBlanks s).symm]
  simp only [tokens]
  by_cases h : Text.trimBlanks s = []
  · rw [if_pos (by rw [h]; rfl), h]
    rfl
  · rw [if_neg (by simpa using h)]
    exact Text.splitBlankRuns_of_trimmed h (Text.trimmed_trimBoth _ s)

theorem mem_tokens {mode : WhitespaceMode} {s t : Text} (h : t ∈ mode.tokens s) :
    (mode = .collapse → t ≠ []) ∧ ∀ c ∈ t, mode.separates c = false := by
  cases mode with
  | literal =>
    rw [tokens_literal] at h
    have hpiece := Text.mem_splitOnP (dropEndWhile_subset _ _ h)
    exact ⟨nofun, fun c hc => (hpiece c hc).2⟩
  | collapse =>
    rw [tokens_collapse] at h
    have hword := Text.mem_wordsBy h
    exact ⟨fun _ => hword.1, fun c hc => (hword.2 c hc).2⟩

theorem flatten_dropEndWhile_isEmpty (l : List Text) :
    (dropEndWhile List.isEmpty l).flatten = l.flatten := by
  have hsplit : dropEndWhile List.isEmpty l ++ l.rtakeWhile List.isEmpty = l :=
    List.rdropWhile_append_rtakeWhile
  have htail : (l.rtakeWhile List.isEmpty).flatten = [] := by
    apply List.flatten_eq_nil_iff.mpr
    intro t ht
    exact List.isEmpty_iff.mp (List.mem_rtakeWhile_imp ht)
  conv_rhs => rw [← hsplit, List.flatten_append, htail, List.append_nil]

-- The tokens hold all of the line but its separating characters.
theorem flatten_tokens (mode : WhitespaceMode) (s : Text) :
    (mode.tokens s).flatten = s.filter (!mode.separates ·) := by
  cases mode with
  | literal => rw [tokens_literal, flatten_dropEndWhile_isEmpty, Text.flatten_splitOnP]
  | collapse => rw [tokens_collapse, Text.flatten_wordsBy]

-- A token and a space before a text that has tokens.
theorem tokens_append_space {mode : WhitespaceMode} {t s : Text}
    (ht : ∀ c ∈ t, mode.separates c = false) (hne : mode = .collapse → t ≠ [])
    (hs : mode.tokens s ≠ []) : mode.tokens (t ++ ' ' :: s) = t :: mode.tokens s := by
  cases mode with
  | literal =>
    -- empty tokens are dropped at the end only, and `s` has a token that stays
    rw [tokens_literal] at hs
    rw [tokens_literal, tokens_literal,
      List.splitOnP_append_cons_of_forall_mem ht ' ' rfl, ← List.singleton_append,
      dropEndWhile_append, if_neg hs, List.singleton_append]
  | collapse =>
    rw [tokens_collapse, tokens_collapse, Text.wordsBy_append_cons rfl,
      Text.wordsBy_of_forall (hne rfl) ht, List.singleton_append]

-- The first token of a text begins with what stands before the first separating character.
theorem tokens_append_of_forall {mode : WhitespaceMode} {t : Text} (hne : t ≠ [])
    (ht : ∀ c ∈ t, mode.separates c = false) (s : Text) :
    ∃ u rest, mode.tokens (t ++ s) = (t ++ u) :: rest := by
  cases mode with
  | literal =>
    obtain ⟨u, rest, hs⟩ :=
      List.exists_cons_of_ne_nil (List.splitOnP_ne_nil literal.separates s)
    have hhead : (t ++ u).isEmpty = false := by simp [hne]
    refine ⟨u, dropEndWhile List.isEmpty rest, ?_⟩
    rw [tokens_literal, Text.splitOnP_append_of_forall ht, hs, List.modifyHead_cons]
    exact dropEndWhile_append_cons hhead [] rest
  | collapse =>
    rw [tokens_collapse]
    exact Text.wordsBy_append_of_forall hne ht s

-- A text begins with its first token, after separating characters, and if there are other tokens
-- then they are those of the text behind one more separating character.
theorem exists_eq_append_of_tokens {mode : WhitespaceMode} {s t : Text} {rest : List Text}
    (h : mode.tokens s = t :: rest) :
    ∃ gap after, (∀ c ∈ gap, mode.separates c = true) ∧ s = gap ++ (t ++ after) ∧
      (rest ≠ [] → ∃ c s', mode.separates c = true ∧ after = c :: s' ∧ mode.tokens s' = rest) := by
  cases mode with
  | collapse =>
    simp only [tokens_collapse] at h ⊢
    exact Text.exists_eq_append_of_wordsBy h
  | literal =>
    simp only [tokens_literal] at h ⊢
    have hone : ∀ {w : Text}, dropEndWhile List.isEmpty [w] = t :: rest → t = w ∧ rest = [] := by
      intro w hw
      have hprefix := dropEndWhile_prefix List.isEmpty [w]
      rw [hw] at hprefix
      obtain ⟨rfl, hrest⟩ := List.cons_prefix_cons.mp hprefix
      exact ⟨rfl, List.prefix_nil.mp hrest⟩
    rcases Text.splitOnP_cases literal.separates s with ⟨hs, -⟩ | ⟨w, c, s', rfl, -, hc, hs⟩
    · rw [hs] at h
      obtain ⟨rfl, rfl⟩ := hone h
      exact ⟨[], [], by simp, by simp, fun hne => absurd rfl hne⟩
    · rw [hs, ← List.singleton_append, dropEndWhile_append] at h
      by_cases hnil : dropEndWhile List.isEmpty (s'.splitOnP literal.separates) = []
      · -- only empty pieces come after the first one
        rw [if_pos hnil] at h
        obtain ⟨rfl, rfl⟩ := hone h
        exact ⟨[], c :: s', by simp, rfl, fun hne => absurd rfl hne⟩
      · rw [if_neg hnil, List.singleton_append] at h
        obtain ⟨rfl, hrest⟩ := List.cons.inj h
        exact ⟨[], c :: s', by simp, rfl, fun _ => ⟨c, s', hc, rfl, hrest⟩⟩

-- A character that does not separate belongs to a token, and what follows it can only make this
-- token longer and add others behind it.
theorem tokens_append_cons {mode : WhitespaceMode} {c : Char} (hc : mode.separates c = false)
    (s : Text) :
    ∃ front last, ∀ t : Text, ∃ u rest,
      mode.tokens (s ++ c :: t) = front ++ (last ++ c :: u) :: rest ∧
        (t = [] → u = [] ∧ rest = []) := by
  obtain ⟨front, last, -, happ⟩ := Text.exists_splitOnP_append mode.separates s
  have hpieces : ∀ t : Text, ∃ u rest,
      (s ++ c :: t).splitOnP mode.separates = front ++ (last ++ c :: u) :: rest ∧
        (t = [] → u = [] ∧ rest = []) := by
    intro t
    obtain ⟨u, rest, ht⟩ := List.exists_cons_of_ne_nil (List.splitOnP_ne_nil mode.separates t)
    refine ⟨u, rest, ?_, ?_⟩
    · rw [happ, List.splitOnP_cons_eq_if_modifyHead, if_neg (by simp [hc]), ht]
      rfl
    · rintro rfl
      obtain ⟨rfl, rfl⟩ : [] = u ∧ [] = rest := by simpa using ht
      exact ⟨rfl, rfl⟩
  -- the piece that holds the character is not empty, so neither mode drops it
  cases mode with
  | literal =>
    refine ⟨front, last, fun t => ?_⟩
    obtain ⟨u, rest, ht, hnil⟩ := hpieces t
    refine ⟨u, dropEndWhile List.isEmpty rest, ?_, fun h => ⟨(hnil h).1, by rw [(hnil h).2]; rfl⟩⟩
    rw [tokens_literal, ht]
    exact dropEndWhile_append_cons (by simp) front rest
  | collapse =>
    refine ⟨front.filter (!·.isEmpty), last, fun t => ?_⟩
    obtain ⟨u, rest, ht, hnil⟩ := hpieces t
    refine ⟨u, rest.filter (!·.isEmpty), ?_, fun h => ⟨(hnil h).1, by rw [(hnil h).2]; rfl⟩⟩
    rw [tokens_collapse, wordsBy, ht, List.filter_append, List.filter_cons_of_pos (by simp)]

end SignatureLine.WhitespaceMode
