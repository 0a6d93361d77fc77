import SignatureLine.Proofs.Signature.Tokens
import SignatureLine.Proofs.Text.BytePositions
import SignatureLine.Signature.Parameters

/-!
# Where the parameter list lies

A line either has a parameter list, between its first opening parenthesis and the first closing
one after it, or it has none; and what the list falls into is read off its pieces between commas.
-/

namespace SignatureLine

namespace Text

/-! ## The text of the list -/

theorem parameterText_of_list {p q : Text} (hopen : '(' ∉ p) (hp : ')' ∉ p) (hq : ')' ∉ q)
    (r : Text) : parameterText (p ++ '(' :: (q ++ ')' :: r)) = trim q := by
  have hclose : ')' ∉ p ++ '(' :: q := by simp [hp, hq]
  have hsplit : p ++ '(' :: (q ++ ')' :: r) = (p ++ '(' :: q) ++ ')' :: r := by simp
  have hstart : byteLength (p ++ ['(']) = byteLength p + 1 := byteLength_append p ['(']
  have hstop : byteLength (p ++ '(' :: q) = byteLength p + 1 + byteLength q := by
    rw [List.append_cons, byteLength_append, hstart]
  have hspan : parameterSpan? (p ++ '(' :: (q ++ ')' :: r)) =
      some (byteLength p + 1, byteLength (p ++ '(' :: q)) := by
    rw [parameterSpan?, bytePosition?_append_cons hopen, hsplit, bytePosition?_append_cons hclose]
    exact if_pos (by omega)
  have hslice : sliceBytes? (byteLength p + 1) (byteLength (p ++ '(' :: q))
      (p ++ '(' :: (q ++ ')' :: r)) = some q := by
    rw [sliceBytes?, if_pos (by omega), hsplit, takeBytes?_byteLength, ← hstart,
      Option.bind_some, List.append_cons p '(' q]
    exact dropBytes?_byteLength _ q
  rw [parameterText, hspan]
  simp only [hslice, Option.getD_some]

theorem parameterText_of_not_mem {s : Text} (h : ')' ∉ s) : parameterText s = [] := by
  rw [parameterText, parameterSpan?, bytePosition?_eq_none_iff.mpr h]
  cases bytePosition? '(' s <;> rfl

-- A closing parenthesis that stands before any opening one leaves the line without a list.
theorem parameterText_append_of_closed {p : Text} (hopen : '(' ∉ p) (hclose : ')' ∈ p) (r : Text) :
    parameterText (p ++ r) = [] := by
  obtain ⟨before, after, rfl, hbefore⟩ := List.eq_append_cons_of_mem hclose
  have hstop : bytePosition? ')' (before ++ ')' :: after ++ r) = some (byteLength before) := by
    rw [List.append_assoc, List.cons_append]
    exact bytePosition?_append_cons hbefore (after ++ r)
  by_cases hmem : '(' ∈ r
  · obtain ⟨gap, rest, rfl, hgap⟩ := List.eq_append_cons_of_mem hmem
    have hnot : '(' ∉ before ++ ')' :: after ++ gap := by
      rw [List.mem_append, not_or]
      exact ⟨hopen, hgap⟩
    have hstart : bytePosition? '(' (before ++ ')' :: after ++ (gap ++ '(' :: rest)) =
        some (byteLength (before ++ (')' :: after ++ gap))) := by
      rw [← List.append_assoc, ← List.append_assoc before]
      exact bytePosition?_append_cons hnot rest
    have hle : byteLength before ≤ byteLength (before ++ (')' :: after ++ gap)) := by
      rw [byteLength_append]
      omega
    rw [parameterText, parameterSpan?, hstart, hstop]
    simp only
    rw [if_neg (by omega)]
  · have hnot : '(' ∉ before ++ ')' :: after ++ r := by
      rw [List.mem_append, not_or]
      exact ⟨hopen, hmem⟩
    rw [parameterText, parameterSpan?, bytePosition?_eq_none_iff.mpr hnot]

theorem parameterText_of_closed {p : Text} (hp : '(' ∉ p) (r : Text) :
    parameterText (p ++ ')' :: r) = [] := by
  rw [List.append_cons]
  exact parameterText_append_of_closed (by simp [hp]) (by simp) r

-- Each line has a list, or no closing parenthesis, or one before any opening one.
theorem parameterList_cases (s : Text) :
    (∃ p q r, '(' ∉ p ∧ ')' ∉ p ∧ ')' ∉ q ∧ s = p ++ '(' :: (q ++ ')' :: r)) ∨
      ')' ∉ s ∨ ∃ p r, '(' ∉ p ∧ s = p ++ ')' :: r := by
  by_cases hclose : ')' ∈ s
  · obtain ⟨front, r, rfl, hfront⟩ := List.eq_append_cons_of_mem hclose
    by_cases hopen : '(' ∈ front
    · obtain ⟨p, q, rfl, hp⟩ := List.eq_append_cons_of_mem hopen
      obtain ⟨hfp, hfq⟩ : ')' ∉ p ∧ ')' ∉ q := by simpa using hfront
      exact .inl ⟨p, q, r, hp, hfp, hfq, by simp⟩
    · exact .inr (.inr ⟨front, r, hopen, rfl⟩)
  · exact .inr (.inl hclose)

theorem not_mem_parameterText (s : Text) : ')' ∉ parameterText s := by
  rcases parameterList_cases s with ⟨p, q, r, hopen, hp, hq, rfl⟩ | hclose | ⟨p, r, hp, rfl⟩
  · rw [parameterText_of_list hopen hp hq]
    exact fun h => hq (trimBoth_subset _ _ h)
  · rw [parameterText_of_not_mem hclose]
    exact List.not_mem_nil
  · rw [parameterText_of_closed hp]
    exact List.not_mem_nil

/-! ## The tokens of the list -/

theorem parameterTokens_eq (l : Text) : parameterTokens l = (wordsBy (· == ',') l).map trim := by
  rw [parameterTokens, splitByDelimiters_singleton]

theorem mem_parameterTokens {l t : Text} (h : t ∈ parameterTokens l) :
    Trimmed isWhitespace t ∧ ∀ c ∈ t, c ∈ l ∧ c ≠ ',' := by
  rw [parameterTokens_eq] at h
  obtain ⟨piece, hpiece, rfl⟩ := List.mem_map.mp h
  refine ⟨trimmed_trimBoth _ _, fun c hc => ?_⟩
  have hmem := (mem_wordsBy hpiece).2 c (trimBoth_subset _ _ hc)
  exact ⟨hmem.1, by simpa using hmem.2⟩

theorem not_comma_of_isWhitespace {blank : Text} (h : ∀ c ∈ blank, isWhitespace c = true) :
    ∀ c ∈ blank, (c == ',') = false :=
  forall_beq_of_not_mem (not_mem_of_forall h (by decide))

-- Trimming the list as a whole changes its pieces only in white space at their ends, since a
-- comma is none.
theorem map_trim_splitOnP_trim (l : Text) :
    ((trim l).splitOnP (· == ',')).map trim = (l.splitOnP (· == ',')).map trim := by
  obtain ⟨before, after, hbefore, hafter, hl⟩ := exists_eq_append_trimBoth isWhitespace l
  -- white space in front goes to the first piece, and white space behind to the last one
  obtain ⟨front, last, hfront, happ⟩ := exists_splitOnP_append (· == ',') (trim l)
  have hstart : ∀ pieces : List Text,
      (pieces.modifyHead (before ++ ·)).map trim = pieces.map trim := by
    intro pieces
    cases pieces with
    | nil => rfl
    | cons first rest =>
      rw [List.modifyHead_cons, List.map_cons, List.map_cons, trim,
        trimBoth_append_left hbefore, trim]
  conv_rhs => rw [hl]
  rw [splitOnP_append_of_forall (not_comma_of_isWhitespace hbefore), hstart]
  show _ = ((trim l ++ after).splitOnP _).map trim
  rw [happ, hfront, List.splitOnP_eq_singleton (not_comma_of_isWhitespace hafter)]
  simp only [List.modifyHead_cons, List.map_append, List.map_cons, List.map_nil]
  rw [trim, trim, trimBoth_append_right hafter]

-- If no piece is blank, then none is dropped before the pieces are trimmed.
theorem parameterTokens_trim {l : Text} (h : ∀ piece ∈ l.splitOnP (· == ','), trim piece ≠ []) :
    parameterTokens (trim l) = (l.splitOnP (· == ',')).map trim := by
  rw [parameterTokens_eq, ← map_trim_splitOnP_trim, wordsBy, List.filter_eq_self.mpr]
  intro piece hpiece
  have hmem : trim piece ∈ (l.splitOnP (· == ',')).map trim := by
    rw [← map_trim_splitOnP_trim]
    exact List.mem_map_of_mem hpiece
  obtain ⟨other, hother, heq⟩ := List.mem_map.mp hmem
  have hne : piece ≠ [] := by
    rintro rfl
    exact h other hother heq
  simpa using hne

/-- The tokens of the parameter list of a line. -/
def parameters (line : Text) : List Text :=
  parameterTokens (parameterText line)

theorem mem_parameters {line t : Text} (h : t ∈ parameters line) :
    Trimmed isWhitespace t ∧ ∀ c ∈ t, c ≠ ',' ∧ c ≠ ')' := by
  obtain ⟨htrim, hchars⟩ := mem_parameterTokens h
  refine ⟨htrim, fun c hc => ⟨(hchars c hc).2, ?_⟩⟩
  rintro rfl
  exact not_mem_parameterText line (hchars _ hc).1

end Text

namespace WhitespaceMode

/-! ## The argument of a token -/

theorem argument?_of_forall {mode : WhitespaceMode} {t : Text}
    (ht : ∀ c ∈ t, mode.separates c = false) : mode.argument? t = none := by
  rw [argument?, words_eq]
  by_cases hne : t = []
  · rw [hne]
    rfl
  · rw [Text.wordsBy_of_forall hne ht]

theorem argument?_append_cons {mode : WhitespaceMode} {type name : Text} {c : Char}
    (hc : mode.separates c = true) (htype : type ≠ [])
    (htypes : ∀ c ∈ type, mode.separates c = false) (hname : name ≠ [])
    (hnames : ∀ c ∈ name, mode.separates c = false) :
    mode.argument? (type ++ c :: name) = some ⟨type, name⟩ := by
  rw [argument?, words_eq, Text.wordsBy_append_cons hc, Text.wordsBy_of_forall htype htypes,
    Text.wordsBy_of_forall hname hnames]
  rfl

end WhitespaceMode

end SignatureLine
