import SignatureLine.Proofs.Signature.Acceptance

/-!
# Lines without tabs

On a line without tabs the two modes see the same characters separate.  The words of a parameter are
then the same in either mode, and the tokens of collapse mode are those of literal mode without the
empty ones.  So the list is read alike, and the head too if no token is empty.
-/

namespace SignatureLine

open Text (parameterText parameters parameterTokens wordsBy)

/-! ## Pieces of a text -/

namespace Text

theorem splitOnP_congr {p q : Char → Bool} {s : Text} (h : ∀ c ∈ s, p c = q c) :
    s.splitOnP p = s.splitOnP q := by
  induction s with
  | nil => rfl
  | cons c s ih =>
    rw [List.splitOnP_cons_eq_if_modifyHead, List.splitOnP_cons_eq_if_modifyHead,
      h c List.mem_cons_self, ih fun d hd => h d (List.mem_cons_of_mem c hd)]

-- A piece is empty only at an end of the text or between two separating characters.
theorem ne_nil_of_mem_splitOnP {p : Char → Bool} {s piece : Text} (hne : s ≠ [])
    (htrim : Trimmed p s) (hpair : ∀ c d, p c = true → p d = true → ¬ [c, d] <:+: s)
    (h : piece ∈ s.splitOnP p) : piece ≠ [] := by
  induction hn : s.length using Nat.strong_induction_on generalizing s with
  | h n ih =>
    rcases splitOnP_cases p s with ⟨hs, -⟩ | ⟨w, c, t, rfl, -, hc, hs⟩
    · rw [hs, List.mem_singleton] at h
      exact h ▸ hne
    · rw [hs] at h
      rcases List.mem_cons.mp h with rfl | h
      · -- the text does not begin with the character that is cut at
        rintro rfl
        have hhead := htrim.1 c rfl
        rw [hc] at hhead
        cases hhead
      · have htail : t ≠ [] := by
          rintro rfl
          have hlast := htrim.2 c (by simp)
          rw [hc] at hlast
          cases hlast
        have hlt : t.length < n := by
          rw [← hn, List.length_append, List.length_cons]
          omega
        refine ih t.length hlt htail ⟨fun d hd => ?_, fun d hd => ?_⟩
          (fun d e hd he hde => ?_) h rfl
        · by_contra hp
          obtain ⟨t, rfl⟩ := List.head?_eq_some_iff.mp (Option.mem_def.mp hd)
          exact hpair c d hc (by simpa using hp) ⟨w, t, by simp⟩
        · apply htrim.2
          rw [List.getLast?_append_of_ne_nil _ (List.cons_ne_nil c t),
            List.getLast?_cons_of_ne_nil htail]
          exact hd
        · exact hpair d e hd he (hde.trans ⟨w ++ [c], [], by simp⟩)

theorem subset_of_parameterText (line : Text) : parameterText line ⊆ line := by
  rcases parameterList_cases line with ⟨p, q, r, hopen, hp, hq, rfl⟩ | hclose | ⟨p, r, hp, rfl⟩
  · rw [parameterText_of_list hopen hp hq]
    intro c hc
    have hmem : c ∈ q := trimBoth_subset _ _ hc
    simp [hmem]
  · rw [parameterText_of_not_mem hclose]
    exact List.nil_subset _
  · rw [parameterText_of_closed hp]
    exact List.nil_subset _

theorem subset_of_mem_parameters {line token : Text} (h : token ∈ parameters line) :
    token ⊆ line :=
  fun _ hc => subset_of_parameterText line ((mem_parameterTokens h).2 _ hc).1

end Text

/-! ## Words and tokens -/

namespace WhitespaceMode

variable {line token : Text}

theorem separates_of_tabFree (htab : '\t' ∉ line) :
    ∀ c ∈ line, collapse.separates c = literal.separates c := by
  intro c hc
  have hne : c ≠ '\t' := fun heq => htab (heq ▸ hc)
  simp [separates, Text.isBlank, hne]

theorem words_of_tabFree (htab : '\t' ∉ token) : collapse.words token = literal.words token := by
  rw [words_eq, words_eq, wordsBy, wordsBy, Text.splitOnP_congr (separates_of_tabFree htab)]

theorem argument?_of_tabFree (htab : '\t' ∉ token) :
    collapse.argument? token = literal.argument? token := by
  rw [argument?, argument?, words_of_tabFree htab]

-- Empty tokens are all that literal mode has more, at the end of the line as everywhere else.
theorem tokens_of_tabFree (htab : '\t' ∉ line) :
    collapse.tokens line = (literal.tokens line).filter (!·.isEmpty) := by
  rw [tokens_collapse, wordsBy, Text.splitOnP_congr (separates_of_tabFree htab), tokens_literal,
    filter_dropEndWhile]

theorem tokens_of_singleSpaces (htab : '\t' ∉ line) (hhead : line.head? ≠ some ' ')
    (hpair : ¬ [' ', ' '] <:+: dropEndWhile (· == ' ') line) :
    collapse.tokens line = literal.tokens line := by
  rw [tokens_of_tabFree htab, tokens_literal_eq_layout, layout]
  apply List.filter_eq_self.mpr
  intro piece hpiece
  by_cases hnil : dropEndWhile (· == ' ') line = []
  · simp [hnil] at hpiece
  · simp only [if_neg hnil] at hpiece
    have htrim : Text.Trimmed (· == ' ') (dropEndWhile (· == ' ') line) := by
      refine ⟨fun c hc => ?_, getLast?_dropEndWhile line⟩
      obtain ⟨spaces, hline⟩ := dropEndWhile_prefix (· == ' ') line
      rw [← hline, List.head?_append_of_ne_nil _ hnil] at hhead
      simpa using fun heq : c = ' ' => hhead (heq ▸ hc)
    have hne : piece ≠ [] := by
      refine Text.ne_nil_of_mem_splitOnP hnil htrim (fun c d hc hd => ?_) hpiece
      obtain rfl : c = ' ' := by simpa using hc
      obtain rfl : d = ' ' := by simpa using hd
      exact hpair
    simpa using hne

end WhitespaceMode

/-! ## Heads -/

-- Without its empty tokens a line has no more tokens than with them, and a keyword in front is
-- still in front.
theorem Head.exists_read_of_filter {tokens : List Text}
    (h : ∃ head, read (tokens.filter (!·.isEmpty)) = .ok head) :
    ∃ head, read tokens = .ok head := by
  rw [exists_read_iff] at h ⊢
  have hlength := List.length_filter_le (!·.isEmpty) tokens
  by_cases hkeyword : 1 < tokens.length ∧
      tokens.headD [] ∈ AccessModifier.all.map AccessModifier.keyword
  · obtain ⟨first, rest, rfl⟩ := List.exists_cons_of_length_pos (Nat.zero_lt_of_lt hkeyword.1)
    have hfirst : first.isEmpty = false := by
      cases first with
      | nil =>
        have hnil : [] ∉ AccessModifier.all.map AccessModifier.keyword := by decide
        exact absurd hkeyword.2 hnil
      | cons c first => rfl
    rw [List.filter_cons_of_pos (by simp [hfirst])] at h hlength
    rw [keywordCount, if_pos ⟨by omega, hkeyword.2⟩] at h
    rw [keywordCount, if_pos hkeyword]
    omega
  · rw [keywordCount, if_neg hkeyword]
    omega

namespace Parser

variable {line : Text}

theorem readArguments_congr {mode mode' : WhitespaceMode} {tokens : List Text} (strict : Bool)
    (line : Text) (h : ∀ token ∈ tokens, mode.argument? token = mode'.argument? token) :
    readArguments ⟨mode, strict⟩ line tokens = readArguments ⟨mode', strict⟩ line tokens := by
  induction tokens with
  | nil => rfl
  | cons token tokens ih =>
    rw [readArguments, readArguments, ih fun t ht => h t (List.mem_cons_of_mem token ht)]
    simp only [h token List.mem_cons_self]

theorem argument?_of_mem_parameters (htab : '\t' ∉ line) :
    ∀ token ∈ parameters line, WhitespaceMode.collapse.argument? token =
      WhitespaceMode.literal.argument? token :=
  fun _ htoken => WhitespaceMode.argument?_of_tabFree fun hmem =>
    htab (Text.subset_of_mem_parameters htoken hmem)

/-- Without tabs the mode matters to the head only.  If collapse mode accepts the line, then so does
literal mode, with the same arguments and after the same events about the list; and if no space but
those at the end is next to another or in front, then the two runs are the same. -/
theorem parseLogged_tabFree (strict : Bool) (htab : '\t' ∉ line) :
    (∀ s, parse ⟨.collapse, strict⟩ line = .ok s →
        ∃ s' dropped, s'.arguments = s.arguments ∧ (∀ e ∈ dropped, e.level = .debug) ∧
          parseLogged ⟨.collapse, strict⟩ line =
            ⟨.ok s, dropped ++ [.parsed s.methodName s.arguments.length]⟩ ∧
          parseLogged ⟨.literal, strict⟩ line =
            ⟨.ok s', dropped ++ [.parsed s'.methodName s'.arguments.length]⟩) ∧
      (line.head? ≠ some ' ' → ¬ [' ', ' '] <:+: dropEndWhile (· == ' ') line →
        parseLogged ⟨.collapse, strict⟩ line = parseLogged ⟨.literal, strict⟩ line) := by
  have hargument := argument?_of_mem_parameters htab
  refine ⟨fun s hs => ?_, fun hhead hpair => ?_⟩
  · obtain ⟨head, hhead, hok, rfl⟩ := parse_eq_ok_iff.mp hs
    obtain ⟨head', hhead'⟩ :
        ∃ head', Head.read (WhitespaceMode.literal.tokens line) = .ok head' := by
      apply Head.exists_read_of_filter
      rw [← WhitespaceMode.tokens_of_tabFree htab]
      exact ⟨head, hhead⟩
    have harguments : WhitespaceMode.collapse.arguments (parameters line) =
        WhitespaceMode.literal.arguments (parameters line) := List.filterMap_congr hargument
    have hincomplete : WhitespaceMode.collapse.incomplete (parameters line) =
        WhitespaceMode.literal.incomplete (parameters line) :=
      List.filter_congr fun token htoken => congrArg Option.isNone (hargument token htoken)
    have hok' := hok
    rw [hincomplete] at hok'
    refine ⟨signatureOf ⟨.literal, strict⟩ line head', _, harguments.symm, ?_,
      parseLogged_of_head hhead hok, ?_⟩
    · intro e he
      obtain ⟨token, -, rfl⟩ := List.mem_map.mp he
      rfl
    · rw [hincomplete]
      exact parseLogged_of_head (p := ⟨.literal, strict⟩) hhead' hok'
  · rw [parseLogged, parseLogged, readSignature, readSignature, readHead, readHead,
      WhitespaceMode.tokens_of_singleSpaces htab hhead hpair,
      show parameterTokens (parameterText line) = parameters line from rfl,
      readArguments_congr strict line hargument]

-- The space in front makes the keyword a name in literal mode, and the list is read alike.  On the
-- second line the two modes report the same error.
theorem parseLogged_tabFree_keyword :
    (∃ s', s'.arguments = [⟨['a'], ['b']⟩] ∧
      parseLogged ⟨.literal, false⟩ " public  int f(a b, c)".toList =
        ⟨.ok s', [.droppedArgument ['c'] " public  int f(a b, c)".toList,
          .parsed s'.methodName s'.arguments.length]⟩) ∧
      parseLogged ⟨.collapse, true⟩ "int f(a b, c)  ".toList =
        parseLogged ⟨.literal, true⟩ "int f(a b, c)  ".toList := by
  have hparse : parseLogged ⟨.collapse, false⟩ " public  int f(a b, c)".toList =
      ⟨.ok ⟨" public  int f(a b, c)".toList, some .publicAccess, "int".toList, ['f'],
        [⟨['a'], ['b']⟩]⟩, [.droppedArgument ['c'] " public  int f(a b, c)".toList,
          .parsed ['f'] 1]⟩ := by
    decide +kernel
  obtain ⟨s', dropped, harguments, -, hcollapse, hliteral⟩ :=
    (parseLogged_tabFree false (by decide)).1 _ (congrArg Logged.value hparse)
  rw [hparse] at hcollapse
  have hevents : [.droppedArgument ['c'] " public  int f(a b, c)".toList] ++ [.parsed ['f'] 1] =
      dropped ++ [.parsed ['f'] 1] := congrArg Logged.events hcollapse
  obtain rfl := List.append_cancel_right hevents
  exact ⟨⟨s', harguments, hliteral⟩,
    (parseLogged_tabFree true (by decide)).2 (by decide) (by decide +kernel)⟩

end Parser

end SignatureLine
