import SignatureLine.Proofs.Signature.Commas

/-!
# White space next to commas

Where a strict parser does not mind white space next to the commas of a parameter list.  Empty
pieces are left out before the pieces are trimmed, and the list is trimmed at its ends before that:
so white space makes a difference in one place, between two commas with nothing else between them.
-/

namespace SignatureLine

open Text (isWhitespace parameterTokens trim trimEnd wordsBy)

namespace Text

variable {l s blank : Text}

/-! ## Tokens next to a comma -/

theorem parameterTokens_append_comma (l m : Text) :
    parameterTokens (l ++ ',' :: m) = parameterTokens l ++ parameterTokens m := by
  rw [parameterTokens_eq, wordsBy_append_cons rfl, List.map_append, ← parameterTokens_eq,
    ← parameterTokens_eq]

theorem parameterTokens_of_isWhitespace (hne : blank ≠ [])
    (h : ∀ c ∈ blank, isWhitespace c = true) : parameterTokens blank = [[]] := by
  rw [parameterTokens_eq, wordsBy_of_forall hne (not_comma_of_isWhitespace h), List.map_singleton,
    trim, trimBoth_eq_nil_iff.mpr h]

-- White space behind a piece that is not empty is trimmed away with the piece.
theorem parameterTokens_append_right (hne : s ≠ []) (hlast : s.getLast? ≠ some ',')
    (h : ∀ c ∈ blank, isWhitespace c = true) :
    parameterTokens (s ++ blank) = parameterTokens s := by
  obtain ⟨s, c, rfl⟩ := (List.eq_nil_or_concat' s).resolve_left hne
  have hc : (c == ',') = false := by simpa using hlast
  obtain ⟨front, last, -, happ⟩ := exists_splitOnP_append (· == ',') s
  have hpieces : ∀ t : Text, (∀ d ∈ t, (d == ',') = false) →
      parameterTokens (s ++ c :: t) =
        ((front.filter (!·.isEmpty)).map trim) ++ [trim (last ++ c :: t)] := by
    intro t ht
    have hsingle : (c :: t).splitOnP (· == ',') = [c :: t] :=
      List.splitOnP_eq_singleton (List.forall_mem_cons.mpr ⟨hc, ht⟩)
    rw [parameterTokens_eq, wordsBy, happ, hsingle, List.modifyHead_cons, List.filter_append,
      List.filter_cons_of_pos (by simp), List.map_append]
    rfl
  have htrim : trim (last ++ c :: blank) = trim (last ++ [c]) := by
    rw [List.append_cons, trim, trimBoth_append_right h, trim]
  rw [List.append_assoc, List.singleton_append, hpieces blank (not_comma_of_isWhitespace h), htrim,
    hpieces [] (by simp)]

theorem parameterTokens_append_left (hne : s ≠ []) (hhead : s.head? ≠ some ',')
    (h : ∀ c ∈ blank, isWhitespace c = true) :
    parameterTokens (blank ++ s) = parameterTokens s := by
  obtain ⟨c, s, rfl⟩ := List.exists_cons_of_ne_nil hne
  have hc : (c == ',') = false := by simpa using hhead
  obtain ⟨first, rest, hs⟩ := List.exists_cons_of_ne_nil (List.splitOnP_ne_nil (· == ',') s)
  have hpieces : ∀ t : Text, (∀ d ∈ t, (d == ',') = false) →
      parameterTokens (t ++ c :: s) =
        trim (t ++ c :: first) :: ((rest.filter (!·.isEmpty)).map trim) := by
    intro t ht
    rw [parameterTokens_eq, wordsBy, splitOnP_append_of_forall ht,
      List.splitOnP_cons_eq_if_modifyHead, if_neg (by simp [hc]), hs, List.modifyHead_cons,
      List.modifyHead_cons, List.filter_cons_of_pos (by simp), List.map_cons]
  have hshort := hpieces [] (by simp)
  rw [List.nil_append, List.nil_append] at hshort
  rw [hpieces blank (not_comma_of_isWhitespace h), hshort, trim, trimBoth_append_left h, trim]

-- What trimming at the end takes away can only have been a token of its own.
theorem parameterTokens_trimEnd (s : Text) :
    parameterTokens s = parameterTokens (trimEnd s) ∨
      parameterTokens s = parameterTokens (trimEnd s) ++ [[]] := by
  have hs : trimEnd s ++ s.rtakeWhile isWhitespace = s := List.rdropWhile_append_rtakeWhile
  have hblank : ∀ c ∈ s.rtakeWhile isWhitespace, isWhitespace c = true :=
    fun c hc => List.mem_rtakeWhile_imp hc
  generalize s.rtakeWhile isWhitespace = blank at hs hblank
  by_cases hnil : blank = []
  · rw [hnil, List.append_nil] at hs
    exact .inl (by rw [hs])
  have htoken := parameterTokens_of_isWhitespace hnil hblank
  by_cases htrim : trimEnd s = []
  · rw [htrim, List.nil_append] at hs
    rw [htrim, ← hs, htoken]
    exact .inr rfl
  by_cases hlast : (trimEnd s).getLast? = some ','
  · obtain ⟨front, hfront⟩ := List.getLast?_eq_some_iff.mp hlast
    rw [hfront, List.append_assoc, List.singleton_append] at hs
    rw [hfront, ← hs, parameterTokens_append_comma, parameterTokens_append_comma, htoken]
    exact .inr (by rw [show parameterTokens [] = [] from rfl, List.append_nil])
  · left
    conv_lhs => rw [← hs]
    exact parameterTokens_append_right htrim hlast hblank

/-! ## The tokens of a trimmed list -/

-- Trimming stops at a comma, so it does not get from one side of it to the other.
theorem parameterTokens_trim_append_comma (l m : Text) :
    parameterTokens (trim (l ++ ',' :: m)) =
      parameterTokens (l.dropWhile isWhitespace) ++ parameterTokens (trimEnd m) := by
  have hcomma : isWhitespace ',' = false := by decide
  rw [trim, trimBoth, dropWhile_append_cons_of_not hcomma, dropEndWhile_append_cons hcomma,
    parameterTokens_append_comma]
  rfl

theorem parameterTokens_blank_before (hlast : l.getLast? ≠ some ',')
    (h : ∀ c ∈ blank, isWhitespace c = true) (m : Text) :
    parameterTokens (trim ((l ++ blank) ++ ',' :: m)) = parameterTokens (trim (l ++ ',' :: m)) := by
  rw [parameterTokens_trim_append_comma, parameterTokens_trim_append_comma, List.dropWhile_append]
  by_cases hnil : l.dropWhile isWhitespace = []
  · rw [hnil, if_pos List.isEmpty_nil, List.dropWhile_eq_nil_iff.mpr h]
  · have hl := List.getLast?_append_of_ne_nil (l.takeWhile isWhitespace) hnil
    rw [List.takeWhile_append_dropWhile] at hl
    rw [if_neg (by simpa using hnil), parameterTokens_append_right hnil (by rwa [← hl]) h]

theorem parameterTokens_blank_behind {m : Text} (hhead : m.head? ≠ some ',')
    (h : ∀ c ∈ blank, isWhitespace c = true) (l : Text) :
    parameterTokens (trim (l ++ ',' :: (blank ++ m))) = parameterTokens (trim (l ++ ',' :: m)) := by
  rw [parameterTokens_trim_append_comma, parameterTokens_trim_append_comma, trimEnd_append]
  by_cases hnil : trimEnd m = []
  · rw [if_pos hnil, hnil, show trimEnd blank = [] from dropEndWhile_eq_nil_iff.mpr h]
  · obtain ⟨after, hm⟩ : trimEnd m <+: m := dropEndWhile_prefix isWhitespace m
    rw [if_neg hnil, parameterTokens_append_left hnil _ h]
    rwa [← hm, List.head?_append_of_ne_nil _ hnil] at hhead

theorem parameterTokens_empty_piece (l m : Text) :
    parameterTokens (trim (l ++ ',' :: ',' :: m)) = parameterTokens (trim (l ++ ',' :: m)) := by
  have hend : trimEnd (',' :: m) = ',' :: trimEnd m :=
    dropEndWhile_append_cons (by decide) [] m
  have hcomma := parameterTokens_append_comma [] (trimEnd m)
  rw [parameterTokens_trim_append_comma, parameterTokens_trim_append_comma, hend]
  exact congrArg _ hcomma

theorem parameterTokens_blank_piece (hne : blank ≠ []) (h : ∀ c ∈ blank, isWhitespace c = true)
    (l m : Text) :
    parameterTokens (trim (l ++ ',' :: (blank ++ ',' :: m))) =
      parameterTokens (l.dropWhile isWhitespace) ++ [] :: parameterTokens (trimEnd m) := by
  have hend : trimEnd (blank ++ ',' :: m) = blank ++ ',' :: trimEnd m :=
    dropEndWhile_append_cons (by decide) blank m
  rw [parameterTokens_trim_append_comma, hend, parameterTokens_append_comma,
    parameterTokens_of_isWhitespace hne h, List.singleton_append]

end Text

namespace Parser

variable {p : Parser} {l m blank : Text}

/-! ## What a strict parser makes of a list -/

theorem readList_congr (h : parameterTokens (trim l) = parameterTokens (trim m)) :
    p.readList l = p.readList m := by
  rw [readList, readList, h]

theorem readList_of_complete (hp : p.strict = true)
    (h : p.whitespace.incomplete (parameterTokens (trim l)) = []) :
    p.readList l = .ok (p.whitespace.arguments (parameterTokens (trim l))) := by
  rw [readList, hp]
  simp only [if_true, h]

theorem readList_of_incomplete (hp : p.strict = true) {token : Text} {rest : List Text}
    (h : p.whitespace.incomplete (parameterTokens (trim l)) = token :: rest) :
    p.readList l = .error token := by
  rw [readList, hp]
  simp only [if_true, h]

-- The token of a blank piece is refused, unless the list in front of it is refused already.
theorem readList_blank_piece (hp : p.strict = true) (hne : blank ≠ [])
    (h : ∀ c ∈ blank, isWhitespace c = true) (l m : Text) :
    p.readList (l ++ ',' :: (blank ++ ',' :: m)) =
      .error (match p.readList l with | .ok _ => [] | .error token => token) := by
  have hnone : p.whitespace.argument? [] = none := WhitespaceMode.argument?_of_forall (by simp)
  have happ : ∀ tokens others : List Text,
      p.whitespace.incomplete (tokens ++ [] :: others) =
        p.whitespace.incomplete tokens ++ [] :: p.whitespace.incomplete others := by
    intro tokens others
    rw [WhitespaceMode.incomplete, List.filter_append]
    exact congrArg _ (WhitespaceMode.incomplete_cons_of_none hnone)
  -- the list in front is trimmed at its end if it is read by itself, and not if it is read here
  obtain ⟨rest, hinc⟩ : ∃ rest,
      p.whitespace.incomplete (parameterTokens (trim (l ++ ',' :: (blank ++ ',' :: m)))) =
        p.whitespace.incomplete (parameterTokens (trim l)) ++ [] :: rest := by
    rw [Text.parameterTokens_blank_piece hne h, happ]
    rcases Text.parameterTokens_trimEnd (l.dropWhile isWhitespace) with hfront | hfront
    · exact ⟨_, by rw [hfront]; rfl⟩
    · refine ⟨[] :: p.whitespace.incomplete (parameterTokens (trimEnd m)), ?_⟩
      rw [hfront, happ, List.append_assoc]
      rfl
  cases hl : p.whitespace.incomplete (parameterTokens (trim l)) with
  | nil =>
    rw [hl, List.nil_append] at hinc
    rw [readList_of_incomplete hp hinc, readList_of_complete hp hl]
  | cons token others =>
    rw [hl, List.cons_append] at hinc
    rw [readList_of_incomplete hp hinc, readList_of_incomplete hp hl]

/-- White space next to a comma makes no difference to a strict parser, unless there is another
comma right behind it: an empty piece is left out, wherever it stands, and a blank one too at either
end of the list, but a blank piece between two commas is refused. -/
theorem readList_blank_next_to_comma (hp : p.strict = true) :
    (∀ list, ')' ∉ list →
        p.parse (listLine list) =
          match p.readList list with
          | .ok arguments => .ok ⟨listLine list, none, ['t'], ['f'], arguments⟩
          | .error token => .error (.malformedArgument (listLine list) token)) ∧
      ∀ l m blank : Text, (∀ c ∈ blank, isWhitespace c = true) →
        (l.getLast? ≠ some ',' →
            p.readList ((l ++ blank) ++ ',' :: m) = p.readList (l ++ ',' :: m)) ∧
          (m.head? ≠ some ',' →
            p.readList (l ++ ',' :: (blank ++ m)) = p.readList (l ++ ',' :: m)) ∧
          (blank ≠ [] →
            p.readList (l ++ ',' :: (blank ++ ',' :: m)) =
              .error (match p.readList l with | .ok _ => [] | .error token => token)) ∧
          p.readList (l ++ ',' :: ',' :: m) = p.readList (l ++ ',' :: m) ∧
          p.readList blank = .ok [] := by
  refine ⟨fun list h => parse_listLine p h, fun l m blank h => ⟨fun hl => ?_, fun hm => ?_,
    fun hne => readList_blank_piece hp hne h l m, ?_, ?_⟩⟩
  · exact readList_congr (Text.parameterTokens_blank_before hl h m)
  · exact readList_congr (Text.parameterTokens_blank_behind hm h l)
  · exact readList_congr (Text.parameterTokens_empty_piece l m)
  · have htrim : trim blank = trim [] := Text.trimBoth_eq_nil_iff.mpr h
    rw [readList_congr (m := []) (congrArg parameterTokens htrim), readList, hp]
    rfl

-- The list is trimmed as a whole before it is cut at its commas, which leaves its last piece empty,
-- but not the one before it.
theorem readList_blank_next_to_comma_piece :
    parse ⟨.literal, true⟩ (listLine "a b,c d, ".toList) =
        .ok ⟨listLine "a b,c d, ".toList, none, ['t'], ['f'],
          [⟨['a'], ['b']⟩, ⟨['c'], ['d']⟩]⟩ ∧
      readList ⟨.literal, true⟩ "a b,c d,,".toList =
        .ok [⟨['a'], ['b']⟩, ⟨['c'], ['d']⟩] ∧
      readList ⟨.literal, true⟩ "a b,c d, ,".toList = .error [] := by
  obtain ⟨hparse, hblank⟩ := readList_blank_next_to_comma (p := ⟨.literal, true⟩) rfl
  have hlist : readList ⟨.literal, true⟩ ("a b,c d".toList ++ ',' :: []) =
      .ok [⟨['a'], ['b']⟩, ⟨['c'], ['d']⟩] := by
    decide +kernel
  have hfront : readList ⟨.literal, true⟩ "a b,c d".toList =
      .ok [⟨['a'], ['b']⟩, ⟨['c'], ['d']⟩] := by
    decide +kernel
  obtain ⟨-, hbehind, hpiece, hempty, -⟩ :=
    hblank "a b,c d".toList [] [' '] (List.forall_mem_singleton.mpr (by decide))
  refine ⟨?_, hempty.trans hlist, ?_⟩
  · have hspace : readList ⟨.literal, true⟩ "a b,c d, ".toList = _ :=
      (hbehind (by decide)).trans hlist
    rw [hparse _ (by decide), hspace]
  · have hrefused := hpiece (by decide)
    rw [hfront] at hrefused
    exact hrefused

/-- One space before the second of two commas makes a strict parser refuse a list that it accepts
without the space. -/
theorem not_forall_parse_space_before_comma :
    ¬ ∀ (p : Parser) (l m : Text), p.strict = true → ')' ∉ l → ')' ∉ m →
      ∀ s, p.parse (listLine (l ++ ',' :: m)) = .ok s →
        ∃ t, p.parse (listLine (l ++ ' ' :: ',' :: m)) = .ok t ∧ t.arguments = s.arguments := by
  intro h
  have haccepted : parse ⟨.literal, true⟩ (listLine ("a b,".toList ++ ',' :: "c d".toList)) =
      .ok ⟨"t f(a b,,c d)".toList, none, ['t'], ['f'], [⟨['a'], ['b']⟩, ⟨['c'], ['d']⟩]⟩ := by
    decide +kernel
  have hrefused :
      parse ⟨.literal, true⟩ (listLine ("a b,".toList ++ ' ' :: ',' :: "c d".toList)) =
        .error (.malformedArgument "t f(a b, ,c d)".toList []) := by
    decide +kernel
  obtain ⟨t, ht, -⟩ := h _ _ _ rfl (by decide) (by decide) _ haccepted
  rw [hrefused] at ht
  cases ht

end Parser

end SignatureLine
