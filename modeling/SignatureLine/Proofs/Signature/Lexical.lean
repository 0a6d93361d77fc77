import SignatureLine.Proofs.Signature.Head
import SignatureLine.Proofs.Signature.Parsing

/-!
# What the parts of a parsed record consist of

An accepted line is cut at separating characters, at parentheses and at commas, so that these do
not occur in the parts of its record.  Whether a record has this form depends on the whitespace mode
alone.
-/

namespace SignatureLine

open Text (isWhitespace wordsBy)

/-- The form of the arguments that are read in a mode. -/
structure Argument.Lexical (mode : WhitespaceMode) (a : Argument) : Prop where
  type_ne_nil : a.type ≠ []
  type_chars : ∀ c ∈ a.type, mode.separates c = false ∧ c ≠ ',' ∧ c ≠ ')'
  type_head : ∀ c ∈ a.type.head?, isWhitespace c = false
  name_ne_nil : a.name ≠ []
  name_chars : ∀ c ∈ a.name, mode.separates c = false ∧ c ≠ ',' ∧ c ≠ ')'

/-- The form of the records that are read in a mode. -/
structure Signature.Lexical (mode : WhitespaceMode) (s : Signature) : Prop where
  returnType_ne_nil : mode = .collapse → s.returnType ≠ []
  returnType_chars : ∀ c ∈ s.returnType, mode.separates c = false
  returnType_keyword : s.modifier = none → AccessModifier.ofKeyword? s.returnType = none
  methodName_chars : ∀ c ∈ s.methodName, mode.separates c = false ∧ c ≠ '('
  arguments : ∀ a ∈ s.arguments, a.Lexical mode
  /-- A closing parenthesis in the head stands before the list, unless the list begins in the
  return type. -/
  arguments_eq_nil : '(' ∉ s.returnType → ')' ∈ s.returnType ∨ ')' ∈ s.methodName →
    s.arguments = []

/-! ## Words -/

theorem WhitespaceMode.not_mem_of_forall_separates {mode : WhitespaceMode} {t : Text}
    (h : ∀ c ∈ t, mode.separates c = false) : ' ' ∉ t ∧ (mode = .collapse → '\t' ∉ t) := by
  constructor
  · intro hmem
    have hspace := h ' ' hmem
    rw [mode.separates_space] at hspace
    cases hspace
  · rintro rfl hmem
    cases h '\t' hmem

theorem Text.word_chars {mode : WhitespaceMode} {t : Text} (hne : t ≠ [])
    (h : ∀ c ∈ t, mode.separates c = false ∧ c ≠ ',' ∧ c ≠ ')') :
    t ≠ [] ∧ ' ' ∉ t ∧ ',' ∉ t ∧ ')' ∉ t ∧ (mode = .collapse → '\t' ∉ t) := by
  obtain ⟨hspace, htab⟩ := WhitespaceMode.not_mem_of_forall_separates fun c hc => (h c hc).1
  exact ⟨hne, hspace, fun hc => (h _ hc).2.1 rfl, fun hc => (h _ hc).2.2 rfl, htab⟩

/-! ## Arguments -/

theorem Text.head?_of_wordsBy {p : Char → Bool} {s w : Text} {rest : List Text}
    (h : wordsBy p s = w :: rest) (hs : ∀ c ∈ s.head?, p c = false) : w.head? = s.head? := by
  cases s with
  | nil => cases h
  | cons c s =>
    obtain ⟨u, others, hcons⟩ := wordsBy_append_of_forall (w := [c]) (List.cons_ne_nil c [])
      (fun d hd => hs d (by simpa [eq_comm] using hd)) s
    rw [List.singleton_append, h] at hcons
    rw [(List.cons.inj hcons).1]
    rfl

theorem WhitespaceMode.lexical_of_argument? {mode : WhitespaceMode} {line token : Text}
    {a : Argument} (hmem : token ∈ Text.parameters line) (h : mode.argument? token = some a) :
    a.Lexical mode := by
  obtain ⟨htrim, hchars⟩ := Text.mem_parameters hmem
  obtain ⟨type, name, rest, hwords⟩ :
      ∃ type name rest, mode.words token = type :: name :: rest := by
    rw [argument?] at h
    split at h
    · next type name rest hwords => exact ⟨type, name, rest, hwords⟩
    · cases h
  rw [argument?, hwords] at h
  obtain rfl := Option.some.inj h
  have htype : type ≠ [] ∧ ∀ c ∈ type, c ∈ token ∧ mode.separates c = false :=
    mem_words (by simp [hwords])
  have hname : name ≠ [] ∧ ∀ c ∈ name, c ∈ token ∧ mode.separates c = false :=
    mem_words (by simp [hwords])
  refine ⟨htype.1, fun c hc => ⟨(htype.2 c hc).2, hchars c (htype.2 c hc).1⟩, ?_, hname.1,
    fun c hc => ⟨(hname.2 c hc).2, hchars c (hname.2 c hc).1⟩⟩
  -- the type begins where the trimmed token begins
  rw [words_eq] at hwords
  rw [Text.head?_of_wordsBy hwords fun c hc =>
    mode.separates_of_not_isWhitespace (htrim.1 c hc)]
  exact htrim.1

/-! ## The closing parenthesis -/

-- The tokens show the order of all characters that do not separate.
theorem Text.exists_eq_append_of_filter {q : Char → Bool} {s front back : Text}
    (h : s.filter q = front ++ back) :
    ∃ u v, s = u ++ v ∧ front ⊆ u ∧ ∀ c ∈ u, q c = true → c ∈ front := by
  obtain ⟨u, v, rfl, hfront, -⟩ := List.filter_eq_append_iff.mp h
  refine ⟨u, v, rfl, ?_, fun c hc hq => ?_⟩
  · rw [← hfront]
    exact List.filter_subset_self u
  · rw [← hfront]
    exact List.mem_filter.mpr ⟨hc, hq⟩

theorem Text.parameters_of_tokens {mode : WhitespaceMode} {line front back : Text}
    (hopen : '(' ∉ front) (hclose : ')' ∈ front)
    (h : (mode.tokens line).flatten = front ++ back) : parameters line = [] := by
  rw [WhitespaceMode.flatten_tokens] at h
  obtain ⟨u, v, rfl, hsub, hu⟩ := exists_eq_append_of_filter h
  have hopen' : '(' ∉ u := by
    intro hmem
    exact hopen (hu _ hmem (by cases mode <;> rfl))
  rw [parameters, parameterText_append_of_closed hopen' (hsub hclose)]
  rfl

/-! ## Records -/

namespace Parser

variable {p : Parser} {line : Text} {head : Head}

theorem arguments_signatureOf_eq_nil (h : Head.read (p.whitespace.tokens line) = .ok head)
    (hopen : '(' ∉ head.returnType) (hclose : ')' ∈ head.returnType ∨ ')' ∈ head.methodName) :
    (p.signatureOf line head).arguments = [] := by
  obtain ⟨nameToken, rest, htokens, -, hname⟩ := Head.read_eq_ok_iff.mp h
  rw [Text.trimUntil_eq_takeWhile] at hname
  -- what the tokens hold up to the end of the name
  let front := (Head.modifierTokens head.modifier).flatten ++ (head.returnType ++ head.methodName)
  have hfront : '(' ∉ front := by
    have hmodifier : '(' ∉ (Head.modifierTokens head.modifier).flatten := by
      rcases head.modifier with _ | (_ | _ | _) <;> decide
    have hmethod : '(' ∉ head.methodName := by
      rw [hname]
      intro hmem
      simpa using List.mem_takeWhile_imp hmem
    simp [front, hmodifier, hopen, hmethod]
  have hmem : ')' ∈ front := by
    rcases hclose with hclose | hclose <;> simp [front, hclose]
  have hflatten : (p.whitespace.tokens line).flatten =
      front ++ (nameToken.dropWhile (· != '(') ++ rest.flatten) := by
    rw [htokens, List.flatten_append, List.flatten_cons, List.flatten_cons]
    conv_lhs => rw [← List.takeWhile_append_dropWhile (p := (· != '(')) (l := nameToken), ← hname]
    simp [front]
  change p.whitespace.arguments (Text.parameters line) = []
  rw [Text.parameters_of_tokens hfront hmem hflatten]
  rfl

theorem lexical_signatureOf (h : Head.read (p.whitespace.tokens line) = .ok head) :
    (p.signatureOf line head).Lexical p.whitespace := by
  obtain ⟨nameToken, rest, htokens, hkey, hname⟩ := Head.read_eq_ok_iff.mp h
  rw [Text.trimUntil_eq_takeWhile] at hname
  have hreturnMem : head.returnType ∈ p.whitespace.tokens line := by simp [htokens]
  have hnameMem : nameToken ∈ p.whitespace.tokens line := by simp [htokens]
  have hreturn := WhitespaceMode.mem_tokens hreturnMem
  have hnameToken := WhitespaceMode.mem_tokens hnameMem
  refine ⟨hreturn.1, hreturn.2, hkey, ?_, ?_, arguments_signatureOf_eq_nil h⟩
  · intro c hc
    change c ∈ head.methodName at hc
    rw [hname] at hc
    exact ⟨hnameToken.2 c (List.takeWhile_subset _ hc), by simpa using List.mem_takeWhile_imp hc⟩
  · intro a ha
    obtain ⟨token, hmem, hargument⟩ := List.mem_filterMap.mp ha
    exact WhitespaceMode.lexical_of_argument? hmem hargument

theorem lexical_of_parse {s : Signature} (h : p.parse line = .ok s) :
    s.Lexical p.whitespace := by
  obtain ⟨head, hhead, -, rfl⟩ := parse_eq_ok_iff.mp h
  exact lexical_signatureOf hhead

theorem raw_of_parse {s : Signature} (h : p.parse line = .ok s) : s.raw = line := by
  obtain ⟨head, -, -, rfl⟩ := parse_eq_ok_iff.mp h
  rfl

/-- What an accepted line leaves in its record, character by character.  A return type and a method
name may hold parentheses, and then the list may be elsewhere; all other parts are words. -/
theorem form_of_parse {s : Signature} (h : p.parse line = .ok s) :
    s.raw = line ∧
      (' ' ∉ s.returnType ∧
        (p.whitespace = .collapse → s.returnType ≠ [] ∧ '\t' ∉ s.returnType)) ∧
      (s.modifier = none → ∀ m : AccessModifier, s.returnType ≠ m.keyword) ∧
      (' ' ∉ s.methodName ∧ '(' ∉ s.methodName ∧
        (p.whitespace = .collapse → '\t' ∉ s.methodName)) ∧
      (∀ a ∈ s.arguments,
        (∀ word ∈ [a.type, a.name], word ≠ [] ∧ ' ' ∉ word ∧ ',' ∉ word ∧ ')' ∉ word ∧
          (p.whitespace = .collapse → '\t' ∉ word)) ∧
        ∀ c ∈ a.type.head?, isWhitespace c = false) ∧
      ('(' ∉ s.returnType → ')' ∈ s.returnType ∨ ')' ∈ s.methodName → s.arguments = []) := by
  have hlex := lexical_of_parse h
  obtain ⟨hreturn, hreturnTab⟩ := WhitespaceMode.not_mem_of_forall_separates hlex.returnType_chars
  obtain ⟨hname, hnameTab⟩ := WhitespaceMode.not_mem_of_forall_separates
    fun c hc => (hlex.methodName_chars c hc).1
  have hopen : '(' ∉ s.methodName := fun hc => (hlex.methodName_chars _ hc).2 rfl
  refine ⟨raw_of_parse h, ⟨hreturn, fun hmode => ⟨hlex.returnType_ne_nil hmode, hreturnTab hmode⟩⟩,
    ?_, ⟨hname, hopen, hnameTab⟩, ?_, hlex.arguments_eq_nil⟩
  · intro hnone m hkeyword
    have hkey := hlex.returnType_keyword hnone
    rw [hkeyword, AccessModifier.ofKeyword?_keyword] at hkey
    cases hkey
  · intro a ha
    have harg := hlex.arguments a ha
    refine ⟨List.forall_mem_cons.mpr ⟨?_, List.forall_mem_singleton.mpr ?_⟩, harg.type_head⟩
    · exact Text.word_chars harg.type_ne_nil harg.type_chars
    · exact Text.word_chars harg.name_ne_nil harg.name_chars

-- In the first line the list is cut off by a parenthesis in the name, in the second it begins in
-- the return type, so that a piece of the head is its first argument.
theorem form_of_parse_parentheses :
    parse ⟨.collapse, true⟩ "\tpublic)\t n)m(a b)".toList =
        .ok ⟨"\tpublic)\t n)m(a b)".toList, none, "public)".toList, "n)m".toList, []⟩ ∧
      parse ⟨.literal, true⟩ "public t(x \ty,a\u00a0 b c)".toList =
        .ok ⟨"public t(x \ty,a\u00a0 b c)".toList, some .publicAccess, "t(x".toList,
          "\ty,a\u00a0".toList, [⟨['x'], ['\t', 'y']⟩, ⟨['a', '\u00a0'], ['b']⟩]⟩ ∧
      (∀ m : AccessModifier, "public)".toList ≠ m.keyword) ∧
      '\t' ∉ "n)m".toList ∧ ')' ∉ "a\u00a0".toList := by
  have hcollapse : parse ⟨.collapse, true⟩ "\tpublic)\t n)m(a b)".toList =
      .ok ⟨"\tpublic)\t n)m(a b)".toList, none, "public)".toList, "n)m".toList, []⟩ := by
    decide +kernel
  have hliteral : parse ⟨.literal, true⟩ "public t(x \ty,a\u00a0 b c)".toList =
      .ok ⟨"public t(x \ty,a\u00a0 b c)".toList, some .publicAccess, "t(x".toList,
        "\ty,a\u00a0".toList, [⟨['x'], ['\t', 'y']⟩, ⟨['a', '\u00a0'], ['b']⟩]⟩ := by
    decide +kernel
  have hform := form_of_parse hcollapse
  have harguments := (form_of_parse hliteral).2.2.2.2.1 ⟨['a', '\u00a0'], ['b']⟩ (by decide)
  exact ⟨hcollapse, hliteral, hform.2.2.1 rfl, hform.2.2.2.1.2.2 rfl,
    (harguments.1 ['a', '\u00a0'] (by decide)).2.2.2.1⟩

end Parser

end SignatureLine
