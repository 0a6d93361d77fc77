import SignatureLine.Proofs.Signature.Head
import SignatureLine.Proofs.Signature.Parsing

/-!
# Head and list of a line

A line with a parameter list factors at its opening parenthesis: the head is that of the text up to
the parenthesis, and what becomes of the list depends on the text between the parentheses alone.
-/

namespace SignatureLine

open Text (parameterTokens parameters parameterText trim)

/-! ## The two factors -/

theorem Head.read_tokens_append {mode : WhitespaceMode} {front : Text} {head : Head}
    (h : Head.read (mode.tokens (front ++ ['('])) = .ok head) (t : Text) :
    Head.read (mode.tokens (front ++ '(' :: t)) = .ok head := by
  have hopen : mode.separates '(' = false := by cases mode <;> rfl
  obtain ⟨before, last, htokens⟩ := WhitespaceMode.tokens_append_cons hopen front
  obtain ⟨u, rest, hshort, hnil⟩ := htokens []
  obtain ⟨rfl, rfl⟩ := hnil rfl
  obtain ⟨u, rest, hlong, -⟩ := htokens t
  rw [hshort] at h
  rw [hlong]
  exact Head.read_append_cons h u rest

/-! ## Where the head stands -/

-- The return type and the name stand in the line as they are, with a gap between them, and there is
-- no parenthesis before them.
theorem Head.exists_eq_append_of_read {mode : WhitespaceMode} {line : Text} {head : Head}
    (h : Head.read (mode.tokens line) = .ok head) :
    ∃ front gap back,
      line = front ++ (head.returnType ++ (gap ++ (head.methodName ++ back))) ∧
        '(' ∉ front ∧ ')' ∉ front ∧ gap ≠ [] ∧ ∀ c ∈ gap, mode.separates c = true := by
  obtain ⟨nameToken, rest, htokens, -, hname⟩ := Head.read_eq_ok_iff.mp h
  rw [Text.trimUntil_eq_takeWhile] at hname
  have hnameToken : nameToken = head.methodName ++ nameToken.dropWhile (· != '(') := by
    rw [hname, List.takeWhile_append_dropWhile]
  have hparen : ∀ {gap : Text}, (∀ c ∈ gap, mode.separates c = true) → '(' ∉ gap ∧ ')' ∉ gap :=
    fun hgap => ⟨WhitespaceMode.not_mem_of_separates hgap (by decide),
      WhitespaceMode.not_mem_of_separates hgap (by decide)⟩
  -- the text behind the modifier begins with the return type and the name
  have hbody : ∀ {s : Text}, mode.tokens s = head.returnType :: nameToken :: rest →
      ∃ before gap back, s = before ++ (head.returnType ++ (gap ++ (head.methodName ++ back))) ∧
        '(' ∉ before ∧ ')' ∉ before ∧ gap ≠ [] ∧ ∀ c ∈ gap, mode.separates c = true := by
    intro s hs
    obtain ⟨before, after, hbefore, rfl, hnext⟩ := WhitespaceMode.exists_eq_append_of_tokens hs
    obtain ⟨c, t, hc, rfl, ht⟩ := hnext (List.cons_ne_nil _ _)
    obtain ⟨gap, back, hgap, rfl, -⟩ := WhitespaceMode.exists_eq_append_of_tokens ht
    refine ⟨before, c :: gap, nameToken.dropWhile (· != '(') ++ back, ?_, (hparen hbefore).1,
      (hparen hbefore).2, List.cons_ne_nil c gap, List.forall_mem_cons.mpr ⟨hc, hgap⟩⟩
    rw [← List.append_assoc head.methodName, ← hnameToken, List.cons_append]
  cases hmodifier : head.modifier with
  | none =>
    rw [hmodifier] at htokens
    exact hbody htokens
  | some m =>
    rw [hmodifier] at htokens
    obtain ⟨first, after, hfirst, rfl, hnext⟩ := WhitespaceMode.exists_eq_append_of_tokens htokens
    obtain ⟨c, t, hc, rfl, ht⟩ := hnext (List.cons_ne_nil _ _)
    obtain ⟨before, gap, back, rfl, hopen, hclose, hgap⟩ := hbody ht
    have hkeyword : '(' ∉ m.keyword ∧ ')' ∉ m.keyword := by cases m <;> decide
    obtain ⟨hfirstOpen, hfirstClose⟩ := hparen hfirst
    obtain ⟨hcOpen, hcClose⟩ := hparen (List.forall_mem_singleton.mpr hc)
    refine ⟨first ++ (m.keyword ++ ([c] ++ before)), gap, back, by simp, ?_, ?_, hgap⟩
    · simp only [List.mem_append, not_or]
      exact ⟨hfirstOpen, hkeyword.1, hcOpen, hopen⟩
    · simp only [List.mem_append, not_or]
      exact ⟨hfirstClose, hkeyword.2, hcClose, hclose⟩

namespace Parser

/-- What a parser makes of the text between the parentheses: the arguments, or the first token that
it does not put up with. -/
def readList (p : Parser) (list : Text) : Except Text (List Argument) :=
  let tokens := parameterTokens (trim list)
  match if p.strict then p.whitespace.incomplete tokens else [] with
  | token :: _ => .error token
  | [] => .ok (p.whitespace.arguments tokens)

variable {p : Parser} {line list : Text} {head : Head}

-- The record or the error of a line, by its head and by the text of its list.
theorem parse_eq_readList (hhead : Head.read (p.whitespace.tokens line) = .ok head)
    (hlist : parameterText line = trim list) :
    p.parse line =
      match p.readList list with
      | .ok arguments => .ok ⟨line, head.modifier, head.returnType, head.methodName, arguments⟩
      | .error token => .error (.malformedArgument line token) := by
  have hparameters : parameters line = parameterTokens (trim list) := by rw [parameters, hlist]
  unfold readList
  rw [← hparameters]
  cases hstrict : p.strict with
  | false => exact parse_of_head hhead (.inl hstrict)
  | true =>
    dsimp only
    rw [if_pos rfl]
    cases hinc : p.whitespace.incomplete (parameters line) with
    | nil => exact parse_of_head hhead (.inr hinc)
    | cons token rest => rw [parse, parseLogged_of_incomplete hhead hstrict hinc]

/-! ## The whole line -/

/-- A line with a parameter list, by the parse of its text up to the opening parenthesis and by
what the parser makes of the list.  What follows the list does not matter, what stands before it
does not change the arguments, and the list does not change the head. -/
theorem parse_append_list {front : Text} {s : Signature} (hopen : '(' ∉ front)
    (hclose : ')' ∉ front) (h : p.parse (front ++ ['(']) = .ok s) (list : Text)
    (hlist : ')' ∉ list) (back : Text) :
    p.parse (front ++ '(' :: (list ++ ')' :: back)) =
      match p.readList list with
      | .ok arguments =>
          .ok ⟨front ++ '(' :: (list ++ ')' :: back), s.modifier, s.returnType, s.methodName,
            arguments⟩
      | .error token =>
          .error (.malformedArgument (front ++ '(' :: (list ++ ')' :: back)) token) := by
  obtain ⟨head, hhead, -, rfl⟩ := parse_eq_ok_iff.mp h
  exact parse_eq_readList (Head.read_tokens_append hhead _)
    (Text.parameterText_of_list hopen hclose hlist back)

-- The keyword is a modifier before the list and with it, and the token of the name runs on into the
-- list.  Both lists are read alike behind any other head, and whatever comes after them.
theorem parse_append_list_keyword :
    parse ⟨.collapse, true⟩ "public\tint  f(".toList =
        .ok ⟨"public\tint  f(".toList, some .publicAccess, "int".toList, ['f'], []⟩ ∧
      readList ⟨.collapse, true⟩ "(\u00a0\ta ,b c".toList =
        .ok [⟨['(', '\u00a0'], ['a']⟩, ⟨['b'], ['c']⟩] ∧
      readList ⟨.collapse, true⟩ "a b,\u00a0,c".toList = .error [] ∧
      parse ⟨.collapse, true⟩ "public\tint  f((\u00a0\ta ,b c) (d)".toList =
        .ok ⟨"public\tint  f((\u00a0\ta ,b c) (d)".toList, some .publicAccess, "int".toList, ['f'],
          [⟨['(', '\u00a0'], ['a']⟩, ⟨['b'], ['c']⟩]⟩ ∧
      parse ⟨.collapse, true⟩ "public\tint  f(a b,\u00a0,c) (d)".toList =
        .error (.malformedArgument "public\tint  f(a b,\u00a0,c) (d)".toList []) := by
  have hfront : parse ⟨.collapse, true⟩ ("public\tint  f".toList ++ ['(']) =
      .ok ⟨"public\tint  f(".toList, some .publicAccess, "int".toList, ['f'], []⟩ := by
    decide +kernel
  have hlist : readList ⟨.collapse, true⟩ "(\u00a0\ta ,b c".toList =
      .ok [⟨['(', '\u00a0'], ['a']⟩, ⟨['b'], ['c']⟩] := by
    decide +kernel
  have hrefused : readList ⟨.collapse, true⟩ "a b,\u00a0,c".toList = .error [] := by
    decide +kernel
  refine ⟨hfront, hlist, hrefused, ?_, ?_⟩
  · have hparse := parse_append_list (by decide) (by decide) hfront
      "(\u00a0\ta ,b c".toList (by decide) " (d)".toList
    rw [hlist] at hparse
    exact hparse
  · have hparse := parse_append_list (by decide) (by decide) hfront
      "a b,\u00a0,c".toList (by decide) " (d)".toList
    rw [hrefused] at hparse
    exact hparse

end Parser

end SignatureLine
