import SignatureLine.Proofs.Signature.Head
import SignatureLine.Proofs.Signature.Parsing

/-!
# A keyword in front of a line

A keyword and a space in front of a line are one more token before the tokens of the line.  If the
line is read without a modifier, then with the keyword it is read with one, and as the same in all
else.
-/

namespace SignatureLine

open Text (parameterText parameters)

/-! ## The list -/

namespace Text

-- Without parentheses a text in front moves the list and changes nothing in it.
theorem parameterText_append_left {front : Text} (hopen : '(' ∉ front) (hclose : ')' ∉ front)
    (s : Text) : parameterText (front ++ s) = parameterText s := by
  rcases parameterList_cases s with ⟨p, q, r, hp, hp', hq, rfl⟩ | hs | ⟨p, r, hp, rfl⟩
  · rw [← List.append_assoc, parameterText_of_list (by simp [hopen, hp]) (by simp [hclose, hp']) hq,
      parameterText_of_list hp hp' hq]
  · rw [parameterText_of_not_mem hs, parameterText_of_not_mem (by simp [hclose, hs])]
  · rw [← List.append_assoc, parameterText_of_closed (by simp [hopen, hp]),
      parameterText_of_closed hp]

theorem parameters_keyword_append (m : AccessModifier) (line : Text) :
    parameters (m.keyword ++ ' ' :: line) = parameters line := by
  have hopen : '(' ∉ m.keyword ++ [' '] := by cases m <;> decide
  have hclose : ')' ∉ m.keyword ++ [' '] := by cases m <;> decide
  rw [parameters, List.append_cons, parameterText_append_left hopen hclose, parameters]

end Text

/-! ## The head -/

theorem AccessModifier.keyword_ne_nil (m : AccessModifier) : m.keyword ≠ [] := by
  cases m <;> decide

theorem AccessModifier.ofKeyword?_eq_none_iff {s : Text} :
    ofKeyword? s = none ↔ ∀ m : AccessModifier, s ≠ m.keyword := by
  constructor
  · rintro h m rfl
    simp at h
  · intro h
    cases hs : ofKeyword? s with
    | none => rfl
    | some m => exact absurd (ofKeyword?_eq_some_iff.mp hs) (h m)

-- The space behind the keyword is the one that ends its token.
theorem WhitespaceMode.tokens_keyword_append_iff {mode : WhitespaceMode} {m : AccessModifier}
    {line t : Text} {rest : List Text} :
    mode.tokens (m.keyword ++ ' ' :: line) = m.keyword :: t :: rest ↔
      mode.tokens line = t :: rest := by
  have hkeyword := mode.separates_keyword m
  constructor
  · intro h
    obtain ⟨gap, after, hgap, hline, hnext⟩ := exists_eq_append_of_tokens h
    obtain ⟨c, s, -, rfl, hs⟩ := hnext (List.cons_ne_nil t rest)
    obtain rfl : gap = [] := by
      cases gap with
      | nil => rfl
      | cons d gap =>
        -- the line begins with the keyword, and not with a gap
        obtain ⟨first, word, hword⟩ := List.exists_cons_of_ne_nil m.keyword_ne_nil
        rw [hword] at hline hkeyword
        obtain ⟨rfl, -⟩ := List.cons.inj hline
        have hfirst := hkeyword _ List.mem_cons_self
        rw [hgap _ List.mem_cons_self] at hfirst
        cases hfirst
    obtain ⟨-, rfl⟩ := List.cons.inj (List.append_cancel_left hline)
    exact hs
  · intro h
    have hne : mode.tokens line ≠ [] := by
      rw [h]
      exact List.cons_ne_nil t rest
    rw [tokens_append_space hkeyword (fun _ => m.keyword_ne_nil) hne, h]

theorem Head.read_keyword_append_iff {mode : WhitespaceMode} {m : AccessModifier}
    {line returnType methodName : Text} :
    read (mode.tokens (m.keyword ++ ' ' :: line)) = .ok ⟨some m, returnType, methodName⟩ ∧
        AccessModifier.ofKeyword? returnType = none ↔
      read (mode.tokens line) = .ok ⟨none, returnType, methodName⟩ := by
  rw [read_eq_ok_iff, read_eq_ok_iff]
  constructor
  · rintro ⟨⟨nameToken, rest, htokens, -, hname⟩, hkey⟩
    exact ⟨nameToken, rest, WhitespaceMode.tokens_keyword_append_iff.mp htokens, fun _ => hkey,
      hname⟩
  · rintro ⟨nameToken, rest, htokens, hkey, hname⟩
    exact ⟨⟨nameToken, rest, WhitespaceMode.tokens_keyword_append_iff.mpr htokens, nofun, hname⟩,
      hkey rfl⟩

namespace Parser

/-- The line is accepted, with these parts. -/
def Accepts (p : Parser) (line : Text) (modifier : Option AccessModifier)
    (returnType methodName : Text) (arguments : List Argument) : Prop :=
  ∃ raw, p.parse line = .ok ⟨raw, modifier, returnType, methodName, arguments⟩

variable {p : Parser} {line returnType methodName : Text} {modifier : Option AccessModifier}
  {arguments : List Argument}

theorem accepts_iff :
    p.Accepts line modifier returnType methodName arguments ↔
      Head.read (p.whitespace.tokens line) = .ok ⟨modifier, returnType, methodName⟩ ∧
        (p.strict = false ∨ p.whitespace.incomplete (parameters line) = []) ∧
          arguments = p.whitespace.arguments (parameters line) := by
  constructor
  · rintro ⟨raw, hparse⟩
    obtain ⟨head, hhead, hok, hs⟩ := parse_eq_ok_iff.mp hparse
    obtain ⟨-, rfl, rfl, rfl, rfl⟩ := Signature.mk.inj hs
    exact ⟨hhead, hok, rfl⟩
  · rintro ⟨hhead, hok, rfl⟩
    exact ⟨line, parse_of_head hhead hok⟩

/-- A keyword in front is the modifier of a line that has none, and nothing else changes; and a line
that is read so behind a keyword has no modifier of its own, unless its first token is a keyword. -/
theorem accepts_keyword_append_iff (p : Parser) (m : AccessModifier)
    (line returnType methodName : Text) (arguments : List Argument) :
    p.Accepts (m.keyword ++ ' ' :: line) (some m) returnType methodName arguments ∧
        (∀ m' : AccessModifier, returnType ≠ m'.keyword) ↔
      p.Accepts line none returnType methodName arguments := by
  rw [accepts_iff, accepts_iff, ← Head.read_keyword_append_iff (m := m),
    ← AccessModifier.ofKeyword?_eq_none_iff, Text.parameters_keyword_append]
  exact and_right_comm

-- A line that begins with a keyword takes another one in front as its modifier, and its own as the
-- return type; alone it lacks a name.
example :
    parse ⟨.literal, false⟩ "public private f()".toList =
        .ok ⟨"public private f()".toList, some .publicAccess, "private".toList, ['f'], []⟩ ∧
      parse ⟨.literal, false⟩ "private f()".toList =
        .error (.malformedSignature "private f()".toList .methodName) := by
  decide +kernel

end Parser

end SignatureLine
