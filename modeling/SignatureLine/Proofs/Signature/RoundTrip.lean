import SignatureLine.Proofs.Signature.Reparsing

/-!
# Records that are read back as they are

On well-formed records every parser inverts the display.  The conditions do not mention a parser:
such a record has the form of a parsed one in both whitespace modes.
-/

namespace SignatureLine

open Text (isWhitespace)

/-- Type and name are words in either mode, and trimming the argument takes nothing away. -/
structure Argument.WellFormed (a : Argument) : Prop where
  type_ne_nil : a.type ≠ []
  type_chars : ∀ c ∈ a.type, c ≠ ' ' ∧ c ≠ '\t' ∧ c ≠ ',' ∧ c ≠ ')'
  type_head : ∀ c ∈ a.type.head?, isWhitespace c = false
  name_ne_nil : a.name ≠ []
  name_chars : ∀ c ∈ a.name, c ≠ ' ' ∧ c ≠ '\t' ∧ c ≠ ',' ∧ c ≠ ')'
  name_getLast : ∀ c ∈ a.name.getLast?, isWhitespace c = false

/-- Return type and name are words without parentheses.  The name may be empty; a return type that
looks like a modifier needs a modifier before it. -/
structure Signature.WellFormed (s : Signature) : Prop where
  returnType_ne_nil : s.returnType ≠ []
  returnType_chars : ∀ c ∈ s.returnType, c ≠ ' ' ∧ c ≠ '\t' ∧ c ≠ '(' ∧ c ≠ ')'
  returnType_keyword : s.modifier = none → ∀ m : AccessModifier, s.returnType ≠ m.keyword
  methodName_chars : ∀ c ∈ s.methodName, c ≠ ' ' ∧ c ≠ '\t' ∧ c ≠ '(' ∧ c ≠ ')'
  arguments : ∀ a ∈ s.arguments, a.WellFormed

namespace Argument.WellFormed

variable {a : Argument}

theorem lexical (h : a.WellFormed) (mode : WhitespaceMode) : a.Lexical mode where
  type_ne_nil := h.type_ne_nil
  type_chars c hc := by
    obtain ⟨hspace, htab, hrest⟩ := h.type_chars c hc
    exact ⟨mode.separates_eq_false ⟨hspace, htab⟩, hrest⟩
  type_head := h.type_head
  name_ne_nil := h.name_ne_nil
  name_chars c hc := by
    obtain ⟨hspace, htab, hrest⟩ := h.name_chars c hc
    exact ⟨mode.separates_eq_false ⟨hspace, htab⟩, hrest⟩

theorem trimName_eq (h : a.WellFormed) : a.trimName = a := by
  rw [trimName, Text.trimEnd, dropEndWhile_eq_self h.name_getLast]

theorem isBlankNamed_eq (h : a.WellFormed) : a.isBlankNamed = false := by
  have hname : Text.trimEnd a.name = a.name := dropEndWhile_eq_self h.name_getLast
  by_contra hblank
  apply h.name_ne_nil
  rw [← hname]
  exact isBlankNamed_iff.mp (by simpa using hblank)

end Argument.WellFormed

namespace Signature.WellFormed

variable {s : Signature}

theorem lexical (h : s.WellFormed) (mode : WhitespaceMode) : s.Lexical mode where
  returnType_ne_nil _ := h.returnType_ne_nil
  returnType_chars c hc := by
    obtain ⟨hspace, htab, -⟩ := h.returnType_chars c hc
    exact mode.separates_eq_false ⟨hspace, htab⟩
  returnType_keyword hnone := by
    cases hkey : AccessModifier.ofKeyword? s.returnType with
    | none => rfl
    | some m =>
      have heq := AccessModifier.ofKeyword?_eq_some_iff.mp hkey
      exact absurd heq (h.returnType_keyword hnone m)
  methodName_chars c hc := by
    obtain ⟨hspace, htab, hopen, -⟩ := h.methodName_chars c hc
    exact ⟨mode.separates_eq_false ⟨hspace, htab⟩, hopen⟩
  arguments a ha := (h.arguments a ha).lexical mode
  arguments_eq_nil _ hclose := by
    -- a well-formed head has no closing parenthesis
    rcases hclose with hclose | hclose
    · exact absurd rfl (h.returnType_chars _ hclose).2.2.2
    · exact absurd rfl (h.methodName_chars _ hclose).2.2.2

theorem reparsed_eq (h : s.WellFormed) : s.reparsed = { s with raw := s.display } :=
  reparsed_eq_of_names fun a ha =>
    ⟨(h.arguments a ha).isBlankNamed_eq, (h.arguments a ha).trimName_eq⟩

theorem parseLogged_eq (h : s.WellFormed) (p : Parser) :
    p.parseLogged s.display =
      ⟨.ok { s with raw := s.display }, [.parsed s.methodName s.arguments.length]⟩ := by
  have hnames : ∀ a ∈ s.arguments, a.isBlankNamed = false :=
    fun a ha => (h.arguments a ha).isBlankNamed_eq
  have hopen : '(' ∉ s.returnType := fun hc => (h.returnType_chars _ hc).2.2.1 rfl
  have hblank : s.arguments.filter (·.isBlankNamed) = [] :=
    List.filter_eq_nil_iff.mpr fun a ha => by simp [hnames a ha]
  rw [Parser.parseLogged_display (h.lexical p.whitespace) hopen (.inr hnames), hblank,
    h.reparsed_eq]
  rfl

end Signature.WellFormed

namespace Parser

/-- Each parser reads a well-formed record from its display, with no event but the last.  So the
display tells such records apart, but for the line that they were read from. -/
theorem parseLogged_display_of_wellFormed {s : Signature} (h : s.WellFormed) :
    (∀ p : Parser, p.parseLogged s.display =
        ⟨.ok { s with raw := s.display }, [.parsed s.methodName s.arguments.length]⟩) ∧
      ∀ t : Signature, t.WellFormed → t.display = s.display → { t with raw := s.raw } = s := by
  refine ⟨h.parseLogged_eq, fun t ht heq => ?_⟩
  -- a parser reads both records from their one display
  have hs := h.parseLogged_eq {}
  rw [← heq, ht.parseLogged_eq] at hs
  have hrecord := Except.ok.inj (congrArg Logged.value hs)
  calc
    { t with raw := s.raw } = { { t with raw := t.display } with raw := s.raw } := rfl
    _ = { { s with raw := t.display } with raw := s.raw } := by rw [hrecord]
    _ = s := rfl

-- No name, a keyword for a return type, parentheses and white space inside arguments.
theorem parseLogged_display_nameless :
    (⟨[], some .publicAccess, "private".toList, [],
        [⟨['('], ['(', '\u00a0', 'b']⟩, ⟨['x', '\n'], ['\u2003', 'y']⟩]⟩ : Signature).WellFormed ∧
      ∀ p : Parser, p.parseLogged "public private (( (\u00a0b, x\n \u2003y)".toList =
        ⟨.ok ⟨"public private (( (\u00a0b, x\n \u2003y)".toList, some .publicAccess,
            "private".toList, [], [⟨['('], ['(', '\u00a0', 'b']⟩, ⟨['x', '\n'], ['\u2003', 'y']⟩]⟩,
          [.parsed [] 2]⟩ := by
  have h : (⟨[], some .publicAccess, "private".toList, [],
      [⟨['('], ['(', '\u00a0', 'b']⟩, ⟨['x', '\n'], ['\u2003', 'y']⟩]⟩ : Signature).WellFormed := by
    refine ⟨by decide, by simp, nofun, nofun, fun a ha => ?_⟩
    rcases List.mem_cons.mp ha with rfl | ha
    · constructor <;> simp <;> decide
    · obtain rfl := List.mem_singleton.mp ha
      constructor <;> simp <;> decide
  exact ⟨h, (parseLogged_display_of_wellFormed h).1⟩

end Parser

end SignatureLine
