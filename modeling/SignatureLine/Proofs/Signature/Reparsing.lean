import SignatureLine.Proofs.Signature.Display

/-!
# Parsing the display again

What a parser makes of the display of a record it has returned: a tolerant parser loses the
arguments whose name is blank, a strict one rejects the first of them, and nothing else changes but
the white space at the end of names.  Then the record stays as it is, however often it is displayed
and parsed.
-/

namespace SignatureLine

open Text (trim trimEnd parameters)

/-! ## One more parse -/

namespace WhitespaceMode

variable {mode : WhitespaceMode} {args : List Argument}

theorem arguments_map_display (h : ∀ a ∈ args, a.Lexical mode) :
    mode.arguments (args.map (trim ·.display)) =
      (args.filter (!·.isBlankNamed)).map Argument.trimName := by
  induction args with
  | nil => rfl
  | cons a args ih =>
    have hrest := ih fun b hb => h b (List.mem_cons_of_mem _ hb)
    have hargument := Argument.argument?_trim_display (h a List.mem_cons_self)
    rw [List.map_cons]
    by_cases hname : a.isBlankNamed = true
    · rw [if_pos hname] at hargument
      rw [arguments_cons_of_none hargument, hrest, List.filter_cons_of_neg (by simp [hname])]
    · rw [if_neg hname] at hargument
      rw [arguments_cons_of_some hargument, hrest, List.filter_cons_of_pos (by simp [hname]),
        List.map_cons]

theorem incomplete_map_display (h : ∀ a ∈ args, a.Lexical mode) :
    mode.incomplete (args.map (trim ·.display)) =
      (args.filter (·.isBlankNamed)).map (trimEnd ·.type) := by
  induction args with
  | nil => rfl
  | cons a args ih =>
    have hrest := ih fun b hb => h b (List.mem_cons_of_mem _ hb)
    have hlex := h a List.mem_cons_self
    have hargument := Argument.argument?_trim_display hlex
    rw [List.map_cons]
    by_cases hname : a.isBlankNamed = true
    · rw [if_pos hname] at hargument
      rw [incomplete_cons_of_none hargument, hrest, List.filter_cons_of_pos hname, List.map_cons,
        Argument.trim_display hlex, if_pos hname]
    · rw [if_neg hname] at hargument
      rw [incomplete_cons_of_some hargument, hrest, List.filter_cons_of_neg hname]

end WhitespaceMode

/-- What is left of a record after it was displayed and parsed again. -/
def Signature.reparsed (s : Signature) : Signature :=
  { s with
    raw := s.display
    arguments := (s.arguments.filter (!·.isBlankNamed)).map Argument.trimName }

theorem Signature.reparsed_eq_of_names {s : Signature}
    (h : ∀ a ∈ s.arguments, a.isBlankNamed = false ∧ a.trimName = a) :
    s.reparsed = { s with raw := s.display } := by
  have hfilter : s.arguments.filter (!·.isBlankNamed) = s.arguments :=
    List.filter_eq_self.mpr fun a ha => by simp [(h a ha).1]
  have hmap : s.arguments.map Argument.trimName = s.arguments :=
    (List.map_congr_left fun a ha => (h a ha).2).trans (List.map_id _)
  rw [reparsed, hfilter, hmap]

namespace Parser

variable {p : Parser} {s : Signature}

theorem signatureOf_display (h : s.Lexical p.whitespace) (hopen : '(' ∉ s.returnType) :
    p.signatureOf s.display ⟨s.modifier, s.returnType, s.methodName⟩ = s.reparsed := by
  rw [signatureOf, Signature.parameters_display h hopen,
    WhitespaceMode.arguments_map_display h.arguments]
  rfl

theorem parseLogged_display (h : s.Lexical p.whitespace) (hopen : '(' ∉ s.returnType)
    (hnames : p.strict = false ∨ ∀ a ∈ s.arguments, a.isBlankNamed = false) :
    p.parseLogged s.display =
      ⟨.ok s.reparsed,
        (s.arguments.filter (·.isBlankNamed)).map
            (fun a => .droppedArgument (trimEnd a.type) s.display) ++
          [.parsed s.methodName s.reparsed.arguments.length]⟩ := by
  have hincomplete := WhitespaceMode.incomplete_map_display h.arguments
  have harguments := WhitespaceMode.arguments_map_display h.arguments
  rw [← Signature.parameters_display h hopen] at hincomplete harguments
  have hok : p.strict = false ∨ p.whitespace.incomplete (parameters s.display) = [] := by
    refine hnames.imp_right fun hnames => ?_
    rw [hincomplete, List.filter_eq_nil_iff.mpr fun a ha => by simp [hnames a ha]]
    rfl
  rw [parseLogged_of_head (Signature.read_tokens_display h) hok, signatureOf_display h hopen,
    hincomplete, harguments, List.map_map]
  rfl

theorem parse_display (h : s.Lexical p.whitespace) (hopen : '(' ∉ s.returnType)
    (hnames : p.strict = false ∨ ∀ a ∈ s.arguments, a.isBlankNamed = false) :
    p.parse s.display = .ok s.reparsed := by
  rw [parse, parseLogged_display h hopen hnames]

theorem parse_display_of_blankNamed (h : s.Lexical p.whitespace) (hopen : '(' ∉ s.returnType)
    (hstrict : p.strict = true) {a : Argument}
    (ha : s.arguments.find? (·.isBlankNamed) = some a) :
    p.parse s.display = .error (.malformedArgument s.display (trimEnd a.type)) := by
  have hincomplete := WhitespaceMode.incomplete_map_display h.arguments
  rw [← Signature.parameters_display h hopen] at hincomplete
  -- the first argument of this kind gives the first token without a name
  rw [← List.head?_filter] at ha
  obtain ⟨rest, hrest⟩ := List.head?_eq_some_iff.mp ha
  rw [hrest, List.map_cons] at hincomplete
  rw [parse, parseLogged_of_incomplete (Signature.read_tokens_display h) hstrict hincomplete]

/-! ## Any number of parses -/

theorem isBlankNamed_of_reparsed (s : Signature) :
    ∀ a ∈ s.reparsed.arguments, a.isBlankNamed = false ∧ a.trimName = a := by
  intro a ha
  obtain ⟨b, hb, rfl⟩ := List.mem_map.mp ha
  have hname : b.isBlankNamed = false := by simpa using (List.mem_filter.mp hb).2
  exact ⟨by rw [Argument.isBlankNamed_trimName, hname], b.trimName_trimName⟩

theorem lexical_reparsed {mode : WhitespaceMode} (h : s.Lexical mode) :
    s.reparsed.Lexical mode := by
  refine ⟨h.returnType_ne_nil, h.returnType_chars, h.returnType_keyword, h.methodName_chars, ?_, ?_⟩
  · intro a ha
    obtain ⟨b, hb, rfl⟩ := List.mem_map.mp ha
    obtain ⟨hmem, hname⟩ := List.mem_filter.mp hb
    exact Argument.lexical_trimName (h.arguments b hmem) (by simpa using hname)
  · intro hopen hclose
    have hnil := h.arguments_eq_nil hopen hclose
    rw [Signature.reparsed, hnil]
    rfl

-- Nothing is taken from a record twice.
theorem reparsed_reparsed (s : Signature) :
    s.reparsed.reparsed = { s.reparsed with raw := s.reparsed.display } :=
  Signature.reparsed_eq_of_names (isBlankNamed_of_reparsed s)

-- Each further parse gives one and the same record.
theorem parseRepeatedly_display (h : s.Lexical p.whitespace) (hopen : '(' ∉ s.returnType)
    (n : Nat) :
    p.parseRepeatedly n s.reparsed.display =
      List.replicate n (.ok { s.reparsed with raw := s.reparsed.display }) := by
  have hparse : p.parse s.reparsed.display = .ok { s.reparsed with raw := s.reparsed.display } := by
    rw [parse_display (lexical_reparsed h) hopen
      (.inr fun a ha => (isBlankNamed_of_reparsed s a ha).1), reparsed_reparsed]
  induction n with
  | zero => rfl
  | succ n ih =>
    rw [parseRepeatedly, hparse, List.replicate_succ, ← ih]
    rfl

/-- The display of a parsed record, parsed again by the same parser, if the return type holds no
opening parenthesis. -/
theorem parse_display_of_parse {line : Text} (h : p.parse line = .ok s)
    (hopen : '(' ∉ s.returnType) :
    (p.strict = false ∨ (∀ a ∈ s.arguments, a.isBlankNamed = false) →
        p.parse s.display = .ok s.reparsed ∧
          ∀ n, p.parseRepeatedly n s.reparsed.display =
            List.replicate n (.ok { s.reparsed with raw := s.reparsed.display })) ∧
      (p.strict = true → ∀ a, s.arguments.find? (·.isBlankNamed) = some a →
        p.parse s.display = .error (.malformedArgument s.display (trimEnd a.type))) := by
  have hlex := lexical_of_parse h
  constructor
  · intro hnames
    exact ⟨parse_display hlex hopen hnames, parseRepeatedly_display hlex hopen⟩
  · intro hstrict a ha
    exact parse_display_of_blankNamed hlex hopen hstrict ha

/-- A line with a tab at the end of one name and a tab for another. -/
def tabbedLine : Text :=
  "t x(a b\t c, d\u00a0 \t e, (g h)".toList

def tabbedSignature : Signature :=
  ⟨tabbedLine, none, ['t'], ['x'],
    [⟨['a'], ['b', '\t']⟩, ⟨['d', '\u00a0'], ['\t']⟩, ⟨['(', 'g'], ['h']⟩]⟩

theorem parse_display_tabbed :
    (∀ strict, parse ⟨.literal, strict⟩ tabbedLine = .ok tabbedSignature) ∧
      parse ⟨.literal, false⟩ tabbedSignature.display = .ok tabbedSignature.reparsed ∧
      parse ⟨.literal, true⟩ tabbedSignature.display =
        .error (.malformedArgument tabbedSignature.display ['d']) := by
  have hparse : ∀ strict, parse ⟨.literal, strict⟩ tabbedLine = .ok tabbedSignature := by
    decide +kernel
  refine ⟨hparse, ?_, ?_⟩
  · exact ((parse_display_of_parse (hparse false) (by decide)).1 (.inl rfl)).1
  · exact (parse_display_of_parse (hparse true) (by decide)).2 rfl
      ⟨['d', '\u00a0'], ['\t']⟩ (by decide +kernel)

end Parser

end SignatureLine
