import SignatureLine.Proofs.Signature.Lexical

/-!
# Reading a displayed record

The display of a record that has the form of a parsed one is read back part by part: the head as it
is, and for each argument one token, which is its display without the white space at the end of the
name.  An argument whose name is nothing but white space is thereby left without a name.
-/

namespace SignatureLine

open Text (isWhitespace trim trimEnd parameters parameterText)

/-! ## Arguments -/

namespace Argument

/-- Whether the name is nothing but white space. -/
def isBlankNamed (a : Argument) : Bool :=
  a.name.all isWhitespace

/-- The argument without the white space at the end of its name. -/
def trimName (a : Argument) : Argument :=
  { a with name := trimEnd a.name }

variable {mode : WhitespaceMode} {a : Argument}

theorem isBlankNamed_iff : a.isBlankNamed = true ↔ trimEnd a.name = [] := by
  rw [isBlankNamed, List.all_eq_true, trimEnd, dropEndWhile_eq_nil_iff]

theorem trimName_trimName (a : Argument) : a.trimName.trimName = a.trimName := by
  rw [trimName, trimName, Text.trimEnd_trimEnd]

theorem isBlankNamed_trimName (a : Argument) : a.trimName.isBlankNamed = a.isBlankNamed := by
  rw [Bool.eq_iff_iff, isBlankNamed_iff, isBlankNamed_iff, trimName, Text.trimEnd_trimEnd]

theorem trim_display (h : a.Lexical mode) :
    trim a.display = if a.isBlankNamed then trimEnd a.type else a.trimName.display := by
  have hhead : ∀ c ∈ a.display.head?, isWhitespace c = false := by
    intro c hc
    rw [display, List.head?_append_of_ne_nil _ h.type_ne_nil] at hc
    exact h.type_head c hc
  rw [Text.trim_eq_trimEnd hhead, display, List.append_cons, Text.trimEnd_append]
  by_cases hname : a.isBlankNamed = true
  · -- the space before a blank name goes with it
    rw [if_pos (isBlankNamed_iff.mp hname), if_pos hname, Text.trimEnd_append, if_pos (by decide)]
  · rw [if_neg (mt isBlankNamed_iff.mpr hname), if_neg hname, ← List.append_cons]
    rfl

theorem trimEnd_type_ne_nil (h : a.Lexical mode) : trimEnd a.type ≠ [] := by
  intro hnil
  obtain ⟨c, type, htype⟩ := List.exists_cons_of_ne_nil h.type_ne_nil
  have hc := h.type_head c (by rw [htype]; rfl)
  rw [dropEndWhile_eq_nil_iff.mp hnil c (by rw [htype]; exact List.mem_cons_self)] at hc
  cases hc

theorem trim_display_ne_nil (h : a.Lexical mode) : trim a.display ≠ [] := by
  rw [trim_display h]
  by_cases hname : a.isBlankNamed = true
  · rw [if_pos hname]
    exact trimEnd_type_ne_nil h
  · rw [if_neg hname, display]
    exact List.append_ne_nil_of_left_ne_nil h.type_ne_nil _

-- The argument without the white space at the end of a name that is more than white space.
theorem lexical_trimName (h : a.Lexical mode) (hname : a.isBlankNamed = false) :
    a.trimName.Lexical mode := by
  refine ⟨h.type_ne_nil, h.type_chars, h.type_head, ?_, fun c hc => h.name_chars c ?_⟩
  · exact mt isBlankNamed_iff.mpr (by simp [hname])
  · exact dropEndWhile_subset _ _ hc

theorem argument?_trim_display (h : a.Lexical mode) :
    mode.argument? (trim a.display) = if a.isBlankNamed then none else some a.trimName := by
  rw [trim_display h]
  by_cases hname : a.isBlankNamed = true
  · rw [if_pos hname, if_pos hname]
    apply WhitespaceMode.argument?_of_forall
    exact fun c hc => (h.type_chars c (dropEndWhile_subset _ _ hc)).1
  · have htrim := lexical_trimName h (by simpa using hname)
    rw [if_neg hname, if_neg hname]
    exact WhitespaceMode.argument?_append_cons mode.separates_space htrim.type_ne_nil
      (fun c hc => (htrim.type_chars c hc).1) htrim.name_ne_nil
      (fun c hc => (htrim.name_chars c hc).1)

end Argument

/-! ## The list of arguments -/

namespace Signature

variable {mode : WhitespaceMode}

theorem splitOnP_displayArguments {args : List Argument} (hne : args ≠ [])
    (h : ∀ a ∈ args, a.Lexical mode) :
    ((displayArguments args).splitOnP (· == ',')).map trim = args.map (trim ·.display) := by
  have hcomma : ∀ {a : Argument}, a.Lexical mode → ∀ c ∈ a.display, (c == ',') = false := by
    intro a ha c hc
    rw [Argument.display, List.mem_append, List.mem_cons] at hc
    rcases hc with hc | rfl | hc
    · simpa using (ha.type_chars c hc).2.1
    · rfl
    · simpa using (ha.name_chars c hc).2.1
  match args with
  | [a] =>
    rw [displayArguments, List.splitOnP_eq_singleton (hcomma (h a List.mem_cons_self))]
    rfl
  | a :: b :: rest =>
    have ih := splitOnP_displayArguments (List.cons_ne_nil b rest)
      fun x hx => h x (List.mem_cons_of_mem _ hx)
    obtain ⟨first, others, hpieces⟩ :=
      List.exists_cons_of_ne_nil (List.splitOnP_ne_nil (· == ',') (displayArguments (b :: rest)))
    -- the space behind the comma is trimmed with the next piece
    have hspace : trim (' ' :: first) = trim first := by
      apply Text.trimBoth_append_left (t := [' '])
      simp only [List.forall_mem_singleton]
      decide
    rw [hpieces] at ih
    rw [displayArguments, List.splitOnP_append_cons_of_forall_mem
      (hcomma (h a List.mem_cons_self)) ',' rfl, List.splitOnP_cons_eq_if_modifyHead,
      if_neg (by decide), hpieces, List.modifyHead_cons, List.map_cons, List.map_cons, hspace,
      List.map_cons, ← ih]
    rfl

theorem mem_displayArguments {args : List Argument} {c : Char} (hc : c ∈ displayArguments args) :
    c = ',' ∨ c = ' ' ∨ ∃ a ∈ args, c ∈ a.type ∨ c ∈ a.name := by
  have hdisplay : ∀ {a : Argument}, c ∈ a.display → c = ' ' ∨ c ∈ a.type ∨ c ∈ a.name := by
    intro a h
    rw [Argument.display, List.mem_append, List.mem_cons] at h
    tauto
  match args with
  | [a] => exact .inr ((hdisplay hc).imp_right fun h => ⟨a, List.mem_cons_self, h⟩)
  | a :: b :: rest =>
    rw [displayArguments, List.mem_append, List.mem_cons, List.mem_cons] at hc
    rcases hc with hc | rfl | rfl | hc
    · exact .inr ((hdisplay hc).imp_right fun h => ⟨a, List.mem_cons_self, h⟩)
    · exact .inl rfl
    · exact .inr (.inl rfl)
    · rcases mem_displayArguments hc with h | h | ⟨x, hx, h⟩
      · exact .inl h
      · exact .inr (.inl h)
      · exact .inr (.inr ⟨x, List.mem_cons_of_mem _ hx, h⟩)

theorem not_mem_displayArguments {args : List Argument} (h : ∀ a ∈ args, a.Lexical mode) :
    ')' ∉ displayArguments args := by
  intro hmem
  rcases mem_displayArguments hmem with heq | heq | ⟨a, ha, hc | hc⟩
  · revert heq
    decide
  · revert heq
    decide
  · exact ((h a ha).type_chars _ hc).2.2 rfl
  · exact ((h a ha).name_chars _ hc).2.2 rfl

/-! ## The display of a record -/

variable {s : Signature}

theorem display_eq (s : Signature) :
    s.display = displayModifier s.modifier ++ (s.returnType ++ ' ' ::
      (s.methodName ++ '(' :: (displayArguments s.arguments ++ [')']))) := by
  simp [display]

theorem not_mem_displayModifier {c : Char} (hc : c = '(' ∨ c = ')') (m : Option AccessModifier) :
    c ∉ displayModifier m := by
  rcases hc with rfl | rfl <;> rcases m with _ | (_ | _ | _) <;> decide

theorem parameterText_display (h : s.Lexical mode) (hopen : '(' ∉ s.returnType) :
    parameterText s.display = trim (displayArguments s.arguments) := by
  have hdisplay : s.display = displayModifier s.modifier ++
      (s.returnType ++ ' ' :: s.methodName) ++ '(' :: (displayArguments s.arguments ++ [')']) := by
    rw [display_eq]
    simp
  have hopen' : '(' ∉ displayModifier s.modifier ++ (s.returnType ++ ' ' :: s.methodName) := by
    have hname : '(' ∉ s.methodName := fun hc => (h.methodName_chars _ hc).2 rfl
    simp [not_mem_displayModifier, hopen, hname]
  rw [hdisplay]
  by_cases hclose : ')' ∈ s.returnType ∨ ')' ∈ s.methodName
  · -- the list is empty, and the parenthesis in the head stands before it
    have hmem : ')' ∈ displayModifier s.modifier ++ (s.returnType ++ ' ' :: s.methodName) := by
      rcases hclose with hclose | hclose <;> simp [hclose]
    rw [Text.parameterText_append_of_closed hopen' hmem, h.arguments_eq_nil hopen hclose]
    rfl
  · obtain ⟨hreturn, hname⟩ := not_or.mp hclose
    have hclose' : ')' ∉ displayModifier s.modifier ++ (s.returnType ++ ' ' :: s.methodName) := by
      simp [not_mem_displayModifier, hreturn, hname]
    exact Text.parameterText_of_list hopen' hclose' (not_mem_displayArguments h.arguments) []

theorem parameters_display (h : s.Lexical mode) (hopen : '(' ∉ s.returnType) :
    parameters s.display = s.arguments.map (trim ·.display) := by
  rw [parameters, parameterText_display h hopen]
  by_cases hnil : s.arguments = []
  · rw [hnil]
    rfl
  · have hpieces := splitOnP_displayArguments hnil h.arguments
    rw [Text.parameterTokens_trim, hpieces]
    intro piece hpiece
    have hmem : trim piece ∈ s.arguments.map (trim ·.display) := by
      rw [← hpieces]
      exact List.mem_map_of_mem hpiece
    obtain ⟨a, ha, heq⟩ := List.mem_map.mp hmem
    rw [← heq]
    exact Argument.trim_display_ne_nil (h.arguments a ha)

theorem read_tokens_display (h : s.Lexical mode) :
    Head.read (mode.tokens s.display) = .ok ⟨s.modifier, s.returnType, s.methodName⟩ := by
  have hname : ∀ c ∈ s.methodName ++ ['('], mode.separates c = false := by
    intro c hc
    rcases List.mem_append.mp hc with hc | hc
    · exact (h.methodName_chars c hc).1
    · obtain rfl := List.mem_singleton.mp hc
      cases mode <;> rfl
  -- the name and the parenthesis behind it begin one token, however the arguments are cut
  obtain ⟨u, rest, hbody⟩ := WhitespaceMode.tokens_append_of_forall (by simp) hname
    (displayArguments s.arguments ++ [')'])
  rw [← List.append_cons] at hbody
  have hreturn := WhitespaceMode.tokens_append_space h.returnType_chars h.returnType_ne_nil
    (by rw [hbody]; exact List.cons_ne_nil _ _)
  rw [hbody] at hreturn
  have htokens : mode.tokens s.display =
      Head.modifierTokens s.modifier ++ s.returnType :: (s.methodName ++ ['('] ++ u) :: rest := by
    rw [display_eq]
    cases s.modifier with
    | none => exact hreturn
    | some m =>
      have hne : m.keyword ≠ [] := by cases m <;> decide
      rw [displayModifier, AccessModifier.display, ← List.append_cons,
        WhitespaceMode.tokens_append_space (mode.separates_keyword m) (fun _ => hne)
          (by rw [hreturn]; exact List.cons_ne_nil _ _), hreturn]
      rfl
  refine Head.read_eq_ok_iff.mpr ⟨_, rest, htokens, h.returnType_keyword, ?_⟩
  have hopen : ∀ c ∈ s.methodName, (c != '(') = true := by
    intro c hc
    simpa using (h.methodName_chars c hc).2
  rw [Text.trimUntil_eq_takeWhile, List.append_assoc, List.takeWhile_append_of_pos hopen]
  simp

end Signature

end SignatureLine
