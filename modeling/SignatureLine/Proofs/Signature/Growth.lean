import SignatureLine.Proofs.Signature.Factoring
import SignatureLine.Proofs.Signature.ListText
import SignatureLine.Proofs.Signature.Reparsing

/-!
# Arguments that a display adds

The list of a line begins at its first opening parenthesis, which may stand in the return type.  In
the display of such a record the list takes in the method name as well, and the two can make an
argument of their own.  No other record has more arguments after it is displayed and parsed again.
-/

namespace SignatureLine

open Text (isWhitespace trim parameters firstPiece lastPiece)
open Signature (displayArguments)

/-! ## The arguments of displayed arguments -/

theorem Argument.hasInk_name_iff {a : Argument} : a.name.HasInk ↔ a.isBlankNamed = false := by
  rw [← not_iff_not, Text.not_hasInk_iff, Bool.not_eq_false, isBlankNamed, List.all_eq_true]

namespace WhitespaceMode

variable {mode : WhitespaceMode} {u v : Text} {a : Argument} {args rest : List Argument}

theorem listArguments_displayArguments (h : ∀ a ∈ args, a.Lexical mode) :
    mode.listArguments (displayArguments args) =
      (args.filter (!·.isBlankNamed)).map Argument.trimName := by
  by_cases hnil : args = []
  · rw [hnil]
    exact listArguments_of_forall (by simp [displayArguments])
  · rw [listArguments_eq, ← arguments_map_display h, ← Signature.splitOnP_displayArguments hnil h,
      arguments, List.filterMap_map]
    rfl

-- A text without a comma goes to the first argument.
theorem listArguments_append_displayArguments (hu : ',' ∉ u)
    (h : ∀ b ∈ a :: rest, b.Lexical mode) :
    mode.listArguments (u ++ displayArguments (a :: rest)) =
      (mode.argument? (trim (u ++ a.display))).toList ++
        (rest.filter (!·.isBlankNamed)).map Argument.trimName := by
  have hcomma : ',' ∉ u ++ a.display := by
    have ha := h a List.mem_cons_self
    have htype : ',' ∉ a.type := fun hc => (ha.type_chars _ hc).2.1 rfl
    have hname : ',' ∉ a.name := fun hc => (ha.name_chars _ hc).2.1 rfl
    simp [Argument.display, hu, htype, hname]
  cases rest with
  | nil => rw [displayArguments, listArguments_of_not_mem hcomma]; simp
  | cons b rest =>
    have hrest := listArguments_displayArguments fun x hx => h x (List.mem_cons_of_mem _ hx)
    have hspace : mode.listArguments ([' '] ++ displayArguments (b :: rest)) =
        mode.listArguments (displayArguments (b :: rest)) :=
      listArguments_append_left (List.forall_mem_singleton.mpr (by decide)) _
    rw [displayArguments, ← List.append_assoc, listArguments_append_comma,
      listArguments_of_not_mem hcomma, ← hrest, ← hspace, List.singleton_append]

-- What stands before the parenthesis of the list goes to the type of the first argument.
theorem length_listArguments_open (hu : ∀ c ∈ u, mode.separates c = false)
    (h : ∀ a ∈ args, a.Lexical mode) :
    (mode.listArguments (u ++ '(' :: displayArguments args)).length =
      (args.filter (!·.isBlankNamed)).length := by
  have hopen : ∀ c ∈ u ++ ['('], mode.separates c = false := by
    refine List.forall_mem_append.mpr ⟨hu, List.forall_mem_singleton.mpr ?_⟩
    cases mode <;> rfl
  rw [List.append_cons]
  cases args with
  | nil => rw [displayArguments, List.append_nil, listArguments_of_forall hopen]; rfl
  | cons a rest =>
    have ha := h a List.mem_cons_self
    rw [listArguments_lastPiece hopen,
      listArguments_append_displayArguments (Text.not_mem_lastPiece _) h, List.length_append,
      List.length_map]
    have hdisplay : lastPiece (u ++ ['(']) ++ a.display =
        (lastPiece (u ++ ['(']) ++ a.type) ++ ' ' :: a.name := by
      rw [Argument.display, List.append_assoc]
    have hsep : ∀ c ∈ lastPiece (u ++ ['(']) ++ a.type, mode.separates c = false :=
      List.forall_mem_append.mpr
        ⟨fun c hc => hopen c (Text.lastPiece_subset _ hc), fun c hc => (ha.type_chars c hc).1⟩
    by_cases hname : a.isBlankNamed = true
    · -- the blank name is trimmed away, and one word is left
      have hwhite : ∀ c ∈ ' ' :: a.name, isWhitespace c = true :=
        List.forall_mem_cons.mpr ⟨by decide, List.all_eq_true.mp hname⟩
      rw [hdisplay, trim, Text.trimBoth_append_right hwhite, ← trim,
        argument?_trim_of_forall hsep, List.filter_cons_of_neg (by simp [hname])]
      simp
    · have htype : Text.HasInk (lastPiece (u ++ ['(']) ++ a.type) := by
        obtain ⟨c, type, htype⟩ := List.exists_cons_of_ne_nil ha.type_ne_nil
        exact ⟨c, by simp [htype], ha.type_head c (by rw [htype]; rfl)⟩
      have hsome := isSome_argument?_trim mode.separates_space htype
        (Argument.hasInk_name_iff.mpr (by simpa using hname))
      obtain ⟨argument, hargument⟩ := Option.isSome_iff_exists.mp hsome
      rw [hdisplay, hargument, List.filter_cons_of_pos (by simp [hname]), List.length_cons,
        Option.toList_some, List.length_singleton, Nat.add_comm]

end WhitespaceMode

/-! ## The display of a record -/

/-- In the display of the record the list begins in the return type, it takes in the method name,
and there is ink on both sides of the space between the two. -/
def Signature.HeadMakesArgument (s : Signature) : Prop :=
  ')' ∉ s.returnType ∧ ')' ∉ s.methodName ∧
    ∃ before after, s.returnType = before ++ '(' :: after ∧ '(' ∉ before ∧
      (lastPiece after).HasInk ∧ (firstPiece (s.methodName ++ ['('])).HasInk

/-- The head makes an argument that the record does not have already: without a comma in the method
name it takes the place of the first argument. -/
def Signature.GainsArgument (s : Signature) : Prop :=
  s.HeadMakesArgument ∧ (',' ∈ s.methodName ∨ s.arguments = [])

/-- What the number of arguments is that are read from the display of the record. -/
structure Signature.Reread (s : Signature) (args : List Argument) : Prop where
  gain : s.GainsArgument → args.length = (s.arguments.filter (!·.isBlankNamed)).length + 1
  keep : ¬ s.GainsArgument → args.length ≤ s.arguments.length
  ne_nil : s.HeadMakesArgument → args ≠ []

theorem Signature.Reread.of_not_head {s : Signature} {args : List Argument}
    (hhead : ¬ s.HeadMakesArgument) (hle : args.length ≤ s.arguments.length) : s.Reread args where
  gain hgain := absurd hgain.1 hhead
  keep _ := hle
  ne_nil h := absurd h hhead

namespace WhitespaceMode

variable {mode : WhitespaceMode} {after name : Text} {args : List Argument}

theorem arguments_parameters_of_list {front list : Text} (hopen : '(' ∉ front)
    (hclose : ')' ∉ front) (hlist : ')' ∉ list) (back : Text) :
    mode.arguments (parameters (front ++ '(' :: (list ++ ')' :: back))) =
      mode.listArguments list := by
  rw [parameters, Text.parameterText_of_list hopen hclose hlist, listArguments]

-- A list that ends in the name is the text from the parenthesis on, with the gap as it is.
theorem arguments_parameters_of_close {front before gap first others : Text}
    (hopen : '(' ∉ front ∧ '(' ∉ before) (hclose : ')' ∉ front ∧ ')' ∉ before ++ '(' :: after)
    (hgap : ∀ c ∈ gap, mode.separates c = true) (hfirst : ')' ∉ first) (back : Text) :
    mode.arguments (parameters
        (front ++ (before ++ '(' :: after ++ (gap ++ (first ++ ')' :: others ++ back))))) =
      mode.listArguments (after ++ (gap ++ first)) := by
  have hgapClose : ')' ∉ gap := not_mem_of_separates hgap (by decide)
  obtain ⟨hbefore, hafter⟩ : ')' ∉ before ∧ ')' ∉ after := by simpa using hclose.2
  have hsplit : front ++ (before ++ '(' :: after ++ (gap ++ (first ++ ')' :: others ++ back))) =
      (front ++ before) ++ '(' :: ((after ++ (gap ++ first)) ++ ')' :: (others ++ back)) := by
    simp
  rw [hsplit]
  apply arguments_parameters_of_list
  · simp [hopen]
  · simp [hclose.1, hbefore]
  · simp [hafter, hgapClose, hfirst]

-- A comma in the name keeps the arguments apart from the return type.
theorem length_listArguments_lead_comma (after : Text) {first others : Text}
    (hname : ∀ c ∈ first ++ ',' :: others, mode.separates c = false)
    (h : ∀ a ∈ args, a.Lexical mode) :
    (mode.listArguments
        (after ++ ' ' :: (first ++ ',' :: others ++ '(' :: displayArguments args))).length =
      (mode.listArguments (after ++ ([' '] ++ first))).length +
        (args.filter (!·.isBlankNamed)).length := by
  obtain ⟨-, hothers⟩ := List.forall_mem_append.mp hname
  have hsplit : after ++ ' ' :: (first ++ ',' :: others ++ '(' :: displayArguments args) =
      (after ++ ([' '] ++ first)) ++ ',' :: (others ++ '(' :: displayArguments args) := by
    simp
  rw [hsplit, listArguments_append_comma, List.length_append,
    length_listArguments_open (fun c hc => hothers c (List.mem_cons_of_mem _ hc)) h]

-- Without one, the return type, the name and the first argument are one piece.
theorem listArguments_lead {a : Argument} {rest : List Argument}
    (hafter : ∀ c ∈ after, mode.separates c = false) (hcomma : ',' ∉ name)
    (h : ∀ b ∈ a :: rest, b.Lexical mode) :
    mode.listArguments (after ++ ' ' :: (name ++ '(' :: displayArguments (a :: rest))) =
      (mode.argument?
          (trim (lastPiece after ++ ' ' :: (name ++ '(' :: a.display)))).toList ++
        (rest.filter (!·.isBlankNamed)).map Argument.trimName := by
  have hu : ',' ∉ lastPiece after ++ ' ' :: (name ++ ['(']) := by
    simp [Text.not_mem_lastPiece, hcomma]
  have hsplit : ∀ t : Text, lastPiece after ++ ' ' :: (name ++ '(' :: t) =
      (lastPiece after ++ ' ' :: (name ++ ['('])) ++ t := by
    simp
  rw [listArguments_lastPiece hafter, hsplit, listArguments_append_displayArguments hu h, ← hsplit]

end WhitespaceMode

namespace Signature

variable {mode : WhitespaceMode} {s : Signature} {before after : Text}

theorem Lexical.separates_of_returnType (h : s.Lexical mode)
    (hreturn : s.returnType = before ++ '(' :: after) : ∀ c ∈ after, mode.separates c = false := by
  have hchars := hreturn ▸ h.returnType_chars
  exact fun c hc => hchars c (by simp [hc])

theorem headMakesArgument_iff (hclose : ')' ∉ s.returnType ∧ ')' ∉ s.methodName)
    (hreturn : s.returnType = before ++ '(' :: after) (hopen : '(' ∉ before) :
    s.HeadMakesArgument ↔
      (lastPiece after).HasInk ∧ (firstPiece (s.methodName ++ ['('])).HasInk := by
  constructor
  · rintro ⟨-, -, before', after', hreturn', hopen', hink⟩
    obtain ⟨-, rfl⟩ := Text.append_cons_inj hopen hopen' (hreturn.symm.trans hreturn')
    exact hink
  · exact fun hink => ⟨hclose.1, hclose.2, before, after, hreturn, hopen, hink⟩

/-! ### The list from the return type to the end of the display -/

section Head

variable (h : s.Lexical mode) (hclose : ')' ∉ s.returnType ∧ ')' ∉ s.methodName)
  (hreturn : s.returnType = before ++ '(' :: after) (hopen : '(' ∉ before)

include h hclose hreturn hopen

-- Without arguments the head is all that the list holds.
theorem reread_of_arguments_eq_nil (hnil : s.arguments = []) :
    s.Reread (mode.listArguments
      (after ++ ' ' :: (s.methodName ++ '(' :: displayArguments s.arguments))) := by
  have hhead := headMakesArgument_iff hclose hreturn hopen
  have hafter := h.separates_of_returnType hreturn
  have hname : ∀ c ∈ s.methodName ++ ['('], mode.separates c = false :=
    List.forall_mem_append.mpr ⟨fun c hc => (h.methodName_chars c hc).1,
      List.forall_mem_singleton.mpr (mode.separates_eq_false (by decide))⟩
  have hgap : after ++ ' ' :: (s.methodName ++ '(' :: displayArguments []) =
      after ++ ([' '] ++ (s.methodName ++ ['('])) := rfl
  rw [hnil, hgap]
  by_cases hink : s.HeadMakesArgument
  · have hone := WhitespaceMode.length_listArguments_gap hafter hname mode.separates_singleton_space
      (by simp) (hhead.mp hink).1 (hhead.mp hink).2
    refine ⟨fun _ => ?_, fun hnot => absurd ⟨hink, .inr hnil⟩ hnot,
      fun _ => List.ne_nil_of_length_pos (by omega)⟩
    rw [hone, hnil]
    rfl
  · rw [WhitespaceMode.listArguments_gap_eq_nil hafter hname mode.separates_singleton_space
      (mt hhead.mpr hink)]
    exact .of_not_head hink (Nat.zero_le _)

-- A comma in the name keeps the head apart from the arguments.
theorem reread_of_comma (hcomma : ',' ∈ s.methodName) :
    s.Reread (mode.listArguments
      (after ++ ' ' :: (s.methodName ++ '(' :: displayArguments s.arguments))) := by
  obtain ⟨first, others, hsplit, hfirst⟩ := List.eq_append_cons_of_mem hcomma
  have hhead : s.HeadMakesArgument ↔ (lastPiece after).HasInk ∧ (firstPiece first).HasInk := by
    rw [headMakesArgument_iff hclose hreturn hopen, hsplit, List.append_assoc, List.cons_append,
      Text.firstPiece_append_comma hfirst, Text.firstPiece_of_not_mem hfirst]
  have hafter := h.separates_of_returnType hreturn
  have hname : ∀ c ∈ first ++ ',' :: others, mode.separates c = false :=
    hsplit ▸ fun c hc => (h.methodName_chars c hc).1
  have hfirstSep : ∀ c ∈ first, mode.separates c = false := (List.forall_mem_append.mp hname).1
  have hlen := WhitespaceMode.length_listArguments_lead_comma after hname h.arguments
  rw [← hsplit] at hlen
  by_cases hink : s.HeadMakesArgument
  · have hone := WhitespaceMode.length_listArguments_gap hafter hfirstSep
      mode.separates_singleton_space (by simp) (hhead.mp hink).1 (hhead.mp hink).2
    rw [hone, Nat.add_comm] at hlen
    exact ⟨fun _ => hlen, fun hnot => absurd ⟨hink, .inl hcomma⟩ hnot,
      fun _ => List.ne_nil_of_length_pos (by omega)⟩
  · rw [WhitespaceMode.listArguments_gap_eq_nil hafter hfirstSep mode.separates_singleton_space
      (mt hhead.mpr hink), List.length_nil, Nat.zero_add] at hlen
    exact .of_not_head hink (hlen.le.trans (List.length_filter_le _ _))

-- Otherwise the head and the first argument are one piece.
theorem reread_of_not_comma (hcomma : ',' ∉ s.methodName) (hne : s.arguments ≠ []) :
    s.Reread (mode.listArguments
      (after ++ ' ' :: (s.methodName ++ '(' :: displayArguments s.arguments))) := by
  obtain ⟨a, rest, hlist⟩ := List.exists_cons_of_ne_nil hne
  have hafter := h.separates_of_returnType hreturn
  rw [hlist, WhitespaceMode.listArguments_lead hafter hcomma (hlist ▸ h.arguments)]
  refine ⟨fun hgain => absurd hgain.2 (not_or.mpr ⟨hcomma, hne⟩), fun _ => ?_, fun hhead => ?_⟩
  · have hle := List.length_filter_le (!·.isBlankNamed) rest
    have hone := Option.length_toList_le (o := mode.argument?
      (trim (lastPiece after ++ ' ' :: (s.methodName ++ '(' :: a.display))))
    rw [hlist, List.length_append, List.length_map, List.length_cons]
    omega
  · have hleft := ((headMakesArgument_iff hclose hreturn hopen).mp hhead).1
    have hright : Text.HasInk (s.methodName ++ '(' :: a.display) := ⟨'(', by simp, by decide⟩
    obtain ⟨argument, hargument⟩ := Option.isSome_iff_exists.mp
      (WhitespaceMode.isSome_argument?_trim mode.separates_space hleft hright)
    rw [hargument]
    exact List.cons_ne_nil _ _

-- The list is what stands between the parenthesis and the end of the display.
theorem arguments_display_of_open :
    mode.arguments (parameters s.display) =
      mode.listArguments
        (after ++ ' ' :: (s.methodName ++ '(' :: displayArguments s.arguments)) := by
  obtain ⟨hbefore, hafter⟩ : ')' ∉ before ∧ ')' ∉ after := by simpa [hreturn] using hclose.1
  have hdisplay : s.display = (displayModifier s.modifier ++ before) ++
      '(' :: ((after ++ ' ' :: (s.methodName ++ '(' :: displayArguments s.arguments)) ++
        ')' :: []) := by
    rw [display_eq, hreturn]
    simp
  rw [hdisplay]
  apply WhitespaceMode.arguments_parameters_of_list
  · simp [not_mem_displayModifier, hopen]
  · simp [not_mem_displayModifier, hbefore]
  · simp [hafter, hclose.2, not_mem_displayArguments h.arguments]

theorem reread_display_of_open : s.Reread (mode.arguments (parameters s.display)) := by
  rw [arguments_display_of_open h hclose hreturn hopen]
  by_cases hnil : s.arguments = []
  · exact reread_of_arguments_eq_nil h hclose hreturn hopen hnil
  by_cases hcomma : ',' ∈ s.methodName
  · exact reread_of_comma h hclose hreturn hopen hcomma
  · exact reread_of_not_comma h hclose hreturn hopen hcomma hnil

end Head

/-! ### The list that ends in the head -/

-- A list that ends in the return type is one word.
theorem arguments_display_of_close_returnType (h : s.Lexical mode)
    (hreturn : s.returnType = before ++ '(' :: after) (hopen : '(' ∉ before)
    (hclose : ')' ∈ s.returnType) : mode.arguments (parameters s.display) = [] := by
  have hmodifier := not_mem_displayModifier (.inl rfl) s.modifier
  by_cases hbefore : ')' ∈ before
  · have hdisplay : s.display = (displayModifier s.modifier ++ before) ++
        ('(' :: after ++ ' ' ::
          (s.methodName ++ '(' :: (displayArguments s.arguments ++ [')']))) := by
      rw [display_eq, hreturn]
      simp
    rw [hdisplay, parameters,
      Text.parameterText_append_of_closed (by simp [hmodifier, hopen]) (by simp [hbefore])]
    rfl
  · have hafter : ')' ∈ after := by simpa [hreturn, hbefore] using hclose
    obtain ⟨list, others, rfl, hlist⟩ := List.eq_append_cons_of_mem hafter
    have hdisplay : s.display = (displayModifier s.modifier ++ before) ++
        '(' :: (list ++ ')' :: (others ++ ' ' ::
          (s.methodName ++ '(' :: (displayArguments s.arguments ++ [')'])))) := by
      rw [display_eq, hreturn]
      simp
    have hword : ∀ c ∈ list, mode.separates c = false :=
      fun c hc => h.separates_of_returnType hreturn c (List.mem_append_left _ hc)
    have hmodifierClose := not_mem_displayModifier (.inr rfl) s.modifier
    rw [hdisplay, WhitespaceMode.arguments_parameters_of_list (by simp [hmodifier, hopen])
      (by simp [hmodifierClose, hbefore]) hlist, WhitespaceMode.listArguments_of_forall hword]

end Signature

namespace Parser

variable {p : Parser} {line : Text} {s : Signature}

-- So the display has as many arguments as the line: one, or none.
theorem length_arguments_display_of_close {before after first others : Text}
    (h : p.parse line = .ok s) (hreturn : s.returnType = before ++ '(' :: after)
    (hopen : '(' ∉ before) (hclose : ')' ∉ s.returnType)
    (hname : s.methodName = first ++ ')' :: others) (hfirst : ')' ∉ first) :
    (p.whitespace.arguments (parameters s.display)).length = s.arguments.length := by
  have hlex := lexical_of_parse h
  have hafter := hlex.separates_of_returnType hreturn
  have hfirstSep : ∀ c ∈ first, p.whitespace.separates c = false := by
    have hchars := hname ▸ hlex.methodName_chars
    exact fun c hc => (hchars c (by simp [hc])).1
  obtain ⟨head, hhead, -, rfl⟩ := parse_eq_ok_iff.mp h
  obtain ⟨front, gap, back, hline, hfrontOpen, hfrontClose, hne, hgap⟩ :=
    Head.exists_eq_append_of_read hhead
  change head.returnType = _ at hreturn
  change head.methodName = _ at hname
  change ')' ∉ head.returnType at hclose
  have harguments : (p.signatureOf line head).arguments =
      p.whitespace.listArguments (after ++ (gap ++ first)) := by
    rw [signatureOf, hline, hreturn, hname]
    exact WhitespaceMode.arguments_parameters_of_close ⟨hfrontOpen, hopen⟩
      ⟨hfrontClose, hreturn ▸ hclose⟩ hgap hfirst back
  have hspace := p.whitespace.separates_singleton_space
  have hdisplay : p.whitespace.arguments (parameters (p.signatureOf line head).display) =
      p.whitespace.listArguments (after ++ ([' '] ++ first)) := by
    rw [Signature.display_eq, signatureOf, hreturn, hname]
    exact WhitespaceMode.arguments_parameters_of_close
      ⟨Signature.not_mem_displayModifier (.inl rfl) _, hopen⟩
      ⟨Signature.not_mem_displayModifier (.inr rfl) _, hreturn ▸ hclose⟩ hspace hfirst _
  rw [harguments, hdisplay]
  by_cases hink : (lastPiece after).HasInk ∧ (firstPiece first).HasInk
  · rw [WhitespaceMode.length_listArguments_gap hafter hfirstSep hspace (by simp) hink.1 hink.2,
      WhitespaceMode.length_listArguments_gap hafter hfirstSep hgap hne hink.1 hink.2]
  · rw [WhitespaceMode.listArguments_gap_eq_nil hafter hfirstSep hspace hink,
      WhitespaceMode.listArguments_gap_eq_nil hafter hfirstSep hgap hink]

/-! ## One more parse -/

-- The list of a display is its arguments, or it ends in the head, or it is both.
theorem reread_display (h : p.parse line = .ok s) :
    s.Reread (p.whitespace.arguments (parameters s.display)) := by
  have hlex := lexical_of_parse h
  by_cases hopen : '(' ∈ s.returnType
  · obtain ⟨before, after, hreturn, hbefore⟩ := List.eq_append_cons_of_mem hopen
    by_cases hclose : ')' ∈ s.returnType
    · rw [Signature.arguments_display_of_close_returnType hlex hreturn hbefore hclose]
      exact .of_not_head (fun hhead => hhead.1 hclose) (Nat.zero_le _)
    · by_cases hnameClose : ')' ∈ s.methodName
      · obtain ⟨first, others, hname, hfirst⟩ := List.eq_append_cons_of_mem hnameClose
        exact .of_not_head (fun hhead => hhead.2.1 hnameClose)
          (length_arguments_display_of_close h hreturn hbefore hclose hname hfirst).le
      · exact Signature.reread_display_of_open hlex ⟨hclose, hnameClose⟩ hreturn hbefore
  · have hhead : ¬ s.HeadMakesArgument := by
      rintro ⟨-, -, before, after, hreturn, -⟩
      exact hopen (by simp [hreturn])
    rw [Signature.parameters_display hlex hopen,
      WhitespaceMode.arguments_map_display hlex.arguments]
    exact .of_not_head hhead (by simpa using List.length_filter_le _ _)

-- A tolerant parser reads each display, and the head of the record stays as it is.
theorem exists_parse_display (hp : p.strict = false) (h : p.parse line = .ok s) :
    ∃ t, p.parse s.display = .ok t ∧ s.Reread t.arguments ∧
      (¬ s.GainsArgument → ¬ t.GainsArgument) := by
  have hread := Signature.read_tokens_display (lexical_of_parse h)
  have hreread := reread_display h
  refine ⟨_, parse_of_head hread (.inl hp), hreread, fun hnot => ?_⟩
  rintro ⟨hhead, hcomma | hnil⟩
  · exact hnot ⟨hhead, .inl hcomma⟩
  · exact hreread.ne_nil hhead hnil

-- The number of arguments never grows, however often the record is displayed and parsed again.
theorem parseRepeatedly_display_of_not_gains (hp : p.strict = false) (n : Nat) :
    ∀ {line s}, p.parse line = .ok s → ¬ s.GainsArgument →
      ∃ results : List Signature, p.parseRepeatedly n s.display = results.map .ok ∧
        results.length = n ∧
        (s :: results).Pairwise fun a b => b.arguments.length ≤ a.arguments.length := by
  induction n with
  | zero => exact fun _ _ => ⟨[], rfl, rfl, List.pairwise_singleton _ _⟩
  | succ n ih =>
    intro line s h hnot
    obtain ⟨t, ht, hreread, hstays⟩ := exists_parse_display hp h
    have hle := hreread.keep hnot
    obtain ⟨results, hresults, hlen, hpairwise⟩ := ih ht (hstays hnot)
    refine ⟨t :: results, ?_, by rw [List.length_cons, hlen], ?_⟩
    · rw [parseRepeatedly, ht, List.map_cons, ← hresults]
    · refine List.pairwise_cons.mpr ⟨List.forall_mem_cons.mpr ⟨hle, fun r hr => ?_⟩, hpairwise⟩
      exact (List.rel_of_pairwise_cons hpairwise hr).trans hle

/-- The display of a record that a tolerant parser has returned, parsed again any number of times by
the same parser: the record never has more arguments than before, unless the head of its display
makes an argument that the record does not have; then it has one more than it has arguments with a
name. -/
theorem length_arguments_of_parse_display (hp : p.strict = false) (h : p.parse line = .ok s) :
    (¬ s.GainsArgument → ∀ n, ∃ results : List Signature,
        p.parseRepeatedly n s.display = results.map .ok ∧ results.length = n ∧
          (s :: results).Pairwise fun a b => b.arguments.length ≤ a.arguments.length) ∧
      (s.GainsArgument → ∃ t, p.parse s.display = .ok t ∧
        t.arguments.length = (s.arguments.filter (!·.isBlankNamed)).length + 1) := by
  refine ⟨fun hnot n => parseRepeatedly_display_of_not_gains hp n h hnot, fun hgain => ?_⟩
  obtain ⟨t, ht, hreread, -⟩ := exists_parse_display hp h
  exact ⟨t, ht, hreread.gain hgain⟩

-- The head makes the first argument of one record anew, and a further argument of the other.
theorem length_arguments_of_parse_display_open :
    (∃ s, parse {} "f(a g(b c)".toList = .ok s ∧ ¬ s.GainsArgument ∧ s.arguments.length = 1 ∧
        ∃ results : List Signature, parseRepeatedly {} 3 s.display = results.map .ok ∧
          results.length = 3 ∧
            (s :: results).Pairwise fun a b => b.arguments.length ≤ a.arguments.length) ∧
      ∃ s, parse {} "f(a b,c( d)".toList = .ok s ∧ s.GainsArgument ∧ s.arguments.length = 2 ∧
        ∃ t, parse {} s.display = .ok t ∧ t.arguments.length = 3 := by
  have hkeep : parse {} "f(a g(b c)".toList =
      .ok ⟨"f(a g(b c)".toList, none, "f(a".toList, ['g'], [⟨['a'], "g(b".toList⟩]⟩ := by
    decide +kernel
  have hgain : parse {} "f(a b,c( d)".toList = .ok ⟨"f(a b,c( d)".toList, none, "f(a".toList,
      "b,c".toList, [⟨['a'], ['b']⟩, ⟨"c(".toList, ['d']⟩]⟩ := by
    decide +kernel
  refine ⟨⟨_, hkeep, ?_, rfl, (length_arguments_of_parse_display rfl hkeep).1 ?_ 3⟩,
    ⟨_, hgain, ?_, rfl, (length_arguments_of_parse_display rfl hgain).2 ?_⟩⟩
  · exact fun h => absurd h.2 (by decide)
  · exact fun h => absurd h.2 (by decide)
  · exact ⟨⟨by decide, by decide, ['f'], ['a'], rfl, by decide, ⟨'a', by decide, by decide⟩,
      ⟨'b', by decide, by decide⟩⟩, .inl (by decide)⟩
  · exact ⟨⟨by decide, by decide, ['f'], ['a'], rfl, by decide, ⟨'a', by decide, by decide⟩,
      ⟨'b', by decide, by decide⟩⟩, .inl (by decide)⟩

-- With nothing but `f(int g` the display closes a list that the line left open.
theorem not_forall_length_arguments_le :
    ¬ ∀ (p : Parser) (line : Text) (s t : Signature), p.strict = false → p.parse line = .ok s →
      p.parse s.display = .ok t → t.arguments.length ≤ s.arguments.length := by
  intro h
  have hle := h {} "f(int g".toList ⟨"f(int g".toList, none, "f(int".toList, ['g'], []⟩
    ⟨"f(int g()".toList, none, "f(int".toList, ['g'], [⟨"int".toList, "g(".toList⟩]⟩ rfl
    (by decide +kernel) (by decide +kernel)
  exact absurd hle (by decide)

end Parser

end SignatureLine
