import SignatureLine.Proofs.Signature.Parsing

/-!
# Every piece of the list is accounted for

A parser that is not strict makes an argument or an event of each piece of the parameter list, in
the order of the pieces, and reports success once, at the end.  A parse that fails reports nothing.
-/

namespace SignatureLine

open Text (trim wordsBy)

namespace Text

/-- What stands between the first opening and the first closing parenthesis of a line; nothing if
there is none of these or if they are out of order. -/
def betweenParentheses (line : Text) : Text :=
  if ')' ∈ line then ((line.takeWhile (· != ')')).dropWhile (· != '(')).tail else []

/-- The pieces of the parameter list between its commas, the empty ones left out. -/
noncomputable def listPieces (line : Text) : List Text :=
  ((trim (betweenParentheses line)).splitOnP (· == ',')).filter (!·.isEmpty)

/-- The list that is found by byte positions is what stands between the parentheses. -/
theorem parameterText_eq (line : Text) : parameterText line = trim (betweenParentheses line) := by
  rw [betweenParentheses]
  rcases parameterList_cases line with ⟨p, q, r, hopen, hp, hq, rfl⟩ | hclose | ⟨p, r, hp, rfl⟩
  · have hsplit : p ++ '(' :: (q ++ ')' :: r) = (p ++ '(' :: q) ++ ')' :: r := by simp
    have hfront : ')' ∉ p ++ '(' :: q := by simp [hp, hq]
    rw [parameterText_of_list hopen hp hq, if_pos (by simp), hsplit,
      takeWhile_append_cons hfront, dropWhile_append_cons hopen, List.tail_cons]
  · rw [parameterText_of_not_mem hclose, if_neg hclose]
    rfl
  · rw [parameterText_of_closed hp, if_pos (by simp)]
    -- `p` may hold a closing parenthesis already, but what is taken is a part of it
    have hopen : '(' ∉ (p ++ ')' :: r).takeWhile (· != ')') := by
      intro hmem
      rw [List.takeWhile_append] at hmem
      split at hmem
      · exact hp (by simpa using hmem)
      · exact hp (List.takeWhile_subset _ hmem)
    rw [List.dropWhile_eq_nil_iff.mpr (forall_bne_of_not_mem hopen)]
    rfl

theorem parameters_eq (line : Text) : parameters line = (listPieces line).map trim := by
  rw [parameters, parameterTokens_eq, parameterText_eq]
  rfl

end Text

/-- The first two words are the type and the name. -/
def Argument.ofWords? : List Text → Option Argument
  | type :: name :: _ => some ⟨type, name⟩
  | _ => none

namespace WhitespaceMode

/-- The argument of a piece of the list, by the words of the piece once it is trimmed. -/
noncomputable def pieceArgument? (mode : WhitespaceMode) (piece : Text) : Option Argument :=
  Argument.ofWords? (wordsBy mode.separates (trim piece))

theorem argument?_trim (mode : WhitespaceMode) (piece : Text) :
    mode.argument? (trim piece) = mode.pieceArgument? piece := by
  rw [argument?, words_eq]
  rfl

theorem arguments_parameters (mode : WhitespaceMode) (line : Text) :
    mode.arguments (Text.parameters line) =
      (Text.listPieces line).filterMap mode.pieceArgument? := by
  rw [arguments, Text.parameters_eq, List.filterMap_map]
  apply List.filterMap_congr
  intro piece _
  exact mode.argument?_trim piece

theorem incomplete_parameters (mode : WhitespaceMode) (line : Text) :
    mode.incomplete (Text.parameters line) =
      ((Text.listPieces line).filter (mode.pieceArgument? · |>.isNone)).map trim := by
  rw [incomplete, Text.parameters_eq, List.filter_map]
  apply congrArg (List.map trim)
  apply List.filter_congr
  intro piece _
  exact congrArg Option.isNone (mode.argument?_trim piece)

end WhitespaceMode

theorem length_filterMap_add_length_filter {α β : Type} (f : α → Option β) (l : List α) :
    (l.filterMap f).length + (l.filter (f · |>.isNone)).length = l.length := by
  rw [List.length_filterMap_eq_countP, ← List.countP_eq_length_filter,
    List.length_eq_countP_add_countP (f · |>.isSome)]
  apply congrArg
  apply List.countP_congr
  intro a _
  cases f a <;> simp

namespace Parser

theorem filter_debug_events (tokens : List Text) (line name : Text) (n : Nat) :
    ((tokens.map (SignatureEvent.droppedArgument · line) ++ [SignatureEvent.parsed name n]).filter
      (·.level = .debug)).length = tokens.length := by
  rw [List.filter_append, List.filter_eq_self.mpr]
  · simp [SignatureEvent.level]
  · intro event hevent
    obtain ⟨token, -, rfl⟩ := List.mem_map.mp hevent
    rfl

/-- What becomes of each piece of the list, and in which order, if the parser is not strict; and no
parse that fails, by a strict parser or by another, reports anything. -/
theorem parseLogged_pieces (mode : WhitespaceMode) (line : Text) :
    let pieces := Text.listPieces line
    let arguments := pieces.filterMap mode.pieceArgument?
    let dropped := pieces.filter (mode.pieceArgument? · |>.isNone)
    (∀ head, Head.read (mode.tokens line) = .ok head →
        parseLogged ⟨mode, false⟩ line =
            ⟨.ok ⟨line, head.modifier, head.returnType, head.methodName, arguments⟩,
              dropped.map (fun piece => .droppedArgument (trim piece) line) ++
                [.parsed head.methodName arguments.length]⟩ ∧
          arguments.length +
              ((parseLogged ⟨mode, false⟩ line).events.filter (·.level = .debug)).length =
            pieces.length) ∧
      ∀ strict e, parse ⟨mode, strict⟩ line = .error e →
        (parseLogged ⟨mode, strict⟩ line).events = [] := by
  intro pieces arguments dropped
  refine ⟨fun head hhead => ?_, fun strict e => events_of_error⟩
  have hrun := parseLogged_of_head (p := ⟨mode, false⟩) hhead (.inl rfl)
  have hlogged : parseLogged ⟨mode, false⟩ line =
      ⟨.ok ⟨line, head.modifier, head.returnType, head.methodName, arguments⟩,
        (dropped.map trim).map (.droppedArgument · line) ++
          [.parsed head.methodName arguments.length]⟩ := by
    rw [hrun, signatureOf]
    dsimp only
    rw [mode.arguments_parameters, mode.incomplete_parameters]
  rw [hlogged]
  dsimp only
  rw [filter_debug_events, List.length_map]
  refine ⟨?_, length_filterMap_add_length_filter mode.pieceArgument? pieces⟩
  rw [List.map_map]
  rfl

-- A blank piece and two of one word are dropped, the empty piece is not counted, and a strict parser
-- that stops at the blank one has reported nothing.
theorem parseLogged_pieces_blank :
    parseLogged ⟨.collapse, false⟩ "t\tf(int a,\u00a0, b,, c d e, g)".toList =
        ⟨.ok ⟨"t\tf(int a,\u00a0, b,, c d e, g)".toList, none, ['t'], ['f'],
          [⟨"int".toList, ['a']⟩, ⟨['c'], ['d']⟩]⟩,
          [.droppedArgument [] "t\tf(int a,\u00a0, b,, c d e, g)".toList,
            .droppedArgument ['b'] "t\tf(int a,\u00a0, b,, c d e, g)".toList,
            .droppedArgument ['g'] "t\tf(int a,\u00a0, b,, c d e, g)".toList, .parsed ['f'] 2]⟩ ∧
      (parseLogged ⟨.collapse, true⟩ "t\tf(int a,\u00a0, b,, c d e, g)".toList).events = [] := by
  obtain ⟨htolerant, hstrict⟩ :=
    parseLogged_pieces .collapse "t\tf(int a,\u00a0, b,, c d e, g)".toList
  have hhead : Head.read (WhitespaceMode.collapse.tokens
      "t\tf(int a,\u00a0, b,, c d e, g)".toList) = .ok ⟨none, ['t'], ['f']⟩ := by
    decide +kernel
  have hparse : parse ⟨.collapse, true⟩ "t\tf(int a,\u00a0, b,, c d e, g)".toList =
      .error (.malformedArgument "t\tf(int a,\u00a0, b,, c d e, g)".toList []) := by
    decide +kernel
  exact ⟨(htolerant _ hhead).1.trans (by decide +kernel), hstrict true _ hparse⟩

end Parser

end SignatureLine
