import SignatureLine.Proofs.Signature.Parameters
import SignatureLine.Signature.Parser

/-!
# What a parse comes to

The outcome of a parse and its events, from the head of the line and from the tokens of its
parameter list: there is no head, or a strict parser meets a token without type and name, or the
line is accepted.
-/

namespace SignatureLine

namespace WhitespaceMode

/-- The arguments that the tokens of a parameter list stand for. -/
def arguments (mode : WhitespaceMode) (tokens : List Text) : List Argument :=
  tokens.filterMap mode.argument?

/-- The tokens of a parameter list without a type and a name. -/
def incomplete (mode : WhitespaceMode) (tokens : List Text) : List Text :=
  tokens.filter fun token => (mode.argument? token).isNone

variable {mode : WhitespaceMode} {token : Text} {tokens : List Text}

theorem arguments_cons_of_some {argument : Argument} (h : mode.argument? token = some argument) :
    mode.arguments (token :: tokens) = argument :: mode.arguments tokens :=
  List.filterMap_cons_some h

theorem arguments_cons_of_none (h : mode.argument? token = none) :
    mode.arguments (token :: tokens) = mode.arguments tokens :=
  List.filterMap_cons_none h

theorem incomplete_cons_of_some {argument : Argument} (h : mode.argument? token = some argument) :
    mode.incomplete (token :: tokens) = mode.incomplete tokens :=
  List.filter_cons_of_neg (by simp [h])

theorem incomplete_cons_of_none (h : mode.argument? token = none) :
    mode.incomplete (token :: tokens) = token :: mode.incomplete tokens :=
  List.filter_cons_of_pos (by simp [h])

end WhitespaceMode

namespace Parser

variable {p : Parser} {line : Text}

/-! ## The loop on the tokens -/

-- A strict parser stops at the first token without type and name, and has emitted nothing.
theorem readArguments_strict (hp : p.strict = true) {tokens rest : List Text} {token : Text}
    (h : p.whitespace.incomplete tokens = token :: rest) :
    (p.readArguments line tokens).run = ⟨.error (.malformedArgument line token), []⟩ := by
  induction tokens with
  | nil => cases h
  | cons first tokens ih =>
    rw [readArguments]
    cases harg : p.whitespace.argument? first with
    | none =>
      rw [WhitespaceMode.incomplete_cons_of_none harg] at h
      obtain ⟨rfl, -⟩ := List.cons.inj h
      simp only [hp, if_true]
      rfl
    | some argument =>
      rw [WhitespaceMode.incomplete_cons_of_some harg] at h
      simp only [ExceptT.run_bind, ih h]
      rfl

-- Otherwise each token is an argument or an event, in the order of the tokens.
theorem readArguments_ok {tokens : List Text}
    (h : p.strict = false ∨ p.whitespace.incomplete tokens = []) :
    (p.readArguments line tokens).run =
      ⟨.ok (p.whitespace.arguments tokens),
        (p.whitespace.incomplete tokens).map (.droppedArgument · line)⟩ := by
  induction tokens with
  | nil => rfl
  | cons first tokens ih =>
    rw [readArguments]
    cases harg : p.whitespace.argument? first with
    | none =>
      rw [WhitespaceMode.incomplete_cons_of_none harg] at h
      have hp : p.strict = false := h.resolve_right (List.cons_ne_nil _ _)
      rw [WhitespaceMode.arguments_cons_of_none harg, WhitespaceMode.incomplete_cons_of_none harg]
      simp only [hp, Bool.false_eq_true, if_false, ExceptT.run_bind]
      rw [ih (.inl hp)]
      rfl
    | some argument =>
      rw [WhitespaceMode.incomplete_cons_of_some harg] at h
      rw [WhitespaceMode.arguments_cons_of_some harg, WhitespaceMode.incomplete_cons_of_some harg]
      simp only [ExceptT.run_bind, ih h]
      exact Logged.ext rfl (List.append_nil _)

/-! ## The whole line -/

-- The head is read first: without one there are no events, and the list is not looked at.
theorem parseLogged_of_missing {missing : Component}
    (h : Head.read (p.whitespace.tokens line) = .error missing) :
    p.parseLogged line = ⟨.error (.malformedSignature line missing), []⟩ := by
  rw [parseLogged, readSignature, readHead, h]
  rfl

theorem parseLogged_of_incomplete {head : Head} {token : Text} {rest : List Text}
    (hhead : Head.read (p.whitespace.tokens line) = .ok head) (hp : p.strict = true)
    (h : p.whitespace.incomplete (Text.parameters line) = token :: rest) :
    p.parseLogged line = ⟨.error (.malformedArgument line token), []⟩ := by
  rw [parseLogged, readSignature, readHead, hhead]
  simp only [ExceptT.run_bind, ExceptT.run_pure, pure_bind]
  rw [show Text.parameterTokens (Text.parameterText line) = Text.parameters line from rfl,
    readArguments_strict hp h]
  rfl

/-- The record of an accepted line. -/
def signatureOf (p : Parser) (line : Text) (head : Head) : Signature :=
  ⟨line, head.modifier, head.returnType, head.methodName,
    p.whitespace.arguments (Text.parameters line)⟩

theorem parseLogged_of_head {head : Head}
    (hhead : Head.read (p.whitespace.tokens line) = .ok head)
    (h : p.strict = false ∨ p.whitespace.incomplete (Text.parameters line) = []) :
    p.parseLogged line =
      ⟨.ok (p.signatureOf line head),
        (p.whitespace.incomplete (Text.parameters line)).map (.droppedArgument · line) ++
          [.parsed head.methodName (p.whitespace.arguments (Text.parameters line)).length]⟩ := by
  rw [parseLogged, readSignature, readHead, hhead]
  simp only [ExceptT.run_bind, ExceptT.run_pure, pure_bind]
  rw [show Text.parameterTokens (Text.parameterText line) = Text.parameters line from rfl,
    readArguments_ok h]
  rfl

theorem parse_of_head {head : Head} (hhead : Head.read (p.whitespace.tokens line) = .ok head)
    (h : p.strict = false ∨ p.whitespace.incomplete (Text.parameters line) = []) :
    p.parse line = .ok (p.signatureOf line head) := by
  rw [parse, parseLogged_of_head hhead h]

-- The three outcomes; in the last one the events are those of `parseLogged_of_head`.
theorem parseLogged_cases (p : Parser) (line : Text) :
    (∃ missing, Head.read (p.whitespace.tokens line) = .error missing ∧
        p.parseLogged line = ⟨.error (.malformedSignature line missing), []⟩) ∨
      ∃ head, Head.read (p.whitespace.tokens line) = .ok head ∧
        ((∃ token, p.parseLogged line = ⟨.error (.malformedArgument line token), []⟩) ∨
          (p.strict = false ∨ p.whitespace.incomplete (Text.parameters line) = []) ∧
            p.parse line = .ok (p.signatureOf line head)) := by
  cases hhead : Head.read (p.whitespace.tokens line) with
  | error missing => exact .inl ⟨missing, rfl, parseLogged_of_missing hhead⟩
  | ok head =>
    refine .inr ⟨head, rfl, ?_⟩
    by_cases hok : p.strict = false ∨ p.whitespace.incomplete (Text.parameters line) = []
    · exact .inr ⟨hok, parse_of_head hhead hok⟩
    · obtain ⟨hstrict, hne⟩ := not_or.mp hok
      obtain ⟨token, rest, hinc⟩ := List.exists_cons_of_ne_nil hne
      exact .inl ⟨token, parseLogged_of_incomplete hhead (by simpa using hstrict) hinc⟩

theorem parse_eq_ok_iff {s : Signature} :
    p.parse line = .ok s ↔
      ∃ head, Head.read (p.whitespace.tokens line) = .ok head ∧
        (p.strict = false ∨ p.whitespace.incomplete (Text.parameters line) = []) ∧
          s = p.signatureOf line head := by
  constructor
  · intro h
    rcases p.parseLogged_cases line with ⟨_, _, hrun⟩ | ⟨head, hhead, ⟨_, hrun⟩ | ⟨hok, hparse⟩⟩
    · rw [parse, hrun] at h
      cases h
    · rw [parse, hrun] at h
      cases h
    · rw [hparse] at h
      exact ⟨head, hhead, hok, (Except.ok.inj h).symm⟩
  · rintro ⟨head, hhead, hok, rfl⟩
    exact parse_of_head hhead hok

theorem parse_eq_malformedSignature_iff {signature : Text} {missing : Component} :
    p.parse line = .error (.malformedSignature signature missing) ↔
      signature = line ∧ Head.read (p.whitespace.tokens line) = .error missing := by
  rcases p.parseLogged_cases line with ⟨_, hhead, hrun⟩ | ⟨head, hhead, ⟨_, hrun⟩ | ⟨-, hparse⟩⟩
  · rw [parse, hrun, hhead]
    simp [eq_comm]
  · rw [parse, hrun, hhead]
    simp
  · rw [hparse, hhead]
    simp

-- An event is emitted only if the line is accepted.
theorem events_of_error {e : SignatureError} (h : p.parse line = .error e) :
    (p.parseLogged line).events = [] := by
  rcases p.parseLogged_cases line with ⟨_, _, hrun⟩ | ⟨head, _, ⟨_, hrun⟩ | ⟨-, hparse⟩⟩
  · rw [hrun]
  · rw [hrun]
  · rw [hparse] at h
    cases h

end Parser

end SignatureLine
