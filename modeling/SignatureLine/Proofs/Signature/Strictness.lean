import SignatureLine.Proofs.Signature.Parsing

/-!
# Strict and tolerant parsers

The two parsers of one whitespace mode read the same head and the same tokens.  They differ only on
lines where the tolerant one drops a token, and there the strict one names the first of these.
-/

namespace SignatureLine

/-- The token that an event tells to be left out. -/
def SignatureEvent.dropped? : SignatureEvent → Option Text
  | .droppedArgument token _ => some token
  | .parsed .. => none

/-- The tokens that the events tell to be left out, first to last. -/
def droppedTokens (events : List SignatureEvent) : List Text :=
  events.filterMap SignatureEvent.dropped?

theorem droppedTokens_of_run (line : Text) (tokens : List Text) (name : Text) (n : Nat) :
    droppedTokens (tokens.map (.droppedArgument · line) ++ [.parsed name n]) = tokens := by
  rw [droppedTokens, List.filterMap_append, List.filterMap_map]
  have hmap : tokens.filterMap (SignatureEvent.dropped? ∘ (.droppedArgument · line)) = tokens :=
    List.filterMap_some
  rw [hmap]
  exact List.append_nil tokens

namespace Parser

def strictRun (mode : WhitespaceMode) (line : Text) :
    Logged SignatureEvent (Except SignatureError Signature) :=
  parseLogged { whitespace := mode, strict := true } line

def tolerantRun (mode : WhitespaceMode) (line : Text) :
    Logged SignatureEvent (Except SignatureError Signature) :=
  parseLogged { whitespace := mode, strict := false } line

-- The two runs on any line, by the head of the line and by the tokens without type and name.
theorem runs_cases (mode : WhitespaceMode) (line : Text) :
    (∃ missing,
        strictRun mode line = ⟨.error (.malformedSignature line missing), []⟩ ∧
          tolerantRun mode line = ⟨.error (.malformedSignature line missing), []⟩) ∨
      ∃ s, (tolerantRun mode line).value = .ok s ∧
        match droppedTokens (tolerantRun mode line).events with
        | [] => strictRun mode line = tolerantRun mode line ∧
            droppedTokens (strictRun mode line).events = []
        | token :: _ => strictRun mode line = ⟨.error (.malformedArgument line token), []⟩ := by
  cases hhead : Head.read (mode.tokens line) with
  | error missing =>
    exact .inl ⟨missing, parseLogged_of_missing hhead, parseLogged_of_missing hhead⟩
  | ok head =>
    right
    have htolerant := parseLogged_of_head (p := ⟨mode, false⟩) hhead (.inl rfl)
    refine ⟨_, congrArg Logged.value htolerant, ?_⟩
    rw [show tolerantRun mode line = _ from htolerant, droppedTokens_of_run]
    cases hinc : mode.incomplete (Text.parameters line) with
    | nil =>
      have hstrict := parseLogged_of_head (p := ⟨mode, true⟩) hhead (.inr hinc)
      have hnone : strictRun mode line = _ := hstrict
      rw [hnone, droppedTokens_of_run]
      exact ⟨by rw [hinc]; rfl, hinc⟩
    | cons token rest => exact parseLogged_of_incomplete (p := ⟨mode, true⟩) hhead rfl hinc

/-- Strict and tolerant runs on any line, compared through the tokens that the tolerant one drops.
The first part is about lines without a head, and the next three about all others. -/
theorem strictRun_tolerantRun (mode : WhitespaceMode) (line : Text) :
    (∀ signature missing,
        (strictRun mode line).value = .error (.malformedSignature signature missing) ∨
            (tolerantRun mode line).value = .error (.malformedSignature signature missing) →
          strictRun mode line = ⟨.error (.malformedSignature signature missing), []⟩ ∧
            tolerantRun mode line = ⟨.error (.malformedSignature signature missing), []⟩) ∧
      ((∃ s, (tolerantRun mode line).value = .ok s) ∨
        ∃ missing, (tolerantRun mode line).value = .error (.malformedSignature line missing)) ∧
      (droppedTokens (tolerantRun mode line).events = [] →
        strictRun mode line = tolerantRun mode line) ∧
      (∀ token rest, droppedTokens (tolerantRun mode line).events = token :: rest →
        strictRun mode line = ⟨.error (.malformedArgument line token), []⟩) ∧
      droppedTokens (strictRun mode line).events = [] := by
  rcases runs_cases mode line with ⟨missing, hstrict, htolerant⟩ | ⟨s, hok, hruns⟩
  · rw [hstrict, htolerant]
    refine ⟨?_, .inr ⟨missing, rfl⟩, fun _ => rfl, nofun, rfl⟩
    rintro signature other (h | h)
    all_goals
      obtain ⟨rfl, rfl⟩ := SignatureError.malformedSignature.inj (Except.error.inj h)
      exact ⟨rfl, rfl⟩
  · rw [hok]
    cases hdrop : droppedTokens (tolerantRun mode line).events with
    | nil =>
      rw [hdrop] at hruns
      obtain ⟨heq, hnone⟩ := hruns
      refine ⟨?_, .inl ⟨s, rfl⟩, fun _ => heq, nofun, hnone⟩
      rintro signature missing (h | h)
      · rw [heq, hok] at h
        cases h
      · cases h
    | cons token rest =>
      rw [hdrop] at hruns
      simp only at hruns
      rw [hruns]
      refine ⟨?_, .inl ⟨s, rfl⟩, nofun, ?_, rfl⟩
      · rintro signature missing (h | h)
        · cases h
        · cases h
      · intro first others h
        rw [(List.cons.inj h).1]

-- The first of three dropped tokens is a blank piece, and the strict parser names it.
theorem strictRun_blank_piece :
    droppedTokens (tolerantRun .collapse "t\tf(int a,\u00a0, b,, c d e, g)".toList).events =
        [[], ['b'], ['g']] ∧
      strictRun .collapse "t\tf(int a,\u00a0, b,, c d e, g)".toList =
        ⟨.error (.malformedArgument "t\tf(int a,\u00a0, b,, c d e, g)".toList []), []⟩ := by
  have hdrop :
      droppedTokens (tolerantRun .collapse "t\tf(int a,\u00a0, b,, c d e, g)".toList).events =
        [[], ['b'], ['g']] := by
    decide +kernel
  exact ⟨hdrop, (strictRun_tolerantRun _ _).2.2.2.1 _ _ hdrop⟩

end Parser

end SignatureLine
