import SignatureLine.Proofs.Signature.Head
import SignatureLine.Proofs.Signature.Parsing
import SignatureLine.Proofs.Text.Runs

/-!
# Which lines have a head

A line has a head if it has two tokens behind a keyword in front, or two tokens at all.  The tokens
are read off the layout of the line, and nothing but their number and the keyword matters.
-/

namespace SignatureLine

/-- The tokens of a line as they lie there: what stands between single spaces, once the spaces at
the end are gone, or the runs of other characters than blanks. -/
noncomputable def WhitespaceMode.layout : WhitespaceMode → Text → List Text
  | .literal, s =>
      let line := dropEndWhile (· == ' ') s
      if line = [] then [] else line.splitOnP (· == ' ')
  | .collapse, s => Text.runsOf Text.isBlank s

/-! ## Tokens and layout -/

theorem Text.eq_nil_of_mem_splitOnP {p : Char → Bool} {s piece : Text} (hs : ∀ c ∈ s, p c = true)
    (h : piece ∈ s.splitOnP p) : piece = [] := by
  apply List.eq_nil_iff_forall_not_mem.mpr
  intro c hc
  obtain ⟨hmem, hnot⟩ := mem_splitOnP h c hc
  rw [hs c hmem] at hnot
  cases hnot

-- A text that does not end in a separating character does not end in an empty piece.
theorem Text.getLast?_splitOnP {p : Char → Bool} {s : Text} (hne : s ≠ [])
    (hs : ∀ c ∈ s.getLast?, p c = false) :
    ∀ piece ∈ (s.splitOnP p).getLast?, piece.isEmpty = false := by
  obtain ⟨s, c, rfl⟩ := (List.eq_nil_or_concat' s).resolve_left hne
  have hc : p c = false := hs c (by simp)
  obtain ⟨front, last, -, happ⟩ := exists_splitOnP_append p s
  have hsingle : ([c] : Text).splitOnP p = [[c]] :=
    List.splitOnP_eq_singleton (List.forall_mem_singleton.mpr hc)
  rw [happ, hsingle]
  intro piece hpiece
  obtain rfl : last ++ [c] = piece := by simpa using hpiece
  simp

-- Spaces at the end of a line only add empty tokens at its end.
theorem WhitespaceMode.tokens_literal_eq_layout (s : Text) :
    literal.tokens s = literal.layout s := by
  let line := dropEndWhile literal.separates s
  let spaces := s.rtakeWhile literal.separates
  have hs : line ++ spaces = s := List.rdropWhile_append_rtakeWhile
  have hspaces : ∀ c ∈ spaces, literal.separates c = true := fun c hc => List.mem_rtakeWhile_imp hc
  have hempty : ∀ piece ∈ spaces.splitOnP literal.separates, piece.isEmpty = true :=
    fun piece hpiece => List.isEmpty_iff.mpr (Text.eq_nil_of_mem_splitOnP hspaces hpiece)
  have hlayout : literal.layout s =
      if line = [] then [] else line.splitOnP literal.separates := rfl
  rw [tokens_literal, hlayout]
  by_cases hline : line = []
  · rw [if_pos hline, ← hs, hline, List.nil_append]
    exact dropEndWhile_eq_nil_iff.mpr hempty
  · obtain ⟨front, last, hfront, happ⟩ := Text.exists_splitOnP_append literal.separates line
    obtain ⟨first, rest, hfirst⟩ :=
      List.exists_cons_of_ne_nil (List.splitOnP_ne_nil literal.separates spaces)
    rw [hfirst] at hempty
    obtain ⟨hnil, hrest⟩ := List.forall_mem_cons.mp hempty
    -- the first piece of the spaces is empty, so the last token is left as it is
    have hsplit : s.splitOnP literal.separates = line.splitOnP literal.separates ++ rest := by
      rw [← hs, happ, hfirst, List.isEmpty_iff.mp hnil, hfront]
      simp
    rw [if_neg hline, hsplit, dropEndWhile_append_of_all hrest]
    exact dropEndWhile_eq_self (Text.getLast?_splitOnP hline (getLast?_dropEndWhile s))

/-- The tokens of a line are the ones that its layout shows. -/
theorem WhitespaceMode.tokens_eq_layout (mode : WhitespaceMode) (s : Text) :
    mode.tokens s = mode.layout s := by
  cases mode with
  | literal => exact tokens_literal_eq_layout s
  | collapse =>
    rw [tokens_collapse, Text.wordsBy_eq_runsOf]
    rfl

namespace Head

/-! ## The states of reading -/

/-- What a token makes of a state: the next state, or the head. -/
def step (withModifier : Bool) : Expectation → Text → Expectation ⊕ Head
  | .modifierOrType, token =>
      match AccessModifier.ofKeyword? token, withModifier with
      | some m, true => .inl (.type m)
      | _, _ => .inl (.name none token)
  | .type m, token => .inl (.name (some m) token)
  | .name modifier returnType, token => .inr ⟨modifier, returnType, Text.trimUntil token '('⟩

/-- The state in which the tokens end, or the head. -/
def run (withModifier : Bool) : Expectation → List Text → Expectation ⊕ Head
  | state, [] => .inl state
  | state, token :: rest =>
      match step withModifier state token with
      | .inl next => run withModifier next rest
      | .inr head => .inr head

theorem readFrom_eq_run (withModifier : Bool) (state : Expectation) (tokens : List Text) :
    readFrom withModifier state tokens =
      match run withModifier state tokens with
      | .inl state => .error state.missing
      | .inr head => .ok head := by
  induction tokens generalizing state with
  | nil => cases state <;> rfl
  | cons token tokens ih =>
    cases state with
    | modifierOrType =>
      cases hkey : AccessModifier.ofKeyword? token with
      | none =>
        simp only [readFrom, run, step, hkey]
        exact ih _
      | some m =>
        cases withModifier
        all_goals
          simp only [readFrom, run, step, hkey]
          exact ih _
    | type m => exact ih _
    | name modifier returnType => rfl

-- A state that expects a type has a token to take it from.
theorem step_type {withModifier : Bool} {state : Expectation} {token : Text} {m : AccessModifier}
    (h : step withModifier state token = .inl (.type m)) :
    state = .modifierOrType ∧ withModifier = true := by
  cases state with
  | modifierOrType =>
    simp only [step] at h
    split at h
    · next hmodifier => exact ⟨rfl, rfl⟩
    · cases h
  | type m => cases h
  | name modifier returnType => cases h

theorem step_ne_modifierOrType {withModifier : Bool} {state : Expectation} {token : Text} :
    step withModifier state token ≠ .inl .modifierOrType := by
  cases state with
  | modifierOrType =>
    simp only [step]
    split <;> nofun
  | type m => nofun
  | name modifier returnType => nofun

theorem run_ne_type {withModifier : Bool} {state : Expectation} {tokens : List Text}
    (htype : ∀ m, state = .type m → tokens ≠ [])
    (hfirst : state = .modifierOrType → withModifier = true → 1 < tokens.length)
    (m : AccessModifier) : run withModifier state tokens ≠ .inl (.type m) := by
  induction tokens generalizing state with
  | nil =>
    intro h
    exact htype m (Sum.inl.inj h) rfl
  | cons token tokens ih =>
    rw [run]
    cases hstep : step withModifier state token with
    | inr head => nofun
    | inl next =>
      refine ih (fun m hnext => ?_) fun hnext => ?_
      · rw [hnext] at hstep
        obtain ⟨hstate, hwith⟩ := step_type hstep
        have hlength := hfirst hstate hwith
        rintro rfl
        simp at hlength
      · exact absurd (hnext ▸ hstep) step_ne_modifierOrType

theorem run_tokens_ne_type (tokens : List Text) (m : AccessModifier) :
    run (1 < tokens.length) .modifierOrType tokens ≠ .inl (.type m) :=
  run_ne_type (fun _ h => Expectation.noConfusion h) (fun _ h => of_decide_eq_true h) m

/-! ## The head by position -/

/-- How many of the tokens stand before the return type: a keyword in front counts if it is not
the only token. -/
def keywordCount (tokens : List Text) : Nat :=
  if 1 < tokens.length ∧ tokens.headD [] ∈ AccessModifier.all.map AccessModifier.keyword then 1
  else 0

theorem mem_keywords_iff {s : Text} :
    s ∈ AccessModifier.all.map AccessModifier.keyword ↔
      AccessModifier.ofKeyword? s ≠ none := by
  constructor
  · intro h
    obtain ⟨m, -, rfl⟩ := List.mem_map.mp h
    simp
  · intro h
    obtain ⟨m, hm⟩ := Option.ne_none_iff_exists'.mp h
    obtain rfl := AccessModifier.ofKeyword?_eq_some_iff.mp hm
    exact List.mem_map_of_mem (by cases m <;> decide)

theorem keywordCount_cons_cons (first second : Text) (rest : List Text) :
    keywordCount (first :: second :: rest) =
      if AccessModifier.ofKeyword? first = none then 0 else 1 := by
  rw [keywordCount]
  by_cases h : AccessModifier.ofKeyword? first = none
  · rw [if_pos h, if_neg]
    rintro ⟨-, hmem⟩
    exact mem_keywords_iff.mp hmem h
  · rw [if_neg h, if_pos]
    exact ⟨by simp, mem_keywords_iff.mpr h⟩

/-- The head that stands at the first positions of the tokens. -/
structure StandsIn (head : Head) (tokens : List Text) : Prop where
  modifier : head.modifier.toList.map AccessModifier.keyword = tokens.take (keywordCount tokens)
  returnType : tokens[keywordCount tokens]? = some head.returnType
  methodName : ∃ token, tokens[keywordCount tokens + 1]? = some token ∧
    Text.LongestWithout '(' head.methodName token

theorem read_eq_ok_iff_standsIn {tokens : List Text} {head : Head} :
    read tokens = .ok head ↔ head.StandsIn tokens := by
  have hname : ∀ {token : Text}, head.methodName = Text.trimUntil token '(' ↔
      Text.LongestWithout '(' head.methodName token := by
    intro token
    rw [Text.trimUntil_eq_takeWhile, Text.longestWithout_iff]
  rw [read_eq_ok_iff]
  constructor
  · rintro ⟨nameToken, rest, rfl, hkey, hmethod⟩
    have hlongest := hname.mp hmethod
    cases hmodifier : head.modifier with
    | none =>
      have hcount := keywordCount_cons_cons head.returnType nameToken rest
      rw [if_pos (hkey hmodifier)] at hcount
      constructor <;> simp [modifierTokens, hcount, hmodifier, hlongest]
    | some m =>
      have hcount := keywordCount_cons_cons m.keyword head.returnType (nameToken :: rest)
      rw [if_neg (by simp)] at hcount
      constructor <;> simp [modifierTokens, hcount, hmodifier, hlongest]
  · rintro ⟨hmodifier, hreturn, token, htoken, hlongest⟩
    rcases tokens with _ | ⟨first, _ | ⟨second, rest⟩⟩
    · simp at hreturn
    · simp at htoken
    · rw [keywordCount_cons_cons] at hmodifier hreturn htoken
      cases hkey : AccessModifier.ofKeyword? first with
      | none =>
        obtain rfl : first = head.returnType := by simpa [hkey] using hreturn
        obtain rfl : second = token := by simpa [hkey] using htoken
        have hnone : head.modifier = none := by simpa [hkey] using hmodifier
        refine ⟨second, rest, ?_, fun _ => hkey, hname.mpr hlongest⟩
        rw [hnone]
        rfl
      | some m =>
        obtain rfl : second = head.returnType := by simpa [hkey] using hreturn
        have hfirst : modifierTokens head.modifier = [first] := by
          simpa [hkey, modifierTokens] using hmodifier
        cases rest with
        | nil => simp [hkey] at htoken
        | cons third rest =>
          obtain rfl : third = token := by simpa [hkey] using htoken
          refine ⟨third, rest, ?_, fun hnone => ?_, hname.mpr hlongest⟩
          · rw [hfirst]
            rfl
          · rw [hnone] at hfirst
            cases hfirst

theorem read_eq_error_iff {tokens : List Text} {missing : Component} :
    read tokens = .error missing ↔
      tokens.length < keywordCount tokens + 2 ∧
        missing = if tokens = [] then .returnType else .methodName := by
  rw [read_eq]
  rcases tokens with _ | ⟨first, _ | ⟨second, rest⟩⟩
  · exact ⟨fun h => ⟨by decide, (Except.error.inj h).symm⟩, fun h => by rw [h.2]; rfl⟩
  · exact ⟨fun h => ⟨by simp, (Except.error.inj h).symm⟩, fun h => by rw [h.2]; rfl⟩
  · rw [keywordCount_cons_cons]
    cases hkey : AccessModifier.ofKeyword? first with
    | none => simp [hkey]
    | some m =>
      cases rest with
      | nil => simp [hkey, eq_comm (a := missing)]
      | cons third rest => simp [hkey]

theorem exists_read_iff {tokens : List Text} :
    (∃ head, read tokens = .ok head) ↔ keywordCount tokens + 2 ≤ tokens.length := by
  cases h : read tokens with
  | ok head =>
    refine iff_of_true ⟨head, rfl⟩ ?_
    -- otherwise reading would have failed
    by_contra hlt
    have herror := read_eq_error_iff.mpr ⟨Nat.not_le.mp hlt, rfl⟩
    rw [h] at herror
    cases herror
  | error missing =>
    have hlt := (read_eq_error_iff.mp h).1
    exact iff_of_false nofun (Nat.not_le.mpr hlt)

end Head

namespace Parser

/-- The head of a line by its layout.  Whether there is one, which one it is and what is missing if
there is none does not depend on strictness or on the parameter list. -/
theorem parse_layout (mode : WhitespaceMode) (line : Text) :
    let tokens := mode.layout line
    let k := Head.keywordCount tokens
    ((∃ head, Head.read (mode.tokens line) = .ok head) ↔ k + 2 ≤ tokens.length) ∧
      (∀ head, Head.read (mode.tokens line) = .ok head ↔ head.StandsIn tokens) ∧
      (∀ strict s, parse ⟨mode, strict⟩ line = .ok s →
        Head.StandsIn ⟨s.modifier, s.returnType, s.methodName⟩ tokens) ∧
      (∀ strict signature missing,
        parse ⟨mode, strict⟩ line = .error (.malformedSignature signature missing) ↔
          tokens.length < k + 2 ∧ signature = line ∧
            missing = if tokens = [] then .returnType else .methodName) ∧
      (Head.read (mode.tokens line) =
          match Head.run (1 < (mode.tokens line).length) .modifierOrType (mode.tokens line) with
          | .inl state => .error state.missing
          | .inr head => .ok head) ∧
      (∀ m, Head.run (1 < (mode.tokens line).length) .modifierOrType (mode.tokens line) ≠
        .inl (.type m)) ∧
      ((∃ s, parse ⟨mode, false⟩ line = .ok s) ↔ k + 2 ≤ tokens.length) := by
  intro tokens k
  have htokens : mode.tokens line = tokens := mode.tokens_eq_layout line
  rw [htokens]
  refine ⟨Head.exists_read_iff, fun head => Head.read_eq_ok_iff_standsIn, ?_, ?_,
    Head.readFrom_eq_run _ _ tokens, Head.run_tokens_ne_type tokens, ?_⟩
  · intro strict s hs
    obtain ⟨head, hhead, -, rfl⟩ := parse_eq_ok_iff.mp hs
    rw [← Head.read_eq_ok_iff_standsIn, ← htokens]
    exact hhead
  · intro strict signature missing
    rw [parse_eq_malformedSignature_iff, htokens, Head.read_eq_error_iff]
    exact and_left_comm
  · rw [← Head.exists_read_iff, ← htokens]
    constructor
    · rintro ⟨s, hs⟩
      obtain ⟨head, hhead, -⟩ := parse_eq_ok_iff.mp hs
      exact ⟨head, hhead⟩
    · rintro ⟨head, hhead⟩
      exact ⟨_, parse_of_head hhead (.inl rfl)⟩

-- An empty token is the return type, and of the two keywords the second is a name.
theorem parse_layout_keywords :
    parse ⟨.literal, true⟩ "private  public(a b)  ".toList =
        .ok ⟨"private  public(a b)  ".toList, some .privateAccess, [], "public".toList,
          [⟨['a'], ['b']⟩]⟩ ∧
      Head.StandsIn ⟨some .privateAccess, [], "public".toList⟩
        (WhitespaceMode.literal.layout "private  public(a b)  ".toList) := by
  have hparse : parse ⟨.literal, true⟩ "private  public(a b)  ".toList =
      .ok ⟨"private  public(a b)  ".toList, some .privateAccess, [], "public".toList,
        [⟨['a'], ['b']⟩]⟩ := by
    decide +kernel
  exact ⟨hparse, (parse_layout _ _).2.2.1 true _ hparse⟩

end Parser

end SignatureLine
