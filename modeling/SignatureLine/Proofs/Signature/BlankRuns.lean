import SignatureLine.Proofs.Signature.Parsing
import SignatureLine.Proofs.Text.NormalForm

/-!
# Runs of blanks in a line

A parser in collapse mode reads a line as the parser in literal mode reads its normal form: the
head has the same tokens, and the tokens of the parameter list are squeezed, which changes none that
an error or an event shows.
-/

namespace SignatureLine

open Text (isBlank normalizeBlanks parameters parameterText parameterTokens squeeze wordsBy)

/-! ## Tokens -/

namespace WhitespaceMode

theorem tokens_normalizeBlanks (line : Text) :
    literal.tokens (normalizeBlanks line) = collapse.tokens line := by
  rw [tokens_literal, tokens_collapse]
  by_cases h : Text.trimBlanks line = []
  · rw [show wordsBy collapse.separates line = _ from (Text.wordsBy_trimBlanks line).symm,
      normalizeBlanks, h]
    rfl
  · rw [show (normalizeBlanks line).splitOnP literal.separates = _ from
      Text.splitOnP_normalizeBlanks h]
    apply dropEndWhile_eq_self
    intro w hw
    simpa using (Text.mem_wordsBy (List.mem_of_getLast? hw)).1

theorem argument?_squeeze (token : Text) :
    literal.argument? (squeeze token) = collapse.argument? token := by
  have hwords : literal.words (squeeze token) = collapse.words token := by
    rw [words_eq, wordsBy, show (squeeze token).splitOnP literal.separates = _ from
      Text.splitOnP_squeeze token]
    rfl
  rw [argument?, argument?, hwords]

-- A trimmed token with a blank in it has a word before the blank and one after it.
theorem squeeze_of_argument?_eq_none {token : Text} (htrim : Text.Trimmed Text.isWhitespace token)
    (h : collapse.argument? token = none) : squeeze token = token := by
  apply Text.squeezeFrom_eq_self
  intro c hc
  by_contra hblank
  replace hblank : isBlank c = true := by simpa using hblank
  obtain ⟨before, after, rfl⟩ := List.append_of_mem hc
  -- the ends of the token are no white space, so the blank is at neither of them
  have hwhite := Text.isWhitespace_of_isBlank hblank
  have hbefore : wordsBy isBlank before ≠ [] := by
    apply Text.wordsBy_ne_nil
    cases before with
    | nil =>
      have := htrim.1 c rfl
      rw [hwhite] at this
      cases this
    | cons d before => exact ⟨d, List.mem_cons_self, Text.isBlank_eq_false (htrim.1 d rfl)⟩
  have hafter : wordsBy isBlank after ≠ [] := by
    apply Text.wordsBy_ne_nil
    rcases List.eq_nil_or_concat' after with rfl | ⟨front, d, rfl⟩
    · have := htrim.2 c (by simp)
      rw [hwhite] at this
      cases this
    · have hlast : (before ++ c :: (front ++ [d])).getLast? = some d := by
        rw [← List.cons_append, ← List.append_assoc, List.getLast?_concat]
      exact ⟨d, by simp, Text.isBlank_eq_false (htrim.2 d hlast)⟩
  obtain ⟨type, types, htype⟩ := List.exists_cons_of_ne_nil hbefore
  obtain ⟨name, names, hname⟩ := List.exists_cons_of_ne_nil hafter
  rw [argument?, words_eq, show wordsBy collapse.separates (before ++ c :: after) = _ from
    Text.wordsBy_append_cons hblank before after, htype, hname] at h
  cases types <;> cases h

end WhitespaceMode

/-! ## The parameter list -/

namespace Text

theorem normalizeBlanks_append_cons {c : Char} (hc : isBlank c = false) (s t : Text) :
    normalizeBlanks (s ++ c :: t) =
      squeeze (s.dropWhile isBlank) ++ c :: squeeze (dropEndWhile isBlank t) := by
  have hdrop : (s ++ c :: t).dropWhile isBlank = s.dropWhile isBlank ++ c :: t := by
    rw [List.dropWhile_append]
    by_cases h : s.dropWhile isBlank = []
    · rw [if_pos (by rw [h]; rfl), h, List.dropWhile_cons_of_neg (by simp [hc])]
      rfl
    · rw [if_neg (by simpa using h)]
  rw [normalizeBlanks, trimBlanks, trimBoth, hdrop, dropEndWhile_append_cons hc,
    squeeze_append_cons hc]

theorem mem_normalizeBlanks_iff {c : Char} (hc : isBlank c = false) (s : Text) :
    c ∈ normalizeBlanks s ↔ c ∈ s := by
  rw [normalizeBlanks, squeeze, mem_squeezeFrom_iff hc]
  refine ⟨fun h => trimBoth_subset _ _ h, fun h => ?_⟩
  obtain ⟨before, after, hbefore, hafter, hs⟩ := exists_eq_append_trimBoth isBlank s
  rw [hs, List.mem_append, List.mem_append] at h
  rcases h with h | h | h
  · rw [hbefore c h] at hc
    cases hc
  · exact h
  · rw [hafter c h] at hc
    cases hc

theorem not_mem_squeeze_dropWhile {c : Char} (hc : isBlank c = false) {s : Text} (h : c ∉ s) :
    c ∉ squeeze (s.dropWhile isBlank) :=
  fun hmem => h (List.dropWhile_subset _ ((mem_squeezeFrom_iff hc _ _).mp hmem))

theorem parameterText_normalizeBlanks (line : Text) :
    parameterText (normalizeBlanks line) = squeeze (parameterText line) := by
  rcases parameterList_cases line with ⟨p, q, r, hopen, hp, hq, rfl⟩ | hclose | ⟨p, r, hp, rfl⟩
  · have hq' : ')' ∉ squeeze q := fun h => hq ((mem_squeezeFrom_iff rfl _ _).mp h)
    rw [normalizeBlanks_append_cons rfl, dropEndWhile_append_cons rfl, squeeze_append_cons rfl,
      parameterText_of_list (not_mem_squeeze_dropWhile rfl hopen)
        (not_mem_squeeze_dropWhile rfl hp) hq',
      parameterText_of_list hopen hp hq, trim_squeeze]
  · rw [parameterText_of_not_mem hclose,
      parameterText_of_not_mem fun h => hclose ((mem_normalizeBlanks_iff rfl _).mp h)]
    rfl
  · rw [normalizeBlanks_append_cons rfl, parameterText_of_closed hp,
      parameterText_of_closed (not_mem_squeeze_dropWhile rfl hp)]
    rfl

theorem parameterTokens_squeeze (l : Text) :
    parameterTokens (squeeze l) = (parameterTokens l).map squeeze := by
  rw [parameterTokens_eq, parameterTokens_eq, wordsBy, splitOnP_comma_squeeze, wordsBy,
    List.filter_map, List.map_map, List.map_map]
  have hempty : ((!·.isEmpty) ∘ squeeze : Text → Bool) = (!·.isEmpty) := by
    funext piece
    -- squeezing empties no piece
    cases piece with
    | nil => rfl
    | cons c piece =>
      have hne : squeeze (c :: piece) ≠ [] := mt squeeze_eq_nil_iff.mp (List.cons_ne_nil c piece)
      show (!(squeeze (c :: piece)).isEmpty) = true
      simpa using hne
  rw [hempty]
  apply List.map_congr_left
  intro piece _
  exact trim_squeeze piece

-- The tokens of the parameter list of the normal form.
theorem parameters_normalizeBlanks (line : Text) :
    parameters (normalizeBlanks line) = (parameters line).map squeeze := by
  rw [parameters, parameterText_normalizeBlanks, parameterTokens_squeeze, parameters]

end Text

/-! ## The two runs -/

/-- The error with another line in place of the one it shows. -/
def SignatureError.withLine (line : Text) : SignatureError → SignatureError
  | .malformedSignature _ missing => .malformedSignature line missing
  | .malformedArgument _ token => .malformedArgument line token

/-- The event with another line in place of the one it shows. -/
def SignatureEvent.withLine (line : Text) : SignatureEvent → SignatureEvent
  | .droppedArgument token _ => .droppedArgument token line
  | .parsed methodName argumentCount => .parsed methodName argumentCount

namespace Parser

/-- A run with another line in place of the one that its outcome and its events show. -/
def withLine (line : Text) (run : Logged SignatureEvent (Except SignatureError Signature)) :
    Logged SignatureEvent (Except SignatureError Signature) :=
  ⟨match run.value with
    | .ok s => .ok { s with raw := line }
    | .error e => .error (e.withLine line),
    run.events.map (·.withLine line)⟩

theorem arguments_squeeze (tokens : List Text) :
    WhitespaceMode.literal.arguments (tokens.map squeeze) =
      WhitespaceMode.collapse.arguments tokens := by
  rw [WhitespaceMode.arguments, List.filterMap_map, WhitespaceMode.arguments]
  congr 1
  funext token
  exact WhitespaceMode.argument?_squeeze token

theorem incomplete_squeeze {tokens : List Text}
    (h : ∀ token ∈ tokens, Text.Trimmed Text.isWhitespace token) :
    WhitespaceMode.literal.incomplete (tokens.map squeeze) =
      WhitespaceMode.collapse.incomplete tokens := by
  induction tokens with
  | nil => rfl
  | cons token tokens ih =>
    have hrest := ih fun t ht => h t (List.mem_cons_of_mem _ ht)
    rw [List.map_cons]
    cases harg : WhitespaceMode.collapse.argument? token with
    | none =>
      have hself := WhitespaceMode.squeeze_of_argument?_eq_none (h token List.mem_cons_self) harg
      rw [WhitespaceMode.incomplete_cons_of_none (by rw [WhitespaceMode.argument?_squeeze, harg]),
        WhitespaceMode.incomplete_cons_of_none harg, hrest, hself]
    | some argument =>
      rw [WhitespaceMode.incomplete_cons_of_some
          (by rw [WhitespaceMode.argument?_squeeze, harg]),
        WhitespaceMode.incomplete_cons_of_some harg, hrest]

theorem parseLogged_normalizeBlanks (strict : Bool) (line : Text) :
    parseLogged ⟨.collapse, strict⟩ line =
      withLine line (parseLogged ⟨.literal, strict⟩ (normalizeBlanks line)) := by
  -- the two parsers see one head, the same arguments and the same tokens without type and name
  have htokens := WhitespaceMode.tokens_normalizeBlanks line
  have harguments := arguments_squeeze (parameters line)
  have htrim : ∀ token ∈ parameters line, Text.Trimmed Text.isWhitespace token :=
    fun _ ht => (Text.mem_parameters ht).1
  have hincomplete := incomplete_squeeze htrim
  rw [← Text.parameters_normalizeBlanks] at harguments hincomplete
  cases hhead : Head.read (WhitespaceMode.collapse.tokens line) with
  | error missing =>
    rw [parseLogged_of_missing hhead,
      parseLogged_of_missing (p := ⟨.literal, strict⟩) (by rw [htokens, hhead])]
    rfl
  | ok head =>
    have hhead' : Head.read (WhitespaceMode.literal.tokens (normalizeBlanks line)) = .ok head := by
      rw [htokens, hhead]
    by_cases hok : strict = false ∨ WhitespaceMode.collapse.incomplete (parameters line) = []
    · rw [parseLogged_of_head hhead hok,
        parseLogged_of_head (p := ⟨.literal, strict⟩) hhead' (by rw [hincomplete]; exact hok)]
      dsimp only [withLine]
      rw [harguments, hincomplete, List.map_append, List.map_map, signatureOf, signatureOf,
        harguments]
      rfl
    · obtain ⟨hstrict, hne⟩ := not_or.mp hok
      obtain ⟨token, rest, hinc⟩ := List.exists_cons_of_ne_nil hne
      replace hstrict : strict = true := by simpa using hstrict
      rw [parseLogged_of_incomplete hhead hstrict hinc,
        parseLogged_of_incomplete (p := ⟨.literal, strict⟩) hhead' hstrict
          (by rw [hincomplete]; exact hinc)]
      rfl

theorem withLine_withLine (line other : Text)
    (run : Logged SignatureEvent (Except SignatureError Signature)) :
    withLine line (withLine other run) = withLine line run := by
  apply Logged.ext
  · rcases run with ⟨(_ | _) | _, _⟩ <;> rfl
  · dsimp only [withLine]
    rw [List.map_map]
    apply List.map_congr_left
    rintro (_ | _) _ <;> rfl

/-- A run in collapse mode is the run in literal mode on the normal form of the line, but for the
line that is shown.  So no change of the blanks of a line changes more than that. -/
theorem parseLogged_collapse (strict : Bool) (line : Text) :
    parseLogged ⟨.collapse, strict⟩ line =
        withLine line (parseLogged ⟨.literal, strict⟩ (normalizeBlanks line)) ∧
      ∀ other, Relation.EqvGen Text.BlankChange line other →
        parseLogged ⟨.collapse, strict⟩ other =
          withLine other (parseLogged ⟨.collapse, strict⟩ line) := by
  refine ⟨parseLogged_normalizeBlanks strict line, fun other h => ?_⟩
  rw [parseLogged_normalizeBlanks, parseLogged_normalizeBlanks,
    Text.normalizeBlanks_of_blankChanges h, withLine_withLine]

end Parser

end SignatureLine
