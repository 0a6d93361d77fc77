import SignatureLine.Proofs.Signature.Parameters
import SignatureLine.Proofs.Text.Runs
import SignatureLine.Proofs.Text.Utf8
import SignatureLine.Signature.Parser

/-!
# Where a line is cut

Reading a line cuts texts at byte positions in two places: a method name before the first opening
parenthesis of its token, and the parameter list between two parentheses of the line.  All cuts are
at boundaries and in order, so that the reader loses nothing to a cut that cannot be made.
-/

namespace SignatureLine

namespace Text

variable {start stop n : Nat} {s t : Text} {ch : Char}

/-! ## Slices -/

/-- The text `t` is a slice of `s`: what lies between two boundaries of `s` that are in order. -/
structure IsSlice (start stop : Nat) (s t : Text) : Prop where
  start_le_stop : start ≤ stop
  stop_le_size : stop ≤ s.utf8Encode.size
  isBoundary_start : IsBoundary start s
  isBoundary_stop : IsBoundary stop s
  slice_eq : sliceBytes? start stop s = some t
  extract_eq : s.utf8Encode.extract start stop = t.utf8Encode

theorem isSlice_of_sliceBytes? (h : sliceBytes? start stop s = some t) :
    IsSlice start stop s t := by
  have hsome : (sliceBytes? start stop s).isSome := by rw [h]; rfl
  obtain ⟨hle, hstart, hstop⟩ := isSome_sliceBytes?_iff.mp hsome
  exact ⟨hle, hstop.le, hstart, hstop, h, extract_of_sliceBytes? h⟩

theorem sliceBytes?_zero (n : Nat) (s : Text) : sliceBytes? 0 n s = takeBytes? n s := by
  have hdrop : ∀ t : Text, dropBytes? 0 t = some t := fun t => dropBytes?_byteLength [] t
  rw [sliceBytes?, if_pos (Nat.zero_le n), funext hdrop]
  exact Option.bind_fun_some _

/-! ## The cut before a character -/

theorem longestWithout_trimUntil (s : Text) (ch : Char) : LongestWithout ch (trimUntil s ch) s := by
  rw [trimUntil_eq_takeWhile]
  exact longestWithout_takeWhile ch s

theorem isSlice_trimUntil (h : bytePosition? ch s = some n) : IsSlice 0 n s (trimUntil s ch) := by
  apply isSlice_of_sliceBytes?
  rw [sliceBytes?_zero, takeBytes?_bytePosition? h, trimUntil_eq_takeWhile]

/-- The text before the first `ch`; nothing if that cut cannot be made. -/
def trimUntil? (s : Text) (ch : Char) : Option Text :=
  match bytePosition? ch s with
  | some n => sliceBytes? 0 n s
  | none => some s

theorem trimUntil?_eq (s : Text) (ch : Char) : trimUntil? s ch = some (trimUntil s ch) := by
  unfold trimUntil?
  cases h : bytePosition? ch s with
  | some n => exact (isSlice_trimUntil h).slice_eq
  | none => simp only [trimUntil, h]

/-! ## The cuts around the parameter list -/

theorem parameterSpan?_eq_some_iff :
    parameterSpan? s = some (start, stop) ↔
      ∃ opening, bytePosition? '(' s = some opening ∧ bytePosition? ')' s = some stop ∧
        opening < stop ∧ start = opening + 1 := by
  unfold parameterSpan?
  cases bytePosition? '(' s with
  | none => simp
  | some opening =>
    cases bytePosition? ')' s with
    | none => simp
    | some closing =>
      by_cases hlt : opening < closing
      · simp only [hlt, if_true, Option.some.injEq, Prod.mk.injEq]
        constructor
        · rintro ⟨rfl, rfl⟩
          exact ⟨opening, rfl, rfl, hlt, rfl⟩
        · rintro ⟨_, rfl, rfl, -, rfl⟩
          exact ⟨rfl, rfl⟩
      · simp only [hlt, if_false, Option.some.injEq]
        constructor
        · nofun
        · rintro ⟨_, rfl, rfl, hlt', -⟩
          exact absurd hlt' hlt

-- The parameter list begins one byte behind its opening parenthesis, as this is one byte long.
theorem exists_isSlice_of_parameterSpan? (h : parameterSpan? s = some (start, stop)) :
    ∃ p q r, s = p ++ '(' :: (q ++ ')' :: r) ∧ '(' ∉ p ∧ ')' ∉ p ∧ ')' ∉ q ∧
      IsSlice start stop s q := by
  obtain ⟨opening, hopening, hclosing, hlt, rfl⟩ := parameterSpan?_eq_some_iff.mp h
  obtain ⟨p, behind, rfl, hp, rfl⟩ := bytePosition?_eq_some_iff.mp hopening
  obtain ⟨front, r, hs, hfront, rfl⟩ := bytePosition?_eq_some_iff.mp hclosing
  have hprefix : p <+: front :=
    prefix_of_byteLength_le ⟨'(' :: behind, rfl⟩ ⟨')' :: r, hs.symm⟩ (Nat.le_of_lt hlt)
  obtain ⟨w, rfl⟩ := hprefix
  cases w with
  | nil => simp at hlt
  | cons c q =>
    rw [List.append_assoc, List.append_cancel_left_eq] at hs
    obtain ⟨rfl, rfl⟩ := List.cons.inj hs
    obtain ⟨hfp, hfq⟩ : ')' ∉ p ∧ ')' ∉ q := by simpa using hfront
    refine ⟨p, q, r, rfl, hp, hfp, hfq, isSlice_of_sliceBytes? ?_⟩
    apply sliceBytes?_eq_some_iff.mpr
    refine ⟨p ++ ['('], ')' :: r, by simp, ?_, by simp⟩
    exact (byteLength_append p ['(']).symm

/-- The trimmed text of the parameter list; nothing if a cut around it cannot be made. -/
def parameterText? (s : Text) : Option Text :=
  match parameterSpan? s with
  | some (start, stop) => (sliceBytes? start stop s).map trim
  | none => some []

theorem parameterText?_eq (s : Text) : parameterText? s = some (parameterText s) := by
  unfold parameterText? parameterText
  cases h : parameterSpan? s with
  | none => rfl
  | some span =>
    obtain ⟨start, stop⟩ := span
    obtain ⟨_, q, _, _, _, _, _, hslice⟩ := exists_isSlice_of_parameterSpan? h
    simp only [hslice.slice_eq, Option.map_some, Option.getD_some]

end Text

/-! ## A line with its cuts checked -/

namespace Head

/-- Reads the head as `readFrom` does; nothing if the cut of the method name cannot be made. -/
def readFrom? (withModifier : Bool) : Expectation → List Text → Option (Except Component Head)
  | state, [] => some (.error state.missing)
  | .modifierOrType, token :: rest =>
      match AccessModifier.ofKeyword? token, withModifier with
      | some m, true => readFrom? withModifier (.type m) rest
      | _, _ => readFrom? withModifier (.name none token) rest
  | .type m, token :: rest => readFrom? withModifier (.name (some m) token) rest
  | .name modifier returnType, token :: _ => do
      let methodName ← Text.trimUntil? token '('
      return .ok ⟨modifier, returnType, methodName⟩

theorem readFrom?_eq (withModifier : Bool) (state : Expectation) (tokens : List Text) :
    readFrom? withModifier state tokens = some (readFrom withModifier state tokens) := by
  induction tokens generalizing state with
  | nil => cases state <;> rfl
  | cons token rest ih =>
    cases state with
    | modifierOrType =>
      cases hkey : AccessModifier.ofKeyword? token with
      | none =>
        simp only [readFrom?, readFrom, hkey]
        exact ih _
      | some m =>
        cases withModifier with
        | false =>
          simp only [readFrom?, readFrom, hkey]
          exact ih _
        | true =>
          simp only [readFrom?, readFrom, hkey]
          exact ih _
    | type m => exact ih _
    | name modifier returnType =>
      rw [readFrom?, Text.trimUntil?_eq]
      rfl

def read? (tokens : List Text) : Option (Except Component Head) :=
  readFrom? (1 < tokens.length) .modifierOrType tokens

theorem read?_eq (tokens : List Text) : read? tokens = some (read tokens) :=
  readFrom?_eq _ _ _

end Head

namespace Parser

/-- Parses a line as `parseLogged` does; nothing if one of the cuts on the way cannot be made. -/
def parseLogged? (p : Parser) (line : Text) :
    Option (Logged SignatureEvent (Except SignatureError Signature)) := do
  match ← Head.read? (p.whitespace.tokens line) with
  | .error missing => return (throw (.malformedSignature line missing) : Parse Signature).run
  | .ok head =>
      let list ← Text.parameterText? line
      let rest : Parse Signature := do
        let arguments ← p.readArguments line (Text.parameterTokens list)
        report (.parsed head.methodName arguments.length)
        return ⟨line, head.modifier, head.returnType, head.methodName, arguments⟩
      return rest.run

theorem parseLogged?_eq (p : Parser) (line : Text) :
    p.parseLogged? line = some (p.parseLogged line) := by
  rw [parseLogged?, parseLogged, readSignature, readHead, Head.read?_eq, Text.parameterText?_eq]
  cases Head.read (p.whitespace.tokens line) with
  | error missing => rfl
  | ok head => rfl

end Parser

namespace Text

/-- The cuts of a line.  The parameter list is the slice behind the first opening and before the
first closing parenthesis; the position of a character is the first at which its bytes stand, and
what is cut off before it is the longest beginning without the character.  So a parser that checks
each of its cuts finds nothing wrong with any, whatever the line. -/
theorem isSlice_of_cuts (s : Text) :
    (∀ start stop, parameterSpan? s = some (start, stop) →
        ∃ opening p q r, s = p ++ '(' :: (q ++ ')' :: r) ∧ '(' ∉ p ∧ ')' ∉ p ∧ ')' ∉ q ∧
          bytePosition? '(' s = some opening ∧ bytePosition? ')' s = some stop ∧
          start = opening + 1 ∧ IsSlice start stop s q ∧ parameterText s = trim q) ∧
      (∀ ch n, bytePosition? ch s = some n ↔ OccursAt ch n s ∧ ∀ m < n, ¬ OccursAt ch m s) ∧
      (∀ ch n, bytePosition? ch s = some n → IsSlice 0 n s (trimUntil s ch)) ∧
      (∀ ch, LongestWithout ch (trimUntil s ch) s ∧ trimUntil? s ch = some (trimUntil s ch)) ∧
      ∀ parser : Parser, parser.parseLogged? s = some (parser.parseLogged s) := by
  refine ⟨fun start stop h => ?_, fun ch n => bytePosition?_eq_some_iff_occursAt,
    fun ch n => isSlice_trimUntil,
    fun ch => ⟨longestWithout_trimUntil s ch, trimUntil?_eq s ch⟩,
    fun parser => parser.parseLogged?_eq s⟩
  obtain ⟨opening, hopening, hclosing, -, hstart⟩ := parameterSpan?_eq_some_iff.mp h
  obtain ⟨p, q, r, hs, hp, hpc, hqc, hslice⟩ := exists_isSlice_of_parameterSpan? h
  refine ⟨opening, p, q, r, hs, hp, hpc, hqc, hopening, hclosing, hstart, hslice, ?_⟩
  rw [hs, parameterText_of_list hp hpc hqc]

-- Characters of two and of four bytes before and inside the list.
theorem isSlice_of_cuts_wide :
    parameterSpan? "é 𝕗(ü ß)".toList = some (8, 13) ∧
      IsSlice 8 13 "é 𝕗(ü ß)".toList "ü ß".toList ∧
      bytePosition? '𝕗' "é 𝕗(ü ß)".toList = some 3 ∧
      IsSlice 0 3 "é 𝕗(ü ß)".toList "é ".toList := by
  have hspan : parameterSpan? "é 𝕗(ü ß)".toList = some (8, 13) := by decide +kernel
  have hposition : bytePosition? '𝕗' "é 𝕗(ü ß)".toList = some 3 := by decide +kernel
  have htext : sliceBytes? 8 13 "é 𝕗(ü ß)".toList = some "ü ß".toList := by decide +kernel
  have htrim : trimUntil "é 𝕗(ü ß)".toList '𝕗' = "é ".toList := by decide +kernel
  obtain ⟨hlist, -, hcut, -⟩ := isSlice_of_cuts "é 𝕗(ü ß)".toList
  obtain ⟨-, -, q, -, -, -, -, -, -, -, -, hslice, -⟩ := hlist 8 13 hspan
  have hq : q = "ü ß".toList := Option.some.inj (hslice.slice_eq.symm.trans htext)
  rw [hq] at hslice
  have hbefore := hcut '𝕗' 3 hposition
  rw [htrim] at hbefore
  exact ⟨hspan, hslice, hposition, hbefore⟩

end Text

end SignatureLine
