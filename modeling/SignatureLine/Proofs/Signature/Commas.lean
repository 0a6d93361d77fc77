import SignatureLine.Proofs.Signature.Factoring
import SignatureLine.Proofs.Signature.ListText

/-!
# Lists joined by commas

What a parser that is not strict reads from a parameter list is the concatenation of what it reads
from the pieces between the commas.  White space next to a comma, and pieces of nothing else, add
nothing.
-/

namespace SignatureLine

open Text (isWhitespace trim)

theorem Text.not_mem_intercalate_comma {c : Char} (hc : c ≠ ',') {pieces : List Text}
    (h : ∀ piece ∈ pieces, c ∉ piece) : c ∉ [','].intercalate pieces := by
  induction pieces with
  | nil => exact List.not_mem_nil
  | cons piece pieces ih =>
    obtain ⟨hpiece, hrest⟩ := List.forall_mem_cons.mp h
    cases pieces with
    | nil => simpa [List.intercalate] using hpiece
    | cons next pieces =>
      rw [List.intercalate_cons_cons]
      simp [hpiece, hc, ih hrest]

/-! ## The arguments of a list -/

namespace WhitespaceMode

variable {mode : WhitespaceMode} {blank : Text}

theorem listArguments_append_right (h : ∀ c ∈ blank, isWhitespace c = true) (l : Text) :
    mode.listArguments (l ++ blank) = mode.listArguments l := by
  rw [listArguments, trim, Text.trimBoth_append_right h, listArguments, trim]

theorem listArguments_of_isWhitespace (h : ∀ c ∈ blank, isWhitespace c = true) :
    mode.listArguments blank = [] :=
  listArguments_append_right h []

-- By the law for one comma, from the last piece to the first.
theorem listArguments_intercalate (pieces : List Text) :
    mode.listArguments ([','].intercalate pieces) = pieces.flatMap mode.listArguments := by
  induction pieces with
  | nil => rfl
  | cons piece pieces ih =>
    cases pieces with
    | nil => simp [List.intercalate]
    | cons next pieces =>
      rw [List.intercalate_cons_cons, List.append_assoc, List.singleton_append,
        listArguments_append_comma, ih, ← List.flatMap_cons]

end WhitespaceMode

/-! ## A line with a given list -/

/-- A line whose parameter list is the given text. -/
def listLine (list : Text) : Text :=
  "t f".toList ++ '(' :: (list ++ [')'])

namespace Parser

/-- The arguments that a parser reads from a parameter list; none if it does not accept the line. -/
def argumentsOf (p : Parser) (list : Text) : List Argument :=
  match p.parse (listLine list) with
  | .ok s => s.arguments
  | .error _ => []

variable {p : Parser} {list : Text}

theorem parse_listLine (p : Parser) (h : ')' ∉ list) :
    p.parse (listLine list) =
      match p.readList list with
      | .ok arguments => .ok ⟨listLine list, none, ['t'], ['f'], arguments⟩
      | .error token => .error (.malformedArgument (listLine list) token) := by
  have hfront : ∀ mode : WhitespaceMode,
      Head.read (mode.tokens ("t f".toList ++ ['('])) = .ok ⟨none, ['t'], ['f']⟩ := by
    intro mode
    cases mode <;> decide +kernel
  exact parse_eq_readList (Head.read_tokens_append (hfront p.whitespace) _)
    (Text.parameterText_of_list (by decide) (by decide) h [])

theorem readList_of_not_strict (hp : p.strict = false) (list : Text) :
    p.readList list = .ok (p.whitespace.listArguments list) := by
  rw [readList, hp]
  rfl

theorem parse_listLine_of_not_strict (hp : p.strict = false) (h : ')' ∉ list) :
    p.parse (listLine list) =
      .ok ⟨listLine list, none, ['t'], ['f'], p.whitespace.listArguments list⟩ := by
  rw [parse_listLine p h, readList_of_not_strict hp]

theorem argumentsOf_eq (hp : p.strict = false) (h : ')' ∉ list) :
    p.argumentsOf list = p.whitespace.listArguments list := by
  rw [argumentsOf, parse_listLine_of_not_strict hp h]

theorem argumentsOf_intercalate (hp : p.strict = false) {pieces : List Text}
    (h : ∀ piece ∈ pieces, ')' ∉ piece) :
    p.argumentsOf ([','].intercalate pieces) = pieces.flatMap p.argumentsOf := by
  rw [argumentsOf_eq hp (Text.not_mem_intercalate_comma (by decide) h),
    WhitespaceMode.listArguments_intercalate]
  exact List.flatMap_congr fun piece hpiece => (argumentsOf_eq hp (h piece hpiece)).symm

/-- A comma joins the arguments of two lists.  So neither white space next to a comma nor a blank
piece counts, and the arguments of the pieces come in the order of the pieces. -/
theorem argumentsOf_append_comma (hp : p.strict = false) :
    (∀ list, ')' ∉ list →
        ∃ s, p.parse (listLine list) = .ok s ∧ s.arguments = p.argumentsOf list) ∧
      (∀ l m, ')' ∉ l → ')' ∉ m →
        p.argumentsOf (l ++ ',' :: m) = p.argumentsOf l ++ p.argumentsOf m ∧
          ∀ blank, (∀ c ∈ blank, isWhitespace c = true) →
            p.argumentsOf ((l ++ blank) ++ ',' :: m) = p.argumentsOf (l ++ ',' :: m) ∧
              p.argumentsOf (l ++ ',' :: (blank ++ m)) = p.argumentsOf (l ++ ',' :: m) ∧
              p.argumentsOf (l ++ ',' :: (blank ++ ',' :: m)) = p.argumentsOf (l ++ ',' :: m) ∧
              p.argumentsOf (blank ++ ',' :: m) = p.argumentsOf m ∧
              p.argumentsOf (l ++ ',' :: blank) = p.argumentsOf l) ∧
      ∀ pieces : List Text, (∀ piece ∈ pieces, ')' ∉ piece) →
        p.argumentsOf ([','].intercalate pieces) = pieces.flatMap p.argumentsOf ∧
          ∀ others : List Text, others.Perm pieces →
            (p.argumentsOf ([','].intercalate others)).Perm
              (p.argumentsOf ([','].intercalate pieces)) := by
  refine ⟨fun list h => ?_, fun l m hl hm => ?_, fun pieces h => ⟨?_, fun others hperm => ?_⟩⟩
  · exact ⟨_, parse_listLine_of_not_strict hp h, (argumentsOf_eq hp h).symm⟩
  · have happ : ∀ {u v : Text}, ')' ∉ u → ')' ∉ v →
        p.argumentsOf (u ++ ',' :: v) = p.argumentsOf u ++ p.argumentsOf v := by
      intro u v hu hv
      rw [argumentsOf_eq hp (by simp [hu, hv]), argumentsOf_eq hp hu, argumentsOf_eq hp hv,
        WhitespaceMode.listArguments_append_comma]
    refine ⟨happ hl hm, fun blank hblank => ?_⟩
    -- each of the texts is cut at its comma, and then the blank text is left out
    have hb : ')' ∉ blank := Text.not_mem_of_forall hblank (by decide)
    have hnone : p.argumentsOf blank = [] := by
      rw [argumentsOf_eq hp hb, WhitespaceMode.listArguments_of_isWhitespace hblank]
    have hleft : p.argumentsOf (l ++ blank) = p.argumentsOf l := by
      rw [argumentsOf_eq hp (by simp [hl, hb]), argumentsOf_eq hp hl,
        WhitespaceMode.listArguments_append_right hblank]
    have hright : p.argumentsOf (blank ++ m) = p.argumentsOf m := by
      rw [argumentsOf_eq hp (by simp [hm, hb]), argumentsOf_eq hp hm,
        WhitespaceMode.listArguments_append_left hblank]
    have hpiece : p.argumentsOf (blank ++ ',' :: m) = p.argumentsOf m := by
      rw [happ hb hm, hnone, List.nil_append]
    refine ⟨?_, ?_, ?_, hpiece, ?_⟩
    · rw [happ (by simp [hl, hb]) hm, hleft, happ hl hm]
    · rw [happ hl (by simp [hm, hb]), hright, happ hl hm]
    · rw [happ hl (by simp [hm, hb]), hpiece, happ hl hm]
    · rw [happ hl hb, hnone, List.append_nil]
  · exact argumentsOf_intercalate hp h
  · rw [argumentsOf_intercalate hp h,
      argumentsOf_intercalate hp fun piece hpiece => h piece (hperm.mem_iff.mp hpiece)]
    exact hperm.flatMap_right p.argumentsOf

-- The blank piece holds a no-break space, which separates no words, and a line feed.
theorem argumentsOf_append_comma_blank :
    (∀ c ∈ "\u00a0\n".toList, isWhitespace c = true) ∧
      argumentsOf ⟨.literal, false⟩ "int a,\u00a0\n,b c".toList =
        [⟨"int".toList, ['a']⟩, ⟨['b'], ['c']⟩] ∧
      argumentsOf ⟨.literal, false⟩ ([','].intercalate ["b c".toList, [], "int a".toList]) =
        [⟨['b'], ['c']⟩, ⟨"int".toList, ['a']⟩] := by
  have hblank : ∀ c ∈ "\u00a0\n".toList, isWhitespace c = true :=
    List.all_eq_true.mp (by decide +kernel)
  obtain ⟨-, hcomma, hpieces⟩ := argumentsOf_append_comma (p := ⟨.literal, false⟩) rfl
  have hlist : argumentsOf ⟨.literal, false⟩ "int a".toList = [⟨"int".toList, ['a']⟩] := by
    decide +kernel
  have hlist' : argumentsOf ⟨.literal, false⟩ "b c".toList = [⟨['b'], ['c']⟩] := by decide +kernel
  have hnil : argumentsOf ⟨.literal, false⟩ [] = [] := by decide +kernel
  obtain ⟨happ, hadd⟩ := hcomma "int a".toList "b c".toList (by decide) (by decide)
  refine ⟨hblank, ?_, ?_⟩
  · rw [hlist, hlist'] at happ
    exact (hadd _ hblank).2.2.1.trans happ
  · rw [(hpieces _ (by decide)).1]
    simp only [List.flatMap_cons, List.flatMap_nil, hlist, hlist', hnil]
    rfl

end Parser

end SignatureLine
