import SignatureLine.Proofs.Signature.Parsing

/-!
# The text of a parameter list

The arguments of a list are those of its pieces between commas, each trimmed; so a comma takes the
lists on its two sides apart.  A piece is an argument as soon as there is something other than white
space on both sides of a separating character.
-/

namespace SignatureLine

open Text (isWhitespace parameterTokens trim wordsBy)

/-- Some character of the text is no white space. -/
def Text.HasInk (s : Text) : Prop :=
  ∃ c ∈ s, isWhitespace c = false

theorem Text.not_hasInk_iff {s : Text} : ¬ s.HasInk ↔ ∀ c ∈ s, isWhitespace c = true := by
  simp [HasInk]

theorem Text.HasInk.mono {s t : Text} (hs : s.HasInk) (h : s ⊆ t) : t.HasInk := by
  obtain ⟨c, hc, hink⟩ := hs
  exact ⟨c, h hc, hink⟩

/-- The text behind the last comma. -/
def Text.lastPiece (s : Text) : Text :=
  s.rtakeWhile (· != ',')

/-- The text before the first comma. -/
def Text.firstPiece (s : Text) : Text :=
  s.takeWhile (· != ',')

theorem Text.not_mem_lastPiece (s : Text) : ',' ∉ lastPiece s := by
  intro h
  simpa using List.mem_rtakeWhile_imp h

theorem Text.not_mem_firstPiece (s : Text) : ',' ∉ firstPiece s := by
  intro h
  simpa using List.mem_takeWhile_imp h

theorem Text.lastPiece_subset (s : Text) : lastPiece s ⊆ s :=
  (List.rtakeWhile_suffix _ _).subset

theorem Text.firstPiece_subset (s : Text) : firstPiece s ⊆ s :=
  List.takeWhile_subset _

theorem Text.firstPiece_cases (s : Text) :
    firstPiece s = s ∨ ∃ rest, s = firstPiece s ++ ',' :: rest := by
  have hs : firstPiece s ++ s.dropWhile (· != ',') = s := List.takeWhile_append_dropWhile
  cases hrest : s.dropWhile (· != ',') with
  | nil =>
    rw [hrest, List.append_nil] at hs
    exact .inl hs
  | cons c rest =>
    have hnot := List.head?_dropWhile_not (· != ',') s
    rw [hrest] at hnot hs
    obtain rfl : c = ',' := by simpa using hnot
    exact .inr ⟨rest, hs.symm⟩

theorem Text.firstPiece_append_comma {s : Text} (hs : ',' ∉ s) (t : Text) :
    firstPiece (s ++ ',' :: t) = s :=
  takeWhile_append_cons hs t

theorem Text.firstPiece_of_not_mem {s : Text} (hs : ',' ∉ s) : firstPiece s = s :=
  List.takeWhile_eq_self_iff.mpr (forall_bne_of_not_mem hs)

namespace WhitespaceMode

variable {mode : WhitespaceMode} {l m u v : Text}

/-! ## Pieces -/

/-- The arguments of the text between the parentheses. -/
def listArguments (mode : WhitespaceMode) (list : Text) : List Argument :=
  mode.arguments (parameterTokens (trim list))

theorem argument?_trim_of_forall (h : ∀ c ∈ l, mode.separates c = false) :
    mode.argument? (trim l) = none :=
  argument?_of_forall fun c hc => h c (Text.trimBoth_subset _ _ hc)

theorem listArguments_eq (l : Text) :
    mode.listArguments l = (l.splitOnP (· == ',')).filterMap (mode.argument? <| trim ·) := by
  have hempty : ∀ pieces : List Text,
      ((pieces.filter (!·.isEmpty)).map trim).filterMap mode.argument? =
        (pieces.map trim).filterMap mode.argument? := by
    intro pieces
    induction pieces with
    | nil => rfl
    | cons piece pieces ih =>
      by_cases hpiece : piece = []
      · -- an empty piece is no argument, whether it is dropped or not
        have hnone : mode.argument? (trim []) = none := argument?_trim_of_forall (by simp)
        rw [hpiece, List.filter_cons_of_neg (by simp), ih, List.map_cons,
          List.filterMap_cons_none hnone]
      · rw [List.filter_cons_of_pos (by simpa using hpiece), List.map_cons, List.map_cons,
          List.filterMap_cons, List.filterMap_cons, ih]
  rw [listArguments, arguments, Text.parameterTokens_eq, wordsBy, hempty,
    Text.map_trim_splitOnP_trim, List.filterMap_map]
  rfl

-- A comma separates the arguments on its two sides.
theorem listArguments_append_comma (l m : Text) :
    mode.listArguments (l ++ ',' :: m) = mode.listArguments l ++ mode.listArguments m := by
  rw [listArguments_eq, listArguments_eq, listArguments_eq, List.splitOnP_append_cons l m rfl,
    List.filterMap_append]

theorem listArguments_of_not_mem (h : ',' ∉ l) :
    mode.listArguments l = (mode.argument? (trim l)).toList := by
  rw [listArguments_eq, List.splitOnP_eq_singleton (Text.forall_beq_of_not_mem h)]
  cases hargument : mode.argument? (trim l) <;> simp [hargument]

-- Without a separating character no piece has two words.
theorem listArguments_of_forall (h : ∀ c ∈ l, mode.separates c = false) :
    mode.listArguments l = [] := by
  rw [listArguments_eq, List.filterMap_eq_nil_iff]
  intro piece hpiece
  exact argument?_trim_of_forall fun c hc => h c (Text.mem_splitOnP hpiece c hc).1

theorem listArguments_append_left (h : ∀ c ∈ l, isWhitespace c = true) (m : Text) :
    mode.listArguments (l ++ m) = mode.listArguments m := by
  rw [listArguments, trim, Text.trimBoth_append_left h, listArguments, trim]

/-! ## A piece with a separating character -/

theorem isSome_argument?_of_words {t : Text} {first second : List Text}
    (h : mode.words t = first ++ second) (hfirst : first ≠ []) (hsecond : second ≠ []) :
    (mode.argument? t).isSome := by
  obtain ⟨type, types, rfl⟩ := List.exists_cons_of_ne_nil hfirst
  obtain ⟨name, names, rfl⟩ := List.exists_cons_of_ne_nil hsecond
  rw [argument?, h]
  cases types <;> rfl

-- With ink on both sides the words on both sides are left by trimming.
theorem isSome_argument?_trim {c : Char} (hc : mode.separates c = true) (hu : u.HasInk)
    (hv : v.HasInk) : (mode.argument? (trim (u ++ c :: v))).isSome := by
  have hwords : ∀ {t : Text}, t.HasInk → wordsBy mode.separates t ≠ [] := by
    rintro t ⟨d, hd, hink⟩
    exact Text.wordsBy_ne_nil ⟨d, hd, mode.separates_of_not_isWhitespace hink⟩
  have hstart : Text.HasInk (u.dropWhile isWhitespace) := by
    obtain ⟨d, hd, hink⟩ := hu
    exact ⟨d, mem_dropWhile_of_not hd hink, hink⟩
  have hend : Text.HasInk (dropEndWhile isWhitespace v) := by
    obtain ⟨d, hd, hink⟩ := hv
    exact ⟨d, mem_dropEndWhile_of_not hd hink, hink⟩
  have htrim : trim (u ++ c :: v) =
      u.dropWhile isWhitespace ++ c :: dropEndWhile isWhitespace v := by
    obtain ⟨d, hd, -⟩ := hstart
    have hne : u.dropWhile isWhitespace ≠ [] := List.ne_nil_of_mem hd
    rw [List.append_cons, trim, Text.trimBoth_append (hu.mono (by simp)) hv,
      List.dropWhile_append, if_neg (by simpa using hne), List.append_assoc, List.singleton_append]
  rw [htrim]
  apply isSome_argument?_of_words _ (hwords hstart) (hwords hend)
  rw [words_eq, Text.wordsBy_append_cons hc]

/-! ## Two words with a gap between them -/

theorem ne_comma_of_separates {c : Char} (h : mode.separates c = true) : c ≠ ',' := by
  rintro rfl
  cases mode <;> cases h

-- Of a word before a piece only what follows its last comma matters.
theorem listArguments_lastPiece (hu : ∀ c ∈ u, mode.separates c = false) (m : Text) :
    mode.listArguments (u ++ m) = mode.listArguments (Text.lastPiece u ++ m) := by
  have hu' := List.rdropWhile_append_rtakeWhile (p := (· != ',')) (l := u)
  rcases List.eq_nil_or_concat' (u.rdropWhile (· != ',')) with hnil | ⟨front, c, hfront⟩
  · rw [hnil, List.nil_append] at hu'
    rw [Text.lastPiece, hu']
  · have hcomma := List.rdropWhile_last_not (· != ',') u (by rw [hfront]; simp)
    simp only [hfront, List.getLast_append_singleton] at hcomma
    obtain rfl : c = ',' := by simpa using hcomma
    have hsub : ∀ c ∈ front, mode.separates c = false := by
      intro c hc
      apply hu c
      rw [← hu', hfront]
      simp [hc]
    conv_lhs => rw [← hu', hfront, List.append_assoc, List.append_assoc, List.singleton_append,
      listArguments_append_comma, listArguments_of_forall hsub, List.nil_append]
    rfl

-- Of a word behind a piece only what precedes its first comma matters.
theorem listArguments_firstPiece (hv : ∀ c ∈ v, mode.separates c = false) (l : Text) :
    mode.listArguments (l ++ v) = mode.listArguments (l ++ Text.firstPiece v) := by
  rcases Text.firstPiece_cases v with hfirst | ⟨rest, hv'⟩
  · rw [hfirst]
  · have hsub : ∀ c ∈ rest, mode.separates c = false := by
      intro c hc
      apply hv c
      rw [hv']
      simp [hc]
    conv_lhs => rw [hv', ← List.append_assoc, listArguments_append_comma,
      listArguments_of_forall hsub, List.append_nil]

section Gap

variable {gap : Text}

-- The only piece with a separating character is the one with the gap.
theorem listArguments_gap (hu : ∀ c ∈ u, mode.separates c = false)
    (hv : ∀ c ∈ v, mode.separates c = false) (hgap : ∀ c ∈ gap, mode.separates c = true) :
    mode.listArguments (u ++ (gap ++ v)) =
      (mode.argument? (trim (Text.lastPiece u ++ (gap ++ Text.firstPiece v)))).toList := by
  have hcomma : ',' ∉ Text.lastPiece u ++ (gap ++ Text.firstPiece v) := by
    have hgapComma : ',' ∉ gap := fun hc => ne_comma_of_separates (hgap _ hc) rfl
    simp [Text.not_mem_lastPiece, Text.not_mem_firstPiece, hgapComma]
  rw [listArguments_lastPiece hu, ← List.append_assoc, listArguments_firstPiece hv,
    List.append_assoc, listArguments_of_not_mem hcomma]

theorem length_listArguments_gap (hu : ∀ c ∈ u, mode.separates c = false)
    (hv : ∀ c ∈ v, mode.separates c = false) (hgap : ∀ c ∈ gap, mode.separates c = true)
    (hne : gap ≠ []) (hleft : (Text.lastPiece u).HasInk) (hright : (Text.firstPiece v).HasInk) :
    (mode.listArguments (u ++ (gap ++ v))).length = 1 := by
  obtain ⟨c, gap, rfl⟩ := List.exists_cons_of_ne_nil hne
  have hsome := isSome_argument?_trim (hgap c List.mem_cons_self) hleft
    (hright.mono (List.subset_append_right gap _))
  rw [listArguments_gap hu hv hgap]
  obtain ⟨argument, hargument⟩ := Option.isSome_iff_exists.mp hsome
  rw [List.cons_append, hargument]
  rfl

theorem listArguments_gap_eq_nil (hu : ∀ c ∈ u, mode.separates c = false)
    (hv : ∀ c ∈ v, mode.separates c = false) (hgap : ∀ c ∈ gap, mode.separates c = true)
    (h : ¬ ((Text.lastPiece u).HasInk ∧ (Text.firstPiece v).HasInk)) :
    mode.listArguments (u ++ (gap ++ v)) = [] := by
  have hwhite : ∀ c ∈ gap, isWhitespace c = true :=
    fun c hc => isWhitespace_of_separates (hgap c hc)
  rw [listArguments_gap hu hv hgap]
  -- the gap is trimmed away with the side that is white space
  by_cases hleft : (Text.lastPiece u).HasInk
  · have hright := Text.not_hasInk_iff.mp fun hright => h ⟨hleft, hright⟩
    rw [trim, Text.trimBoth_append_right (List.forall_mem_append.mpr ⟨hwhite, hright⟩)]
    rw [← trim, argument?_trim_of_forall fun c hc => hu c (Text.lastPiece_subset u hc)]
    rfl
  · have hleft := Text.not_hasInk_iff.mp hleft
    rw [trim, Text.trimBoth_append_left hleft, Text.trimBoth_append_left hwhite]
    rw [← trim, argument?_trim_of_forall fun c hc => hv c (Text.firstPiece_subset v hc)]
    rfl

end Gap

end WhitespaceMode

end SignatureLine
