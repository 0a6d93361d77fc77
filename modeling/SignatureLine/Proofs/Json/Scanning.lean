import SignatureLine.Json.Token.Lemmas
import SignatureLine.Proofs.Json.Strings

/-!
# Scanning text before text

What the tokens of a text are when white space or one token stands at its start, whatever comes
after it.
-/

namespace SignatureLine.Json.Token

/-! ## One step of scanning -/

theorem scan_eq (s : Text) :
    scan s =
      match s.dropWhile isSpace with
      | [] => []
      | c :: rest =>
          match next? c rest with
          | none => [.broken]
          | some (token, rest) => token :: scan rest := by
  rw [← scanUpTo_of_le (Nat.le_succ s.length), scanUpTo]
  have hle := (List.dropWhile_sublist (l := s) isSpace).length_le
  cases hs : s.dropWhile isSpace with
  | nil => rfl
  | cons c rest =>
    rw [hs, List.length_cons] at hle
    cases hnext : next? c rest with
    | none => simp only [hnext]
    | some next =>
      have hnext_le : next.2.length ≤ s.length := by
        have := length_next?_le hnext
        omega
      simp only [hnext, scanUpTo_of_le hnext_le]

@[simp]
theorem scan_nil : scan [] = [] :=
  rfl

theorem scan_append_of_isSpace {g : Text} (hg : ∀ c ∈ g, isSpace c = true) (s : Text) :
    scan (g ++ s) = scan s := by
  rw [scan_eq, List.dropWhile_append_of_pos hg, ← scan_eq]

theorem scan_cons {c : Char} {s rest : Text} {token : Token} (hc : isSpace c = false)
    (h : next? c s = some (token, rest)) : scan (c :: s) = token :: scan rest := by
  rw [scan_eq, List.dropWhile_cons_of_neg (by simp [hc])]
  simp only [h]

/-! ## Tokens -/

@[simp]
theorem scan_openObject (s : Text) : scan ('\x7b' :: s) = .openObject :: scan s :=
  scan_cons rfl rfl

@[simp]
theorem scan_closeObject (s : Text) : scan ('\x7d' :: s) = .closeObject :: scan s :=
  scan_cons rfl rfl

@[simp]
theorem scan_openArray (s : Text) : scan ('[' :: s) = .openArray :: scan s :=
  scan_cons rfl rfl

@[simp]
theorem scan_closeArray (s : Text) : scan (']' :: s) = .closeArray :: scan s :=
  scan_cons rfl rfl

@[simp]
theorem scan_colon (s : Text) : scan (':' :: s) = .colon :: scan s :=
  scan_cons rfl rfl

@[simp]
theorem scan_comma (s : Text) : scan (',' :: s) = .comma :: scan s :=
  scan_cons rfl rfl

theorem scan_null (s : Text) : scan ("null".toList ++ s) = .null :: scan s :=
  scan_cons (s := "ull".toList ++ s) rfl rfl

theorem scan_true (s : Text) : scan ("true".toList ++ s) = .boolean true :: scan s :=
  scan_cons (s := "rue".toList ++ s) rfl rfl

theorem scan_false (s : Text) : scan ("false".toList ++ s) = .boolean false :: scan s :=
  scan_cons (s := "alse".toList ++ s) rfl rfl

theorem scan_string {value : Option Text} {s : Text} (h : SpellsString value s) (rest : Text) :
    scan (s ++ rest) = .string value :: scan rest := by
  obtain ⟨body, units, hs, hunits, hvalue⟩ := h.exists_units rest
  have hnext : next? '"' body = some (.string value, rest) := by
    simp only [next?, hunits, Option.map_some, hvalue]
  rw [hs, scan_cons rfl hnext]

end SignatureLine.Json.Token
