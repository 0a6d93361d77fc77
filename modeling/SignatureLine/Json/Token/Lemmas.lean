import SignatureLine.Json.Token

/-!
# Laws of scanning

Every reader of a token takes at least one character. Hence the bound on the number of tokens cuts
nothing off: with any greater one the tokens are the same.
-/

namespace SignatureLine.Json

theorem length_stringUnits?_lt {s rest : Text} {units : List StringUnit}
    (h : stringUnits? s = some (units, rest)) : rest.length < s.length := by
  fun_induction stringUnits? s generalizing units rest with
  | case1 => simp at h
  | case2 s =>
      obtain ⟨-, rfl⟩ : [] = units ∧ s = rest := by simpa using h
      simp
  | case3 a b c d s ih =>
      simp only [Option.bind_eq_bind, Option.bind_eq_some_iff, Option.pure_def,
        Option.some.injEq, Prod.mk.injEq, Prod.exists] at h
      obtain ⟨_, _, units', rest', h, _, rfl⟩ := h
      have := ih h
      simp only [List.length_cons]
      omega
  | case4 e s _ ih =>
      simp only [Option.bind_eq_bind, Option.bind_eq_some_iff, Option.pure_def,
        Option.some.injEq, Prod.mk.injEq, Prod.exists] at h
      obtain ⟨_, _, units', rest', h, _, rfl⟩ := h
      have := ih h
      simp only [List.length_cons]
      omega
  | case5 => simp at h
  | case6 c s _ _ _ _ ih =>
      simp only [Option.map_eq_some_iff, Prod.mk.injEq, Prod.exists] at h
      obtain ⟨units', rest', h, _, rfl⟩ := h
      have := ih h
      simp only [List.length_cons]
      omega

namespace Number

theorem length_digits?_lt {s ds rest : Text} (h : digits? s = some (ds, rest)) :
    rest.length < s.length := by
  unfold digits? at h
  split at h
  · simp at h
  · next hne =>
    obtain ⟨-, rfl⟩ : _ = ds ∧ _ = rest := by simpa using h
    have := congrArg List.length (List.takeWhile_append_dropWhile (p := Text.isDigit) (l := s))
    rw [List.length_append] at this
    have : 0 < (s.takeWhile Text.isDigit).length := List.length_pos_iff.mpr hne
    omega

theorem length_unpadded?_lt {s ds rest : Text} (h : unpadded? s = some (ds, rest)) :
    rest.length < s.length := by
  unfold unpadded? at h
  split at h
  · simp at h
  · exact length_digits?_lt h

theorem length_fraction?_le {s ds rest : Text} (h : fraction? s = some (ds, rest)) :
    rest.length ≤ s.length := by
  unfold fraction? at h
  split at h
  · have := length_digits?_lt h
    simp only [List.length_cons]
    omega
  · obtain ⟨-, rfl⟩ : ds = [] ∧ s = rest := by simpa using h
    exact Nat.le_refl _

theorem length_splitMinus_le (s : Text) : (splitMinus s).2.length ≤ s.length := by
  unfold splitMinus
  split <;> simp

theorem length_splitSign_le (s : Text) : (splitSign s).2.length ≤ s.length := by
  unfold splitSign
  split
  · simp
  · exact length_splitMinus_le s

theorem length_exponent?_le {s rest : Text} {e : Option Int} (h : exponent? s = some (e, rest)) :
    rest.length ≤ s.length := by
  unfold exponent? at h
  split at h
  · obtain ⟨-, rfl⟩ : e = none ∧ rest = [] := by simpa [eq_comm] using h
    exact Nat.le_refl _
  · next c s =>
    split at h
    · simp only [Option.bind_eq_bind, Option.bind_eq_some_iff, Option.pure_def,
        Option.some.injEq, Prod.mk.injEq, Prod.exists] at h
      obtain ⟨ds, rest', h, -, rfl⟩ := h
      have := length_digits?_lt h
      have := length_splitSign_le s
      simp only [List.length_cons]
      omega
    · obtain ⟨-, rfl⟩ : e = none ∧ c :: s = rest := by simpa [eq_comm] using h
      exact Nat.le_refl _

theorem length_read?_lt {s rest : Text} {value : Option Number}
    (h : read? s = some (value, rest)) : rest.length < s.length := by
  simp only [read?, Option.bind_eq_bind, Option.bind_eq_some_iff, Option.pure_def,
    Option.some.injEq, Prod.mk.injEq, Prod.exists] at h
  obtain ⟨ds, s₁, h₁, fr, s₂, h₂, e, s₃, h₃, -, rfl⟩ := h
  have := length_splitMinus_le s
  have := length_unpadded?_lt h₁
  have := length_fraction?_le h₂
  have := length_exponent?_le h₃
  omega

end Number

namespace Token

theorem length_next?_le {c : Char} {s rest : Text} {token : Token}
    (h : next? c s = some (token, rest)) : rest.length ≤ s.length := by
  have hafter : ∀ {word r : Text}, next?.after? s word = some r → r.length ≤ s.length := by
    intro word r h
    unfold next?.after? at h
    split at h
    · obtain rfl : _ = r := Option.some.inj h
      simp
    · simp at h
  unfold next? at h
  split at h
  case h_7 =>
    simp only [Option.map_eq_some_iff, Prod.mk.injEq, Prod.exists] at h
    obtain ⟨units, rest', h, -, rfl⟩ := h
    exact Nat.le_of_lt (length_stringUnits?_lt h)
  case h_11 =>
    simp only [Option.map_eq_some_iff, Prod.mk.injEq, Prod.exists] at h
    obtain ⟨value, rest', h, -, rfl⟩ := h
    have := Number.length_read?_lt h
    simp only [List.length_cons] at this
    omega
  case h_8 | h_9 | h_10 =>
    simp only [Option.map_eq_some_iff, Prod.mk.injEq] at h
    obtain ⟨r, h, -, rfl⟩ := h
    exact hafter h
  all_goals
    obtain ⟨-, rfl⟩ := Prod.mk.inj (Option.some.inj h)
    exact Nat.le_refl _

/-- Scanning takes no more steps than the text has characters. -/
theorem scanUpTo_of_le {limit : Nat} {s : Text} (h : s.length ≤ limit) :
    scanUpTo limit s = scan s := by
  have key : ∀ (n m : Nat) (s : Text), s.length ≤ n → s.length ≤ m →
      scanUpTo n s = scanUpTo m s := by
    intro n
    induction n with
    | zero =>
        intro m s hn _
        obtain rfl : s = [] := List.length_eq_zero_iff.mp (by omega)
        cases m <;> simp [scanUpTo]
    | succ n ih =>
        intro m s hn hm
        cases m with
        | zero =>
            obtain rfl : s = [] := List.length_eq_zero_iff.mp (by omega)
            simp [scanUpTo]
        | succ m =>
            simp only [scanUpTo]
            have hle := (List.dropWhile_sublist (l := s) isSpace).length_le
            split
            · rfl
            · next c rest hs =>
              rw [hs, List.length_cons] at hle
              split
              · rfl
              · next token rest' hnext =>
                have := length_next?_le hnext
                rw [ih m rest' (by omega) (by omega)]
  exact key _ _ s h (Nat.le_refl _)

end Token

end SignatureLine.Json
