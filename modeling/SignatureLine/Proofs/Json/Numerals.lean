import SignatureLine.Proofs.Json.Grammar
import SignatureLine.Proofs.Json.Scanning

/-!
# Reading numerals

A numeral is read to its end if the text behind it does not go on with what could belong to it, and
its value is that of its parts.
-/

namespace SignatureLine.Json

theorem isSpace_iff {c : Char} :
    isSpace c = true ↔ c = ' ' ∨ c = '\n' ∨ c = '\t' ∨ c = '\r' := by
  simp [isSpace, or_assoc]

/-- Nothing at the start of the text could belong to a numeral in front of it. -/
def EndsNumeral (s : Text) : Prop :=
  ∀ c ∈ s.head?, Text.isDigit c = false ∧ c ≠ '.' ∧ c ≠ 'e' ∧ c ≠ 'E'

theorem endsNumeral_nil : EndsNumeral [] :=
  nofun

theorem endsNumeral_cons {c : Char} (hc : isSpace c = true ∨ c ∈ [',', ':', ']', '\x7d'])
    (s : Text) : EndsNumeral (c :: s) := by
  intro d hd
  obtain rfl := Option.some.inj hd
  rcases hc with hspace | hmark
  · rcases isSpace_iff.mp hspace with rfl | rfl | rfl | rfl <;> decide
  · simp only [List.mem_cons, List.not_mem_nil, or_false] at hmark
    rcases hmark with rfl | rfl | rfl | rfl <;> decide

theorem EndsNumeral.append_of_isSpace {gap s : Text} (hgap : ∀ c ∈ gap, isSpace c = true)
    (h : EndsNumeral s) : EndsNumeral (gap ++ s) := by
  cases gap with
  | nil => exact h
  | cons c gap => exact endsNumeral_cons (.inl (hgap c List.mem_cons_self)) _

namespace Number

/-! ## Digits -/

theorem digits?_append {ds rest : Text} (h : IsDigits ds)
    (hrest : ∀ c ∈ rest.head?, Text.isDigit c = false) :
    digits? (ds ++ rest) = some (ds, rest) := by
  have hstop : rest.takeWhile Text.isDigit = [] ∧ rest.dropWhile Text.isDigit = rest := by
    cases rest with
    | nil => exact ⟨rfl, rfl⟩
    | cons c rest =>
      have hc : ¬ Text.isDigit c = true := by simp [hrest c rfl]
      exact ⟨List.takeWhile_cons_of_neg hc, List.dropWhile_cons_of_neg hc⟩
  obtain ⟨d, ds, rfl⟩ := List.exists_cons_of_ne_nil h.1
  rw [digits?, List.takeWhile_append_of_pos h.2, List.dropWhile_append_of_pos h.2, hstop.1,
    hstop.2, List.append_nil]

theorem unpadded?_append {ds rest : Text} (h : IsDigits ds)
    (hunpadded : ds.head? = some '0' → ds = ['0'])
    (hrest : ∀ c ∈ rest.head?, Text.isDigit c = false) :
    unpadded? (ds ++ rest) = some (ds, rest) := by
  rw [unpadded?, digits?_append h hrest]
  split
  · next heq =>
    obtain ⟨rfl, -⟩ := Prod.mk.inj (Option.some.inj heq)
    cases hunpadded rfl
  · rfl

theorem splitMinus_append {ds : Text} (h : IsDigits ds) (rest : Text) :
    splitMinus (ds ++ rest) = (false, ds ++ rest) := by
  obtain ⟨d, ds, rfl⟩ := List.exists_cons_of_ne_nil h.1
  have hd := h.2 d List.mem_cons_self
  rw [List.cons_append, splitMinus]
  rintro s heq
  obtain ⟨rfl, -⟩ := List.cons.inj heq
  cases hd

theorem splitSign_append {ds : Text} (h : IsDigits ds) (rest : Text) :
    splitSign (ds ++ rest) = (false, ds ++ rest) := by
  have hminus := splitMinus_append h rest
  obtain ⟨d, ds, rfl⟩ := List.exists_cons_of_ne_nil h.1
  have hd := h.2 d List.mem_cons_self
  rw [List.cons_append] at hminus ⊢
  rw [splitSign, hminus]
  rintro s heq
  obtain ⟨rfl, -⟩ := List.cons.inj heq
  cases hd

/-! ## The fraction and the exponent -/

theorem fraction?_append {fraction : Option Text} {rest : Text}
    (h : ∀ ds ∈ fraction, IsDigits ds)
    (hrest : ∀ c ∈ rest.head?, Text.isDigit c = false ∧ c ≠ '.') :
    fraction? (fraction.elim [] ('.' :: ·) ++ rest) = some (fraction.getD [], rest) := by
  cases fraction with
  | none =>
    cases rest with
    | nil => rfl
    | cons c rest =>
      rw [Option.elim_none, List.nil_append, fraction?]
      · rfl
      · rintro s hs
        exact (hrest c rfl).2 (List.cons.inj hs).1
  | some ds => exact digits?_append (h ds rfl) fun c hc => (hrest c hc).1

theorem splitSign_exponent {e : Exponent} (rest : Text) :
    splitSign (e.sign.toList ++ (e.digits ++ rest)) =
      (e.sign == some '-', e.digits ++ rest) := by
  cases hsign : e.sign with
  | none => exact splitSign_append e.isDigits rest
  | some c => rcases e.sign_eq c hsign with rfl | rfl <;> rfl

theorem exponent?_append {exponent : Option Exponent} {rest : Text} (hrest : EndsNumeral rest) :
    exponent? (exponent.elim [] Exponent.text ++ rest) =
      some (exponent.map Exponent.value, rest) := by
  cases exponent with
  | none =>
    cases rest with
    | nil => rfl
    | cons c rest =>
      obtain ⟨-, -, hlower, hupper⟩ := hrest c rfl
      rw [Option.elim_none, List.nil_append, exponent?, if_neg (by simp [hlower, hupper])]
      rfl
  | some e =>
    have hdigits := digits?_append e.isDigits fun c hc => (hrest c hc).1
    rw [Option.elim_some, Exponent.text, List.cons_append, List.append_assoc, exponent?,
      if_pos e.letter_eq, splitSign_exponent]
    simp only [hdigits, Option.map_some, Exponent.value, beq_iff_eq]
    rfl

end Number

/-! ## Numerals -/

namespace Numeral

variable {n : Numeral} {rest : Text}

theorem splitMinus_sign (n : Numeral) (rest : Text) :
    Number.splitMinus (n.sign ++ (n.whole ++ rest)) = (n.negative, n.whole ++ rest) := by
  rw [sign]
  cases n.negative with
  | true => rfl
  | false => exact Number.splitMinus_append n.whole_isDigits rest

-- The letter of an exponent is neither a digit nor a point.
theorem head?_exponent (exponent : Option Exponent) (hrest : EndsNumeral rest) :
    ∀ c ∈ (exponent.elim [] Exponent.text ++ rest).head?, Text.isDigit c = false ∧ c ≠ '.' := by
  cases exponent with
  | none => exact fun c hc => ⟨(hrest c hc).1, (hrest c hc).2.1⟩
  | some e =>
    intro c hc
    obtain rfl := Option.some.inj hc
    rcases e.letter_eq with h | h <;> rw [h] <;> decide

theorem head?_fraction (fraction : Option Text)
    (hrest : ∀ c ∈ rest.head?, Text.isDigit c = false ∧ c ≠ '.') :
    ∀ c ∈ (fraction.elim [] ('.' :: ·) ++ rest).head?, Text.isDigit c = false := by
  cases fraction with
  | none => exact fun c hc => (hrest c hc).1
  | some ds =>
    intro c hc
    obtain rfl := Option.some.inj hc
    rfl

theorem read?_append (hrest : EndsNumeral rest) :
    Number.read? (n.text ++ rest) = some (n.value?, rest) := by
  have hexponent := head?_exponent n.exponent hrest
  have hfraction := head?_fraction n.fraction hexponent
  have hwhole := Number.unpadded?_append n.whole_isDigits n.whole_unpadded hfraction
  have hpoint := Number.fraction?_append n.fraction_isDigits hexponent
  simp only [text, List.append_assoc, Number.read?, splitMinus_sign, hwhole, hpoint,
    Number.exponent?_append hrest, Option.bind_eq_bind, Option.bind_some, Option.pure_def, value?]

/-! ## The token of a numeral -/

-- No other token and no white space starts with a minus sign or a digit.
theorem next?_eq_read? {c : Char} (hc : c = '-' ∨ Text.isDigit c = true) (s : Text) :
    Token.next? c s =
      (Number.read? (c :: s)).map fun (value, rest) => (.number value, rest) := by
  unfold Token.next?
  split
  case h_11 => rfl
  all_goals exact absurd hc (by decide)

theorem isSpace_eq_false {c : Char} (hc : c = '-' ∨ Text.isDigit c = true) :
    isSpace c = false := by
  refine Bool.eq_false_iff.mpr fun hspace => ?_
  rcases isSpace_iff.mp hspace with rfl | rfl | rfl | rfl <;> exact absurd hc (by decide)

theorem exists_cons (n : Numeral) :
    ∃ c s, n.text = c :: s ∧ (c = '-' ∨ Text.isDigit c = true) := by
  obtain ⟨d, ds, hds⟩ := List.exists_cons_of_ne_nil n.whole_isDigits.1
  have hd : Text.isDigit d = true := n.whole_isDigits.2 d (by simp [hds])
  rw [text, sign, hds]
  cases n.negative with
  | true => exact ⟨_, _, rfl, .inl rfl⟩
  | false => exact ⟨_, _, rfl, .inr hd⟩

theorem scan_append (n : Numeral) (hrest : EndsNumeral rest) :
    Token.scan (n.text ++ rest) = .number n.value? :: Token.scan rest := by
  have hread := read?_append (n := n) hrest
  obtain ⟨c, s, htext, hc⟩ := n.exists_cons
  rw [htext, List.cons_append] at hread ⊢
  refine Token.scan_cons (isSpace_eq_false hc) ?_
  rw [next?_eq_read? hc, hread]
  rfl

end Numeral

end SignatureLine.Json
