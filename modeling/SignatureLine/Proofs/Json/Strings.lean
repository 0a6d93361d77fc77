import SignatureLine.Json.Value
import SignatureLine.Proofs.Json.Grammar

/-!
# JSON strings

A string is read up to its closing quote, however its characters are spelled, and what is read is
the text that the string denotes.  A written string spells its text.
-/

namespace SignatureLine.Json

/-! ## One unit -/

/-- A text at the start of a string is read as one unit, whatever comes after it. -/
def ReadsAs (w : Text) (u : StringUnit) : Prop :=
  ∀ s, stringUnits? (w ++ s) = (stringUnits? s).map fun (units, rest) => (u :: units, rest)

theorem readsAs_code {a b c d : Char} {n : Nat} (h : hex4? a b c d = some n) :
    ReadsAs ['\\', 'u', a, b, c, d] (.code n) := by
  intro s
  simp only [List.cons_append, List.nil_append]
  rw [stringUnits?, h]
  cases stringUnits? s <;> rfl

theorem readsAs_escaped {e c : Char} (h : unescape? e = some c) :
    ReadsAs ['\\', e] (.char c) := by
  intro s
  have he : e ≠ 'u' := by
    rintro rfl
    simp [unescape?] at h
  simp only [List.cons_append, List.nil_append]
  rw [stringUnits?, h]
  · cases stringUnits? s <;> rfl
  · simp_all

theorem readsAs_verbatim {c : Char} (hquote : c ≠ '"') (hslash : c ≠ '\\')
    (hcontrol : ¬ c.toNat < 0x20) : ReadsAs [c] (.char c) := by
  intro s
  simp only [List.cons_append, List.nil_append]
  rw [stringUnits?, if_neg hcontrol]
  all_goals simp_all

theorem unescape?_of_mem : ∀ p ∈ letterEscapes, unescape? p.1 = some p.2 := by
  decide

theorem IsHexDigit.hexDigit?_eq {c : Char} {n : Nat} (h : IsHexDigit c n) :
    Text.hexDigit? c = some n := by
  have hdigits : ∀ n < 16, Text.hexDigit? n.digitChar = some n ∧
      Text.hexDigit? n.digitChar.toUpper = some n := by decide
  obtain ⟨hn, rfl | rfl⟩ := h
  · exact (hdigits n hn).1
  · exact (hdigits n hn).2

theorem SpellsUnit.readsAs {u : StringUnit} {w : Text} (h : SpellsUnit u w) : ReadsAs w u := by
  cases h with
  | verbatim hquote hslash hcontrol =>
    exact readsAs_verbatim hquote hslash (Nat.not_lt.mpr hcontrol)
  | letter h => exact readsAs_escaped (unescape?_of_mem _ h)
  | code ha hb hc hd =>
    apply readsAs_code
    simp only [hex4?, ha.hexDigit?_eq, hb.hexDigit?_eq, hc.hexDigit?_eq, hd.hexDigit?_eq]
    rfl

/-! ## The text of units -/

/-- The unit stands for one character, also where it could be the first half of a pair. -/
def StringUnit.StandsFor (u : StringUnit) (c : Char) : Prop :=
  ∀ units, textOfUnits? (u :: units) = (textOfUnits? units).map (c :: ·)

theorem StringUnit.standsFor_char (c : Char) : (StringUnit.char c).StandsFor c :=
  fun _ => rfl

theorem StringUnit.standsFor_code {n : Nat} (h : n < 0xD800 ∨ 0xE000 ≤ n) :
    (StringUnit.code n).StandsFor (Char.ofNat n) := by
  have hhigh : ¬ (0xD800 ≤ n ∧ n < 0xDC00) := by omega
  have hlow : ¬ (0xDC00 ≤ n ∧ n < 0xE000) := by omega
  have hhalf : ¬ (0xD800 ≤ n ∧ n < 0xE000) := by omega
  rintro (_ | ⟨c | low, units⟩)
  · simp only [textOfUnits?, if_neg hhalf]
  · simp only [textOfUnits?, if_neg hhalf]
  · rw [textOfUnits?, if_neg hhigh, if_neg hlow]

theorem Denotes.textOfUnits?_eq {units : List StringUnit} {s : Text} (h : Denotes units s) :
    textOfUnits? units = some s := by
  induction h with
  | nil => rfl
  | char c h ih => rw [StringUnit.standsFor_char, ih, Option.map_some]
  | code hn h ih => rw [StringUnit.standsFor_code hn, ih, Option.map_some]
  | pair hhigh hlow h ih => rw [textOfUnits?, if_pos hhigh, if_pos hlow, ih, Option.map_some]

theorem denotes_of_textOfUnits?_eq {units : List StringUnit} {s : Text}
    (h : textOfUnits? units = some s) : Denotes units s := by
  fun_induction textOfUnits? units generalizing s with
  | case1 =>
    obtain rfl := Option.some.inj h
    exact .nil
  | case2 c units ih =>
    obtain ⟨t, ht, rfl⟩ := Option.map_eq_some_iff.mp h
    exact .char c (ih ht)
  | case3 high low units hhigh hlow ih =>
    obtain ⟨t, ht, rfl⟩ := Option.map_eq_some_iff.mp h
    exact .pair hhigh hlow (ih ht)
  | case4 => cases h
  | case5 => cases h
  | case6 high low units hhigh hlow ih =>
    obtain ⟨t, ht, rfl⟩ := Option.map_eq_some_iff.mp h
    exact .code (by omega) (ih ht)
  | case7 => cases h
  | case8 n units _ hhalf ih =>
    obtain ⟨t, ht, rfl⟩ := Option.map_eq_some_iff.mp h
    exact .code (by omega) (ih ht)

theorem textOfUnits?_eq_some_iff {units : List StringUnit} {s : Text} :
    textOfUnits? units = some s ↔ Denotes units s :=
  ⟨denotes_of_textOfUnits?_eq, Denotes.textOfUnits?_eq⟩

/-! ## Whole strings -/

theorem SpellsUnits.stringUnits?_append {units : List StringUnit} {body : Text}
    (h : SpellsUnits units body) (rest : Text) :
    stringUnits? (body ++ '"' :: rest) = some (units, rest) := by
  induction h with
  | nil => rw [List.nil_append, stringUnits?]
  | cons h hs ih => rw [List.append_assoc, h.readsAs, ih, Option.map_some]

theorem SpellsUnits.spellsString {units : List StringUnit} {body s : Text}
    (h : SpellsUnits units body) (hs : Denotes units s) :
    SpellsString (some s) ('"' :: (body ++ ['"'])) :=
  ⟨units, body, rfl, h, fun t => by rw [← textOfUnits?_eq_some_iff, hs.textOfUnits?_eq]⟩

theorem SpellsString.exists_units {value : Option Text} {s : Text} (h : SpellsString value s)
    (rest : Text) :
    ∃ body units, s ++ rest = '"' :: body ∧ stringUnits? body = some (units, rest) ∧
      textOfUnits? units = value := by
  obtain ⟨units, body, rfl, hunits, hvalue⟩ := h
  refine ⟨body ++ '"' :: rest, units, by simp, hunits.stringUnits?_append rest, ?_⟩
  apply Option.ext
  intro t
  rw [hvalue, textOfUnits?_eq_some_iff]

/-! ## Written strings -/

theorem hex_of_lt_16 : ∀ n < 0x10, Text.hex n = [n.digitChar] := by
  decide

theorem hex_of_lt_32 : ∀ n < 0x20, 0x10 ≤ n → Text.hex n = ['1', (n - 0x10).digitChar] := by
  decide

/-- A written character is an escape of one letter, a control character as a code, or itself. -/
theorem exists_spellsUnit_escape (c : Char) :
    ∃ u, SpellsUnit u (escape c) ∧ (u = .char c ∨ (u = .code c.toNat ∧ c.toNat < 0x20)) := by
  by_cases hshort : c ∈ ['"', '\\', '\x08', '\x0c', '\n', '\r', '\t']
  · refine ⟨.char c, ?_, .inl rfl⟩
    simp only [List.mem_cons, List.not_mem_nil, or_false] at hshort
    rcases hshort with rfl | rfl | rfl | rfl | rfl | rfl | rfl <;> exact .letter (by decide)
  simp only [List.mem_cons, List.not_mem_nil, or_false, not_or] at hshort
  obtain ⟨hquote, hslash, hb, hf, hn, hr, ht⟩ := hshort
  simp only [escape, if_neg hquote, if_neg hslash, if_neg hb, if_neg hf, if_neg hn, if_neg hr,
    if_neg ht]
  have hzero : IsHexDigit '0' 0 := ⟨by decide, .inl rfl⟩
  have hone : IsHexDigit '1' 1 := ⟨by decide, .inl rfl⟩
  by_cases hlow : c.toNat < 0x10
  · have hcode := SpellsUnit.code hzero hzero hzero ⟨hlow, .inl rfl⟩
    refine ⟨.code c.toNat, ?_, .inr ⟨rfl, by omega⟩⟩
    rw [if_pos hlow, hex_of_lt_16 _ hlow]
    simpa using hcode
  by_cases hcontrol : c.toNat < 0x20
  · have hlast : IsHexDigit (c.toNat - 0x10).digitChar (c.toNat - 0x10) := ⟨by omega, .inl rfl⟩
    have hcode := SpellsUnit.code hzero hzero hone hlast
    refine ⟨.code c.toNat, ?_, .inr ⟨rfl, hcontrol⟩⟩
    rw [if_neg hlow, if_pos hcontrol, hex_of_lt_32 _ hcontrol (by omega)]
    have hvalue : ((0 * 16 + 0) * 16 + 1) * 16 + (c.toNat - 0x10) = c.toNat := by omega
    rwa [hvalue] at hcode
  · refine ⟨.char c, ?_, .inl rfl⟩
    rw [if_neg hlow, if_neg hcontrol]
    exact .verbatim hquote hslash (by omega)

theorem spellsString_writeString (s : Text) : SpellsString (some s) (writeString s) := by
  obtain ⟨units, hunits, hdenotes⟩ :
      ∃ units, SpellsUnits units (s.flatMap escape) ∧ Denotes units s := by
    induction s with
    | nil => exact ⟨[], .nil, .nil⟩
    | cons c s ih =>
      obtain ⟨units, hunits, hdenotes⟩ := ih
      obtain ⟨u, hu, rfl | ⟨rfl, hcontrol⟩⟩ := exists_spellsUnit_escape c
      · exact ⟨_, .cons hu hunits, .char c hdenotes⟩
      · have hcode := Denotes.code (n := c.toNat) (by omega) hdenotes
        rw [Char.ofNat_toNat] at hcode
        exact ⟨_, .cons hu hunits, hcode⟩
  exact hunits.spellsString hdenotes

end SignatureLine.Json
