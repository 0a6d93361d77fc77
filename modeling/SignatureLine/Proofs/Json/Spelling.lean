import SignatureLine.Proofs.Json.Numerals
import SignatureLine.Proofs.Json.Reading

/-!
# Reading any spelling

A text that spells a value is scanned to the tokens of the value.  So it is decoded as the value
is, and neither white space nor the spelling of a string or a number matters.
-/

namespace SignatureLine.Json

/-! ## All of a value is read -/

mutual

theorem Spells.complete {f : Fragment} {s : Text} : Spells f s → f.Complete
  | .padded _ h _ => h.complete
  | .null => .null
  | .isTrue => .boolean true
  | .isFalse => .boolean false
  | .number n => .number n.value?
  | .string _ => .string _
  | .emptyArray _ => .array nofun
  | .array h hs => .array (List.forall_mem_cons.mpr ⟨h.complete, hs.complete⟩)
  | .emptyObject _ => .object nofun
  | .object _ h hs => .object (List.forall_mem_cons.mpr ⟨h.complete, hs.complete⟩)

theorem SpellsElements.complete {es : List Fragment} {s : Text} :
    SpellsElements es s → ∀ e ∈ es, e.Complete
  | .close _ => nofun
  | .comma h hs => List.forall_mem_cons.mpr ⟨h.complete, hs.complete⟩

theorem SpellsMembers.complete {ms : List (Option Text × Fragment)} {s : Text} :
    SpellsMembers ms s → ∀ m ∈ ms, m.2.Complete
  | .close _ => nofun
  | .comma _ h hs => List.forall_mem_cons.mpr ⟨h.complete, hs.complete⟩

end

/-! ## The tokens of a value -/

theorem endsNumeral_gap {gap : Text} (hgap : ∀ c ∈ gap, isSpace c = true) {c : Char}
    (hc : c ∈ [',', ':', ']', '\x7d']) (s : Text) : EndsNumeral (gap ++ c :: s) :=
  .append_of_isSpace hgap (endsNumeral_cons (.inr hc) s)

theorem SpellsElements.endsNumeral {es : List Fragment} {s : Text} (h : SpellsElements es s)
    (rest : Text) : EndsNumeral (s ++ rest) := by
  cases h with
  | close hgap =>
    rw [List.append_assoc]
    exact endsNumeral_gap hgap (by decide) rest
  | comma h hs => exact endsNumeral_cons (.inr (by decide)) _

theorem SpellsMembers.endsNumeral {ms : List (Option Text × Fragment)} {s : Text}
    (h : SpellsMembers ms s) (rest : Text) : EndsNumeral (s ++ rest) := by
  cases h with
  | close hgap =>
    rw [List.append_assoc]
    exact endsNumeral_gap hgap (by decide) rest
  | comma hkey h hs => exact endsNumeral_cons (.inr (by decide)) _

open Token (scan scan_append_of_isSpace)

mutual

theorem Spells.scan_append {f : Fragment} {s : Text} (h : Spells f s) {rest : Text}
    (hrest : EndsNumeral rest) : scan (s ++ rest) = f.tokens ++ scan rest := by
  match h with
  | .padded hbefore h hafter =>
    rw [List.append_assoc, List.append_assoc, scan_append_of_isSpace hbefore,
      h.scan_append (hrest.append_of_isSpace hafter), scan_append_of_isSpace hafter]
  | .null => exact Token.scan_null rest
  | .isTrue => exact Token.scan_true rest
  | .isFalse => exact Token.scan_false rest
  | .number n => exact n.scan_append hrest
  | .string h => exact Token.scan_string h rest
  | .emptyArray hgap =>
    rw [List.cons_append, List.append_assoc, Token.scan_openArray, scan_append_of_isSpace hgap]
    simp [Fragment.tokens]
  | .array h hs =>
    rw [List.cons_append, List.append_assoc, Token.scan_openArray,
      h.scan_append (hs.endsNumeral rest), hs.scan_append rest, Fragment.tokens]
    simp
  | .emptyObject hgap =>
    rw [List.cons_append, List.append_assoc, Token.scan_openObject, scan_append_of_isSpace hgap]
    simp [Fragment.tokens]
  | .object (s := s) (t := t) hkey h hs =>
    have hcolon : EndsNumeral (':' :: (s ++ (t ++ rest))) := endsNumeral_cons (.inr (by decide)) _
    simp only [List.cons_append, List.append_assoc, Token.scan_openObject]
    rw [hkey.scan_append hcolon, Token.scan_colon, h.scan_append (hs.endsNumeral rest),
      hs.scan_append rest, Fragment.tokens]
    simp [Fragment.tokens]

theorem SpellsElements.scan_append {es : List Fragment} {s : Text} (h : SpellsElements es s)
    (rest : Text) : scan (s ++ rest) = Fragment.elementTokens es ++ scan rest := by
  match h with
  | .close hgap =>
    rw [List.append_assoc, scan_append_of_isSpace hgap]
    simp [Fragment.elementTokens]
  | .comma h hs =>
    rw [List.cons_append, List.append_assoc, Token.scan_comma,
      h.scan_append (hs.endsNumeral rest), hs.scan_append rest, Fragment.elementTokens]
    simp

theorem SpellsMembers.scan_append {ms : List (Option Text × Fragment)} {s : Text}
    (h : SpellsMembers ms s) (rest : Text) :
    scan (s ++ rest) = Fragment.memberTokens ms ++ scan rest := by
  match h with
  | .close hgap =>
    rw [List.append_assoc, scan_append_of_isSpace hgap]
    simp [Fragment.memberTokens]
  | .comma (s := s) (t := t) hkey h hs =>
    have hcolon : EndsNumeral (':' :: (s ++ (t ++ rest))) := endsNumeral_cons (.inr (by decide)) _
    simp only [List.cons_append, List.append_assoc, Token.scan_comma]
    rw [hkey.scan_append hcolon, Token.scan_colon, h.scan_append (hs.endsNumeral rest),
      hs.scan_append rest, Fragment.memberTokens]
    simp [Fragment.tokens]

end

/-- Decoding a text is decoding the value that it spells. -/
theorem decodeText_of_spells {α : Type} {decode : Fragment → Decoded α} {f : Fragment} {s : Text}
    (h : Spells f s) : decodeText decode s = decode f := by
  have hscan := h.scan_append endsNumeral_nil
  rw [List.append_nil, Token.scan_nil, List.append_nil] at hscan
  exact decodeText_of_scan h.complete hscan

end SignatureLine.Json
