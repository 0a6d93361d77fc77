import SignatureLine.Proofs.Json.Writing
import SignatureLine.Proofs.Signature.RecordForms
import SignatureLine.Signature.Encode

/-!
# Records through JSON

What a modifier, an argument and a signature are written as is one of their forms.  Main statement:
the text of a record is decoded to the record, without white space as with one element a line, so
two records are never written as the same text.
-/

namespace SignatureLine

open Json (decodeText Decoded Fragment)

/-! ## The parts of a record -/

theorem AccessModifier.represents_encode (m : Option AccessModifier) :
    Represents m ((m.map encode).getD .null).fragment := by
  cases m with
  | none => exact .null
  | some m => exact .keyword m

theorem AccessModifier.decode_encode (m : AccessModifier) : decode m.encode.fragment = .ok m := by
  simp only [encode, Json.Value.fragment, decode, decodeName, ofKeyword?_keyword]

theorem Argument.represents_encode (a : Argument) : a.Represents a.encode.fragment :=
  .object ⟨[], .refl _, List.forall_mem_nil _⟩

theorem Argument.decode_encode (a : Argument) : decode a.encode.fragment = .ok a :=
  decode_of_represents a.encode.complete_fragment a.represents_encode

theorem Signature.represents_encode (s : Signature) : s.Represents s.encode.fragment := by
  have harguments : List.Forall₂ Argument.Represents s.arguments
      (Json.Value.elementFragments (s.arguments.map Argument.encode)) := by
    rw [Json.Value.elementFragments_eq_map, List.map_map, List.forall₂_map_right_iff]
    exact List.forall₂_same.mpr fun a _ => a.represents_encode
  exact .object (AccessModifier.represents_encode s.modifier) harguments
    ⟨[], .refl _, List.forall_mem_nil _⟩

theorem Signature.decode_encode (s : Signature) : decode s.encode.fragment = .ok s :=
  decode_of_represents s.encode.complete_fragment s.represents_encode

/-! ## The text of a record -/

/-- What is written in either layout is read as the record, and no two records have a text in
common. -/
structure Json.RoundTrip {α : Type} (encode : α → Json.Value) (decode : Fragment → Decoded α) :
    Prop where
  decodeText_write : ∀ layout ∈ [Json.Layout.compact, .indented], ∀ x,
    decodeText decode ((encode x).write layout) = .ok x
  eq_of_write_eq : ∀ layout ∈ [Json.Layout.compact, .indented],
    ∀ layout' ∈ [Json.Layout.compact, .indented], ∀ x y,
      (encode x).write layout = (encode y).write layout' → x = y

theorem Json.RoundTrip.of_fragment {α : Type} {encode : α → Json.Value}
    {decode : Fragment → Decoded α} (h : ∀ x, decode (encode x).fragment = .ok x) :
    Json.RoundTrip encode decode := by
  have hwrite : ∀ layout ∈ [Json.Layout.compact, .indented], ∀ x,
      decodeText decode ((encode x).write layout) = .ok x := by
    intro layout hlayout x
    have hl : layout.IsBlank := by
      rcases List.mem_pair.mp hlayout with rfl | rfl
      · exact Json.Layout.isBlank_compact
      · exact Json.Layout.isBlank_indented
    rw [Json.Value.decodeText_write hl, h]
  refine ⟨hwrite, fun layout hlayout layout' hlayout' x y heq => ?_⟩
  have hx := hwrite layout hlayout x
  rw [heq, hwrite layout' hlayout' y] at hx
  exact (Except.ok.inj hx).symm

theorem roundTrip_encode_decode :
    Json.RoundTrip Signature.encode Signature.decode ∧
    Json.RoundTrip Argument.encode Argument.decode ∧
    Json.RoundTrip AccessModifier.encode AccessModifier.decode :=
  ⟨.of_fragment Signature.decode_encode, .of_fragment Argument.decode_encode,
    .of_fragment AccessModifier.decode_encode⟩

end SignatureLine
