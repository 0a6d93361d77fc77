import SignatureLine.Proofs.Json.Members
import SignatureLine.Proofs.Json.Writing
import SignatureLine.Signature.Decode

/-!
# The forms of a record

A record is decoded from an object that has its fields in any order, among members of any other
names, and from the array of its fields.  Main statement: every text that spells a form of a
signature is decoded to the signature.
-/

namespace SignatureLine

open Json (decodeText Fragment)
open Json.Fragment (HasFields Slot addMembers_of_step decodeArray decodeString)

/-! ## Forms -/

/-- An optional modifier is its keyword, or null for none. -/
inductive AccessModifier.Represents : Option AccessModifier → Fragment → Prop
  | null : Represents none .null
  | keyword (m : AccessModifier) : Represents (some m) (.string (some m.keyword))

namespace Argument

def fieldNames : List Text :=
  ["type".toList, "name".toList]

/-- An argument is an object with its type and its name, or the array of the two. -/
inductive Represents (a : Argument) : Fragment → Prop
  | object {members : List (Option Text × Fragment)}
      (h : HasFields fieldNames
        [("type".toList, .string (some a.type)), ("name".toList, .string (some a.name))] members) :
      Represents a (.object members true)
  | array : Represents a (.array [.string (some a.type), .string (some a.name)] true)

end Argument

namespace Signature

def fieldNames : List Text :=
  ["raw_signature".toList, "access_modifier".toList, "return_type".toList, "method_name".toList,
    "arguments".toList]

/-- A signature is an object with its fields, of which a missing modifier may be left out, or the
array of all five. -/
inductive Represents (v : Signature) : Fragment → Prop
  | object {modifier : Fragment} {arguments : List Fragment}
      {members : List (Option Text × Fragment)}
      (hmodifier : AccessModifier.Represents v.modifier modifier)
      (harguments : List.Forall₂ Argument.Represents v.arguments arguments)
      (h : HasFields fieldNames
        [("raw_signature".toList, .string (some v.raw)), ("access_modifier".toList, modifier),
          ("return_type".toList, .string (some v.returnType)),
          ("method_name".toList, .string (some v.methodName)),
          ("arguments".toList, .array arguments true)] members) :
      Represents v (.object members true)
  | objectWithoutModifier {arguments : List Fragment} {members : List (Option Text × Fragment)}
      (hmodifier : v.modifier = none)
      (harguments : List.Forall₂ Argument.Represents v.arguments arguments)
      (h : HasFields fieldNames
        [("raw_signature".toList, .string (some v.raw)),
          ("return_type".toList, .string (some v.returnType)),
          ("method_name".toList, .string (some v.methodName)),
          ("arguments".toList, .array arguments true)] members) :
      Represents v (.object members true)
  | array {modifier : Fragment} {arguments : List Fragment}
      (hmodifier : AccessModifier.Represents v.modifier modifier)
      (harguments : List.Forall₂ Argument.Represents v.arguments arguments) :
      Represents v
        (.array
          [.string (some v.raw), modifier, .string (some v.returnType),
            .string (some v.methodName), .array arguments true] true)

end Signature

/-! ## Modifiers -/

theorem AccessModifier.decodeOptional_of_represents {modifier : Option AccessModifier}
    {f : Fragment} (h : Represents modifier f) : decodeOptional f = .ok modifier := by
  cases h with
  | null => rfl
  | keyword m =>
    simp only [decodeOptional, decode, decodeName, ofKeyword?_keyword]
    rfl

/-! ## Arguments -/

namespace Argument

/-- With the members ahead, the draft becomes the argument. -/
structure Draft.Slots (a : Argument) (d : Draft) (members : List (Option Text × Fragment)) :
    Prop where
  type : Slot "type" decodeString (some a.type) members d.type
  name : Slot "name" decodeString (some a.name) members d.name

theorem Draft.Slots.add {a : Argument} {d : Draft} {key : Text} {value : Fragment}
    {members : List (Option Text × Fragment)} (hwhole : value.isWhole = true)
    (h : d.Slots a ((some key, value) :: members)) :
    ∃ next, d.add key value = .ok next ∧ next.Slots a members := by
  by_cases htype : key = "type".toList
  · subst htype
    obtain ⟨x, hx, hslot⟩ := h.type.fill
    refine ⟨{ d with type := x }, ?_, hslot, h.name.skip (by decide)⟩
    rw [Draft.add, if_pos rfl, hx]
    rfl
  by_cases hname : key = "name".toList
  · subst hname
    obtain ⟨x, hx, hslot⟩ := h.name.fill
    refine ⟨{ d with name := x }, ?_, h.type.skip (by decide), hslot⟩
    rw [Draft.add, if_neg htype, if_pos rfl, hx]
    rfl
  · refine ⟨d, ?_, h.type.skip htype, h.name.skip hname⟩
    rw [Draft.add, if_neg htype, if_neg hname, hwhole]
    rfl

theorem Draft.Slots.finish {a : Argument} {d : Draft} (h : d.Slots a []) :
    d.finish = .ok a := by
  rw [Draft.finish, h.type.eq_final, h.name.eq_final]
  rfl

theorem decode_of_represents {a : Argument} {f : Fragment} (hf : f.Complete)
    (h : a.Represents f) : decode f = .ok a := by
  cases h with
  | array => rfl
  | @object members h =>
    have hslots : Draft.Slots a {} members :=
      ⟨h.slot (by decide) rfl rfl, h.slot (by decide) rfl rfl⟩
    obtain ⟨last, hlast, hfinal⟩ :=
      addMembers_of_step (fun _ _ _ _ => Draft.Slots.add) h.key_ne_none hf.of_mem_object hslots
    rw [decode, hlast]
    exact hfinal.finish

end Argument

/-! ## Signatures -/

namespace Signature

/-- With the members ahead, the draft becomes the signature.  Its modifier becomes `modifier`, which
is none if no member has its name. -/
structure Draft.Slots (v : Signature) (modifier : Option (Option AccessModifier)) (d : Draft)
    (members : List (Option Text × Fragment)) : Prop where
  raw : Slot "raw_signature" decodeString (some v.raw) members d.raw
  modifier : Slot "access_modifier" AccessModifier.decodeOptional modifier members d.modifier
  returnType : Slot "return_type" decodeString (some v.returnType) members d.returnType
  methodName : Slot "method_name" decodeString (some v.methodName) members d.methodName
  arguments : Slot "arguments" (decodeArray Argument.decode) (some v.arguments) members d.arguments

theorem Draft.Slots.add {v : Signature} {modifier : Option (Option AccessModifier)} {d : Draft}
    {key : Text} {value : Fragment} {members : List (Option Text × Fragment)}
    (hwhole : value.isWhole = true) (h : d.Slots v modifier ((some key, value) :: members)) :
    ∃ next, d.add key value = .ok next ∧ next.Slots v modifier members := by
  by_cases hraw : key = "raw_signature".toList
  · subst hraw
    obtain ⟨x, hx, hslot⟩ := h.raw.fill
    refine ⟨{ d with raw := x }, ?_, hslot, h.modifier.skip (by decide),
      h.returnType.skip (by decide), h.methodName.skip (by decide), h.arguments.skip (by decide)⟩
    rw [Draft.add, if_pos rfl, hx]
    rfl
  by_cases hmodifier : key = "access_modifier".toList
  · subst hmodifier
    obtain ⟨x, hx, hslot⟩ := h.modifier.fill
    refine ⟨{ d with modifier := x }, ?_, h.raw.skip (by decide), hslot,
      h.returnType.skip (by decide), h.methodName.skip (by decide), h.arguments.skip (by decide)⟩
    rw [Draft.add, if_neg hraw, if_pos rfl, hx]
    rfl
  by_cases hreturnType : key = "return_type".toList
  · subst hreturnType
    obtain ⟨x, hx, hslot⟩ := h.returnType.fill
    refine ⟨{ d with returnType := x }, ?_, h.raw.skip (by decide), h.modifier.skip (by decide),
      hslot, h.methodName.skip (by decide), h.arguments.skip (by decide)⟩
    rw [Draft.add, if_neg hraw, if_neg hmodifier, if_pos rfl, hx]
    rfl
  by_cases hmethodName : key = "method_name".toList
  · subst hmethodName
    obtain ⟨x, hx, hslot⟩ := h.methodName.fill
    refine ⟨{ d with methodName := x }, ?_, h.raw.skip (by decide), h.modifier.skip (by decide),
      h.returnType.skip (by decide), hslot, h.arguments.skip (by decide)⟩
    rw [Draft.add, if_neg hraw, if_neg hmodifier, if_neg hreturnType, if_pos rfl, hx]
    rfl
  by_cases harguments : key = "arguments".toList
  · subst harguments
    obtain ⟨x, hx, hslot⟩ := h.arguments.fill
    refine ⟨{ d with arguments := x }, ?_, h.raw.skip (by decide), h.modifier.skip (by decide),
      h.returnType.skip (by decide), h.methodName.skip (by decide), hslot⟩
    rw [Draft.add, if_neg hraw, if_neg hmodifier, if_neg hreturnType, if_neg hmethodName,
      if_pos rfl, hx]
    rfl
  · refine ⟨d, ?_, h.raw.skip hraw, h.modifier.skip hmodifier, h.returnType.skip hreturnType,
      h.methodName.skip hmethodName, h.arguments.skip harguments⟩
    rw [Draft.add, if_neg hraw, if_neg hmodifier, if_neg hreturnType, if_neg hmethodName,
      if_neg harguments, hwhole]
    rfl

theorem Draft.Slots.finish {v : Signature} {modifier : Option (Option AccessModifier)} {d : Draft}
    (hmodifier : modifier.getD none = v.modifier) (h : d.Slots v modifier []) :
    d.finish = .ok v := by
  rw [Draft.finish, h.raw.eq_final, h.modifier.eq_final, h.returnType.eq_final,
    h.methodName.eq_final, h.arguments.eq_final, hmodifier]
  rfl

-- The whole object, with a modifier in it or without.
theorem decode_of_slots {v : Signature} {modifier : Option (Option AccessModifier)}
    {members : List (Option Text × Fragment)} (h : Draft.Slots v modifier {} members)
    (hmodifier : modifier.getD none = v.modifier) (hkeys : ∀ m ∈ members, m.1 ≠ none)
    (hf : Fragment.Complete (.object members true)) : decode (.object members true) = .ok v := by
  obtain ⟨last, hlast, hfinal⟩ :=
    addMembers_of_step (fun _ _ _ _ => Draft.Slots.add) hkeys hf.of_mem_object h
  rw [decode, hlast]
  exact hfinal.finish hmodifier

theorem decodeArray_of_represents {as : List Argument} {es : List Fragment}
    (hes : Fragment.Complete (.array es true)) (h : List.Forall₂ Argument.Represents as es) :
    decodeArray Argument.decode (.array es true) = .ok as := by
  apply Fragment.decodeArray_of_forall₂
  have hcomplete := hes.of_mem_array
  clear hes
  induction h with
  | nil => exact .nil
  | cons h _ ih =>
    obtain ⟨he, hes⟩ := List.forall_mem_cons.mp hcomplete
    exact .cons (Argument.decode_of_represents he h) (ih hes)

theorem decode_of_represents {v : Signature} {f : Fragment} (hf : f.Complete)
    (h : v.Represents f) : decode f = .ok v := by
  cases h with
  | @object modifier arguments members hmodifier harguments h =>
    have hmodifier := AccessModifier.decodeOptional_of_represents hmodifier
    have hmem : (some "arguments".toList, .array arguments true) ∈ members := h.mem (by simp)
    have harguments := decodeArray_of_represents (hf.of_mem_object _ hmem) harguments
    have hslots : Draft.Slots v (some v.modifier) {} members :=
      ⟨h.slot (by decide) rfl rfl, h.slot (by decide) rfl hmodifier, h.slot (by decide) rfl rfl,
        h.slot (by decide) rfl rfl, h.slot (by decide) rfl harguments⟩
    exact decode_of_slots hslots rfl h.key_ne_none hf
  | @objectWithoutModifier arguments members hmodifier harguments h =>
    have hmem : (some "arguments".toList, .array arguments true) ∈ members := h.mem (by simp)
    have harguments := decodeArray_of_represents (hf.of_mem_object _ hmem) harguments
    have hslots : Draft.Slots v none {} members :=
      ⟨h.slot (by decide) rfl rfl, h.slot_of_missing (by decide) rfl, h.slot (by decide) rfl rfl,
        h.slot (by decide) rfl rfl, h.slot (by decide) rfl harguments⟩
    exact decode_of_slots hslots hmodifier.symm h.key_ne_none hf
  | @array modifier arguments hmodifier harguments =>
    have hmodifier := AccessModifier.decodeOptional_of_represents hmodifier
    have harguments := decodeArray_of_represents (hf.of_mem_array _ (by simp)) harguments
    simp only [decode, decodeElements, Fragment.nextElement, decodeString, bind, Except.bind,
      hmodifier, harguments]
    rfl

/-- A text is decoded to the signature of which it spells a form. -/
theorem decodeText_of_represents {v : Signature} {f : Fragment} {s : Text} (hf : v.Represents f)
    (hs : Json.Spells f s) : decodeText decode s = .ok v := by
  rw [Json.decodeText_of_spells hs, decode_of_represents hs.complete hf]

-- The fields stand in reverse behind a member of another name, and a character is spelled as a
-- code.
theorem decodeText_of_represents_reversed :
    ∃ v f s, v = ⟨"T f(int a)".toList, none, "T".toList, "f".toList, [⟨"int".toList, "a".toList⟩]⟩ ∧
      s = "\x7b\"later\": [null, -1.5e+3],\n\"arguments\":[[\"int\",\"a\"]],".toList ++
        "\"method_name\":\"f\" ,\"return_type\":\"\\u0054\",".toList ++
        "\"raw_signature\":\"T f(int a)\" \x7d".toList ∧
      v.Represents f ∧ Json.Spells f s ∧ decodeText decode s = .ok v := by
  have hplain (s : Text) : Json.Spells (.string (some s)) (Json.writeString s) :=
    .string (Json.spellsString_writeString s)
  have hnogap : ∀ c ∈ [], Json.isSpace c = true := List.forall_mem_nil _
  have hspace : ∀ c ∈ [' '], Json.isSpace c = true := List.forall_mem_singleton.mpr rfl
  have hline : ∀ c ∈ ['\n'], Json.isSpace c = true := List.forall_mem_singleton.mpr rfl
  let n : Json.Numeral :=
    ⟨true, ['1'], some ['5'], some ⟨'e', some '+', ['3'], .inl rfl, by simp, by decide⟩,
      by decide, by decide, by simp; decide⟩
  have hlater := Json.Spells.array .null
    (.comma ((Json.Spells.number n).behind hspace) (.close hnogap))
  have hargument := Json.Spells.array (hplain "int".toList)
    (.comma (hplain "a".toList) (.close hnogap))
  have hdigit (i : Nat) (hi : i < 16) : Json.IsHexDigit i.digitChar i := ⟨hi, .inl rfl⟩
  have hcode : Json.SpellsUnit (.code 0x54) "\\u0054".toList :=
    .code (hdigit 0 (by decide)) (hdigit 0 (by decide)) (hdigit 5 (by decide))
      (hdigit 4 (by decide))
  have htype : Json.SpellsString (some "T".toList) "\"\\u0054\"".toList :=
    (Json.SpellsUnits.cons hcode .nil).spellsString (.code (by decide) .nil)
  have hspells := Json.Spells.object (hplain "later".toList) (hlater.behind hspace)
    (.comma ((hplain "arguments".toList).behind hline) (.array hargument (.close hnogap))
      (.comma (hplain "method_name".toList) (.padded hnogap (hplain "f".toList) hspace)
        (.comma (hplain "return_type".toList) (.string htype)
          (.comma (hplain "raw_signature".toList) (hplain "T f(int a)".toList) (.close hspace)))))
  have hform := Represents.objectWithoutModifier (v := ⟨"T f(int a)".toList, none, "T".toList,
      "f".toList, [⟨"int".toList, "a".toList⟩]⟩) rfl (.cons .array .nil)
    ⟨[(some "later".toList, .array [.null, .number n.value?] true)], List.reverse_perm _,
      List.forall_mem_singleton.mpr ⟨_, rfl, by decide⟩⟩
  exact ⟨_, _, _, rfl, by decide +kernel, hform, hspells, decodeText_of_represents hform hspells⟩

end Signature

end SignatureLine
