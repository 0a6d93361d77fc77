import SignatureLine.Proofs.Json.Spelling

/-!
# Reading what was written

In every layout of white space, a written value spells one and the same fragment.  So whoever
decodes the text decodes this fragment, and the layout does not matter.
-/

namespace SignatureLine.Json

/-- Only white space is written between tokens. -/
structure Layout.IsBlank (layout : Layout) : Prop where
  lineBreak : ∀ depth, ∀ c ∈ layout.lineBreak depth, isSpace c = true
  afterColon : ∀ c ∈ layout.afterColon, isSpace c = true

theorem Layout.isBlank_compact : compact.IsBlank :=
  ⟨fun _ _ hc => absurd hc List.not_mem_nil, fun _ hc => absurd hc List.not_mem_nil⟩

theorem Layout.isBlank_indented : indented.IsBlank where
  lineBreak depth c hc := by
    rcases List.mem_cons.mp hc with rfl | hc
    · rfl
    · rw [List.eq_of_mem_replicate hc]
      rfl
  afterColon c hc := by
    rw [List.mem_singleton.mp hc]
    rfl

namespace Value

/-! ## The fragment of a value -/

mutual

/-- What is read of a value. -/
def fragment : Value → Fragment
  | .null => .null
  | .string s => .string (some s)
  | .array es => .array (elementFragments es) true
  | .object ms => .object (memberFragments ms) true

def elementFragments : List Value → List Fragment
  | [] => []
  | e :: es => e.fragment :: elementFragments es

def memberFragments : List (Text × Value) → List (Option Text × Fragment)
  | [] => []
  | (key, e) :: ms => (some key, e.fragment) :: memberFragments ms

end

theorem elementFragments_eq_map (es : List Value) : elementFragments es = es.map fragment := by
  induction es with
  | nil => rfl
  | cons e es ih => rw [elementFragments, ih, List.map_cons]

/-! ## The text of a value -/

variable {layout : Layout}

mutual

theorem spells_writeAt (hl : layout.IsBlank) (depth : Nat) :
    (v : Value) → Spells v.fragment (v.writeAt layout depth)
  | .null => .null
  | .string s => .string (spellsString_writeString s)
  | .array [] => .emptyArray (List.forall_mem_nil _)
  | .array (e :: es) => by
    have he := (spells_writeAt hl (depth + 1) e).behind (hl.lineBreak (depth + 1))
    have h := Spells.array he (spells_writeElements hl depth es)
    simpa [writeAt, fragment, elementFragments] using h
  | .object [] => .emptyObject (List.forall_mem_nil _)
  | .object ((key, e) :: ms) => by
    have hkey := (Spells.string (spellsString_writeString key)).behind (hl.lineBreak (depth + 1))
    have he := (spells_writeAt hl (depth + 1) e).behind hl.afterColon
    have h := Spells.object hkey he (spells_writeMembers hl depth ms)
    simpa [writeAt, fragment, memberFragments] using h

theorem spells_writeElements (hl : layout.IsBlank) (depth : Nat) :
    (es : List Value) → SpellsElements (elementFragments es) (writeElements layout depth es)
  | [] => .close (hl.lineBreak depth)
  | e :: es => by
    have he := (spells_writeAt hl (depth + 1) e).behind (hl.lineBreak (depth + 1))
    have h := SpellsElements.comma he (spells_writeElements hl depth es)
    simpa [writeElements, elementFragments] using h

theorem spells_writeMembers (hl : layout.IsBlank) (depth : Nat) :
    (ms : List (Text × Value)) → SpellsMembers (memberFragments ms) (writeMembers layout depth ms)
  | [] => .close (hl.lineBreak depth)
  | (key, e) :: ms => by
    have hkey := (Spells.string (spellsString_writeString key)).behind (hl.lineBreak (depth + 1))
    have he := (spells_writeAt hl (depth + 1) e).behind hl.afterColon
    have h := SpellsMembers.comma hkey he (spells_writeMembers hl depth ms)
    simpa [writeMembers, memberFragments] using h

end

theorem complete_fragment (v : Value) : v.fragment.Complete :=
  (spells_writeAt Layout.isBlank_compact 0 v).complete

/-- Decoding a written value is decoding its fragment, in any layout. -/
theorem decodeText_write {α : Type} {decode : Fragment → Decoded α} (hl : layout.IsBlank)
    (v : Value) : decodeText decode (v.write layout) = decode v.fragment :=
  decodeText_of_spells (spells_writeAt hl 0 v)

end Value

end SignatureLine.Json
