import SignatureLine.Proofs.Settings.Sections

/-!
# Sections that agree

Two values are the same data if they differ only in how their tables came into being and in the
order of the keys.  Two sections that have the same data under the two known keys, in the same
order, are read alike.
-/

namespace SignatureLine

open Toml (Value Table)

/-! ## The same data -/

mutual

/-- The same data, save for the origins of tables and the order of their entries.  An array that was
written as headers is another value than one in brackets. -/
inductive Toml.Value.SameData : Value → Value → Prop
  | refl (v : Value) : SameData v v
  | array {vs vs' : List Value} (h : List.Forall₂ SameData vs vs') :
      SameData (.array vs) (.array vs')
  | table {t t' : Table} {entries : List (Text × Value)} (horder : t.entries.Perm entries)
      (h : List.Forall₂ SameEntry entries t'.entries) : SameData (.table t) (.table t')
  | tables {ts ts' : List Table} (h : List.Forall₂ SameData (ts.map .table) (ts'.map .table)) :
      SameData (.tables ts) (.tables ts')

/-- Entries with the same key and the same data. -/
inductive Toml.Value.SameEntry : Text × Value → Text × Value → Prop
  | intro {key : Text} {v v' : Value} (h : SameData v v') : SameEntry (key, v) (key, v')

end

open Toml.Value (SameData SameEntry)

variable {v v' : Value} {e e' : Text × Value} {entries entries' : List (Text × Value)}

/-! ## Values that are read alike -/

namespace WhitespaceMode

theorem demandEmpty_of_sameData (h : SameData v v') : demandEmpty v = demandEmpty v' := by
  cases h with
  | refl => rfl
  | array h => cases h <;> rfl
  | @table t t' entries horder h =>
    obtain ⟨origin, es⟩ := t
    obtain ⟨origin', es'⟩ := t'
    cases h with
    | nil =>
      obtain rfl : es = [] := horder.eq_nil
      rfl
    | cons he _ =>
      cases es with
      | nil => cases horder.symm.eq_nil
      | cons e es => rfl
  | @tables ts ts' h =>
    have hlength : ts.length = ts'.length := by simpa using h.length_eq
    cases ts with
    | nil =>
      rw [List.eq_nil_of_length_eq_zero hlength.symm]
    | cons t ts =>
      cases ts' with
      | nil => cases hlength
      | cons t' ts' => rfl

theorem fromToml_of_sameData (h : SameData v v') : fromToml v = fromToml v' := by
  cases h with
  | refl => rfl
  | array _ => rfl
  | tables _ => rfl
  | @table t t' entries horder h =>
    obtain ⟨origin, es⟩ := t
    obtain ⟨origin', es'⟩ := t'
    -- only with a single entry does it matter which one it is
    cases h with
    | nil =>
      obtain rfl : es = [] := horder.eq_nil
      rfl
    | cons he hrest =>
      cases he with
      | intro hv =>
        cases hrest with
        | nil =>
          obtain rfl := List.perm_singleton.mp horder
          simp only [fromToml, demandEmpty_of_sameData hv]
        | cons _ _ =>
          cases es with
          | nil => cases horder.length_eq
          | cons e es =>
            cases es with
            | nil => cases horder.length_eq
            | cons e' es => rfl

end WhitespaceMode

namespace ParserSettings

theorem strictFromToml_of_sameData (h : SameData v v') : strictFromToml v = strictFromToml v' := by
  cases h with
  | refl => rfl
  | array _ => rfl
  | table _ _ => rfl
  | tables _ => rfl

theorem addEntry_of_sameEntry (h : SameEntry e e') (p : ParserSettings) :
    p.addEntry e = p.addEntry e' := by
  cases h with
  | intro h =>
    simp only [addEntry, WhitespaceMode.fromToml_of_sameData h, strictFromToml_of_sameData h]

theorem foldlM_addEntry_of_sameEntries (h : List.Forall₂ SameEntry entries entries')
    (p : ParserSettings) : entries.foldlM addEntry p = entries'.foldlM addEntry p := by
  induction h generalizing p with
  | nil => rfl
  | cons he _ ih =>
    rw [List.foldlM_cons, List.foldlM_cons, addEntry_of_sameEntry he]
    simp only [ih]

/-- Entries under other keys do not matter, whatever they hold. -/
theorem foldlM_addEntry_filter (entries : List (Text × Value)) (p : ParserSettings) :
    (entries.filter (·.1 ∈ knownKeys)).foldlM addEntry p = entries.foldlM addEntry p := by
  induction entries generalizing p with
  | nil => rfl
  | cons e entries ih =>
    by_cases hknown : e.1 ∈ knownKeys
    · rw [List.filter_cons_of_pos (by simpa using hknown), List.foldlM_cons, List.foldlM_cons]
      simp only [ih]
    · rw [List.filter_cons_of_neg (by simpa using hknown), List.foldlM_cons,
        addEntry_of_notMem p hknown, ih]
      rfl

/-! ## Sections that are read alike -/

/-- Two parser sections agree: they have entries with the same data under the known keys, in the
same order, or are the same data that is no section. -/
inductive Agree : Value → Value → Prop
  | entries {v v' : Value} {entries entries' : List (Text × Value)}
      (hv : sectionEntries? v = some entries) (hv' : sectionEntries? v' = some entries')
      (h : List.Forall₂ SameEntry (entries.filter (·.1 ∈ knownKeys))
        (entries'.filter (·.1 ∈ knownKeys))) : Agree v v'
  | other {v v' : Value} (hv : sectionEntries? v = none) (h : SameData v v') : Agree v v'

theorem ofElements_of_sameData {vs vs' : List Value} (hv : sectionEntries? (.array vs) = none)
    (h : List.Forall₂ SameData vs vs') : ofElements vs = ofElements vs' := by
  cases h with
  | nil => rfl
  | cons hfirst hrest =>
    -- of an array that is too short for a section, only the first element can be wrong
    cases hrest with
    | nil => simp only [ofElements, WhitespaceMode.fromToml_of_sameData hfirst]
    | cons _ _ => cases hv

theorem fromToml_of_agree (h : Agree v v') : fromToml v = fromToml v' := by
  cases h with
  | entries hv hv' h =>
    rw [fromToml_of_sectionEntries? hv, fromToml_of_sectionEntries? hv', ofEntries, ofEntries,
      ← foldlM_addEntry_filter, foldlM_addEntry_of_sameEntries h, foldlM_addEntry_filter]
  | other hv h =>
    cases h with
    | refl => rfl
    | array h => exact ofElements_of_sameData hv h
    | table _ _ => cases hv
    | @tables ts ts' h =>
      apply ofElements_of_sameData _ h
      rwa [← sectionEntries?_tables]

end ParserSettings

end SignatureLine
