import Mathlib
import SignatureLine.Proofs.Settings.Agreement
import SignatureLine.Proofs.Toml.Documents

/-!
# Which documents are settings

The entry `parser` of a TOML document decides what settings it gives, whatever else is in it.
-/

namespace SignatureLine.Settings

open Toml (Value Table)
open ParserSettings (sectionEntries? EntryFits Agree)

variable {s s' : Text} {root root' : Table} {settings : Settings}

/-- The settings that a root table states: those of its entry `parser`, or none if it has no such
entry. -/
def StatedBy (settings : Settings) (root : Table) : Prop :=
  Option.Rel (fun p v => ∃ entries, sectionEntries? v = some entries ∧ p.StatedBy entries)
    settings.parser (root.find? "parser".toList)

theorem ofText_of_document (h : Table.ofText? s = some root) :
    ofText s = (ofTable root).mapError .mismatch := by
  rw [ofText, h]

theorem ofText_eq_ok_iff (h : Table.ofText? s = some root) :
    ofText s = .ok settings ↔ ofTable root = .ok settings := by
  rw [ofText_of_document h]
  cases ofTable root with
  | error m => simp [Except.mapError]
  | ok settings' => simp [Except.mapError]

theorem ofTable_of_find? {v : Value} (h : root.find? "parser".toList = some v) :
    ofTable root = (ParserSettings.fromToml v).map fun p => ⟨some p⟩ := by
  simp only [ofTable, h]
  cases ParserSettings.fromToml v <;> rfl

theorem ofTable_eq_ok_iff (h : root.WellKeyed)
    (hparser : root.find? "parser".toList ≠ some .datetime) :
    ofTable root = .ok settings ↔ settings.StatedBy root := by
  obtain ⟨parser⟩ := settings
  cases hfind : root.find? "parser".toList with
  | none =>
    rw [ofTable, StatedBy, hfind]
    constructor
    · intro hok
      cases Except.ok.inj hok
      exact .none
    · intro hrel
      cases hrel
      rfl
  | some v =>
    have hread (p : ParserSettings) : ParserSettings.fromToml v = .ok p ↔
        ∃ entries, sectionEntries? v = some entries ∧ p.StatedBy entries := by
      apply ParserSettings.fromToml_eq_ok_iff (h.find? hfind)
      rintro rfl
      exact hparser hfind
    rw [ofTable_of_find? hfind, FromToml.map_eq_ok_iff, StatedBy, hfind]
    constructor
    · rintro ⟨p, hp, hsettings⟩
      cases hsettings
      exact .some ((hread p).mp hp)
    · intro hrel
      cases hrel with
      | some hp => exact ⟨_, (hread _).mpr hp, rfl⟩

theorem ofTable_eq_error {v : Value} {front back : List (Text × Value)} {e : Text × Value}
    (h : root.WellKeyed) (hfind : root.find? "parser".toList = some v)
    (hentries : sectionEntries? v = some (front ++ e :: back))
    (hfront : ∀ e' ∈ front, EntryFits e') (he : ¬ EntryFits e) :
    ∃ m, ParserSettings.ofEntries [e] = .error m ∧ ofTable root = .error m := by
  obtain ⟨-, hvalues⟩ := ParserSettings.wellKeyed_sectionEntries? (h.find? hfind) hentries
  obtain ⟨m, halone, hm⟩ := ParserSettings.ofEntries_eq_error hvalues hfront he
  refine ⟨m, halone, ?_⟩
  rw [ofTable_of_find? hfind, ParserSettings.fromToml_of_sectionEntries? hentries, hm]
  rfl

theorem ofTable_of_agree
    (h : Option.Rel Agree (root.find? "parser".toList) (root'.find? "parser".toList)) :
    ofTable root = ofTable root' := by
  unfold ofTable
  generalize root.find? "parser".toList = parser at h ⊢
  generalize root'.find? "parser".toList = parser' at h ⊢
  cases h with
  | none => rfl
  | some hagree => simp only [ParserSettings.fromToml_of_agree hagree]

/-- The entry `parser` alone decides what a document gives.  Accepted are exactly the documents
whose entry states settings, and they give these; any other is refused for what its entry holds.
With several wrong entries in the section the first one is reported, as if it stood alone.
Documents whose sections agree give the same. -/
theorem ofText_iff_statedBy (h : Table.ofText? s = some root) :
    (root.find? "parser".toList ≠ some .datetime →
      ∀ settings : Settings, ofText s = .ok settings ↔ settings.StatedBy root) ∧
    (∀ e, ofText s = .error e → ∃ m, e = .mismatch m) ∧
    (∀ v front e back, root.find? "parser".toList = some v →
      sectionEntries? v = some (front ++ e :: back) → (∀ e' ∈ front, EntryFits e') →
      ¬ EntryFits e →
      ∃ m, ParserSettings.ofEntries [e] = .error m ∧ ofText s = .error (.mismatch m)) ∧
    ∀ s' root', Table.ofText? s' = some root' →
      Option.Rel Agree (root.find? "parser".toList) (root'.find? "parser".toList) →
      ofText s = ofText s' := by
  have hwell := Table.wellKeyed_ofText? h
  refine ⟨?accepted, ?refused, ?first, ?agree⟩
  case accepted =>
    intro hparser settings
    rw [ofText_eq_ok_iff h, ofTable_eq_ok_iff hwell hparser]
  case refused =>
    intro e he
    rw [ofText_of_document h] at he
    cases hread : ofTable root with
    | error m =>
      rw [hread] at he
      exact ⟨m, (Except.error.inj he).symm⟩
    | ok settings =>
      rw [hread] at he
      cases he
  case first =>
    intro v front e back hfind hentries hfront he
    obtain ⟨m, halone, hm⟩ := ofTable_eq_error hwell hfind hentries hfront he
    refine ⟨m, halone, ?_⟩
    rw [ofText_of_document h, hm]
    rfl
  case agree =>
    intro s' root' h' hagree
    rw [ofText_of_document h, ofText_of_document h', ofTable_of_agree hagree]

/-- An accepted document, one with two wrong entries, and another one that agrees with that. -/
theorem ofText_iff_statedBy_samples :
    ofText "[parser.whitespace]\ncollapse = []".toList =
      .ok ⟨some { whitespace := some .collapse }⟩ ∧
    (∃ m, ParserSettings.ofEntries [("whitespace".toList, .array [])] = .error m ∧
      ofText "[parser]\nx = []\nwhitespace = []\nstrict_arguments = []".toList =
        .error (.mismatch m)) ∧
    ofText "[parser]\nx = []\nwhitespace = []\nstrict_arguments = []".toList =
      ofText "parser = [[], []]".toList := by
  have haccepted : Table.ofText? "[parser.whitespace]\ncollapse = []".toList =
      some ⟨.header, [("parser".toList, .table ⟨.supertable, [("whitespace".toList,
        .table ⟨.header, [("collapse".toList, .array [])]⟩)]⟩)]⟩ := by
    cbv
  have htable : Table.ofText? "[parser]\nx = []\nwhitespace = []\nstrict_arguments = []".toList =
      some ⟨.header, [("parser".toList, .table ⟨.header, [("x".toList, .array []),
        ("whitespace".toList, .array []), ("strict_arguments".toList, .array [])]⟩)]⟩ := by
    cbv
  have harray : Table.ofText? "parser = [[], []]".toList =
      some ⟨.header, [("parser".toList, .array [.array [], .array []])]⟩ := by
    cbv
  have hx : EntryFits ("x".toList, .array []) := .other (by decide)
  have hwhitespace : ¬ EntryFits ("whitespace".toList, .array []) := by
    intro h
    cases h with
    | whitespace _ hmode => cases hmode
    | strictArguments hkey _ => exact absurd hkey (by decide)
    | other hkey => exact hkey (by decide)
  refine ⟨((ofText_iff_statedBy haccepted).1 ?_ _).mpr ?_, ?_, ?_⟩
  · rw [Table.find?, List.lookup_cons_self]
    intro hdatetime
    cases hdatetime
  · rw [StatedBy, Table.find?, List.lookup_cons_self]
    refine .some ⟨_, rfl, ?_, ?_⟩
    · rw [List.lookup_cons_self]
      exact .some (.key rfl .array)
    · have hne : "strict_arguments".toList ≠ "whitespace".toList := by decide
      have hnone (v : Value) :
          [("whitespace".toList, v)].lookup "strict_arguments".toList = none :=
        ParserSettings.lookup_append_of_ne [] hne
      rw [hnone]
      exact .none
  · apply (ofText_iff_statedBy htable).2.2.1 _ [_] _ [_] List.lookup_cons_self rfl _ hwhitespace
    simpa using hx
  · apply (ofText_iff_statedBy htable).2.2.2 _ _ harray
    rw [Table.find?, Table.find?, List.lookup_cons_self, List.lookup_cons_self]
    refine .some (.entries rfl rfl ?_)
    rw [List.filter_cons_of_neg (by decide)]
    exact List.forall₂_same.mpr fun e _ => .intro (.refl e.2)

/-- What a plainer reading of documents would miss.  An empty array under the name of a mode is
accepted, an entry whose table is opened after tables below it counts from there, and an array that
is written as headers is another value than one in brackets. -/
theorem plain_reading_fails :
    (¬ ∀ (s : Text) (root t : Table) (v : Value) (settings : Settings),
      Table.ofText? s = some root → root.find? "parser".toList = some (.table t) →
      t.find? "whitespace".toList = some v → ofText s = .ok settings →
      (∃ mode : WhitespaceMode, v = .string mode.name) ∨
        ∃ (mode : WhitespaceMode) (u empty : Table), v = .table u ∧
          u.entries = [(mode.name, .table empty)] ∧ empty.entries = []) ∧
    ofText ("[parser.strict_arguments.x]\n[parser]\nwhitespace = []\n".toList ++
      "[parser.strict_arguments]".toList) = .error (.mismatch .notStringOrTable) ∧
    ofText "[parser.whitespace]\ncollapse = [{}]".toList ≠
      ofText "[[parser.whitespace.collapse]]".toList := by
  refine ⟨?_, by decide +kernel, by decide +kernel⟩
  intro h
  have hroot : Table.ofText? "[parser.whitespace]\ncollapse = []".toList =
      some ⟨.header, [("parser".toList, .table ⟨.supertable, [("whitespace".toList,
        .table ⟨.header, [("collapse".toList, .array [])]⟩)]⟩)]⟩ := by
    cbv
  have hok : ofText "[parser.whitespace]\ncollapse = []".toList =
      .ok ⟨some { whitespace := some .collapse }⟩ := by
    decide +kernel
  obtain ⟨mode, hv⟩ | ⟨mode, u, empty, hv, hentries, -⟩ :=
    h _ _ _ _ _ hroot List.lookup_cons_self List.lookup_cons_self hok
  · cases hv
  · cases hv
    have hvalue := (Prod.mk.inj (List.cons.inj hentries).1).2
    cases hvalue

end SignatureLine.Settings
