import Mathlib.Data.List.Induction
import SignatureLine.Proofs.Toml.Keys
import SignatureLine.Settings.Decode

/-!
# The parser section

What a value states as the parser section of a settings file: the mode and the strictness under
their keys, or in an array the two in this order.  Reading the section gives what it states, or the
error of the first entry that is not of the form its key asks for.
-/

namespace SignatureLine

open Toml (Value Table)

theorem FromToml.bind_eq_ok_iff {α β : Type} {x : FromToml α} {f : α → FromToml β} {b : β} :
    x >>= f = .ok b ↔ ∃ a, x = .ok a ∧ f a = .ok b := by
  cases x with
  | error m => simp [bind, Except.bind]
  | ok a => simp [bind, Except.bind]

theorem FromToml.map_eq_ok_iff {α β : Type} {x : FromToml α} {f : α → β} {b : β} :
    x.map f = .ok b ↔ ∃ a, x = .ok a ∧ f a = b := by
  cases x with
  | error m => simp [Except.map]
  | ok a => simp [Except.map]

theorem FromToml.map_eq_error_iff {α β : Type} {x : FromToml α} {f : α → β}
    {m : SettingsMismatch} : x.map f = .error m ↔ x = .error m := by
  cases x with
  | error m' => simp [Except.map]
  | ok a => simp [Except.map]

/-! ## Modes -/

/-- A table without entries, or an array without elements. -/
inductive Toml.Value.IsEmpty : Value → Prop
  | table {t : Table} (h : t.entries = []) : IsEmpty (.table t)
  | array : IsEmpty (.array [])

namespace WhitespaceMode

variable {mode : WhitespaceMode} {s : Text} {v : Value}

/-- A value states a mode as its name, or as a table with the name for its one key and nothing under
it. -/
inductive StatedBy (mode : WhitespaceMode) : Value → Prop
  | name : mode.StatedBy (.string mode.name)
  | key {t : Table} {v : Value} (hentries : t.entries = [(mode.name, v)]) (hv : v.IsEmpty) :
      mode.StatedBy (.table t)

theorem ofName?_eq_some_iff : ofName? s = some mode ↔ s = mode.name := by
  constructor
  · intro h
    have hname := List.find?_some h
    exact (beq_iff_eq.mp hname).symm
  · rintro rfl
    cases mode with
    | literal => rfl
    | collapse => rfl

theorem fromName_eq_ok_iff : fromName s = .ok mode ↔ s = mode.name := by
  rw [← ofName?_eq_some_iff, fromName]
  cases ofName? s with
  | none => simp
  | some other => simp

theorem demandEmpty_eq_ok_iff (h : v.WellKeyed) : demandEmpty v = .ok () ↔ v.IsEmpty := by
  constructor
  · intro hok
    unfold demandEmpty at hok
    split at hok
    · exact .table rfl
    · cases hok
    · exact .array
    · cases hok
    · exact absurd rfl (Table.wellKeyed_tables_iff.mp h).1
    · cases hok
    · cases hok
  · rintro (hentries | -)
    · next t =>
      obtain ⟨origin, entries⟩ := t
      cases hentries
      rfl
    · rfl

theorem fromToml_eq_ok_iff (h : v.WellKeyed) : fromToml v = .ok mode ↔ mode.StatedBy v := by
  constructor
  · intro hok
    unfold fromToml at hok
    split at hok
    · rw [fromName_eq_ok_iff.mp hok]
      exact .name
    · cases hok
    · next key w =>
      obtain ⟨other, hkey, hok⟩ := FromToml.bind_eq_ok_iff.mp hok
      obtain ⟨_, hempty, hother⟩ := FromToml.bind_eq_ok_iff.mp hok
      obtain rfl : other = mode := Except.ok.inj hother
      have hw : w.WellKeyed := (Table.wellKeyed_table_iff.mp h).wellKeyed_value (key, w) (by simp)
      exact .key (by rw [fromName_eq_ok_iff.mp hkey]) ((demandEmpty_eq_ok_iff hw).mp hempty)
    · cases hok
    · cases hok
  · rintro (- | ⟨hentries, hw⟩)
    · exact fromName_eq_ok_iff.mpr rfl
    · next t w =>
      obtain ⟨origin, entries⟩ := t
      cases hentries
      have hwell := (Table.wellKeyed_table_iff.mp h).wellKeyed_value (mode.name, w) (by simp)
      rw [fromToml, fromName_eq_ok_iff.mpr rfl, (demandEmpty_eq_ok_iff hwell).mpr hw]
      rfl

end WhitespaceMode

namespace ParserSettings

variable {p q : ParserSettings} {e : Text × Value} {entries front back : List (Text × Value)}

theorem strictFromToml_eq_ok_iff {v : Value} {b : Bool} :
    strictFromToml v = .ok b ↔ v = .boolean b := by
  constructor
  · intro h
    unfold strictFromToml at h
    split at h
    · rw [Except.ok.inj h]
    · cases h
  · rintro rfl
    rfl

/-! ## One entry -/

def knownKeys : List Text :=
  ["whitespace".toList, "strict_arguments".toList]

theorem mem_knownKeys_iff {key : Text} :
    key ∈ knownKeys ↔ key = "whitespace".toList ∨ key = "strict_arguments".toList := by
  simp only [knownKeys, List.mem_cons, List.not_mem_nil, or_false]

/-- An entry has the form that its key asks for. -/
inductive EntryFits (e : Text × Value) : Prop
  | whitespace (hkey : e.1 = "whitespace".toList) {mode : WhitespaceMode} (h : mode.StatedBy e.2)
  | strictArguments (hkey : e.1 = "strict_arguments".toList) {b : Bool} (h : e.2 = .boolean b)
  | other (hkey : e.1 ∉ knownKeys)

theorem addEntry_whitespace (p : ParserSettings) (hkey : e.1 = "whitespace".toList) :
    p.addEntry e =
      (WhitespaceMode.fromToml e.2).map fun mode => { p with whitespace := some mode } := by
  rw [addEntry, if_pos hkey]
  cases WhitespaceMode.fromToml e.2 <;> rfl

theorem addEntry_strictArguments (p : ParserSettings) (hkey : e.1 = "strict_arguments".toList) :
    p.addEntry e = (strictFromToml e.2).map fun b => { p with strictArguments := some b } := by
  have hne : e.1 ≠ "whitespace".toList := by
    rw [hkey]
    decide
  rw [addEntry, if_neg hne, if_pos hkey]
  cases strictFromToml e.2 <;> rfl

theorem addEntry_of_notMem (p : ParserSettings) (hkey : e.1 ∉ knownKeys) :
    p.addEntry e = .ok p := by
  rw [mem_knownKeys_iff, not_or] at hkey
  rw [addEntry, if_neg hkey.1, if_neg hkey.2]
  rfl

/-- What has been read before an entry does not matter for its error. -/
theorem addEntry_eq_error {m : SettingsMismatch} (h : p.addEntry e = .error m)
    (q : ParserSettings) : q.addEntry e = .error m := by
  by_cases hknown : e.1 ∈ knownKeys
  · rcases mem_knownKeys_iff.mp hknown with hkey | hkey
    · rw [addEntry_whitespace _ hkey, FromToml.map_eq_error_iff] at h ⊢
      exact h
    · rw [addEntry_strictArguments _ hkey, FromToml.map_eq_error_iff] at h ⊢
      exact h
  · rw [addEntry_of_notMem p hknown] at h
    cases h

theorem exists_addEntry_iff (p : ParserSettings) (h : e.2.WellKeyed) :
    (∃ q, p.addEntry e = .ok q) ↔ EntryFits e := by
  constructor
  · rintro ⟨q, hq⟩
    by_cases hknown : e.1 ∈ knownKeys
    · rcases mem_knownKeys_iff.mp hknown with hkey | hkey
      · rw [addEntry_whitespace _ hkey] at hq
        obtain ⟨mode, hmode, -⟩ := FromToml.map_eq_ok_iff.mp hq
        exact .whitespace hkey ((WhitespaceMode.fromToml_eq_ok_iff h).mp hmode)
      · rw [addEntry_strictArguments _ hkey] at hq
        obtain ⟨b, hb, -⟩ := FromToml.map_eq_ok_iff.mp hq
        exact .strictArguments hkey (strictFromToml_eq_ok_iff.mp hb)
    · exact .other hknown
  · intro hfits
    cases hfits with
    | whitespace hkey hmode =>
      rw [addEntry_whitespace _ hkey, (WhitespaceMode.fromToml_eq_ok_iff h).mpr hmode]
      exact ⟨_, rfl⟩
    | strictArguments hkey hb =>
      rw [addEntry_strictArguments _ hkey, strictFromToml_eq_ok_iff.mpr hb]
      exact ⟨_, rfl⟩
    | other hkey => exact ⟨p, addEntry_of_notMem p hkey⟩

/-! ## Entries of a table -/

/-- The settings have what entries say under the two keys, and nothing where they say nothing. -/
structure StatedBy (p : ParserSettings) (entries : List (Text × Value)) : Prop where
  whitespace : Option.Rel WhitespaceMode.StatedBy p.whitespace
    (entries.lookup "whitespace".toList)
  strictArguments : Option.Rel (fun b v => v = .boolean b) p.strictArguments
    (entries.lookup "strict_arguments".toList)

theorem lookup_append_of_ne (entries : List (Text × Value)) {key : Text} (h : key ≠ e.1) :
    (entries ++ [e]).lookup key = entries.lookup key := by
  have hlast : [e].lookup key = none := by
    apply List.lookup_eq_none_iff.mpr
    simpa using h
  rw [List.lookup_append, hlast, Option.or_none]

theorem lookup_append_self {key : Text} (h : key = e.1) (hnew : e.1 ∉ entries.map Prod.fst) :
    entries.lookup key = none ∧ (entries ++ [e]).lookup key = some e.2 := by
  subst h
  have hfront : entries.lookup e.1 = none :=
    Table.find?_eq_none_iff (t := ⟨.inline, entries⟩).mpr hnew
  refine ⟨hfront, ?_⟩
  rw [List.lookup_append, hfront, Option.none_or, List.lookup_cons_self]

theorem statedBy_append_whitespace (hkey : e.1 = "whitespace".toList)
    (hnew : e.1 ∉ entries.map Prod.fst) (hv : e.2.WellKeyed) :
    p.StatedBy (entries ++ [e]) ↔
      ∃ q : ParserSettings, q.StatedBy entries ∧ q.addEntry e = .ok p := by
  have hother : "strict_arguments".toList ≠ e.1 := by
    rw [hkey]
    decide
  have hstrict := lookup_append_of_ne entries hother
  -- the key is new: the entries before say nothing under it
  obtain ⟨hnone, hsome⟩ := lookup_append_self hkey.symm hnew
  constructor
  · obtain ⟨whitespace, strict⟩ := p
    rintro ⟨hw, hs⟩
    rw [hsome] at hw
    rw [hstrict] at hs
    cases hw with
    | some hmode =>
      refine ⟨⟨none, strict⟩, ⟨by rw [hnone]; exact .none, hs⟩, ?_⟩
      rw [addEntry_whitespace _ hkey, (WhitespaceMode.fromToml_eq_ok_iff hv).mpr hmode]
      rfl
  · rintro ⟨q, ⟨-, hs⟩, hq⟩
    rw [addEntry_whitespace _ hkey] at hq
    obtain ⟨mode, hmode, rfl⟩ := FromToml.map_eq_ok_iff.mp hq
    refine ⟨?_, by rwa [hstrict]⟩
    rw [hsome]
    exact .some ((WhitespaceMode.fromToml_eq_ok_iff hv).mp hmode)

theorem statedBy_append_strictArguments (hkey : e.1 = "strict_arguments".toList)
    (hnew : e.1 ∉ entries.map Prod.fst) :
    p.StatedBy (entries ++ [e]) ↔
      ∃ q : ParserSettings, q.StatedBy entries ∧ q.addEntry e = .ok p := by
  have hother : "whitespace".toList ≠ e.1 := by
    rw [hkey]
    decide
  have hwhitespace := lookup_append_of_ne entries hother
  obtain ⟨hnone, hsome⟩ := lookup_append_self hkey.symm hnew
  constructor
  · obtain ⟨whitespace, strict⟩ := p
    rintro ⟨hw, hs⟩
    rw [hwhitespace] at hw
    rw [hsome] at hs
    cases hs with
    | some hb =>
      refine ⟨⟨whitespace, none⟩, ⟨hw, by rw [hnone]; exact .none⟩, ?_⟩
      rw [addEntry_strictArguments _ hkey, strictFromToml_eq_ok_iff.mpr hb]
      rfl
  · rintro ⟨q, ⟨hw, -⟩, hq⟩
    rw [addEntry_strictArguments _ hkey] at hq
    obtain ⟨b, hb, rfl⟩ := FromToml.map_eq_ok_iff.mp hq
    refine ⟨by rwa [hwhitespace], ?_⟩
    rw [hsome]
    exact .some (strictFromToml_eq_ok_iff.mp hb)

theorem statedBy_append_of_notMem (hkey : e.1 ∉ knownKeys) :
    p.StatedBy (entries ++ [e]) ↔ p.StatedBy entries := by
  rw [mem_knownKeys_iff, not_or] at hkey
  have hwhitespace := lookup_append_of_ne entries (Ne.symm hkey.1)
  have hstrict := lookup_append_of_ne entries (Ne.symm hkey.2)
  constructor
  · rintro ⟨hw, hs⟩
    rw [hwhitespace] at hw
    rw [hstrict] at hs
    exact ⟨hw, hs⟩
  · rintro ⟨hw, hs⟩
    exact ⟨by rwa [hwhitespace], by rwa [hstrict]⟩

/-- The last entry of a table states its own setting, the entries before it the other one. -/
theorem statedBy_append_iff (hnew : e.1 ∉ entries.map Prod.fst) (hv : e.2.WellKeyed) :
    p.StatedBy (entries ++ [e]) ↔
      ∃ q : ParserSettings, q.StatedBy entries ∧ q.addEntry e = .ok p := by
  by_cases hknown : e.1 ∈ knownKeys
  · rcases mem_knownKeys_iff.mp hknown with hkey | hkey
    · exact statedBy_append_whitespace hkey hnew hv
    · exact statedBy_append_strictArguments hkey hnew
  · rw [statedBy_append_of_notMem hknown]
    constructor
    · intro h
      exact ⟨p, h, addEntry_of_notMem p hknown⟩
    · rintro ⟨q, h, hq⟩
      rw [addEntry_of_notMem q hknown] at hq
      rwa [← Except.ok.inj hq]

theorem ofEntries_append (entries : List (Text × Value)) (e : Text × Value) :
    ofEntries (entries ++ [e]) = ofEntries entries >>= fun p => p.addEntry e := by
  rw [ofEntries, List.foldlM_append]
  simp only [List.foldlM_cons, List.foldlM_nil, bind_pure]
  rfl

/-- Reading the entries of a table gives the settings that they state, and no others. -/
theorem ofEntries_eq_ok_iff (hkeys : (entries.map Prod.fst).Nodup)
    (hvalues : ∀ e ∈ entries, e.2.WellKeyed) : ofEntries entries = .ok p ↔ p.StatedBy entries := by
  -- entry by entry from the front, as they are read
  induction entries using List.reverseRecOn generalizing p with
  | nil =>
    obtain ⟨whitespace, strict⟩ := p
    constructor
    · intro h
      cases Except.ok.inj h
      exact ⟨.none, .none⟩
    · rintro ⟨hw, hs⟩
      cases hw
      cases hs
      rfl
  | append_singleton entries e ih =>
    rw [List.map_append, List.map_singleton, List.nodup_append] at hkeys
    obtain ⟨hkeys, -, hnew⟩ := hkeys
    have he : e.1 ∉ entries.map Prod.fst := fun hmem => hnew _ hmem _ (by simp) rfl
    have hfront : ∀ e' ∈ entries, e'.2.WellKeyed := fun e' he' => hvalues e' (by simp [he'])
    have hv : e.2.WellKeyed := hvalues e (by simp)
    rw [ofEntries_append, FromToml.bind_eq_ok_iff, statedBy_append_iff he hv]
    simp only [ih hkeys hfront]

/-! ## The first wrong entry -/

theorem exists_foldlM_addEntry (p : ParserSettings) (hvalues : ∀ e ∈ entries, e.2.WellKeyed)
    (hfits : ∀ e ∈ entries, EntryFits e) : ∃ q, entries.foldlM addEntry p = .ok q := by
  induction entries generalizing p with
  | nil => exact ⟨p, rfl⟩
  | cons e entries ih =>
    obtain ⟨hv, hvalues⟩ := List.forall_mem_cons.mp hvalues
    obtain ⟨he, hfits⟩ := List.forall_mem_cons.mp hfits
    obtain ⟨p', hp'⟩ := (exists_addEntry_iff p hv).mpr he
    obtain ⟨q, hq⟩ := ih p' hvalues hfits
    exact ⟨q, FromToml.bind_eq_ok_iff.mpr ⟨p', hp', hq⟩⟩

/-- The error is the one of the first entry that does not fit, as if it stood alone. -/
theorem ofEntries_eq_error (hvalues : ∀ e' ∈ front ++ e :: back, e'.2.WellKeyed)
    (hfront : ∀ e' ∈ front, EntryFits e') (he : ¬ EntryFits e) :
    ∃ m, ofEntries [e] = .error m ∧ ofEntries (front ++ e :: back) = .error m := by
  have hv : e.2.WellKeyed := hvalues e (by simp)
  obtain ⟨q, hq⟩ := exists_foldlM_addEntry {} (fun e' he' => hvalues e' (by simp [he'])) hfront
  cases hread : q.addEntry e with
  | ok q' => exact absurd ((exists_addEntry_iff q hv).mp ⟨q', hread⟩) he
  | error m =>
    refine ⟨m, ?_, ?_⟩
    · rw [ofEntries, List.foldlM_cons, addEntry_eq_error hread {}]
      rfl
    · rw [ofEntries, List.foldlM_append, hq]
      change (e :: back).foldlM addEntry q = _
      rw [List.foldlM_cons, hread]
      rfl

/-! ## The section in any form -/

/-- The entries of a value as the parser section. Those of an array are its first two elements, as
the mode and the strictness; nothing else is a section. -/
def sectionEntries? : Value → Option (List (Text × Value))
  | .table t => some t.entries
  | .array (whitespace :: strict :: _) =>
      some [("whitespace".toList, whitespace), ("strict_arguments".toList, strict)]
  | .tables (whitespace :: strict :: _) =>
      some [("whitespace".toList, .table whitespace), ("strict_arguments".toList, .table strict)]
  | _ => none

theorem sectionEntries?_tables (ts : List Table) :
    sectionEntries? (.tables ts) = sectionEntries? (.array (ts.map .table)) := by
  cases ts with
  | nil => rfl
  | cons t ts => cases ts <;> rfl

theorem ofElements_pair (whitespace strict : Value) (rest : List Value) :
    ofElements (whitespace :: strict :: rest) =
      ofEntries [("whitespace".toList, whitespace), ("strict_arguments".toList, strict)] := by
  simp only [ofElements, ofEntries, List.foldlM_cons, List.foldlM_nil, bind_pure]
  rw [addEntry_whitespace {} rfl]
  cases WhitespaceMode.fromToml whitespace with
  | error m => rfl
  | ok mode =>
    change _ = addEntry { whitespace := some mode } ("strict_arguments".toList, strict)
    rw [addEntry_strictArguments _ rfl]
    cases strictFromToml strict with
    | error m => rfl
    | ok b => rfl

theorem fromToml_of_sectionEntries? {v : Value} (h : sectionEntries? v = some entries) :
    fromToml v = ofEntries entries := by
  unfold sectionEntries? at h
  split at h
  · rw [← Option.some.inj h]
    rfl
  · next w b rest =>
    rw [← Option.some.inj h]
    exact ofElements_pair w b rest
  · next w b rest =>
    rw [← Option.some.inj h]
    exact ofElements_pair (.table w) (.table b) (rest.map .table)
  · cases h

/-- No value but a date or time is accepted as a section without being one. -/
theorem fromToml_eq_error {v : Value} (h : sectionEntries? v = none) (hv : v ≠ .datetime) :
    ∃ m, fromToml v = .error m := by
  have hone : ∀ w, ∃ m, ofElements [w] = .error m := by
    intro w
    cases hw : WhitespaceMode.fromToml w with
    | error m => exact ⟨m, by rw [ofElements, hw]; rfl⟩
    | ok mode => exact ⟨_, by rw [ofElements, hw]; rfl⟩
  match v with
  | .string _ => exact ⟨_, rfl⟩
  | .integer _ => exact ⟨_, rfl⟩
  | .float _ => exact ⟨_, rfl⟩
  | .boolean _ => exact ⟨_, rfl⟩
  | .datetime => exact absurd rfl hv
  | .array [] => exact ⟨_, rfl⟩
  | .array [w] => exact hone w
  | .tables [] => exact ⟨_, rfl⟩
  | .tables [t] => exact hone (.table t)

theorem wellKeyed_sectionEntries? {v : Value} (h : v.WellKeyed)
    (hentries : sectionEntries? v = some entries) :
    (entries.map Prod.fst).Nodup ∧ ∀ e ∈ entries, e.2.WellKeyed := by
  have hpair : ∀ whitespace strict : Value,
      ([("whitespace".toList, whitespace), ("strict_arguments".toList, strict)].map
        Prod.fst).Nodup := by
    intro _ _
    simp only [List.map_cons, List.map_nil]
    decide
  unfold sectionEntries? at hentries
  split at hentries
  · rw [← Option.some.inj hentries]
    have ht := Table.wellKeyed_table_iff.mp h
    exact ⟨ht.nodup_keys, ht.wellKeyed_value⟩
  · next w b rest =>
    rw [← Option.some.inj hentries]
    cases h with
    | scalar hv => cases hv
    | array helements => exact ⟨hpair w b, by simp [helements w, helements b]⟩
  · next w b rest =>
    rw [← Option.some.inj hentries]
    cases h with
    | scalar hv => cases hv
    | tables hne htables =>
      exact ⟨hpair (.table w) (.table b), by simp [htables w, htables b]⟩
  · cases hentries

/-- A value other than a date or time is accepted exactly if it is a section whose entries state
settings, which are then what it gives. -/
theorem fromToml_eq_ok_iff {v : Value} (h : v.WellKeyed) (hv : v ≠ .datetime) :
    fromToml v = .ok p ↔ ∃ entries, sectionEntries? v = some entries ∧ p.StatedBy entries := by
  cases hentries : sectionEntries? v with
  | none =>
    obtain ⟨m, hm⟩ := fromToml_eq_error hentries hv
    simp [hm]
  | some entries =>
    obtain ⟨hkeys, hvalues⟩ := wellKeyed_sectionEntries? h hentries
    rw [fromToml_of_sectionEntries? hentries, ofEntries_eq_ok_iff hkeys hvalues]
    simp

end ParserSettings

end SignatureLine
