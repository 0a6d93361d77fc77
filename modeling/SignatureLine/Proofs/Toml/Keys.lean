import Mathlib.Data.List.Nodup
import Mathlib.Data.Option.Basic
import SignatureLine.Toml.Table

/-!
# Keys of tables

The tables that the keys and headers of a document build name each of their keys once, at every
depth, and no array of tables is without tables.  Each way of adding to a table keeps this.
-/

namespace SignatureLine.Toml

namespace Value

def isScalar : Value → Bool
  | .array _ => false
  | .table _ => false
  | .tables _ => false
  | _ => true

/-- Each table in the value names its keys once, and each array of tables has a table. -/
inductive WellKeyed : Value → Prop
  | scalar {v : Value} (hv : v.isScalar = true) : WellKeyed v
  | array {elements : List Value} (helements : ∀ v ∈ elements, WellKeyed v) :
      WellKeyed (.array elements)
  | table {t : Table} (hkeys : (t.entries.map Prod.fst).Nodup)
      (hvalues : ∀ e ∈ t.entries, WellKeyed e.2) : WellKeyed (.table t)
  | tables {ts : List Table} (hne : ts ≠ []) (htables : ∀ t ∈ ts, WellKeyed (.table t)) :
      WellKeyed (.tables ts)

end Value

namespace Table

variable {t t' : Table} {key : Text} {v : Value}

def keys (t : Table) : List Text :=
  t.entries.map Prod.fst

structure WellKeyed (t : Table) : Prop where
  nodup_keys : t.keys.Nodup
  wellKeyed_value : ∀ e ∈ t.entries, e.2.WellKeyed

theorem wellKeyed_table_iff : (Value.table t).WellKeyed ↔ t.WellKeyed := by
  constructor
  · intro h
    cases h with
    | scalar hv => cases hv
    | table hkeys hvalues => exact ⟨hkeys, hvalues⟩
  · intro h
    exact .table h.nodup_keys h.wellKeyed_value

theorem wellKeyed_tables_iff {ts : List Table} :
    (Value.tables ts).WellKeyed ↔ ts ≠ [] ∧ ∀ t ∈ ts, t.WellKeyed := by
  constructor
  · intro h
    cases h with
    | scalar hv => cases hv
    | tables hne htables => exact ⟨hne, fun t ht => wellKeyed_table_iff.mp (htables t ht)⟩
  · rintro ⟨hne, htables⟩
    exact .tables hne fun t ht => wellKeyed_table_iff.mpr (htables t ht)

/-! ## Entries by their keys -/

theorem find?_eq_none_iff : t.find? key = none ↔ key ∉ t.keys := by
  rw [find?, List.lookup_eq_none_iff, keys, List.mem_map]
  constructor
  · rintro h ⟨e, he, rfl⟩
    simpa using h e he
  · intro h e he
    simpa using fun heq : key = e.1 => h ⟨e, he, heq.symm⟩

theorem mem_of_find? (h : t.find? key = some v) : (key, v) ∈ t.entries := by
  obtain ⟨front, back, hentries, -⟩ := List.lookup_eq_some_iff.mp h
  rw [hentries]
  simp

theorem WellKeyed.find? (h : t.WellKeyed) (hv : t.find? key = some v) : v.WellKeyed :=
  h.wellKeyed_value _ (mem_of_find? hv)

/-! ## Adding, replacing, removing -/

@[simp]
theorem keys_append (t : Table) (key : Text) (v : Value) :
    (t.append key v).keys = t.keys ++ [key] := by
  simp [keys, append]

@[simp]
theorem keys_replace (t : Table) (key : Text) (v : Value) : (t.replace key v).keys = t.keys := by
  rw [keys, keys, replace, List.map_map]
  apply List.map_congr_left
  intro e _
  by_cases he : e.1 = key
  · simp [he]
  · simp [he]

theorem keys_erase (t : Table) (key : Text) : (t.erase key).keys = t.keys.filter (· != key) := by
  rw [keys, keys, erase, List.filter_map]
  rfl

theorem wellKeyed_empty (origin : Origin) : (empty origin).WellKeyed :=
  ⟨List.nodup_nil, nofun⟩

theorem WellKeyed.append (h : t.WellKeyed) (hkey : key ∉ t.keys) (hv : v.WellKeyed) :
    (t.append key v).WellKeyed where
  nodup_keys := by
    rw [keys_append]
    exact h.nodup_keys.append (List.nodup_singleton key) (by simpa using hkey)
  wellKeyed_value e he := by
    rcases List.mem_append.mp he with he | he
    · exact h.wellKeyed_value e he
    · rw [List.mem_singleton.mp he]
      exact hv

theorem WellKeyed.replace (h : t.WellKeyed) (hv : v.WellKeyed) : (t.replace key v).WellKeyed where
  nodup_keys := by
    rw [keys_replace]
    exact h.nodup_keys
  wellKeyed_value e he := by
    obtain ⟨old, hold, rfl⟩ := List.mem_map.mp he
    split
    · exact hv
    · exact h.wellKeyed_value old hold

theorem WellKeyed.erase (h : t.WellKeyed) : (t.erase key).WellKeyed where
  nodup_keys := by
    rw [keys_erase]
    exact h.nodup_keys.filter _
  wellKeyed_value e he := h.wellKeyed_value e (List.mem_filter.mp he).1

theorem not_mem_keys_erase (t : Table) (key : Text) : key ∉ (t.erase key).keys := by
  rw [keys_erase, List.mem_filter]
  simp

/-! ## Keys and headers -/

/-- A change of the table at the end of a path keeps the tables on the way well-keyed. -/
theorem wellKeyed_changeAt {dotted : Bool} {change : Table → Option Table}
    (hchange : ∀ u u' : Table, u.WellKeyed → change u = some u' → u'.WellKeyed) {path : List Text}
    (h : t.WellKeyed) (ht : t.changeAt dotted path change = some t') : t'.WellKeyed := by
  induction path generalizing t t' with
  | nil => exact hchange t t' h ht
  | cons key path ih =>
    rw [changeAt] at ht
    cases hfind : t.find? key with
    | none =>
      rw [hfind] at ht
      obtain ⟨child, hchild, hpure⟩ := Option.bind_eq_some_iff.mp ht
      rw [← Option.some.inj hpure]
      exact h.append (find?_eq_none_iff.mp hfind)
        (wellKeyed_table_iff.mpr (ih (wellKeyed_empty _) hchild))
    | some v =>
      rw [hfind] at ht
      have hv := h.find? hfind
      cases v with
      | table child =>
        obtain ⟨-, -, ht⟩ := Option.bind_eq_some_iff.mp ht
        obtain ⟨child', hchild, hpure⟩ := Option.bind_eq_some_iff.mp ht
        rw [← Option.some.inj hpure]
        exact h.replace (wellKeyed_table_iff.mpr (ih (wellKeyed_table_iff.mp hv) hchild))
      | tables ts =>
        obtain ⟨last, hlast, ht⟩ := Option.bind_eq_some_iff.mp ht
        obtain ⟨last', hchange', hpure⟩ := Option.bind_eq_some_iff.mp ht
        obtain ⟨-, htables⟩ := wellKeyed_tables_iff.mp hv
        rw [← Option.some.inj hpure]
        apply h.replace
        apply wellKeyed_tables_iff.mpr
        refine ⟨by simp, fun u hu => ?_⟩
        rcases List.mem_append.mp hu with hu | hu
        · exact htables u (List.dropLast_subset ts hu)
        · rw [List.mem_singleton.mp hu]
          exact ih (htables last (List.mem_of_getLast? hlast)) hchange'
      | _ => cases ht

theorem wellKeyed_addEntry {e : Entry} (h : t.WellKeyed) (he : e.value.WellKeyed)
    (ht : t.addEntry e = some t') : t'.WellKeyed := by
  refine wellKeyed_changeAt (fun u u' hu hu' => ?_) h ht
  obtain ⟨-, -, hu'⟩ := Option.bind_eq_some_iff.mp hu'
  obtain ⟨_, hguard, hpure⟩ := Option.bind_eq_some_iff.mp hu'
  have hnew : u.find? e.path.key = none := by
    cases hfind : u.find? e.path.key with
    | none => rfl
    | some v =>
      rw [hfind] at hguard
      cases hguard
  rw [← Option.some.inj hpure]
  exact hu.append (find?_eq_none_iff.mp hnew) he

-- Steps that keep a table well-keyed do so one after the other.
theorem wellKeyed_foldlM {α : Type} {add : Table → α → Option Table} {l : List α}
    (hadd : ∀ a ∈ l, ∀ u u' : Table, u.WellKeyed → add u a = some u' → u'.WellKeyed)
    (h : t.WellKeyed) (ht : l.foldlM add t = some t') : t'.WellKeyed := by
  induction l generalizing t with
  | nil =>
    rw [← Option.some.inj ht]
    exact h
  | cons a l ih =>
    obtain ⟨u, hu, ht⟩ := Option.bind_eq_some_iff.mp ht
    obtain ⟨ha, hl⟩ := List.forall_mem_cons.mp hadd
    exact ih hl (ha t u h hu) ht

theorem wellKeyed_addEntries {es : List Entry} (h : t.WellKeyed)
    (hes : ∀ e ∈ es, e.value.WellKeyed) (ht : t.addEntries es = some t') : t'.WellKeyed :=
  wellKeyed_foldlM (fun e he _ _ hu hu' => wellKeyed_addEntry hu (hes e he) hu') h ht

theorem wellKeyed_openable? {opened : Table} (h : t.WellKeyed)
    (hopened : t.openable? key = some opened) : opened.WellKeyed := by
  rw [openable?] at hopened
  split at hopened
  · rw [← Option.some.inj hopened]
    exact wellKeyed_empty _
  · next entries hfind =>
    rw [← Option.some.inj hopened]
    -- only the origin of the table changes
    have hchild := wellKeyed_table_iff.mp (h.find? hfind)
    exact ⟨hchild.nodup_keys, hchild.wellKeyed_value⟩
  · cases hopened

theorem wellKeyed_addSection {s : Section} (h : t.WellKeyed)
    (hs : ∀ e ∈ s.entries, e.value.WellKeyed) (ht : t.addSection s = some t') : t'.WellKeyed := by
  refine wellKeyed_changeAt (fun u u' hu hu' => ?_) h ht
  dsimp only at hu'
  split at hu'
  · obtain ⟨opened, hopened, hu'⟩ := Option.bind_eq_some_iff.mp hu'
    obtain ⟨new, hnew, hpure⟩ := Option.bind_eq_some_iff.mp hu'
    have hwell := wellKeyed_addEntries (wellKeyed_openable? hu hopened) hs hnew
    rw [← Option.some.inj hpure]
    exact hu.erase.append (not_mem_keys_erase _ _) (wellKeyed_table_iff.mpr hwell)
  · obtain ⟨new, hnew, hu'⟩ := Option.bind_eq_some_iff.mp hu'
    have hwell := wellKeyed_addEntries (wellKeyed_empty _) hs hnew
    split at hu'
    · next hfind =>
      rw [← Option.some.inj hu']
      apply hu.append (find?_eq_none_iff.mp hfind)
      exact wellKeyed_tables_iff.mpr ⟨List.cons_ne_nil _ _, by simpa using hwell⟩
    · next ts hfind =>
      rw [← Option.some.inj hu']
      apply hu.replace
      obtain ⟨-, htables⟩ := wellKeyed_tables_iff.mp (hu.find? hfind)
      refine wellKeyed_tables_iff.mpr ⟨by simp, fun v hv => ?_⟩
      rcases List.mem_append.mp hv with hv | hv
      · exact htables v hv
      · rw [List.mem_singleton.mp hv]
        exact hwell
    · cases hu'

theorem wellKeyed_addSections {ss : List Section} (h : t.WellKeyed)
    (hss : ∀ s ∈ ss, ∀ e ∈ s.entries, e.value.WellKeyed) (ht : ss.foldlM addSection t = some t') :
    t'.WellKeyed :=
  wellKeyed_foldlM (fun s hs _ _ hu hu' => wellKeyed_addSection hu (hss s hs) hu') h ht

end Table

end SignatureLine.Toml
