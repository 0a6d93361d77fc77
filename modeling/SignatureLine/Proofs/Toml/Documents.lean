import SignatureLine.Proofs.Toml.Keys
import SignatureLine.Toml.Document

/-!
# Values of a document

Whatever a reader of values gives is well-keyed, and so the root table of a document is, with all
tables in it.
-/

namespace SignatureLine.Toml

/-! ## What readers give -/

namespace Reader

variable {α β : Type} {P : α → Prop} {Q : β → Prop} {r r' : Reader α}

/-- Whatever the reader gives satisfies `P`. -/
def Gives (r : Reader α) (P : α → Prop) : Prop :=
  ∀ s a rest, r s = some (a, rest) → P a

theorem gives_pure {a : α} (h : P a) : (pure a : Reader α).Gives P := by
  intro s b rest hr
  obtain ⟨rfl, -⟩ := Prod.mk.inj (Option.some.inj hr)
  exact h

theorem gives_failure : (failure : Reader α).Gives P := by
  intro s a rest hr
  cases hr

theorem gives_liftM {o : Option α} (h : ∀ a, o = some a → P a) : (liftM o : Reader α).Gives P := by
  intro s a rest hr
  obtain ⟨b, hb, hpure⟩ := Option.bind_eq_some_iff.mp hr
  obtain ⟨rfl, -⟩ := Prod.mk.inj (Option.some.inj hpure)
  exact h b hb

theorem Gives.bind {r : Reader β} {f : β → Reader α} (hr : r.Gives Q)
    (hf : ∀ b, Q b → (f b).Gives P) : (r >>= f).Gives P := by
  intro s a rest h
  obtain ⟨⟨b, s'⟩, hb, hrest⟩ := Option.bind_eq_some_iff.mp h
  exact hf b (hr s b s' hb) s' a rest hrest

-- What is read first need not matter.
theorem gives_bind {r : Reader β} {f : β → Reader α} (hf : ∀ b, (f b).Gives P) :
    (r >>= f).Gives P := by
  have hr : r.Gives fun _ => True := fun _ _ _ _ => trivial
  exact hr.bind fun b _ => hf b

theorem Gives.orElse (h : r.Gives P) (h' : r'.Gives P) : (r <|> r').Gives P := by
  intro s a rest hr
  have hcases : (r s).orElse (fun _ => r' s) = some (a, rest) := hr
  cases hs : r s with
  | none =>
    rw [hs] at hcases
    exact h' s a rest hcases
  | some result =>
    rw [hs] at hcases
    exact h s a rest (hs.trans hcases)

theorem Gives.ite {c : Prop} [Decidable c] (h : r.Gives P) (h' : r'.Gives P) :
    (if c then r else r').Gives P := by
  split
  · exact h
  · exact h'

theorem gives_repeating {r : Nat → Reader α} (h : ∀ n, (r n).Gives P) : (repeating r).Gives P :=
  fun s => h (s.length + 1) s

end Reader

open Reader

/-! ## Values -/

theorem gives_scalar : scalar.Gives Value.WellKeyed := by
  unfold scalar
  apply gives_bind
  intro next
  have hstring : (do return .string (← anyString) : Reader Value).Gives Value.WellKeyed :=
    gives_bind fun _ => gives_pure (.scalar rfl)
  split
  · exact hstring
  · exact hstring
  · exact gives_bind fun _ => gives_pure (.scalar rfl)
  · exact gives_bind fun _ => gives_pure (.scalar rfl)
  · apply Gives.orElse
    · exact gives_bind fun _ => gives_pure (.scalar rfl)
    · apply Gives.orElse
      · exact gives_bind fun _ => gives_pure (.scalar rfl)
      · exact gives_bind fun _ => gives_pure (.scalar rfl)

section Containers

variable {value : Reader Value}

theorem gives_elements (h : value.Gives Value.WellKeyed) (n : Nat) :
    (elements value n).Gives fun vs => ∀ v ∈ vs, v.WellKeyed := by
  induction n with
  | zero => exact gives_failure
  | succ n ih =>
    unfold elements
    refine gives_bind fun _ => gives_bind fun _ => Gives.ite (gives_pure nofun) ?_
    refine h.bind fun v hv => gives_bind fun _ => gives_bind fun _ => Gives.ite ?_ ?_
    · exact ih.bind fun vs hvs => gives_pure (List.forall_mem_cons.mpr ⟨hv, hvs⟩)
    · exact gives_bind fun _ => gives_pure (List.forall_mem_singleton.mpr hv)

theorem gives_bracedEntries (h : value.Gives Value.WellKeyed) (n : Nat) :
    (bracedEntries value n).Gives fun es => ∀ e ∈ es, e.value.WellKeyed := by
  induction n with
  | zero => exact gives_failure
  | succ n ih =>
    unfold bracedEntries
    refine gives_bind fun path => gives_bind fun _ => gives_bind fun _ => ?_
    refine h.bind fun v hv => gives_bind fun _ => gives_bind fun _ => Gives.ite ?_ ?_
    · exact ih.bind fun es hes => gives_pure (List.forall_mem_cons.mpr ⟨hv, hes⟩)
    · exact gives_bind fun _ => gives_pure (List.forall_mem_singleton.mpr hv)

theorem gives_bracedTable (h : value.Gives Value.WellKeyed) :
    (bracedTable value).Gives Table.WellKeyed := by
  have hadd : ∀ es : List Entry, (∀ e ∈ es, e.value.WellKeyed) →
      (liftM ((Table.empty .inline).addEntries es) : Reader Table).Gives Table.WellKeyed := by
    intro es hes
    exact gives_liftM fun t => Table.wellKeyed_addEntries (Table.wellKeyed_empty _) hes
  unfold bracedTable
  refine gives_bind fun _ => gives_bind fun _ => gives_bind fun _ => Gives.ite ?_ ?_
  · exact (gives_pure (P := fun es => ∀ e ∈ es, e.value.WellKeyed) nofun).bind hadd
  · exact (gives_repeating (gives_bracedEntries h)).bind hadd

end Containers

theorem gives_value (depth : Nat) : (value depth).Gives Value.WellKeyed := by
  induction depth with
  | zero => exact gives_scalar
  | succ depth ih =>
    unfold value
    apply gives_bind
    intro next
    split
    · exact gives_bind fun _ =>
        (gives_repeating (gives_elements ih)).bind fun vs hvs => gives_pure (.array hvs)
    · exact (gives_bracedTable ih).bind fun t ht => gives_pure (Table.wellKeyed_table_iff.mpr ht)
    · exact gives_scalar

/-! ## Lines -/

/-- The value that a line gives to a key, if it does, is well-keyed. -/
def Line.WellKeyed : Line → Prop
  | .entry e => e.value.WellKeyed
  | _ => True

theorem gives_header : header.Gives Line.WellKeyed := by
  have hend : ∀ kind path, (do accept ']'; return .header kind path : Reader Line).Gives
      Line.WellKeyed :=
    fun kind path => gives_bind fun _ => gives_pure (P := Line.WellKeyed) trivial
  unfold header
  refine gives_bind fun _ => gives_bind fun _ => gives_bind fun path => ?_
  exact Gives.ite (gives_bind fun _ => hend _ path) (hend _ path)

theorem gives_keyValue : keyValue.Gives Line.WellKeyed := by
  unfold keyValue
  refine gives_bind fun path => gives_bind fun _ => gives_bind fun _ => ?_
  exact (gives_value _).bind fun v hv => gives_pure hv

theorem gives_line : line.Gives Line.WellKeyed := by
  have hend : ∀ content : Line, content.WellKeyed →
      (do lineEnd; return content : Reader Line).Gives Line.WellKeyed :=
    fun content h => gives_bind fun _ => gives_pure h
  have hblank : (pure .blank : Reader Line).Gives Line.WellKeyed := gives_pure trivial
  unfold line
  refine gives_bind fun _ => gives_bind fun next => ?_
  dsimp only
  split
  · exact hblank.bind hend
  · exact hblank.bind hend
  · exact hblank.bind hend
  · exact hblank.bind hend
  · exact gives_header.bind hend
  · exact gives_keyValue.bind hend

theorem gives_lines (n : Nat) : (lines n).Gives fun ls => ∀ l ∈ ls, l.WellKeyed := by
  induction n with
  | zero => exact gives_failure
  | succ n ih =>
    unfold lines
    refine gives_bind fun _ => Gives.ite (gives_pure nofun) ?_
    exact gives_line.bind fun l hl => ih.bind fun ls hls =>
      gives_pure (List.forall_mem_cons.mpr ⟨hl, hls⟩)

theorem wellKeyed_sections {ls : List Line} (h : ∀ l ∈ ls, l.WellKeyed) :
    (∀ e ∈ (sections ls).1, e.value.WellKeyed) ∧
      ∀ s ∈ (sections ls).2, ∀ e ∈ s.entries, e.value.WellKeyed := by
  induction ls with
  | nil => exact ⟨nofun, nofun⟩
  | cons l ls ih =>
    obtain ⟨hl, hls⟩ := List.forall_mem_cons.mp h
    obtain ⟨hentries, hlater⟩ := ih hls
    cases l with
    | blank => exact ⟨hentries, hlater⟩
    | entry e => exact ⟨List.forall_mem_cons.mpr ⟨hl, hentries⟩, hlater⟩
    | header kind path => exact ⟨nofun, List.forall_mem_cons.mpr ⟨hentries, hlater⟩⟩

/-! ## Documents -/

theorem Table.wellKeyed_ofLines? {ls : List Line} {root : Table} (h : ∀ l ∈ ls, l.WellKeyed)
    (hroot : ofLines? ls = some root) : root.WellKeyed := by
  obtain ⟨hentries, hlater⟩ := wellKeyed_sections h
  obtain ⟨top, htop, hroot⟩ := Option.bind_eq_some_iff.mp hroot
  exact wellKeyed_addSections (wellKeyed_addEntries (wellKeyed_empty _) hentries htop) hlater hroot

/-- The root table of a document names its keys once, and so do all tables in it. -/
theorem Table.wellKeyed_ofText? {s : Text} {root : Table} (h : ofText? s = some root) :
    root.WellKeyed := by
  obtain ⟨⟨ls, rest⟩, hlines, hroot⟩ := Option.bind_eq_some_iff.mp h
  exact wellKeyed_ofLines? (gives_repeating gives_lines _ ls rest hlines) hroot

end SignatureLine.Toml
