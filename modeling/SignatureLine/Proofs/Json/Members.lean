import Mathlib.Data.List.Forall2
import SignatureLine.Proofs.Json.Reading

/-!
# Fields among members

A record is read from the members of an object one by one, into a draft.  Each field of the draft
is either settled, and no further member has its name, or still to come.  So the order of the
members does not matter, nor do members of other names.
-/

namespace SignatureLine.Json.Fragment

variable {α : Type} {name : String} {decode : Fragment → Decoded α} {final field : Option α}
  {members : List (Option Text × Fragment)} {key : Text} {value : Fragment}

/-! ## One field of a draft -/

/-- What a field of a draft is before members after which it is `final`. -/
inductive Slot (name : String) (decode : Fragment → Decoded α) (final : Option α)
    (members : List (Option Text × Fragment)) : Option α → Prop
  | settled (h : members.filter (·.1 == some name.toList) = []) :
      Slot name decode final members final
  | pending {x : α} {value : Fragment} (hfinal : final = some x) (hvalue : decode value = .ok x)
      (h : members.filter (·.1 == some name.toList) = [(some name.toList, value)]) :
      Slot name decode final members none

theorem Slot.eq_final (h : Slot name decode final [] field) : field = final := by
  cases h with
  | settled => rfl
  | pending _ _ h => cases h

theorem Slot.skip (h : Slot name decode final ((some key, value) :: members) field)
    (hkey : key ≠ name.toList) : Slot name decode final members field := by
  have hfilter : ((some key, value) :: members).filter (·.1 == some name.toList) =
      members.filter (·.1 == some name.toList) := List.filter_cons_of_neg (by simpa using hkey)
  cases h with
  | settled h => exact .settled (hfilter ▸ h)
  | pending hfinal hvalue h => exact .pending hfinal hvalue (hfilter ▸ h)

theorem Slot.fill (h : Slot name decode final ((some name.toList, value) :: members) field) :
    ∃ x, fillField name field decode value = .ok x ∧ Slot name decode final members x := by
  cases h with
  | settled h => simp at h
  | pending hfinal hvalue h =>
    rw [List.filter_cons_of_pos (by simp)] at h
    obtain ⟨hhead, hrest⟩ := List.cons.inj h
    obtain ⟨-, rfl⟩ := Prod.mk.inj hhead
    refine ⟨final, ?_, .settled hrest⟩
    rw [fillField, hvalue, hfinal]
    rfl

/-! ## The fields of an object -/

/-- The members are the fields, each once and in any order, and others whose keys are none of the
names. -/
def HasFields (names : List Text) (fields : List (Text × Fragment))
    (members : List (Option Text × Fragment)) : Prop :=
  ∃ others, members.Perm (fields.map (fun field => (some field.1, field.2)) ++ others) ∧
    ∀ m ∈ others, ∃ key, m.1 = some key ∧ key ∉ names

variable {names : List Text} {fields : List (Text × Fragment)}

theorem HasFields.mem (h : HasFields names fields members) {known : Text}
    (hfield : (known, value) ∈ fields) : (some known, value) ∈ members := by
  obtain ⟨others, hperm, -⟩ := h
  exact hperm.mem_iff.mpr (List.mem_append_left _ (List.mem_map.mpr ⟨_, hfield, rfl⟩))

theorem HasFields.key_ne_none (h : HasFields names fields members) :
    ∀ m ∈ members, m.1 ≠ none := by
  obtain ⟨others, hperm, hothers⟩ := h
  intro m hm
  rcases List.mem_append.mp (hperm.mem_iff.mp hm) with hfield | hother
  · obtain ⟨field, -, rfl⟩ := List.mem_map.mp hfield
    exact Option.some_ne_none _
  · obtain ⟨key, hkey, -⟩ := hothers m hother
    rw [hkey]
    exact Option.some_ne_none _

-- The members of a known name are among the fields, whatever the order is.
theorem HasFields.filter_perm (h : HasFields names fields members) {known : Text}
    (hknown : known ∈ names) :
    (members.filter (·.1 == some known)).Perm
      ((fields.filter (·.1 == known)).map fun field => (some field.1, field.2)) := by
  obtain ⟨others, hperm, hothers⟩ := h
  have hnone : others.filter (·.1 == some known) = [] := by
    rw [List.filter_eq_nil_iff]
    intro m hm
    obtain ⟨key, hkey, hnot⟩ := hothers m hm
    have hne : key ≠ known := fun heq => hnot (heq ▸ hknown)
    simpa [hkey] using hne
  have hfilter := hperm.filter (·.1 == some known)
  rw [List.filter_append, hnone, List.append_nil, List.filter_map] at hfilter
  exact hfilter

theorem HasFields.slot (h : HasFields names fields members) (hname : name.toList ∈ names) {x : α}
    (hfield : fields.filter (·.1 == name.toList) = [(name.toList, value)])
    (hvalue : decode value = .ok x) : Slot name decode (some x) members none := by
  have hperm := h.filter_perm hname
  rw [hfield] at hperm
  exact .pending rfl hvalue (List.perm_singleton.mp hperm)

theorem HasFields.slot_of_missing (h : HasFields names fields members)
    (hname : name.toList ∈ names) (hfield : fields.filter (·.1 == name.toList) = []) :
    Slot name decode none members none := by
  have hperm := h.filter_perm hname
  rw [hfield] at hperm
  exact .settled (List.perm_nil.mp hperm)

/-! ## From member to member -/

/-- What holds of the draft and the members ahead at every step holds at the end, and then no
member was refused. -/
theorem addMembers_of_step {σ : Type} {add : σ → Text → Fragment → Decoded σ}
    {Inv : σ → List (Option Text × Fragment) → Prop}
    (hstep : ∀ draft key value members, value.isWhole = true →
      Inv draft ((some key, value) :: members) →
        ∃ next, add draft key value = .ok next ∧ Inv next members)
    (hkeys : ∀ m ∈ members, m.1 ≠ none) (hmembers : ∀ m ∈ members, m.2.Complete)
    {draft : σ} (h : Inv draft members) :
    ∃ last, addMembers add draft members = .ok last ∧ Inv last [] := by
  induction members generalizing draft with
  | nil => exact ⟨draft, rfl, h⟩
  | cons m members ih =>
    obtain ⟨hkey, hkeys'⟩ := List.forall_mem_cons.mp hkeys
    obtain ⟨hm, hmembers'⟩ := List.forall_mem_cons.mp hmembers
    obtain ⟨key, value⟩ := m
    obtain ⟨key, rfl⟩ := Option.ne_none_iff_exists'.mp hkey
    obtain ⟨next, hadd, hnext⟩ := hstep draft key value members hm.isWhole h
    obtain ⟨last, hlast, hinv⟩ := ih hkeys' hmembers' hnext
    refine ⟨last, ?_, hinv⟩
    rw [addMembers, hadd]
    exact hlast

theorem decodeArray_of_forall₂ {decode : Fragment → Decoded α} {xs : List α}
    {elements : List Fragment} (h : List.Forall₂ (fun x e => decode e = .ok x) xs elements) :
    (array elements true).decodeArray decode = .ok xs := by
  have hmap : elements.mapM decode = .ok xs := by
    induction h with
    | nil => rfl
    | cons hx h ih =>
      rw [List.mapM_cons, hx, ih]
      rfl
  rw [decodeArray, hmap]
  rfl

end SignatureLine.Json.Fragment
