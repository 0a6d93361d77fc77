import Mathlib.Data.List.Basic
import SignatureLine.Text.Bytes

/-!
# Byte positions and characters

The byte positions that are searched for lie between characters, so that cutting there is cutting
the list of characters.
-/

namespace SignatureLine.Text

theorem byteLength_append (s t : Text) : byteLength (s ++ t) = byteLength s + byteLength t := by
  induction s with
  | nil => simp [byteLength]
  | cons c s ih => simp only [List.cons_append, byteLength, ih]; omega

theorem takeBytes?_byteLength (s t : Text) : takeBytes? (byteLength s) (s ++ t) = some s := by
  induction s with
  | nil => cases t <;> rfl
  | cons c s ih =>
    have hpos := c.utf8Size_pos
    rw [List.cons_append, byteLength, takeBytes?, if_neg (by omega), if_neg (by omega),
      Nat.add_sub_cancel_left, ih]
    rfl

theorem dropBytes?_byteLength (s t : Text) : dropBytes? (byteLength s) (s ++ t) = some t := by
  induction s with
  | nil => cases t <;> rfl
  | cons c s ih =>
    have hpos := c.utf8Size_pos
    rw [List.cons_append, byteLength, dropBytes?, if_neg (by omega), if_neg (by omega),
      Nat.add_sub_cancel_left, ih]

-- A beginning that can be cut off is one of the list of characters.
theorem takeBytes?_eq_some_iff {n : Nat} {s t : Text} :
    takeBytes? n s = some t ↔ ∃ rest, s = t ++ rest ∧ n = byteLength t := by
  constructor
  · intro h
    induction s generalizing n t with
    | nil =>
      rw [takeBytes?] at h
      split at h
      · next hn => exact ⟨[], by simpa using h, by rw [hn, ← Option.some.inj h]; rfl⟩
      · cases h
    | cons c s ih =>
      rw [takeBytes?] at h
      split at h
      · next hn =>
        rw [← Option.some.inj h]
        exact ⟨c :: s, rfl, hn⟩
      · split at h
        · cases h
        · next hle =>
          obtain ⟨u, hu, rfl⟩ := Option.map_eq_some_iff.mp h
          obtain ⟨rest, rfl, hlength⟩ := ih hu
          exact ⟨rest, rfl, by rw [byteLength, ← hlength]; omega⟩
  · rintro ⟨rest, rfl, rfl⟩
    exact takeBytes?_byteLength t rest

theorem dropBytes?_eq_some_iff {n : Nat} {s t : Text} :
    dropBytes? n s = some t ↔ ∃ front, s = front ++ t ∧ n = byteLength front := by
  constructor
  · intro h
    induction s generalizing n with
    | nil =>
      rw [dropBytes?] at h
      split at h
      · next hn => exact ⟨[], by simpa using h, hn⟩
      · cases h
    | cons c s ih =>
      rw [dropBytes?] at h
      split at h
      · next hn => exact ⟨[], by simpa using h, hn⟩
      · split at h
        · cases h
        · next hle =>
          obtain ⟨front, rfl, hlength⟩ := ih h
          exact ⟨c :: front, rfl, by rw [byteLength, ← hlength]; omega⟩
  · rintro ⟨front, rfl, rfl⟩
    exact dropBytes?_byteLength front t

theorem sliceBytes?_eq_some_iff {start stop : Nat} {s t : Text} :
    sliceBytes? start stop s = some t ↔
      ∃ front rest, s = front ++ (t ++ rest) ∧ start = byteLength front ∧
        stop = byteLength (front ++ t) := by
  rw [sliceBytes?]
  constructor
  · intro h
    split at h
    · obtain ⟨u, hu, ht⟩ := Option.bind_eq_some_iff.mp h
      obtain ⟨rest, rfl, hstop⟩ := takeBytes?_eq_some_iff.mp hu
      obtain ⟨front, rfl, hstart⟩ := dropBytes?_eq_some_iff.mp ht
      exact ⟨front, rest, List.append_assoc _ _ _, hstart, hstop⟩
    · cases h
  · rintro ⟨front, rest, rfl, rfl, rfl⟩
    rw [if_pos (by rw [byteLength_append]; omega), ← List.append_assoc, takeBytes?_byteLength,
      Option.bind_some, dropBytes?_byteLength]

theorem bytePosition?_append_cons {ch : Char} {s : Text} (hs : ch ∉ s) (t : Text) :
    bytePosition? ch (s ++ ch :: t) = some (byteLength s) := by
  induction s with
  | nil => simp [bytePosition?, byteLength]
  | cons c s ih =>
    obtain ⟨hne, hs⟩ := List.ne_and_not_mem_of_not_mem_cons hs
    rw [List.cons_append, bytePosition?, if_neg (Ne.symm hne), ih hs]
    rfl

-- There is one first occurrence.
theorem append_cons_inj {ch : Char} {s s' t t' : Text} (hs : ch ∉ s) (hs' : ch ∉ s')
    (h : s ++ ch :: t = s' ++ ch :: t') : s = s' ∧ t = t' := by
  induction s generalizing s' with
  | nil =>
    cases s' with
    | nil => exact ⟨rfl, (List.cons.inj h).2⟩
    | cons c s' => exact absurd (List.cons.inj h).1 (List.ne_of_not_mem_cons hs')
  | cons c s ih =>
    cases s' with
    | nil => exact absurd (List.cons.inj h).1.symm (List.ne_of_not_mem_cons hs)
    | cons c' s' =>
      obtain ⟨rfl, hrest⟩ := List.cons.inj h
      obtain ⟨rfl, rfl⟩ :=
        ih (List.not_mem_of_not_mem_cons hs) (List.not_mem_of_not_mem_cons hs') hrest
      exact ⟨rfl, rfl⟩

theorem bytePosition?_eq_none_iff {ch : Char} {s : Text} :
    bytePosition? ch s = none ↔ ch ∉ s := by
  constructor
  · intro h hmem
    obtain ⟨before, after, rfl, hbefore⟩ := List.eq_append_cons_of_mem hmem
    rw [bytePosition?_append_cons hbefore] at h
    exact absurd h (Option.some_ne_none _)
  · intro h
    induction s with
    | nil => rfl
    | cons c s ih =>
      obtain ⟨hne, hs⟩ := List.ne_and_not_mem_of_not_mem_cons h
      rw [bytePosition?, if_neg (Ne.symm hne), ih hs]
      rfl

theorem bytePosition?_eq_some_iff {ch : Char} {s : Text} {n : Nat} :
    bytePosition? ch s = some n ↔
      ∃ before after, s = before ++ ch :: after ∧ ch ∉ before ∧ n = byteLength before := by
  constructor
  · intro h
    have hmem : ch ∈ s := by
      by_contra hnot
      rw [bytePosition?_eq_none_iff.mpr hnot] at h
      cases h
    obtain ⟨before, after, rfl, hbefore⟩ := List.eq_append_cons_of_mem hmem
    rw [bytePosition?_append_cons hbefore] at h
    exact ⟨before, after, rfl, hbefore, (Option.some.inj h).symm⟩
  · rintro ⟨before, after, rfl, hbefore, rfl⟩
    exact bytePosition?_append_cons hbefore after

end SignatureLine.Text
