import Mathlib.Data.List.Basic
import SignatureLine.Proofs.Text.BytePositions

/-!
# Texts as UTF-8

Positions in a text count the bytes of its UTF-8 form.  A text can be cut where a character begins
or the text ends and nowhere else, and what is cut out are the bytes between the two positions; the
position of a character is the first place where its bytes stand.
-/

namespace SignatureLine.Text

variable {n start stop : Nat} {s t : Text} {ch : Char}

theorem byteLength_eq_size (s : Text) : byteLength s = s.utf8Encode.size := by
  induction s with
  | nil => rfl
  | cons c s ih =>
    rw [byteLength, List.utf8Encode_cons, ByteArray.size_append, ← ih, List.utf8Encode_singleton,
      List.size_toByteArray, String.length_utf8EncodeChar]

/-! ## Boundaries -/

/-- Position `n` is the end of the text, or a first byte of a character stands there. -/
def IsBoundary (n : Nat) (s : Text) : Prop :=
  n = s.utf8Encode.size ∨ ∃ h : n < s.utf8Encode.size, (s.utf8Encode[n]).IsUTF8FirstByte

theorem isBoundary_iff_isValid :
    IsBoundary n s ↔ String.Pos.Raw.IsValid (String.ofList s) ⟨n⟩ := by
  have hbytes : (String.ofList s).toByteArray = s.utf8Encode := String.toByteArray_ofList
  have hend : (String.ofList s).rawEndPos = ⟨s.utf8Encode.size⟩ := by
    rw [← hbytes, String.size_toByteArray]
    rfl
  rw [String.Pos.Raw.isValid_iff_isUTF8FirstByte, IsBoundary]
  simp only [String.getUTF8Byte_eq_getElem, hbytes, hend, String.Pos.Raw.mk.injEq,
    String.Pos.Raw.lt_iff]

/-- The boundaries of a text are the lengths of its beginnings. -/
theorem isBoundary_iff :
    IsBoundary n s ↔ ∃ before after, s = before ++ after ∧ n = byteLength before := by
  rw [isBoundary_iff_isValid, String.Pos.Raw.isValid_iff_exists_append]
  constructor
  · rintro ⟨u, v, huv, hn⟩
    refine ⟨u.toList, v.toList, ?_, ?_⟩
    · rw [← String.toList_append, ← huv, String.toList_ofList]
    · rw [byteLength_eq_size, String.utf8Encode_toList, String.size_toByteArray]
      exact congrArg String.Pos.Raw.byteIdx hn
  · rintro ⟨before, after, rfl, rfl⟩
    refine ⟨String.ofList before, String.ofList after, String.ofList_append, ?_⟩
    rw [byteLength_eq_size, ← String.toByteArray_ofList, String.size_toByteArray]
    rfl

theorem IsBoundary.le (h : IsBoundary n s) : n ≤ s.utf8Encode.size := by
  rcases h with rfl | ⟨h, -⟩
  · exact Nat.le_refl _
  · exact Nat.le_of_lt h

/-! ## Cuts -/

-- Two beginnings of one text, of which the second has at least as many bytes.
theorem prefix_of_byteLength_le {u v : Text} (hu : u <+: s) (hv : v <+: s)
    (h : byteLength u ≤ byteLength v) : u <+: v := by
  rcases List.prefix_or_prefix_of_prefix hu hv with huv | ⟨w, rfl⟩
  · exact huv
  · cases w with
    | nil => exact ⟨[], by simp⟩
    | cons c w =>
      have hpos := c.utf8Size_pos
      rw [byteLength_append, byteLength] at h
      omega

/-- A slice can be taken between two boundaries that are in order, and nowhere else. -/
theorem isSome_sliceBytes?_iff :
    (sliceBytes? start stop s).isSome ↔ start ≤ stop ∧ IsBoundary start s ∧ IsBoundary stop s := by
  rw [Option.isSome_iff_exists]
  simp only [sliceBytes?_eq_some_iff, isBoundary_iff]
  constructor
  · rintro ⟨t, front, rest, rfl, rfl, rfl⟩
    refine ⟨?_, ⟨front, t ++ rest, rfl, rfl⟩, ⟨front ++ t, rest, by simp, rfl⟩⟩
    rw [byteLength_append]
    omega
  · rintro ⟨hle, ⟨front, behind, rfl, rfl⟩, before, rest, hs, rfl⟩
    have hfront : front <+: before :=
      prefix_of_byteLength_le ⟨behind, rfl⟩ ⟨rest, hs.symm⟩ hle
    obtain ⟨t, rfl⟩ := hfront
    exact ⟨t, front, rest, by rw [hs, List.append_assoc], rfl, rfl⟩

theorem extract_append_append (front t rest : Text) :
    (front ++ (t ++ rest)).utf8Encode.extract (byteLength front) (byteLength (front ++ t)) =
      t.utf8Encode := by
  rw [byteLength_append, byteLength_eq_size, byteLength_eq_size, List.utf8Encode_append,
    List.utf8Encode_append]
  have h := ByteArray.extract_append_size_add (a := front.utf8Encode)
    (b := t.utf8Encode ++ rest.utf8Encode) (i := 0) (j := t.utf8Encode.size)
  rw [Nat.add_zero, ByteArray.extract_append_eq_left rfl] at h
  exact h

/-- The bytes of a slice are those between its positions. -/
theorem extract_of_sliceBytes? (h : sliceBytes? start stop s = some t) :
    s.utf8Encode.extract start stop = t.utf8Encode := by
  obtain ⟨front, rest, rfl, rfl, rfl⟩ := sliceBytes?_eq_some_iff.mp h
  exact extract_append_append front t rest

/-! ## Occurrences of a character -/

/-- The bytes of the character `ch` stand at position `n`. -/
def OccursAt (ch : Char) (n : Nat) (s : Text) : Prop :=
  s.utf8Encode.extract n (n + ch.utf8Size) = [ch].utf8Encode

/-- The bytes of a character are found only where the character itself stands. -/
theorem occursAt_iff :
    OccursAt ch n s ↔ ∃ before after, s = before ++ ch :: after ∧ n = byteLength before := by
  have hsize : byteLength [ch] = ch.utf8Size := rfl
  unfold OccursAt
  constructor
  · intro h
    have hpos := ch.utf8Size_pos
    have hle : n + ch.utf8Size ≤ s.utf8Encode.size := by
      have hlength := congrArg ByteArray.size h
      rw [ByteArray.size_extract, ← byteLength_eq_size [ch], hsize] at hlength
      omega
    -- a first byte stands at `n`, so that a character begins there
    have hfirst : IsBoundary n s := by
      have hn : n < s.utf8Encode.size := by omega
      have hsome : 0 < (s.utf8Encode.extract n (n + ch.utf8Size)).size := by
        rw [ByteArray.size_extract]
        omega
      have hbyte : (s.utf8Encode.extract n (n + ch.utf8Size))[0] = s.utf8Encode[n] :=
        ByteArray.getElem_extract _
      refine .inr ⟨hn, ?_⟩
      rw [← hbyte]
      simp only [h]
      exact List.isUTF8FirstByte_getElem_utf8Encode_singleton.mpr rfl
    obtain ⟨before, behind, rfl, rfl⟩ := isBoundary_iff.mp hfirst
    have hbehind : behind.utf8Encode.extract 0 ch.utf8Size = [ch].utf8Encode := by
      rw [← h, byteLength_eq_size, List.utf8Encode_append]
      exact ByteArray.extract_append_size_add.symm
    have happend : [ch].utf8Encode ++ behind.utf8Encode.extract ch.utf8Size
        behind.utf8Encode.size = behind.utf8Encode := by
      rw [← hbehind, ByteArray.extract_append_extract, Nat.zero_min,
        ByteArray.extract_zero_max_size]
    obtain ⟨after, rfl⟩ := List.isPrefix_of_utf8Encode_append_eq_utf8Encode _ happend
    exact ⟨before, after, rfl, rfl⟩
  · rintro ⟨before, after, rfl, rfl⟩
    have h := extract_append_append before [ch] after
    rwa [byteLength_append, hsize] at h

/-- The position of a character is the first at which its bytes stand. -/
theorem bytePosition?_eq_some_iff_occursAt :
    bytePosition? ch s = some n ↔ OccursAt ch n s ∧ ∀ m < n, ¬ OccursAt ch m s := by
  rw [bytePosition?_eq_some_iff]
  constructor
  · rintro ⟨before, after, rfl, hbefore, rfl⟩
    refine ⟨occursAt_iff.mpr ⟨before, after, rfl, rfl⟩, fun m hm h => ?_⟩
    obtain ⟨u, v, hs, rfl⟩ := occursAt_iff.mp h
    -- the text in front of an earlier occurrence is a part of `before`, which would hold `ch`
    have hu : u <+: before :=
      prefix_of_byteLength_le ⟨ch :: v, rfl⟩ (hs ▸ ⟨ch :: after, rfl⟩) (Nat.le_of_lt hm)
    obtain ⟨w, rfl⟩ := hu
    cases w with
    | nil => simp at hm
    | cons c w =>
      rw [List.append_assoc, List.append_cancel_left_eq] at hs
      rw [← (List.cons.inj hs).1] at hbefore
      simp at hbefore
  · rintro ⟨h, hfirst⟩
    obtain ⟨before, after, rfl, rfl⟩ := occursAt_iff.mp h
    refine ⟨before, after, rfl, fun hmem => ?_, rfl⟩
    obtain ⟨u, v, rfl, -⟩ := List.eq_append_cons_of_mem hmem
    apply hfirst (byteLength u)
    · have hpos := ch.utf8Size_pos
      rw [byteLength_append, byteLength]
      omega
    · exact occursAt_iff.mpr ⟨u, v ++ ch :: after, by simp, rfl⟩

end SignatureLine.Text
