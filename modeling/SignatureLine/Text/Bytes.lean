import SignatureLine.Text.Basic

/-!
# Byte positions

Positions in the UTF-8 form of a text. A position is usable only where a character begins or the
text ends: cutting anywhere else yields `none`.
-/

namespace SignatureLine.Text

/-- The length of the UTF-8 form. -/
def byteLength : Text → Nat
  | [] => 0
  | c :: s => c.utf8Size + byteLength s

/-- The byte position of the first occurrence of `ch`. -/
def bytePosition? (ch : Char) : Text → Option Nat
  | [] => none
  | c :: s => if c = ch then some 0 else (bytePosition? ch s).map (c.utf8Size + ·)

/-- The text before byte position `n`. -/
def takeBytes? (n : Nat) : Text → Option Text
  | [] => if n = 0 then some [] else none
  | c :: s =>
      if n = 0 then some []
      else if n < c.utf8Size then none
      else (takeBytes? (n - c.utf8Size) s).map (c :: ·)

/-- The text from byte position `n` on. -/
def dropBytes? (n : Nat) : Text → Option Text
  | [] => if n = 0 then some [] else none
  | c :: s =>
      if n = 0 then some (c :: s)
      else if n < c.utf8Size then none
      else dropBytes? (n - c.utf8Size) s

/-- The text between two byte positions; `none` also if they are out of order. -/
def sliceBytes? (start stop : Nat) (s : Text) : Option Text :=
  if start ≤ stop then (takeBytes? stop s).bind (dropBytes? start) else none

/-- The text before the first occurrence of `ch`, or all of it if there is none. -/
def trimUntil (s : Text) (ch : Char) : Text :=
  match bytePosition? ch s with
  | some n => (takeBytes? n s).getD []
  | none => s

theorem takeBytes?_bytePosition? {ch : Char} {s : Text} {n : Nat}
    (h : bytePosition? ch s = some n) : takeBytes? n s = some (s.takeWhile (· != ch)) := by
  induction s generalizing n with
  | nil => simp [bytePosition?] at h
  | cons c s ih =>
      by_cases hc : c = ch
      · simp only [bytePosition?, hc, if_true, Option.some.injEq] at h
        simp [takeBytes?, ← h, hc]
      · simp only [bytePosition?, hc, if_false, Option.map_eq_some_iff] at h
        obtain ⟨m, hm, rfl⟩ := h
        have hpos := c.utf8Size_pos
        rw [takeBytes?, if_neg (by omega), if_neg (by omega), Nat.add_sub_cancel_left, ih hm]
        simp [hc]

/-- Cutting at the first occurrence keeps the longest part before it that does not hold `ch`. -/
theorem trimUntil_eq_takeWhile (s : Text) (ch : Char) :
    trimUntil s ch = s.takeWhile (· != ch) := by
  unfold trimUntil
  cases h : bytePosition? ch s with
  | some n => simp [takeBytes?_bytePosition? h]
  | none =>
      induction s with
      | nil => rfl
      | cons c s ih =>
          by_cases hc : c = ch
          · simp [bytePosition?, hc] at h
          · simp only [bytePosition?, hc, if_false, Option.map_eq_none_iff] at h
            simpa [hc] using ih h

end SignatureLine.Text
