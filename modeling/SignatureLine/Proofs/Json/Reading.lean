import SignatureLine.Json.Decode

/-!
# Reading whole values

A fragment that is complete in all its parts is read from its own tokens, whatever tokens come
after them.  So a text with these tokens and no more is a document of that fragment.
-/

namespace SignatureLine.Json.Fragment

/-! ## The tokens of a fragment -/

mutual

/-- The tokens that a complete fragment is read from. -/
def tokens : Fragment → List Token
  | .broken => [.broken]
  | .null => [.null]
  | .boolean b => [.boolean b]
  | .number n => [.number n]
  | .string s => [.string s]
  | .array [] _ => [.openArray, .closeArray]
  | .array (e :: es) _ => .openArray :: e.tokens ++ elementTokens es
  | .object [] _ => [.openObject, .closeObject]
  | .object ((key, e) :: ms) _ =>
      .openObject :: .string key :: .colon :: e.tokens ++ memberTokens ms

/-- The tokens of the further elements of an array, and of its end. -/
def elementTokens : List Fragment → List Token
  | [] => [.closeArray]
  | e :: es => .comma :: e.tokens ++ elementTokens es

/-- The tokens of the further members of an object, and of its end. -/
def memberTokens : List (Option Text × Fragment) → List Token
  | [] => [.closeObject]
  | (key, e) :: ms => .comma :: .string key :: .colon :: e.tokens ++ memberTokens ms

end

/-- All of the fragment was read, to its end and in all its parts. -/
inductive Complete : Fragment → Prop
  | null : Complete .null
  | boolean (b : Bool) : Complete (.boolean b)
  | number (n : Option Number) : Complete (.number n)
  | string (s : Option Text) : Complete (.string s)
  | array {es : List Fragment} (h : ∀ e ∈ es, Complete e) : Complete (.array es true)
  | object {ms : List (Option Text × Fragment)} (h : ∀ m ∈ ms, Complete m.2) :
      Complete (.object ms true)

theorem Complete.isWhole {f : Fragment} (h : f.Complete) : f.isWhole = true := by
  cases h <;> rfl

theorem Complete.of_mem_array {es : List Fragment} {closed : Bool}
    (h : Complete (.array es closed)) : ∀ e ∈ es, e.Complete := by
  cases h with
  | array h => exact h

theorem Complete.of_mem_object {ms : List (Option Text × Fragment)} {closed : Bool}
    (h : Complete (.object ms closed)) : ∀ m ∈ ms, m.2.Complete := by
  cases h with
  | object h => exact h

-- The end of an array is not the start of a value: an array with elements is not read as empty.
theorem Complete.tokens_append_ne {f : Fragment} (h : f.Complete) (rest t : List Token) :
    f.tokens ++ rest ≠ .closeArray :: t := by
  cases h with
  | null | boolean | number | string => simp [tokens]
  | @array es =>
    cases es <;> simp [tokens]
  | @object ms =>
    cases ms <;> simp [tokens]

theorem length_tokens_pos (f : Fragment) : 0 < f.tokens.length := by
  cases f with
  | broken | null | boolean | number | string => simp [tokens]
  | array es => cases es <;> simp [tokens]
  | object ms => cases ms <;> simp [tokens]

/-! ## Reading the tokens back -/

/-- The fragment is read from its tokens, and what comes after them is left.  One step for each
token is enough. -/
def ReadsBack (f : Fragment) : Prop :=
  ∀ fuel rest, f.tokens.length ≤ fuel → read fuel (f.tokens ++ rest) = (f, some rest)

theorem exists_fuel {f : Fragment} {fuel : Nat} (h : f.tokens.length ≤ fuel) :
    ∃ n, fuel = n + 1 :=
  Nat.exists_eq_add_one.mpr (Nat.lt_of_lt_of_le f.length_tokens_pos h)

theorem readElements_tokens {e : Fragment} {es : List Fragment}
    (h : ∀ x ∈ e :: es, x.ReadsBack) (fuel : Nat)
    (hfuel : (e.tokens ++ elementTokens es).length ≤ fuel) (rest : List Token) :
    readElements fuel (e.tokens ++ (elementTokens es ++ rest)) = (e :: es, some rest) := by
  rw [List.length_append] at hfuel
  induction es generalizing e fuel with
  | nil =>
    simp only [elementTokens, List.length_singleton] at hfuel
    obtain ⟨fuel, rfl⟩ := Nat.exists_eq_add_one.mpr (show 0 < fuel by omega)
    have he := h e List.mem_cons_self fuel (.closeArray :: rest) (by omega)
    rw [readElements]
    simp only [elementTokens, List.cons_append, List.nil_append, he]
  | cons e' es ih =>
    simp only [elementTokens, List.cons_append, List.length_cons, List.length_append] at hfuel
    obtain ⟨fuel, rfl⟩ := Nat.exists_eq_add_one.mpr (show 0 < fuel by omega)
    have he := h e List.mem_cons_self fuel (.comma :: (e'.tokens ++ (elementTokens es ++ rest)))
      (by omega)
    have hes := ih (fun x hx => h x (List.mem_cons_of_mem _ hx)) fuel (by omega)
    rw [readElements]
    simp only [elementTokens, List.cons_append, List.append_assoc, he, hes]

theorem readMembers_tokens {key : Option Text} {e : Fragment}
    {ms : List (Option Text × Fragment)} (h : ∀ m ∈ (key, e) :: ms, m.2.ReadsBack) (fuel : Nat)
    (hfuel : (e.tokens ++ memberTokens ms).length ≤ fuel) (rest : List Token) :
    readMembers fuel (.string key :: .colon :: (e.tokens ++ (memberTokens ms ++ rest))) =
      ((key, e) :: ms, some rest) := by
  rw [List.length_append] at hfuel
  induction ms generalizing key e fuel with
  | nil =>
    simp only [memberTokens, List.length_singleton] at hfuel
    obtain ⟨fuel, rfl⟩ := Nat.exists_eq_add_one.mpr (show 0 < fuel by omega)
    have hback : e.ReadsBack := h (key, e) List.mem_cons_self
    have he := hback fuel (.closeObject :: rest) (by omega)
    rw [readMembers]
    simp only [memberTokens, List.cons_append, List.nil_append, he]
  | cons m ms ih =>
    obtain ⟨key', e'⟩ := m
    simp only [memberTokens, List.cons_append, List.length_cons, List.length_append] at hfuel
    obtain ⟨fuel, rfl⟩ := Nat.exists_eq_add_one.mpr (show 0 < fuel by omega)
    have hback : e.ReadsBack := h (key, e) List.mem_cons_self
    have he := hback fuel (.comma :: .string key' :: .colon ::
      (e'.tokens ++ (memberTokens ms ++ rest))) (by omega)
    have hms := ih (fun x hx => h x (List.mem_cons_of_mem _ hx)) fuel (by omega)
    rw [readMembers]
    simp only [memberTokens, List.cons_append, List.append_assoc, he, hms]

theorem Complete.readsBack {f : Fragment} (h : f.Complete) : f.ReadsBack := by
  induction h with
  | null | boolean | number | string =>
    intro fuel rest hfuel
    obtain ⟨fuel, rfl⟩ := exists_fuel hfuel
    rfl
  | @array es h ih =>
    intro fuel rest hfuel
    obtain ⟨fuel, rfl⟩ := exists_fuel hfuel
    cases es with
    | nil => rfl
    | cons e es =>
      simp only [tokens, List.cons_append, List.length_cons] at hfuel
      have hne := (h e List.mem_cons_self).tokens_append_ne (elementTokens es ++ rest)
      have hes := readElements_tokens ih fuel (by omega) rest
      simp only [tokens, List.cons_append, List.append_assoc]
      rw [read]
      · rw [hes]
        rfl
      · exact hne
  | @object ms h ih =>
    intro fuel rest hfuel
    obtain ⟨fuel, rfl⟩ := exists_fuel hfuel
    rcases ms with _ | ⟨⟨key, e⟩, ms⟩
    · rfl
    · simp only [tokens, List.cons_append, List.length_cons] at hfuel
      have hms := readMembers_tokens ih fuel (by omega) rest
      simp only [tokens, List.cons_append, List.append_assoc]
      rw [read]
      · rw [hms]
        rfl
      · simp

end Fragment

/-! ## Documents -/

theorem Document.ofText_of_scan {s : Text} {f : Fragment} (hf : f.Complete)
    (hs : Token.scan s = f.tokens) : Document.ofText s = ⟨f, true⟩ := by
  have hread := hf.readsBack (2 * f.tokens.length + 1) [] (by omega)
  rw [List.append_nil] at hread
  simp only [Document.ofText, hs, hread]
  rfl

theorem decodeText_of_scan {α : Type} {decode : Fragment → Decoded α} {s : Text} {f : Fragment}
    (hf : f.Complete) (hs : Token.scan s = f.tokens) : decodeText decode s = decode f := by
  rw [decodeText, Document.ofText_of_scan hf hs]
  cases decode f <;> rfl

end SignatureLine.Json
