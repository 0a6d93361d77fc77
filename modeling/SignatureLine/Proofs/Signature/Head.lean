import Mathlib.Data.List.Basic
import SignatureLine.Signature.Head

/-!
# The form of a head

Which lists of tokens begin with a head, and which head it is.
-/

namespace SignatureLine.Head

-- The head read from the tokens of a line, by their number and by whether the first is a
-- keyword.
theorem read_eq (tokens : List Text) :
    read tokens =
      match tokens with
      | [] => .error .returnType
      | [_] => .error .methodName
      | first :: second :: rest =>
          match AccessModifier.ofKeyword? first, rest with
          | none, _ => .ok ⟨none, first, Text.trimUntil second '('⟩
          | some _, [] => .error .methodName
          | some m, third :: _ => .ok ⟨some m, second, Text.trimUntil third '('⟩ := by
  match tokens with
  | [] => rfl
  | [first] => cases h : AccessModifier.ofKeyword? first <;> simp [read, readFrom, h,
      Expectation.missing]
  | first :: second :: rest =>
    cases h : AccessModifier.ofKeyword? first with
    | none => simp [read, readFrom, h]
    | some m => cases rest <;> simp [read, readFrom, h, Expectation.missing]

/-- The tokens of a modifier: its keyword, or none. -/
def modifierTokens (modifier : Option AccessModifier) : List Text :=
  modifier.toList.map AccessModifier.keyword

-- A head is its modifier, its return type and its name in this order.  A keyword in front is
-- always taken for the modifier, if two tokens follow it.
theorem read_eq_ok_iff {tokens : List Text} {head : Head} :
    read tokens = .ok head ↔
      ∃ nameToken rest,
        tokens = modifierTokens head.modifier ++ head.returnType :: nameToken :: rest ∧
          (head.modifier = none → AccessModifier.ofKeyword? head.returnType = none) ∧
          head.methodName = Text.trimUntil nameToken '(' := by
  obtain ⟨modifier, returnType, methodName⟩ := head
  rw [read_eq]
  constructor
  · intro h
    match tokens with
    | [] => cases h
    | [_] => cases h
    | first :: second :: rest =>
      cases hkey : AccessModifier.ofKeyword? first with
      | none =>
        simp only [hkey, Except.ok.injEq, mk.injEq] at h
        obtain ⟨rfl, rfl, rfl⟩ := h
        exact ⟨second, rest, rfl, fun _ => hkey, rfl⟩
      | some m =>
        obtain rfl := AccessModifier.ofKeyword?_eq_some_iff.mp hkey
        cases rest with
        | nil => simp [hkey] at h
        | cons third rest =>
          simp only [hkey, Except.ok.injEq, mk.injEq] at h
          obtain ⟨rfl, rfl, rfl⟩ := h
          exact ⟨third, rest, rfl, nofun, rfl⟩
  · rintro ⟨nameToken, rest, rfl, hkey, hname⟩
    dsimp only at hkey hname ⊢
    cases modifier with
    | none => simp [modifierTokens, hkey rfl, hname]
    | some m => simp [modifierTokens, hname]

-- A parenthesis ends the name in its token, so nothing behind it is looked at.
theorem read_append_cons {front : List Text} {last : Text} {head : Head}
    (h : read (front ++ [last ++ ['(']]) = .ok head) (u : Text) (rest : List Text) :
    read (front ++ (last ++ '(' :: u) :: rest) = .ok head := by
  have htrim : ∀ t : Text, Text.trimUntil (last ++ '(' :: t) '(' = last.takeWhile (· != '(') := by
    intro t
    rw [Text.trimUntil_eq_takeWhile, List.takeWhile_append]
    by_cases hlast : (last.takeWhile (· != '(')).length = last.length
    · rw [if_pos hlast, List.takeWhile_cons_of_neg (by simp), List.append_nil,
        (List.takeWhile_sublist _).eq_of_length hlast]
    · rw [if_neg hlast]
  obtain ⟨nameToken, others, htokens, hkey, hname⟩ := read_eq_ok_iff.mp h
  rw [read_eq_ok_iff]
  rcases List.eq_nil_or_concat' others with rfl | ⟨others, final, rfl⟩
  · -- the name is in the token of the parenthesis
    have hsplit : front ++ [last ++ ['(']] =
        (modifierTokens head.modifier ++ [head.returnType]) ++ [nameToken] := by
      rw [htokens, List.append_assoc]
      rfl
    obtain ⟨rfl, hlast⟩ := List.append_inj' hsplit rfl
    refine ⟨last ++ '(' :: u, rest, by simp, hkey, ?_⟩
    rw [hname, ← List.singleton_inj.mp hlast, htrim, htrim]
  · -- the name is in a token before
    have hsplit : front ++ [last ++ ['(']] =
        (modifierTokens head.modifier ++ head.returnType :: nameToken :: others) ++ [final] := by
      rw [htokens, List.append_assoc]
      rfl
    obtain ⟨rfl, -⟩ := List.append_inj' hsplit rfl
    exact ⟨nameToken, others ++ (last ++ '(' :: u) :: rest, by simp, hkey, hname⟩

end SignatureLine.Head
