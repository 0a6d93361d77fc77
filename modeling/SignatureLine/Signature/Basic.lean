import SignatureLine.Text.Basic

/-!
# Signatures

The record of one method signature: its access modifier, return type, method name and arguments,
next to the line it was read from.
-/

namespace SignatureLine

/-- Who may call a method. -/
inductive AccessModifier where
  | publicAccess
  | privateAccess
  | protectedAccess
  deriving Repr, DecidableEq

namespace AccessModifier

/-- All modifiers, in the order in which messages list them. -/
def all : List AccessModifier :=
  [.publicAccess, .privateAccess, .protectedAccess]

def keyword : AccessModifier → Text
  | .publicAccess => "public".toList
  | .privateAccess => "private".toList
  | .protectedAccess => "protected".toList

/-- The modifier with exactly this keyword: neither case nor blanks are forgiven. -/
def ofKeyword? (s : Text) : Option AccessModifier :=
  all.find? (·.keyword == s)

/-- A modifier is displayed as its keyword. -/
def display (m : AccessModifier) : Text :=
  m.keyword

@[simp]
theorem ofKeyword?_keyword (m : AccessModifier) : ofKeyword? m.keyword = some m := by
  cases m <;> decide

theorem ofKeyword?_eq_some_iff {s : Text} {m : AccessModifier} :
    ofKeyword? s = some m ↔ s = m.keyword := by
  constructor
  · intro h
    have := List.find?_some h
    exact (eq_of_beq this).symm
  · rintro rfl
    exact ofKeyword?_keyword m

end AccessModifier

/-- One argument of a method: a type and a name. -/
structure Argument where
  type : Text
  name : Text
  deriving Repr, DecidableEq

/-- The type and the name with a space between them. -/
def Argument.display (a : Argument) : Text :=
  a.type ++ ' ' :: a.name

/-- A parsed signature. Two arguments may have one name. -/
structure Signature where
  /-- The line exactly as it was given. -/
  raw : Text
  modifier : Option AccessModifier
  returnType : Text
  methodName : Text
  arguments : List Argument
  deriving Repr, DecidableEq

namespace Signature

/-- The arguments in order, a comma and a space between any two. -/
def displayArguments : List Argument → Text
  | [] => []
  | [a] => a.display
  | a :: b :: rest => a.display ++ ',' :: ' ' :: displayArguments (b :: rest)

/-- The modifier and a space, or nothing. -/
def displayModifier : Option AccessModifier → Text
  | none => []
  | some m => m.display ++ [' ']

/-- The canonical line of a signature: single spaces, and the parameter list even if empty. -/
def display (s : Signature) : Text :=
  displayModifier s.modifier ++ s.returnType ++ ' ' :: s.methodName ++
    '(' :: displayArguments s.arguments ++ [')']

end Signature

end SignatureLine
