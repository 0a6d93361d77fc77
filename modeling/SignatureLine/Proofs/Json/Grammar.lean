import SignatureLine.Json.Fragment

/-!
# The grammar of JSON

Which texts spell a value, with no reader in between.  White space may stand on both sides of every
value, key and punctuation mark; a character of a string may be written as itself or as an escape,
and a number with a fraction and an exponent.
-/

namespace SignatureLine.Json

/-! ## Numerals -/

def IsDigits (s : Text) : Prop :=
  s ≠ [] ∧ ∀ c ∈ s, Text.isDigit c = true

instance (s : Text) : Decidable (IsDigits s) :=
  decidable_of_iff (s ≠ [] ∧ s.all Text.isDigit = true) (and_congr_right' List.all_eq_true)

structure Exponent where
  letter : Char
  /-- The sign, if one is written. -/
  sign : Option Char
  digits : Text
  letter_eq : letter = 'e' ∨ letter = 'E'
  sign_eq : ∀ c ∈ sign, c = '+' ∨ c = '-'
  isDigits : IsDigits digits

namespace Exponent

def text (e : Exponent) : Text :=
  e.letter :: (e.sign.toList ++ e.digits)

def value (e : Exponent) : Int :=
  if e.sign = some '-' then -Text.numeral 10 e.digits else Text.numeral 10 e.digits

end Exponent

/-- A numeral in its parts.  Only a single zero starts with a zero. -/
structure Numeral where
  negative : Bool
  whole : Text
  /-- The digits after the point, if there is a point. -/
  fraction : Option Text
  exponent : Option Exponent
  whole_isDigits : IsDigits whole
  whole_unpadded : whole.head? = some '0' → whole = ['0']
  fraction_isDigits : ∀ ds ∈ fraction, IsDigits ds

namespace Numeral

def sign (n : Numeral) : Text :=
  if n.negative then ['-'] else []

def text (n : Numeral) : Text :=
  n.sign ++ n.whole ++ n.fraction.elim [] ('.' :: ·) ++ n.exponent.elim [] Exponent.text

def value? (n : Numeral) : Option Number :=
  Number.ofParts? n.negative n.whole (n.fraction.getD []) (n.exponent.map Exponent.value)

end Numeral

/-! ## Strings -/

/-- The escapes of one letter, each with the character that it stands for. -/
def letterEscapes : List (Char × Char) :=
  [('"', '"'), ('\\', '\\'), ('/', '/'), ('b', '\x08'), ('f', '\x0c'), ('n', '\n'), ('r', '\r'),
    ('t', '\t')]

/-- The character is the digit of this value, in either case. -/
def IsHexDigit (c : Char) (n : Nat) : Prop :=
  n < 16 ∧ (c = n.digitChar ∨ c = n.digitChar.toUpper)

inductive SpellsUnit : StringUnit → Text → Prop
  | verbatim {c : Char} (hquote : c ≠ '"') (hslash : c ≠ '\\') (hcontrol : 0x20 ≤ c.toNat) :
      SpellsUnit (.char c) [c]
  | letter {e c : Char} (h : (e, c) ∈ letterEscapes) : SpellsUnit (.char c) ['\\', e]
  | code {a b c d : Char} {i j k l : Nat} (ha : IsHexDigit a i) (hb : IsHexDigit b j)
      (hc : IsHexDigit c k) (hd : IsHexDigit d l) :
      SpellsUnit (.code (((i * 16 + j) * 16 + k) * 16 + l)) ['\\', 'u', a, b, c, d]

/-- What stands between the quotes of a string. -/
inductive SpellsUnits : List StringUnit → Text → Prop
  | nil : SpellsUnits [] []
  | cons {u : StringUnit} {units : List StringUnit} {w s : Text} (h : SpellsUnit u w)
      (hs : SpellsUnits units s) : SpellsUnits (u :: units) (w ++ s)

/-- The text of a string.  Two codes that are the halves of a pair are one character, and no half
stands alone. -/
inductive Denotes : List StringUnit → Text → Prop
  | nil : Denotes [] []
  | char (c : Char) {units : List StringUnit} {s : Text} (h : Denotes units s) :
      Denotes (.char c :: units) (c :: s)
  | code {n : Nat} {units : List StringUnit} {s : Text} (hn : n < 0xD800 ∨ 0xE000 ≤ n)
      (h : Denotes units s) : Denotes (.code n :: units) (Char.ofNat n :: s)
  | pair {high low : Nat} {units : List StringUnit} {s : Text}
      (hhigh : 0xD800 ≤ high ∧ high < 0xDC00) (hlow : 0xDC00 ≤ low ∧ low < 0xE000)
      (h : Denotes units s) :
      Denotes (.code high :: .code low :: units)
        (Char.ofNat (0x10000 + (high - 0xD800) * 0x400 + (low - 0xDC00)) :: s)

/-- A string in quotes.  It has no value if its units are not those of a text. -/
def SpellsString (value : Option Text) (s : Text) : Prop :=
  ∃ units body, s = '"' :: (body ++ ['"']) ∧ SpellsUnits units body ∧
    ∀ t, value = some t ↔ Denotes units t

/-! ## Values -/

mutual

inductive Spells : Fragment → Text → Prop
  | padded {f : Fragment} {before s after : Text} (hbefore : ∀ c ∈ before, isSpace c = true)
      (h : Spells f s) (hafter : ∀ c ∈ after, isSpace c = true) :
      Spells f (before ++ (s ++ after))
  | null : Spells .null "null".toList
  | isTrue : Spells (.boolean true) "true".toList
  | isFalse : Spells (.boolean false) "false".toList
  | number (n : Numeral) : Spells (.number n.value?) n.text
  | string {value : Option Text} {s : Text} (h : SpellsString value s) :
      Spells (.string value) s
  | emptyArray {gap : Text} (hgap : ∀ c ∈ gap, isSpace c = true) :
      Spells (.array [] true) ('[' :: (gap ++ [']']))
  | array {e : Fragment} {es : List Fragment} {s t : Text} (h : Spells e s)
      (hs : SpellsElements es t) : Spells (.array (e :: es) true) ('[' :: (s ++ t))
  | emptyObject {gap : Text} (hgap : ∀ c ∈ gap, isSpace c = true) :
      Spells (.object [] true) ('\x7b' :: (gap ++ ['\x7d']))
  | object {key : Option Text} {e : Fragment} {ms : List (Option Text × Fragment)} {k s t : Text}
      (hkey : Spells (.string key) k) (h : Spells e s) (hs : SpellsMembers ms t) :
      Spells (.object ((key, e) :: ms) true) ('\x7b' :: (k ++ ':' :: (s ++ t)))

/-- The further elements of an array, and its end. -/
inductive SpellsElements : List Fragment → Text → Prop
  | close {gap : Text} (hgap : ∀ c ∈ gap, isSpace c = true) : SpellsElements [] (gap ++ [']'])
  | comma {e : Fragment} {es : List Fragment} {s t : Text} (h : Spells e s)
      (hs : SpellsElements es t) : SpellsElements (e :: es) (',' :: (s ++ t))

/-- The further members of an object, and its end. -/
inductive SpellsMembers : List (Option Text × Fragment) → Text → Prop
  | close {gap : Text} (hgap : ∀ c ∈ gap, isSpace c = true) :
      SpellsMembers [] (gap ++ ['\x7d'])
  | comma {key : Option Text} {e : Fragment} {ms : List (Option Text × Fragment)} {k s t : Text}
      (hkey : Spells (.string key) k) (h : Spells e s) (hs : SpellsMembers ms t) :
      SpellsMembers ((key, e) :: ms) (',' :: (k ++ ':' :: (s ++ t)))

end

theorem Spells.behind {f : Fragment} {gap s : Text} (h : Spells f s)
    (hgap : ∀ c ∈ gap, isSpace c = true) : Spells f (gap ++ s) := by
  have hpadded := padded hgap h (List.forall_mem_nil _)
  rwa [List.append_nil] at hpadded

end SignatureLine.Json
