import SignatureLine.Json.Token

/-!
# JSON fragments

What can be read of a JSON value from tokens that may stop being JSON at some place. A fragment
keeps all that comes before that place, so that a reader who goes through it in order meets the
problems of the text in their order: data that is not what the reader asks for, or the place where
the JSON ends.
-/

namespace SignatureLine.Json

/-- What can be read of a value. -/
inductive Fragment where
  /-- No value starts here. -/
  | broken
  | null
  | boolean (value : Bool)
  | number (value : Option Number)
  | string (value : Option Text)
  /-- The elements that could be read, the last of which may itself be incomplete. It is closed if
  its end was read, and then all of it is JSON. -/
  | array (elements : List Fragment) (closed : Bool)
  /-- The members that could be read, each a key and a value; as for arrays. -/
  | object (members : List (Option Text × Fragment)) (closed : Bool)

namespace Fragment

/-- Whether all of the value is JSON, whatever its numbers and strings stand for. -/
def isWhole : Fragment → Bool
  | .broken => false
  | .array _ closed => closed
  | .object _ closed => closed
  | _ => true

mutual

/-- Reads a value, and gives the tokens after it unless it is incomplete. -/
def read : Nat → List Token → Fragment × Option (List Token)
  | 0, _ => (.broken, none)
  | fuel + 1, tokens =>
      match tokens with
      | .null :: rest => (.null, some rest)
      | .boolean b :: rest => (.boolean b, some rest)
      | .number n :: rest => (.number n, some rest)
      | .string s :: rest => (.string s, some rest)
      | .openArray :: .closeArray :: rest => (.array [] true, some rest)
      | .openArray :: rest =>
          let (elements, after) := readElements fuel rest
          (.array elements after.isSome, after)
      | .openObject :: .closeObject :: rest => (.object [] true, some rest)
      | .openObject :: rest =>
          let (members, after) := readMembers fuel rest
          (.object members after.isSome, after)
      | _ => (.broken, none)

/-- Reads the elements of an array and its end. -/
def readElements : Nat → List Token → List Fragment × Option (List Token)
  | 0, _ => ([], none)
  | fuel + 1, tokens =>
      match read fuel tokens with
      | (e, some (.comma :: rest)) =>
          let (es, after) := readElements fuel rest
          (e :: es, after)
      | (e, some (.closeArray :: rest)) => ([e], some rest)
      | (e, _) => ([e], none)

/-- Reads the members of an object and its end. -/
def readMembers : Nat → List Token → List (Option Text × Fragment) × Option (List Token)
  | 0, _ => ([], none)
  | fuel + 1, tokens =>
      match tokens with
      | .string key :: .colon :: rest =>
          match read fuel rest with
          | (e, some (.comma :: rest)) =>
              let (ms, after) := readMembers fuel rest
              ((key, e) :: ms, after)
          | (e, some (.closeObject :: rest)) => ([(key, e)], some rest)
          | (e, _) => ([(key, e)], none)
      | .string key :: _ => ([(key, .broken)], none)
      | _ => ([], none)

end

end Fragment

/-- What can be read of a text that should hold one JSON value and nothing else. -/
structure Document where
  value : Fragment
  /-- Whether the value is complete and nothing comes after it. -/
  isWhole : Bool

/-- Reads a text. Each step of reading either takes a token or enters an element or member, so
twice the number of tokens bounds the depth of steps. -/
def Document.ofText (s : Text) : Document :=
  let tokens := Token.scan s
  let (value, after) := Fragment.read (2 * tokens.length + 1) tokens
  ⟨value, after == some []⟩

end SignatureLine.Json
