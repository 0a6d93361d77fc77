import SignatureLine.Json.Decode
import SignatureLine.Signature.Basic

/-!
# Records from JSON

Decoding modifiers, arguments and signatures. A record is an object with its fields in any order and
among other members, or an array of its fields in the order of their declaration.
-/

namespace SignatureLine

open Json (Decoded Fragment)
open Json.Fragment (demandField fillField nextElement)

namespace AccessModifier

def decodeName (s : Text) : Decoded AccessModifier :=
  match ofKeyword? s with
  | some m => .ok m
  | none => .error (.mismatch (.unknownVariant s (all.map keyword)))

/-- A modifier is its keyword, or an object with the keyword for its one key, and null under it. -/
def decode : Fragment → Decoded AccessModifier
  | .string (some s) => decodeName s
  | .object ((some key, value) :: members) closed => do
      let m ← decodeName key
      match value with
      | .null => Json.demandWhole (closed && members.isEmpty)
      | f => f.refuse "unit"
      return m
  | _ => .error .malformed

/-- A modifier, or null for none. -/
def decodeOptional : Fragment → Decoded (Option AccessModifier)
  | .null => .ok none
  | f => return some (← decode f)

end AccessModifier

namespace Argument

/-- An argument some of whose fields were read. -/
structure Draft where
  type : Option Text := none
  name : Option Text := none

/-- Adds a member; one of another name is skipped, if it is JSON. -/
def Draft.add (d : Draft) (key : Text) (value : Fragment) : Decoded Draft := do
  if key = "type".toList then
    return { d with type := ← fillField "type" d.type Fragment.decodeString value }
  else if key = "name".toList then
    return { d with name := ← fillField "name" d.name Fragment.decodeString value }
  else
    Json.demandWhole value.isWhole
    return d

def Draft.finish (d : Draft) : Decoded Argument := do
  return ⟨← demandField "type" d.type, ← demandField "name" d.name⟩

def decodeElements (elements : List Fragment) (closed : Bool) : Decoded Argument := do
  let next := nextElement "struct Argument with 2 elements"
  let (e, elements) ← next 0 closed elements
  let type ← e.decodeString
  let (e, elements) ← next 1 closed elements
  let name ← e.decodeString
  Json.demandWhole (closed && elements.isEmpty)
  return ⟨type, name⟩

def decode : Fragment → Decoded Argument
  | .object members closed => do
      let draft ← Fragment.addMembers Draft.add {} members
      Json.demandWhole closed
      draft.finish
  | .array elements closed => decodeElements elements closed
  | f => f.refuse "struct Argument"

end Argument

namespace Signature

/-- A signature some of whose fields were read. -/
structure Draft where
  raw : Option Text := none
  modifier : Option (Option AccessModifier) := none
  returnType : Option Text := none
  methodName : Option Text := none
  arguments : Option (List Argument) := none

/-- Adds a member; one of another name is skipped, if it is JSON. -/
def Draft.add (d : Draft) (key : Text) (value : Fragment) : Decoded Draft := do
  if key = "raw_signature".toList then
    return { d with raw := ← fillField "raw_signature" d.raw Fragment.decodeString value }
  else if key = "access_modifier".toList then
    return { d with
      modifier := ← fillField "access_modifier" d.modifier AccessModifier.decodeOptional value }
  else if key = "return_type".toList then
    return { d with
      returnType := ← fillField "return_type" d.returnType Fragment.decodeString value }
  else if key = "method_name".toList then
    return { d with
      methodName := ← fillField "method_name" d.methodName Fragment.decodeString value }
  else if key = "arguments".toList then
    return { d with
      arguments :=
        ← fillField "arguments" d.arguments (Fragment.decodeArray Argument.decode) value }
  else
    Json.demandWhole value.isWhole
    return d

/-- The signature, if no field is missing; a missing modifier is none. -/
def Draft.finish (d : Draft) : Decoded Signature := do
  let raw ← demandField "raw_signature" d.raw
  let returnType ← demandField "return_type" d.returnType
  let methodName ← demandField "method_name" d.methodName
  let arguments ← demandField "arguments" d.arguments
  return ⟨raw, d.modifier.getD none, returnType, methodName, arguments⟩

/-- Reads the fields by position; none of them may be missing. -/
def decodeElements (elements : List Fragment) (closed : Bool) : Decoded Signature := do
  let next := nextElement "struct MethodSignature with 5 elements"
  let (e, elements) ← next 0 closed elements
  let raw ← e.decodeString
  let (e, elements) ← next 1 closed elements
  let modifier ← AccessModifier.decodeOptional e
  let (e, elements) ← next 2 closed elements
  let returnType ← e.decodeString
  let (e, elements) ← next 3 closed elements
  let methodName ← e.decodeString
  let (e, elements) ← next 4 closed elements
  let arguments ← e.decodeArray Argument.decode
  Json.demandWhole (closed && elements.isEmpty)
  return ⟨raw, modifier, returnType, methodName, arguments⟩

def decode : Fragment → Decoded Signature
  | .object members closed => do
      let draft ← Fragment.addMembers Draft.add {} members
      Json.demandWhole closed
      draft.finish
  | .array elements closed => decodeElements elements closed
  | f => f.refuse "struct MethodSignature"

end Signature

end SignatureLine
