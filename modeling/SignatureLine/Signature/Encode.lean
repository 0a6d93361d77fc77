import SignatureLine.Json.Value
import SignatureLine.Signature.Basic

/-!
# Records as JSON

The JSON values that modifiers, arguments and signatures are written as.
-/

namespace SignatureLine

def AccessModifier.encode (m : AccessModifier) : Json.Value :=
  .string m.keyword

def Argument.encode (a : Argument) : Json.Value :=
  .object [("type".toList, .string a.type), ("name".toList, .string a.name)]

/-- A signature is an object of its fields, a missing modifier being null. -/
def Signature.encode (s : Signature) : Json.Value :=
  .object
    [("raw_signature".toList, .string s.raw),
      ("access_modifier".toList, (s.modifier.map AccessModifier.encode).getD .null),
      ("return_type".toList, .string s.returnType),
      ("method_name".toList, .string s.methodName),
      ("arguments".toList, .array (s.arguments.map Argument.encode))]

end SignatureLine
