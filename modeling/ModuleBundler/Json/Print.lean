import ModuleBundler.Json.Basic
import ModuleBundler.Json.Literal

/-!
# Writing JSON

The compact form: no blanks between the tokens, members in their order.
-/

namespace ModuleBundler.Json

/-- A number in decimal notation. -/
def numberChars : JsonNumber → List Char
  | .whole n => (toString n).toList
  | .decimal m e => (toString m).toList ++ 'e' :: (toString e).toList

/-- A string value as a literal. A string that is no text is written as half of a surrogate pair. -/
def stringChars : Option String → List Char
  | some s => literalChars s.toList
  | none => "\"\\ud800\"".toList

mutual

/-- The compact form of a value. -/
def chars : Json → List Char
  | .null => "null".toList
  | .bool true => "true".toList
  | .bool false => "false".toList
  | .number n => numberChars n
  | .string s => stringChars s
  | .array [] => ['[', ']']
  | .array (v :: vs) => '[' :: (chars v ++ elementChars vs)
  | .object [] => ['\x7b', '\x7d']
  | .object ((k, v) :: ms) => '\x7b' :: (stringChars k ++ ':' :: (chars v ++ memberChars ms))

/-- The elements after the first one, and the closing bracket. -/
def elementChars : List Json → List Char
  | [] => [']']
  | v :: vs => ',' :: (chars v ++ elementChars vs)

/-- The members after the first one, and the closing brace. -/
def memberChars : List (Option String × Json) → List Char
  | [] => ['\x7d']
  | (k, v) :: ms => ',' :: (stringChars k ++ ':' :: (chars v ++ memberChars ms))

end

/-- The compact text of a value. -/
def print (v : Json) : String := String.ofList v.chars

end ModuleBundler.Json
