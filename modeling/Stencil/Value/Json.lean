import Stencil.Value.Basic
set_option autoImplicit false

namespace Stencil

namespace Text

def jsonEscape (c : Char) : List Char :=
  match c with
  | '"' => ['\\', '"']
  | '\\' => ['\\', '\\']
  | '\x08' => ['\\', 'b']
  | '\x0c' => ['\\', 'f']
  | '\n' => ['\\', 'n']
  | '\r' => ['\\', 'r']
  | '\t' => ['\\', 't']
  | c =>
    if c.toNat < 32 then
      ['\\', 'u', '0', '0', Decimal.hexDigit (c.toNat / 16), Decimal.hexDigit (c.toNat % 16)]
    else [c]

def jsonQuote (s : String) : String :=
  String.ofList ('"' :: s.toList.flatMap jsonEscape ++ ['"'])

end Text

namespace Value

mutual

def json : Value → String
  | .null => "null"
  | .bool b => if b then "true" else "false"
  | .number n => n.json
  | .string s => Text.jsonQuote s
  | .array items => "[" ++ ",".intercalate (jsonItems items) ++ "]"
  | .object fields => "\x7b" ++ ",".intercalate (jsonFields fields) ++ "\x7d"

def jsonItems : List Value → List String
  | [] => []
  | x :: xs => json x :: jsonItems xs

def jsonFields : List (String × Value) → List String
  | [] => []
  | (k, x) :: xs => (Text.jsonQuote k ++ ":" ++ json x) :: jsonFields xs

end

end Value

end Stencil
