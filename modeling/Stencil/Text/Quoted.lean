import Stencil.Number.Digits
import Stencil.Text.Ranges
import Stencil.Text.Unseen
set_option autoImplicit false

namespace Stencil.Text

def isUnseen (c : Char) : Bool := c.toNat < 32 || (127 ≤ c.toNat && inRanges unseen c)

def quoteChar (c : Char) : List Char :=
  match c with
  | '\x00' => ['\\', '0']
  | '\t' => ['\\', 't']
  | '\n' => ['\\', 'n']
  | '\r' => ['\\', 'r']
  | '"' => ['\\', '"']
  | '\\' => ['\\', '\\']
  | c => if isUnseen c then '\\' :: 'u' :: '\x7b' :: Decimal.hexDigits c.toNat ++ ['\x7d'] else [c]

def quoted (s : String) : String := String.ofList ('"' :: s.toList.flatMap quoteChar ++ ['"'])

end Stencil.Text
