import IngressGuard.Text.Digits
import IngressGuard.Text.Printable

/-!
# Quoted text in diagnostics

A text in diagnostics stands between double quotes, with quotes, backslashes and characters that
show nothing of themselves escaped.
-/

namespace IngressGuard.Text

/-- A character in quoted text. -/
def quotedChar (c : Char) : List Char :=
  match c with
  | '\x00' => ['\\', '0']
  | '\t' => ['\\', 't']
  | '\n' => ['\\', 'n']
  | '\r' => ['\\', 'r']
  | '"' => ['\\', '"']
  | '\\' => ['\\', '\\']
  | c => if isUnprintable c then '\\' :: 'u' :: '\x7b' :: digits 16 c.toNat ++ ['\x7d'] else [c]

/-- A text between double quotes. -/
def quoted (text : String) : String :=
  String.ofList ('"' :: text.toList.flatMap quotedChar ++ ['"'])

/-- A list of texts between brackets. -/
def bracketed (items : List String) : String := "[" ++ ", ".intercalate items ++ "]"

/-- A list of texts between braces. -/
def braced (items : List String) : String := "\x7b" ++ ", ".intercalate items ++ "\x7d"

end IngressGuard.Text
