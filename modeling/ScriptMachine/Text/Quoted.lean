import ScriptMachine.Text.Visible

/-!
# Quoted text

Diagnostics put text between double quotes. A quote, a backslash and the common control characters
are written with a backslash, and a character without a visible form of its own is written as its
code point in hexadecimal.
-/

namespace ScriptMachine.Quoted

/-- The code point of a character in lower-case hexadecimal, in braces. -/
def codePoint (c : Char) : List Char :=
  ['\\', 'u', '\x7b'] ++ Nat.toDigits 16 c.toNat ++ ['\x7d']

/-- The written form of one character. -/
def escape (c : Char) : List Char :=
  match c with
  | '\x00' => ['\\', '0']
  | '\t' => ['\\', 't']
  | '\n' => ['\\', 'n']
  | '\r' => ['\\', 'r']
  | '"' => ['\\', '"']
  | '\\' => ['\\', '\\']
  | c => if Text.isVisible c then [c] else codePoint c

/-- Text between double quotes. -/
def encode (text : String) : String :=
  String.ofList ('"' :: text.toList.flatMap escape ++ ['"'])

end ScriptMachine.Quoted
