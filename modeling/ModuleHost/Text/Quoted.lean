/-
Text in quotes, as diagnostics show it.

A quote and a backslash are preceded by a backslash, four control characters have
short names, and every other character without a visible form is written by its
code point in hexadecimal.
-/
import ModuleHost.Text.Invisible

namespace ModuleHost

namespace Quoted

/-- A code point in lower-case hexadecimal between braces. -/
def codePoint (c : Char) : List Char :=
  ['\\', 'u', '\x7b'] ++ Nat.toDigits 16 c.toNat ++ ['\x7d']

/-- The quoted form of one character. -/
def char (c : Char) : List Char :=
  match c with
  | '\x00' => ['\\', '0']
  | '\t' => ['\\', 't']
  | '\n' => ['\\', 'n']
  | '\r' => ['\\', 'r']
  | '"' => ['\\', '"']
  | '\\' => ['\\', '\\']
  | c => if c.toNat < 0x7f && 0x20 ≤ c.toNat then [c]
    else if Invisible.contains c then codePoint c else [c]

/-- A string in quotes. -/
def string (s : String) : String :=
  String.ofList ('"' :: s.toList.flatMap char ++ ['"'])

end Quoted

end ModuleHost
