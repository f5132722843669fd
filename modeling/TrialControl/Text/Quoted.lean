import TrialControl.Text.Standalone

/-!
# Quoted text

A quoted text stands between double quotes. The quote, the backslash and the usual controls have
short escapes, every other character that does not stand alone is written by its code point, and
the rest is written as it is.
-/

namespace TrialControl.Text

def hexDigits (n : Nat) : List Char := Nat.toDigits 16 n

def escape (c : Char) : List Char :=
  match c with
  | '\x00' => ['\\', '0']
  | '\t' => ['\\', 't']
  | '\n' => ['\\', 'n']
  | '\r' => ['\\', 'r']
  | '\\' => ['\\', '\\']
  | '"' => ['\\', '"']
  | c => if isStandalone c then [c] else ['\\', 'u', '\x7b'] ++ hexDigits c.toNat ++ ['\x7d']

def quoted (s : String) : String :=
  String.ofList ('"' :: s.toList.flatMap escape ++ ['"'])

end TrialControl.Text
