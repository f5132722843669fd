import TrialControl.Json.Number

/-!
# Writing JSON

Documents are written without blanks. In a string the quote, the backslash and the controls below
the space are escaped; a floating point number that is not finite is written as `null`.
-/

namespace TrialControl.Json

def hexDigit (n : Nat) : Char := ((Nat.toDigits 16 n).head?).getD '0'

def escapeChar (c : Char) : List Char :=
  match c with
  | '"' => ['\\', '"']
  | '\\' => ['\\', '\\']
  | '\n' => ['\\', 'n']
  | '\r' => ['\\', 'r']
  | '\t' => ['\\', 't']
  | '\x08' => ['\\', 'b']
  | '\x0c' => ['\\', 'f']
  | c =>
    if c.toNat < 0x20 then ['\\', 'u', '0', '0', hexDigit (c.toNat / 16), hexDigit (c.toNat % 16)] else [c]

def stringText (s : String) : String :=
  String.ofList ('"' :: s.toList.flatMap escapeChar ++ ['"'])

mutual
def render : Json → String
  | .null => "null"
  | .bool true => "true"
  | .bool false => "false"
  | .integer i => toString i
  | .float (.finite x) => String.ofList (floatChars x)
  | .float _ => "null"
  | .text s => stringText s
  | .array items => "[" ++ renderItems items ++ "]"
  | .object fields => "\x7b" ++ renderFields fields ++ "\x7d"
def renderItems : List Json → String
  | [] => ""
  | [j] => render j
  | j :: js => render j ++ "," ++ renderItems js
def renderFields : List (String × Json) → String
  | [] => ""
  | [(name, j)] => stringText name ++ ":" ++ render j
  | (name, j) :: fs => stringText name ++ ":" ++ render j ++ "," ++ renderFields fs
end

end TrialControl.Json
