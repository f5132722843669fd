import TrialControl.Json.Number
import TrialControl.Text.Digits
import TrialControl.Text.Surrogate

/-!
# Reading JSON

A document is read one character at a time. The reader holds what it is in the middle of (a string, a
number, a word, or nothing), the containers that are open, and what may come next. A container within
127 others is void.
-/

namespace TrialControl

namespace Json

/-- What the reader is in the middle of; characters and code units are kept last first. -/
inductive Piece where
  | blank
  | word (chars : List Char)
  | number (chars : List Char)
  | text (units : List Nat)
  | escape (units : List Nat)
  /-- After `\u`: digits still to come and the value so far. -/
  | code (units : List Nat) (missing value : Nat)

/-- An open container; a void name leaves an object without fields. -/
inductive Open where
  | array (items : List Document)
  | object (fields : Option (List (String × Document))) (name : Option String)

inductive Next where
  | value
  | firstItem
  | firstName
  | name
  | colon
  | separator
  | nothing
deriving DecidableEq

structure Reader where
  piece : Piece
  stack : List Open
  next : Next
  result : Document

def Reader.start : Reader := ⟨.blank, [], .value, .null⟩

def maxDepth : Nat := 127

/-- A complete value where a value may stand. -/
def Reader.value (r : Reader) (d : Document) : Option Reader :=
  if r.next = .value ∨ r.next = .firstItem then
    match r.stack with
    | [] => some { r with next := .nothing, result := d }
    | .array items :: stack => some { r with stack := .array (d :: items) :: stack, next := .separator }
    | .object fields name :: stack =>
      let fields := do return Document.put (← name) d (← fields)
      some { r with stack := .object fields name :: stack, next := .separator }
  else none

/-- A string: a name in front of a colon, or a value. -/
def Reader.string (r : Reader) (s : Option String) : Option Reader :=
  if r.next = .name ∨ r.next = .firstName then
    match r.stack with
    | .object fields _ :: stack => some { r with stack := .object fields s :: stack, next := .colon }
    | _ => none
  else r.value (s.elim .void .text)

def Reader.open (r : Reader) (o : Open) (next : Next) : Option Reader :=
  if r.next = .value ∨ r.next = .firstItem then some { r with stack := o :: r.stack, next } else none

def Reader.close (r : Reader) (d : Document) (outer : List Open) : Option Reader :=
  { r with stack := outer, next := .value }.value (if (outer.drop (maxDepth - 1)).isEmpty then d else .void)

def Reader.closeArray (r : Reader) : Option Reader :=
  match r.stack with
  | .array items :: stack =>
    if r.next = .separator ∨ r.next = .firstItem then r.close (.array items.reverse) stack else none
  | _ => none

def Reader.closeObject (r : Reader) : Option Reader :=
  match r.stack with
  | .object fields _ :: stack =>
    if r.next = .separator ∨ r.next = .firstName then r.close (fields.elim .void .object) stack else none
  | _ => none

def Reader.comma (r : Reader) : Option Reader :=
  if r.next = .separator then
    match r.stack with
    | .array _ :: _ => some { r with next := .value }
    | .object .. :: _ => some { r with next := .name }
    | [] => none
  else none

def Reader.word (r : Reader) (chars : List Char) : Option Reader :=
  if chars = ['l', 'l', 'u', 'n'] then r.value .null
  else if chars = ['e', 'u', 'r', 't'] then r.value (.bool true)
  else if chars = ['e', 's', 'l', 'a', 'f'] then r.value (.bool false)
  else none

def Reader.between (r : Reader) (c : Char) : Option Reader :=
  let r := { r with piece := .blank }
  match c with
  | ' ' | '\t' | '\n' | '\r' => some r
  | '[' => r.open (.array []) .firstItem
  | ']' => r.closeArray
  | '\x7b' => r.open (.object (some []) none) .firstName
  | '\x7d' => r.closeObject
  | ',' => r.comma
  | ':' => if r.next = .colon then some { r with next := .value } else none
  | '"' => some { r with piece := .text [] }
  | '-' => some { r with piece := .number ['-'] }
  | c =>
    if c.isDigit then some { r with piece := .number [c] }
    else if c.isAlpha then some { r with piece := .word [c] }
    else none

def escaped? : Char → Option Char
  | '"' => some '"'
  | '\\' => some '\\'
  | '/' => some '/'
  | 'b' => some '\x08'
  | 'f' => some '\x0c'
  | 'n' => some '\n'
  | 'r' => some '\r'
  | 't' => some '\t'
  | _ => none

/-- A character inside a string, and the string itself at its end. -/
def Reader.inside (r : Reader) (c : Char) : Option Reader :=
  match r.piece with
  | .text units =>
    if c = '"' then { r with piece := .blank }.string ((Text.spelled? units []).map String.ofList)
    else if c = '\\' then some { r with piece := .escape units }
    else if c.toNat < 0x20 then none
    else some { r with piece := .text (c.toNat :: units) }
  | .escape units =>
    if c = 'u' then some { r with piece := .code units 4 0 }
    else (escaped? c).map fun d => { r with piece := .text (d.toNat :: units) }
  | .code units missing value => do
    let value := 16 * value + (← Text.hexValue? c)
    some { r with piece := if missing ≤ 1 then .text (value :: units) else .code units (missing - 1) value }
  | _ => none

def isNumberChar (c : Char) : Bool := c.isDigit || c = '.' || c = '-' || c = '+' || c = 'e' || c = 'E'

/-- One character. A number or a word ends at the first character that cannot belong to it. -/
def Reader.step (r : Reader) (c : Char) : Option Reader :=
  match r.piece with
  | .blank => r.between c
  | .word chars =>
    if c.isAlpha then some { r with piece := .word (c :: chars) }
    else do (← r.word chars).between c
  | .number chars =>
    if isNumberChar c then some { r with piece := .number (c :: chars) }
    else do (← r.value (← readNumber chars.reverse)).between c
  | _ => r.inside c

def Reader.finish (r : Reader) : Option Document := do
  let r ← r.step ' '
  match r.piece with
  | .blank => if r.next = .nothing then some r.result else none
  | _ => none

end Json

def Document.ofText? (s : String) : Option Document := do
  (← s.toList.foldlM Json.Reader.step Json.Reader.start).finish

def Json.ofText? (s : String) : Option Json := (Document.ofText? s).bind Document.value?

end TrialControl
