import TrialControl.Binary64.Text
import TrialControl.Logging.Pattern

/-!
# Filters

A filter is a list of directives between commas: a level, or `target[span{field=value}]=level`
with any of its parts left out. The places of the parts are counted without the blanks around a
directive, but the parts are read in the text with them.
-/

namespace TrialControl.Logging

/-- Whether a text names a level, in letters of any case or as a number up to five. -/
def isLevel (cs : List Char) : Bool :=
  ["off", "error", "warn", "info", "debug", "trace"].contains (String.ofList (cs.map Char.toLower)) ||
    match cs with
    | '+' :: digits => isLevelNumber digits
    | digits => isLevelNumber digits
where
  isLevelNumber (digits : List Char) : Bool :=
    !digits.isEmpty && digits.all Char.isDigit && Text.digitsValue digits ≤ 5

/-- Whether a text is a field, alone or with a number or a pattern as its value. What follows a second
equals sign is passed over. -/
def isField (cs : List Char) : Bool :=
  match cs.splitOn '=' with
  | _ :: value :: _ => (Binary64.ofText? (String.ofList value)).isSome || Pattern.isReadable value
  | _ => !cs.isEmpty

/-- What is read of a directive; numbers are the places at which parts begin. -/
inductive DirectivePart where
  | start
  | target
  | span
  | field (place : Nat)
  /-- Behind the fields of a span. -/
  | fields
  | spanned
  | level (place : Nat)

def beginsTarget (c : Char) : Bool := c = '-' || c = ':' || c = '_' || c.isDigit || Pattern.isLetter c

def DirectivePart.next? (directive : List Char) : DirectivePart → Char × Nat → Option DirectivePart
  | .start, ('[', _) => some .span
  | .start, (c, _) => if beginsTarget c then some .target else none
  | .target, ('=', i) => some (.level (i + 1))
  | .target, ('[', _) => some .span
  | .target, _ => some .target
  | .span, (']', _) => some .spanned
  | .span, ('\x7b', i) => some (.field (i + 1))
  | .span, _ => some .span
  | .field place, ('\x7d', i) => if isField ((directive.take i).drop place) then some .fields else none
  | .field place, _ => some (.field place)
  | .fields, (']', _) => some .spanned
  | .fields, _ => none
  | .spanned, ('=', i) => some (.level (i + 1))
  | .spanned, _ => none
  | .level place, _ => some (.level place)

/-- Whether a directive can end with a part. The level may be left out behind its equals sign. -/
def DirectivePart.isComplete (directive : List Char) : DirectivePart → Bool
  | .target | .spanned => true
  | .level place => (directive.drop place).isEmpty || isLevel (directive.drop place)
  | _ => false

def isDirective (directive : List Char) : Bool :=
  let chars := (Text.trim (String.ofList directive)).toList
  (chars.zipIdx.foldlM (DirectivePart.next? directive) DirectivePart.start).any (DirectivePart.isComplete directive)

/-- Whether a filter can be read; there may be nothing between two commas. -/
def isFilter (s : String) : Bool :=
  (s.toList.splitOn ',').all fun directive => directive.isEmpty || isDirective directive

end TrialControl.Logging
