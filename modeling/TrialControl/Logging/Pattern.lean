import TrialControl.Text.Blank
import TrialControl.Text.Digits

/-!
# Patterns

The value of a field in a filter is a regular expression. `Pattern.isReadable` tells which texts are
one that can be matched by a finite automaton. A pattern stands between braces, so it has no closing
brace, and what an opening brace begins is never ended. Word boundaries, classes with a name of one
letter and letters of either case are known for ASCII only: they need a mode without Unicode, in
which nothing may match a part of a character beyond ASCII.
-/

namespace TrialControl

/-- How a pattern is read. Flags change it up to the end of their group. -/
structure PatternMode where
  /-- Whether letters match in either case. -/
  folds : Bool
  unicode : Bool
  /-- Whether blanks and comments are passed over. -/
  spaced : Bool

namespace PatternMode

def standard : PatternMode := ⟨false, true, false⟩

def skipBlanks (inComment : Bool) : List Char → List Char
  | [] => []
  | c :: cs =>
    if inComment then skipBlanks (c ≠ '\n') cs
    else if c = '#' then skipBlanks true cs
    else if Text.isBlank c then skipBlanks false cs
    else c :: cs

def skip (m : PatternMode) (cs : List Char) : List Char := if m.spaced then skipBlanks false cs else cs

/-- The mode after flags; those behind a hyphen are turned off. -/
def change (m : PatternMode) (flags : List Char) : PatternMode :=
  let flag (f : Char) (old : Bool) :=
    if flags.contains f then (flags.takeWhile (· ≠ '-')).contains f else old
  ⟨flag 'i' m.folds, flag 'u' m.unicode, flag 'x' m.spaced⟩

end PatternMode

namespace Pattern

/-! ## Symbols -/

inductive Symbol where
  | char (c : Char)
  | byte (n : Nat)
  | any
  | boundary
  | wordBoundary
  /-- The digits, blanks or word characters, or all others. -/
  | named (negated : Bool)

def Symbol.char? : Symbol → Option Char
  | .char c => some c
  | .byte n => some (.ofNat n)
  | _ => none

def Symbol.stands (m : PatternMode) : Symbol → Bool
  | .char _ => !(m.unicode && m.folds)
  | .byte n => if m.unicode then !m.folds else n < 0x80
  | .any => m.unicode
  | .boundary => true
  | .wordBoundary => !m.unicode
  | .named negated => !m.unicode && !negated

def Symbol.isItem (m : PatternMode) : Symbol → Bool
  | .char c => m.unicode || c.toNat < 0x80
  | .byte n => m.unicode || n < 0x80
  | .named negated => !m.unicode && !negated
  | _ => false

def hexadecimal? (m : PatternMode) : Nat → Nat → List Char → Option (Nat × List Char)
  | 0, value, cs => some (value, cs)
  | count + 1, value, cs =>
    match m.skip cs with
    | c :: cs => do hexadecimal? m count (16 * value + (← Text.hexValue? c)) cs
    | [] => none

/-- What a backslash and a character that is not followed by digits stand for. -/
def escaped? : Char → Option Symbol
  | 'a' => some (.char '\x07')
  | 'f' => some (.char '\x0c')
  | 'n' => some (.char '\n')
  | 'r' => some (.char '\r')
  | 't' => some (.char '\t')
  | 'v' => some (.char '\x0b')
  | 'd' | 's' | 'w' => some (.named false)
  | 'D' | 'S' | 'W' => some (.named true)
  | 'A' | 'z' => some .boundary
  | 'b' | 'B' | '<' | '>' => some .wordBoundary
  | c => if c.toNat < 0x80 && !c.isAlphanum then some (.char c) else none

def ofNat? (n : Nat) : Option Symbol := if n.isValidChar then some (.char (.ofNat n)) else none

def escape? (m : PatternMode) : List Char → Option (Symbol × List Char)
  | 'x' :: cs => (hexadecimal? m 2 0 cs).map fun (n, cs) => (.byte n, cs)
  | 'u' :: cs => do let (n, cs) ← hexadecimal? m 4 0 cs; return (← ofNat? n, cs)
  | 'U' :: cs => do let (n, cs) ← hexadecimal? m 8 0 cs; return (← ofNat? n, cs)
  | c :: cs => (escaped? c).map (·, cs)
  | [] => none

def symbol? (m : PatternMode) : List Char → Option (Symbol × List Char)
  | '\\' :: cs => escape? m cs
  | '.' :: cs => some (.any, cs)
  | '^' :: cs | '$' :: cs => some (.boundary, cs)
  | c :: cs => some (.char c, cs)
  | [] => none

def depthOf : List Nat → Nat
  | [] => 0
  | [d] => d
  | ds => 1 + ds.foldl max 0

/-! ## Classes -/

/-- A set of characters: its depth, and whether it has the bytes beyond ASCII, all or none of them. -/
structure Extent where
  depth : Nat
  beyond : Bool

structure OpenClass where
  negated : Bool
  /-- Whether only hyphens were read. -/
  fresh : Bool := true
  /-- What stands before an operator, and the operator. -/
  left : Option (Extent × Char) := none
  items : List Extent := []

namespace OpenClass

def add (c : OpenClass) (e : Extent) : OpenClass := { c with items := e :: c.items }

/-- Adds characters of ASCII, or of any kind in a mode with Unicode. -/
def addPlain (c : OpenClass) : OpenClass := c.add ⟨0, false⟩

def extent (c : OpenClass) : Extent :=
  let right : Extent := ⟨depthOf (c.items.map (·.depth)), c.items.any (·.beyond)⟩
  match c.left with
  | none => right
  | some (left, operator) =>
    ⟨1 + max left.depth right.depth,
      match operator with
      | '&' => left.beyond && right.beyond
      | '-' => left.beyond && !right.beyond
      | _ => left.beyond != right.beyond⟩

def operate (c : OpenClass) (operator : Char) : OpenClass :=
  { c with left := some (c.extent, operator), items := [] }

def close? (c : OpenClass) (m : PatternMode) : Option Extent :=
  let e := c.extent
  let beyond := c.negated != e.beyond
  if m.unicode || !beyond then some ⟨1 + e.depth, beyond⟩ else none

end OpenClass

def openClass (m : PatternMode) (cs : List Char) : OpenClass × List Char :=
  match m.skip cs with
  | '^' :: cs => ({ negated := true }, cs)
  | cs => ({ negated := false }, cs)

def classNames : List String :=
  ["alnum", "alpha", "ascii", "blank", "cntrl", "digit", "graph", "lower", "print", "punct", "space", "upper",
    "word", "xdigit"]

/-- A class with a name between colons, without its first bracket: whether it is negated, and the rest. -/
def namedClass? : List Char → Option (Bool × List Char)
  | ':' :: cs =>
    let (negated, cs) := match cs with
      | '^' :: cs => (true, cs)
      | cs => (false, cs)
    let name := cs.takeWhile (· ≠ ':')
    match cs.drop name.length with
    | ':' :: ']' :: cs => if classNames.contains (String.ofList name) then some (negated, cs) else none
    | _ => none
  | _ => none

def item? (m : PatternMode) : List Char → Option (Symbol × List Char)
  | '\\' :: cs => escape? m cs
  | c :: cs => some (.char c, cs)
  | [] => none

/-- What follows an item of a class or a range. A hyphen before a bracket or a hyphen makes no range. -/
def range? (m : PatternMode) (cs : List Char) : Option (List Char) := do
  let (first, rest) ← item? m cs
  if !first.isItem m then none
  else
    let rest := m.skip rest
    match rest with
    | '-' :: next =>
      let next := m.skip next
      if next.head? = some ']' ∨ next.head? = some '-' then some rest
      else
        let (last, rest) ← item? m next
        if last.isItem m && (← first.char?) ≤ (← last.char?) then some rest else none
    | _ => some rest

/-- The rest of a class and of the classes around it. -/
def readClass (m : PatternMode) : Nat → OpenClass → List OpenClass → List Char → Option (Extent × List Char)
  | 0, _, _, _ => none
  | fuel + 1, c, outer, cs =>
    let cs := m.skip cs
    if c.fresh && cs.head? = some '-' then readClass m fuel c.addPlain outer cs.tail
    else if c.fresh && c.items.isEmpty && cs.head? = some ']' then
      readClass m fuel { c.addPlain with fresh := false } outer cs.tail
    else
      let c := { c with fresh := false }
      match cs with
      | ']' :: cs => do
        let e ← c.close? m
        match outer with
        | [] => some (e, cs)
        | o :: outer => readClass m fuel (o.add e) outer cs
      | '[' :: cs =>
        match namedClass? cs with
        | some (negated, cs) => readClass m fuel (c.add ⟨0, negated⟩) outer cs
        | none =>
          let (inner, cs) := openClass m cs
          readClass m fuel inner (c :: outer) cs
      | '&' :: '&' :: cs => readClass m fuel (c.operate '&') outer cs
      | '-' :: '-' :: cs => readClass m fuel (c.operate '-') outer cs
      | '~' :: '~' :: cs => readClass m fuel (c.operate '~') outer cs
      | cs => do readClass m fuel c.addPlain outer (← range? m cs)

/-! ## Groups -/

inductive Opening where
  | group (m : PatternMode)
  | name (name : List Char)
  /-- No group: flags for the rest of the group around it. -/
  | flags (m : PatternMode)

/-- Whether a character is a letter, in the blocks of letters beyond ASCII. -/
def isLetter (c : Char) : Bool :=
  let n := c.toNat
  c.isAlpha || n == 0xaa || n == 0xb5 || n == 0xba || (0xc0 ≤ n && n < 0x2000 && n != 0xd7 && n != 0xf7) ||
  (0x2c00 ≤ n && n < 0x2e00) || (0x3005 ≤ n && n < 0xe000) || (0xf900 ≤ n && n < 0xffe0) ||
  (0x10000 ≤ n && n < 0x1f000) || (0x20000 ≤ n && n < 0x40000)

def areFlags (flags : List Char) : Bool :=
  flags.all "imsURux-".toList.contains && decide flags.Nodup && flags.getLast? != some '-'

def name? (cs : List Char) : Option (Opening × List Char) :=
  let name := cs.takeWhile (· ≠ '>')
  match name, cs.drop name.length with
  | c :: rest, '>' :: cs =>
    if (c == '_' || isLetter c) && rest.all (fun c => "_.[]".toList.contains c || c.isDigit || isLetter c) then
      some (.name name, cs)
    else none
  | _, _ => none

def opening? (m : PatternMode) (cs : List Char) : Option (Opening × List Char) :=
  match m.skip cs with
  | '?' :: 'P' :: '<' :: cs => name? cs
  | '?' :: '<' :: cs => name? cs
  | '?' :: cs =>
    let flags := cs.takeWhile fun c => c ≠ ':' ∧ c ≠ ')'
    if !areFlags flags then none
    else match cs.drop flags.length with
      | ':' :: cs => some (.group (m.change flags), cs)
      | ')' :: cs => if flags.isEmpty then none else some (.flags (m.change flags), cs)
      | _ => none
  | cs => some (.group m, cs)

structure OpenGroup where
  mode : PatternMode
  /-- The depths of the alternatives that are complete. -/
  branches : List Nat := []
  /-- The depths of the parts of the last alternative, in reverse; none for flags. -/
  parts : List (Option Nat) := []

namespace OpenGroup

def add (g : OpenGroup) (depth : Nat) : OpenGroup := { g with parts := some depth :: g.parts }

def branch (g : OpenGroup) : Nat := depthOf (g.parts.map (·.getD 0))

def depth (g : OpenGroup) : Nat := depthOf (g.branch :: g.branches)

end OpenGroup

/-! ## Patterns -/

def deepest : Nat := 250

/-- Whether the rest of a pattern can be read, after names of groups. -/
def read : Nat → List (List Char) → OpenGroup → List OpenGroup → List Char → Bool
  | 0, _, _, _, _ => false
  | fuel + 1, names, g, outer, cs =>
    match g.mode.skip cs with
    | [] => outer.isEmpty && g.depth ≤ deepest
    | '(' :: cs =>
      match opening? g.mode cs with
      | some (.group mode, cs) => read fuel names { mode } (g :: outer) cs
      | some (.name name, cs) =>
        !names.contains name && read fuel (name :: names) { mode := g.mode } (g :: outer) cs
      | some (.flags mode, cs) => read fuel names { g with mode, parts := none :: g.parts } outer cs
      | none => false
    | ')' :: cs =>
      match outer with
      | o :: outer => read fuel names (o.add (1 + g.depth)) outer cs
      | [] => false
    | '|' :: cs => read fuel names { g with branches := g.branch :: g.branches, parts := [] } outer cs
    | '*' :: cs | '+' :: cs | '?' :: cs =>
      match g.parts with
      | some depth :: parts =>
        let cs := if cs.head? = some '?' then cs.tail else cs
        read fuel names { g with parts := some (1 + depth) :: parts } outer cs
      | _ => false
    | '\x7b' :: _ => false
    | '[' :: cs =>
      let (c, cs) := openClass g.mode cs
      match readClass g.mode fuel c [] cs with
      | some (e, cs) => !(g.mode.unicode && g.mode.folds) && read fuel names (g.add e.depth) outer cs
      | none => false
    | cs =>
      match symbol? g.mode cs with
      | some (s, cs) => s.stands g.mode && read fuel names (g.add 0) outer cs
      | none => false

def isReadable (cs : List Char) : Bool := read (cs.length + 1) [] { mode := .standard } [] cs

end Pattern

end TrialControl
