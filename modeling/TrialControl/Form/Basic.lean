import TrialControl.Json.Document
import TrialControl.Time.Stamp

/-!
# JSON forms

The form of a type says how its values are written as JSON and which documents are read back. A record
is an object; fields that it does not have are passed over, even void ones, and an absent field reads as
`null` unless the record has a default for it; one of its own fields must not be named twice. The values of its first fields in an array, in the order of
their declaration, are read as well. A name of an enumeration is a text, or the only field of an object with
the value `null`.
-/

namespace TrialControl

class Form (α : Type) where
  encode : α → Json
  decode? : Document → Option α

export Form (encode decode?)

/-- A field that is left out when there is no value. -/
def Json.present {α : Type} [Form α] (name : String) (o : Option α) : List (String × Json) :=
  o.toList.map fun a => (name, encode a)

namespace Document

def object? {α : Type} (d : Document) (read : Document → Option α) : Option α :=
  match d with
  | .object _ => read d
  | _ => none

/-- A record with fields of given names. -/
def record? {α : Type} (d : Document) (names : List String) (read : Document → Option α) : Option α :=
  match d with
  | .object _ => read d
  | .array ds => if ds.length ≤ names.length then read (.object (names.zip ds)) else none
  | _ => none

def get? {α : Type} [Form α] (d : Document) (name : String) : Option α := decode? (d.field name)

/-- A field with a value to take where it is absent. -/
def getOr? {α : Type} [Form α] (d : Document) (name : String) (default : α) : Option α :=
  match d.field? name with
  | some v => decode? v
  | none => some default

def tag? : Document → Option String
  | .text s => some s
  | .object [(s, .null)] => some s
  | _ => none

/-- The integer that a number denotes if it lies between two bounds. -/
def integerWithin? (least greatest : Int) : Document → Option Int
  | .integer i => if least ≤ i ∧ i ≤ greatest then some i else none
  | _ => none

end Document

/-! ## Forms of plain values -/

instance : Form Json where
  encode := id
  decode?
    | .repeated _ => none
    | d => d.value?

instance : Form Bool where
  encode := .bool
  decode?
    | .bool b => some b
    | _ => none

instance : Form String where
  encode := .text
  decode?
    | .text s => some s
    | _ => none

instance : Form UInt64 where
  encode n := .integer n.toNat
  decode? d := (d.integerWithin? 0 18_446_744_073_709_551_615).map fun i => .ofNat i.toNat

instance : Form UInt32 where
  encode n := .integer n.toNat
  decode? d := (d.integerWithin? 0 4_294_967_295).map fun i => .ofNat i.toNat

instance : Form UInt16 where
  encode n := .integer n.toNat
  decode? d := (d.integerWithin? 0 65_535).map fun i => .ofNat i.toNat

instance : Form Int32 where
  encode n := .integer n.toInt
  decode? d := (d.integerWithin? (-2_147_483_648) 2_147_483_647).map Int32.ofInt

instance {α : Type} [Form α] : Form (Option α) where
  encode
    | none => .null
    | some a => encode a
  decode?
    | .null => some none
    | d => (decode? d).map some

instance {α : Type} [Form α] : Form (List α) where
  encode as := .array (as.map encode)
  decode?
    | .array ds => ds.mapM decode?
    | _ => none

/-- A map with texts as keys is an object; of several values of one key the last counts. -/
instance {α : Type} [Form α] : Form (Table String α) where
  encode t := .object (t.entries.map fun e => (e.1, encode e.2))
  decode?
    | .object fs => (fs.mapM fun f => (Document.last? decode? f.2).map fun v => (f.1, v)).map Table.ofList
    | _ => none

/-! ## Forms of times -/

instance : Form Instant where
  encode t := .text t.text
  decode?
    | .text s => Instant.ofText? s
    | _ => none

/-- A duration has no other fields, and nanoseconds of more than a second are carried. -/
instance : Form Duration where
  encode d := .ofFields [("secs", encode d.seconds), ("nanos", encode d.subNanos)]
  decode? d := d.record? ["secs", "nanos"] fun
    | .object fs => do
      let seconds : UInt64 ← d.get? "secs"
      let nanos : UInt32 ← d.get? "nanos"
      if fs.all fun f => f.1 = "secs" ∨ f.1 = "nanos" then
        Duration.ofNanos? (seconds.toNat * 1_000_000_000 + nanos.toNat)
      else none
    | _ => none

end TrialControl
