import TrialControl.Json.Basic

/-!
# JSON documents

A document is what a text says, and it has a value unless a part of it is void. Void are a number
beyond the finite range, a string with half of a character, a container that is nested too deep and
an object with a void name. Whoever passes over a void part does not mind it. A field that an object
names several times keeps all its values: a map takes the last of them, and a record refuses them.
-/

namespace TrialControl

inductive Document where
  | null
  | bool (value : Bool)
  | integer (value : Int)
  | float (value : Binary64)
  | text (value : String)
  | array (items : List Document)
  | object (fields : List (String × Document))
  /-- The values of one field, in order. -/
  | repeated (values : List Document)
  | void

namespace Document

instance : Inhabited Document := ⟨.void⟩

mutual
def value? : Document → Option Json
  | .null => some .null
  | .bool b => some (.bool b)
  | .integer i => some (.integer i)
  | .float x => some (.float x)
  | .text s => some (.text s)
  | .array ds => (values? ds).map .array
  | .object fs => (fieldValues? fs).map .object
  | .repeated ds => (values? ds).bind List.getLast?
  | .void => none
def values? : List Document → Option (List Json)
  | [] => some []
  | d :: ds => do return (← value? d) :: (← values? ds)
def fieldValues? : List (String × Document) → Option (List (String × Json))
  | [] => some []
  | (name, d) :: fs => do return (name, ← value? d) :: (← fieldValues? fs)
end

mutual
def ofJson : Json → Document
  | .null => .null
  | .bool b => .bool b
  | .integer i => .integer i
  | .float x => .float x
  | .text s => .text s
  | .array js => .array (ofItems js)
  | .object fs => .object (ofFields fs)
def ofItems : List Json → List Document
  | [] => []
  | j :: js => ofJson j :: ofItems js
def ofFields : List (String × Json) → List (String × Document)
  | [] => []
  | (name, j) :: fs => (name, ofJson j) :: ofFields fs
end

instance : Coe Json Document := ⟨ofJson⟩

mutual
@[simp] theorem value?_ofJson : (j : Json) → (ofJson j).value? = some j
  | .null | .bool _ | .integer _ | .float _ | .text _ => by simp [ofJson, value?]
  | .array js => by simp [ofJson, value?, values?_ofItems js]
  | .object fs => by simp [ofJson, value?, fieldValues?_ofFields fs]
theorem values?_ofItems : (js : List Json) → values? (ofItems js) = some js
  | [] => by simp [ofItems, values?]
  | j :: js => by simp [ofItems, values?, value?_ofJson j, values?_ofItems js]
theorem fieldValues?_ofFields : (fs : List (String × Json)) → fieldValues? (ofFields fs) = some fs
  | [] => by simp [ofFields, fieldValues?]
  | (name, j) :: fs => by simp [ofFields, fieldValues?, value?_ofJson j, fieldValues?_ofFields fs]
end

/-! ## Fields -/

/-- Another value of a field. -/
def also : Document → Document → Document
  | .repeated ds, d => .repeated (ds ++ [d])
  | e, d => .repeated [e, d]

/-- A field behind those that were read before. -/
def put (name : String) (d : Document) (fields : List (String × Document)) : List (String × Document) :=
  Table.place name (((Table.find name fields).map (·.also d)).getD d) fields

/-- What the last value of a field is read as, if every value can be read. -/
def last? {α : Type} (read : Document → Option α) : Document → Option α
  | .repeated ds => (ds.mapM read).bind List.getLast?
  | d => read d

def field? (name : String) : Document → Option Document
  | .object fields => Table.find name fields
  | _ => none

def field (d : Document) (name : String) : Document := (d.field? name).getD .null

end Document

end TrialControl
