import TrialControl.Binary64.Basic
import TrialControl.Table

/-!
# JSON values

The fields of an object are kept in ascending order of their names, so that two documents with the
same content are the same value. A number is an integer or a binary floating point number; `0` and
`0.0` differ.
-/

namespace TrialControl

inductive Json where
  | null
  | bool (value : Bool)
  | integer (value : Int)
  | float (value : Binary64)
  | text (value : String)
  | array (items : List Json)
  | object (fields : List (String × Json))

namespace Json

instance : Inhabited Json := ⟨.null⟩

/-! ## Equality -/

mutual
def decEq : (a b : Json) → Decidable (a = b)
  | .null, .null => isTrue rfl
  | .bool a, .bool b => decidable_of_iff (a = b) (by simp)
  | .integer a, .integer b => decidable_of_iff (a = b) (by simp)
  | .float a, .float b => decidable_of_iff (a = b) (by simp)
  | .text a, .text b => decidable_of_iff (a = b) (by simp)
  | .array a, .array b => @decidable_of_iff _ (a = b) (by simp) (decEqItems a b)
  | .object a, .object b => @decidable_of_iff _ (a = b) (by simp) (decEqFields a b)
  | .null, .bool _ | .null, .integer _ | .null, .float _ | .null, .text _ | .null, .array _ | .null, .object _
  | .bool _, .null | .bool _, .integer _ | .bool _, .float _ | .bool _, .text _ | .bool _, .array _
  | .bool _, .object _ | .integer _, .null | .integer _, .bool _ | .integer _, .float _ | .integer _, .text _
  | .integer _, .array _ | .integer _, .object _ | .float _, .null | .float _, .bool _ | .float _, .integer _
  | .float _, .text _ | .float _, .array _ | .float _, .object _ | .text _, .null | .text _, .bool _
  | .text _, .integer _ | .text _, .float _ | .text _, .array _ | .text _, .object _ | .array _, .null
  | .array _, .bool _ | .array _, .integer _ | .array _, .float _ | .array _, .text _ | .array _, .object _
  | .object _, .null | .object _, .bool _ | .object _, .integer _ | .object _, .float _ | .object _, .text _
  | .object _, .array _ => isFalse nofun
def decEqItems : (a b : List Json) → Decidable (a = b)
  | [], [] => isTrue rfl
  | a :: as, b :: bs =>
    @decidable_of_iff _ (a = b ∧ as = bs) (by simp) (@instDecidableAnd _ _ (decEq a b) (decEqItems as bs))
  | [], _ :: _ | _ :: _, [] => isFalse nofun
def decEqFields : (a b : List (String × Json)) → Decidable (a = b)
  | [], [] => isTrue rfl
  | (k, a) :: as, (l, b) :: bs =>
    @decidable_of_iff _ (k = l ∧ a = b ∧ as = bs) (by simp [and_assoc])
      (@instDecidableAnd _ _ (inferInstanceAs (Decidable (k = l)))
        (@instDecidableAnd _ _ (decEq a b) (decEqFields as bs)))
  | [], _ :: _ | _ :: _, [] => isFalse nofun
end

instance : DecidableEq Json := decEq

mutual
/-- Equality of content: the two zeros of floating point count as one number. -/
def alike : Json → Json → Bool
  | .float a, .float b => decide (a = b) || (a.isZero && b.isZero)
  | .array a, .array b => alikeItems a b
  | .object a, .object b => alikeFields a b
  | a, b => decide (a = b)
def alikeItems : List Json → List Json → Bool
  | [], [] => true
  | a :: as, b :: bs => alike a b && alikeItems as bs
  | _, _ => false
def alikeFields : List (String × Json) → List (String × Json) → Bool
  | [], [] => true
  | (k, a) :: as, (l, b) :: bs => decide (k = l) && alike a b && alikeFields as bs
  | _, _ => false
end

mutual
@[simp] theorem alike_self : (a : Json) → alike a a = true
  | .null | .bool _ | .integer _ | .float _ | .text _ => by simp [alike]
  | .array a => by simp [alike, alikeItems_self a]
  | .object a => by simp [alike, alikeFields_self a]
theorem alikeItems_self : (a : List Json) → alikeItems a a = true
  | [] => by simp [alikeItems]
  | a :: as => by simp [alikeItems, alike_self a, alikeItems_self as]
theorem alikeFields_self : (a : List (String × Json)) → alikeFields a a = true
  | [] => by simp [alikeFields]
  | (_, a) :: as => by simp [alikeFields, alike_self a, alikeFields_self as]
end

/-! ## Objects -/

/-- The object of some fields; of two fields of one name the later counts. -/
def ofFields (fields : List (String × Json)) : Json :=
  .object (fields.foldl (fun fs f => Table.place f.1 f.2 fs) [])

end Json

end TrialControl
